import RustScript.Proofs.Pipeline.Tasks

/-!
# What a call makes, apart from the times

How long a stage takes is not for the pipeline to decide. `timeless` takes the readings of the clock out
of records, projects and outputs, and leaves what else they say; whatever stages do to two of them
that are the same apart from the times leaves them so.
-/

set_option autoImplicit false

namespace RustScript

open RustScript.Progress

/-! ## Results -/

section

variable {ε α β : Type} {f : α → β} {result result' : Except ε α}

/-- Two results that are the same up to `f`: the same failure, or two such values. -/
theorem cases_of_map_eq (h : result.map f = result'.map f) :
    (∃ failure, result = .error failure ∧ result' = .error failure) ∨
      ∃ value value', result = .ok value ∧ result' = .ok value' ∧ f value = f value' := by
  cases result with
  | error failure =>
      cases result' with
      | error failure' => exact .inl ⟨failure, rfl, congrArg Except.error (Except.error.inj h).symm⟩
      | ok value' => cases h
  | ok value =>
      cases result' with
      | error failure' => cases h
      | ok value' => exact .inr ⟨value, value', rfl, rfl, Except.ok.inj h⟩

end

/-! ## Seconds -/

/-- There is a time or there is none. -/
def timed (seconds : Option Binary64) : Option Binary64 := seconds.map fun _ => .zero

namespace Entries

/-- The entries without the times. -/
def timeless (timings : Entries Binary64) : Entries Binary64 :=
  timings.map fun entry => (entry.1, .zero)

theorem timeless_put (timings : Entries Binary64) (key : String) (seconds : Binary64) :
    (timings.put key seconds).timeless = timings.timeless.put key .zero := by
  induction timings with
  | nil => rfl
  | cons entry rest ih =>
      have hcons : ∀ {α : Type} (first : String × α) (rest : Entries α) (value : α),
          put (first :: rest) key value =
            if first.1 == key then (first.1, value) :: rest else first :: put rest key value :=
        fun _ _ _ => rfl
      have htimeless : ∀ (first : String × Binary64) (rest : Entries Binary64),
          timeless (first :: rest) = (first.1, .zero) :: rest.timeless := fun _ _ => rfl
      rw [hcons, htimeless, hcons]
      dsimp only
      split
      · rfl
      · rw [htimeless, ih]

theorem timed_get? (timings : Entries Binary64) (key : String) :
    timed (timings.get? key) = timings.timeless.get? key := by
  induction timings with
  | nil => rfl
  | cons entry rest ih =>
      unfold get? timeless at ih ⊢
      rw [List.map_cons, List.find?_cons, List.find?_cons]
      cases entry.1 == key with
      | true => rfl
      | false => exact ih

end Entries

/-! ## Records -/

namespace Progress

/-- The record without the times. -/
def Record.timeless (record : Record) : Record :=
  { record with started := timed record.started, elapsed := timed record.elapsed }

section

variable {record record' : Record} (h : record.timeless = record'.timeless)

include h

theorem Record.timeless_finish (now now' : Binary64) (error : Option String) :
    (record.finish now error).timeless = (record'.finish now' error).timeless := by
  obtain ⟨hstage, -, hstarted, -, hdetail, -⟩ := Record.mk.inj h
  have helapsed : timed (record.started.map fun started => (now.sub started).roundThousandth) =
      timed (record'.started.map fun started => (now'.sub started).roundThousandth) := by
    unfold timed at hstarted ⊢
    rw [Option.map_map, Option.map_map]
    exact hstarted
  unfold Record.finish Record.timeless
  rw [hstage, hstarted, hdetail, helapsed]

theorem Record.timeless_detail (detail : String) :
    ({ record with detail } : Record).timeless = ({ record' with detail } : Record).timeless := by
  obtain ⟨hstage, hstatus, hstarted, helapsed, -, herror⟩ := Record.mk.inj h
  unfold Record.timeless
  rw [hstage, hstatus, hstarted, helapsed, herror]

end

/-- Changes that do the same to records apart from the times do the same to lists of records. -/
theorem timeless_modify {change change' : Record → Record}
    (hchange : ∀ record record', record.timeless = record'.timeless →
      (change record).timeless = (change' record').timeless) {records records' : List Record}
    (h : records.map Record.timeless = records'.map Record.timeless) (place : Nat) :
    (records.modify place change).map Record.timeless =
      (records'.modify place change').map Record.timeless := by
  induction records generalizing records' place with
  | nil =>
      obtain rfl := List.map_eq_nil_iff.mp h.symm
      cases place <;> rfl
  | cons record rest ih =>
      obtain ⟨record', rest', rfl, hrecord, hrest⟩ := List.map_eq_cons_iff.mp h.symm
      cases place with
      | zero =>
          show (change record).timeless :: rest.map _ = (change' record').timeless :: rest'.map _
          rw [hchange record record' hrecord.symm, hrest]
      | succ place =>
          show record.timeless :: (rest.modify place change).map _ =
            record'.timeless :: (rest'.modify place change').map _
          rw [hrecord, ih hrest.symm]

/-- The times of two records are there or not at once. -/
theorem timed_elapsed_getElem? {records records' : List Record}
    (h : records.map Record.timeless = records'.map Record.timeless) (place : Nat) :
    timed (records[place]? >>= Record.elapsed) = timed (records'[place]? >>= Record.elapsed) := by
  have hread : ∀ records : List Record, timed (records[place]? >>= Record.elapsed) =
      (records.map Record.timeless)[place]? >>= Record.elapsed := by
    intro records
    rw [List.getElem?_map]
    cases records[place]? <;> rfl
  rw [hread, hread, h]

end Progress

/-! ## Projects -/

namespace Project

/-- The project without the times. -/
def timeless (project : Project) : Project := { project with timings := project.timings.timeless }

section

variable {project project' : Project} (h : project.timeless = project'.timeless)

include h

theorem sharesScript_of_timeless : project'.SharesScript project := by
  obtain ⟨hstem, hname, hdirectory, -⟩ := Project.mk.inj h
  exact ⟨⟨hdirectory.symm, hstem.symm⟩, hname.symm⟩

theorem timeless_withTiming (stage : String) {elapsed elapsed' : Option Binary64}
    (helapsed : timed elapsed = timed elapsed') :
    (project.withTiming stage elapsed).timeless = (project'.withTiming stage elapsed').timeless := by
  cases elapsed with
  | none =>
      cases elapsed' with
      | none => exact h
      | some seconds => cases helapsed
  | some seconds =>
      cases elapsed' with
      | none => cases helapsed
      | some seconds' =>
          have hput : ∀ (project : Project) (seconds : Binary64),
              (project.withTiming stage (some seconds)).timeless =
                { project.timeless with timings := project.timeless.timings.put stage .zero } := by
            intro project seconds
            show { project with timings := (project.timings.put stage seconds).timeless } = _
            rw [Entries.timeless_put]
            rfl
          rw [hput, hput, h]

theorem timeless_markFailed (stage : String) :
    (project.markFailed stage).timeless = (project'.markFailed stage).timeless := by
  show { project.timeless with status := .failed, failedStage := some stage } = _
  rw [h]
  rfl

theorem timeless_cleaned : project.cleaned.timeless = project'.cleaned.timeless := by
  show { project.timeless with manifest := none, status := .init } = _
  rw [h]
  rfl

end

end Project

/-! ## Outputs and outcomes -/

namespace Pipeline

variable {α : Type}

/-- The output without the times. -/
def StageOutput.timeless (output : StageOutput) : StageOutput :=
  { output with elapsed := timed output.elapsed }

theorem StageOutput.timeless_ofCommand (stage : String) {project project' : Project}
    (h : project.timeless = project'.timeless) (output : Command.Output) :
    (ofCommand stage project output).timeless = (ofCommand stage project' output).timeless := by
  have htimings : project.timings.timeless = project'.timings.timeless :=
    congrArg Project.timings h
  unfold ofCommand timeless
  rw [Entries.timed_get?, Entries.timed_get?, htimings]

/-- The step without the times. -/
def Step.timeless (step : Step α) : Step α := { step with project := step.project.timeless }

/-- The outcome without the times. -/
def Outcome.timeless (outcome : Outcome) : Outcome where
  project := outcome.project.timeless
  metadata := outcome.metadata
  buildOutput := outcome.buildOutput.map StageOutput.timeless
  runOutput := outcome.runOutput.map StageOutput.timeless

/-- What a stage on a project comes to is the same apart from the times. -/
theorem timeless_conclude (stage : String) {project project' : Project}
    (h : project.timeless = project'.timeless) {elapsed elapsed' : Option Binary64}
    (helapsed : timed elapsed = timed elapsed') {result result' : Except Failure (Step α)}
    (hresult : result.map Step.timeless = result'.map Step.timeless) :
    (conclude stage project elapsed result).1.timeless =
        (conclude stage project' elapsed' result').1.timeless ∧
      (conclude stage project elapsed result).2 = (conclude stage project' elapsed' result').2 := by
  rcases cases_of_map_eq hresult with ⟨failure, rfl, rfl⟩ | ⟨step, step', rfl, rfl, hstep⟩
  · exact ⟨Project.timeless_markFailed (Project.timeless_withTiming h stage helapsed) stage, rfl⟩
  · obtain ⟨-, hproject, hvalue⟩ := Step.mk.inj hstep
    exact ⟨Project.timeless_withTiming hproject stage helapsed, congrArg Except.ok hvalue⟩

end Pipeline

end RustScript
