import RustScript.Proofs.Pipeline.Resumed

/-!
# Handing over from call to call

The stages of a script can be cut into groups that are run by a call each, one after the other
(`Script.callEach`). A call of some stages notes that the others are left out, and the next call
takes up what the generation left (`Between.handOver`). So beside the run of one call of all stages
there is always one of the several calls: between two stages of the one call they are between two
calls (`Between`) or within one (`Within`), and building and running leads from there to the same
(`Within.build`, `Within.run`).
-/

set_option autoImplicit false

namespace RustScript.Pipeline

open RustScript.Progress

variable {σ κ : Type} {pipeline : Pipeline σ} {logs : Option Path}

/-! ## Cutting the stages into groups -/

/-- A stage that a call can be asked for. -/
inductive Stage
  | generate
  | build
  | run
  deriving DecidableEq, Repr

/-- The selection of some stages. -/
def Selection.ofStages (stages : List Stage) : Selection :=
  ⟨stages.contains .generate, stages.contains .build, stages.contains .run⟩

/-- The groups are all stages in order, cut into parts of which none is empty. -/
structure Cut (groups : List (List Stage)) : Prop where
  stages : groups.flatten = [.generate, .build, .run]
  nonempty : [] ∉ groups

section

variable {α : Type} {group : List α} {others : List (List α)} {first : α} {rest : List α}

theorem cut_nil (h : (group :: others).flatten = []) (hothers : [] ∉ others) :
    group = [] ∧ others = [] := by
  obtain ⟨rfl, hrest⟩ := List.append_eq_nil_iff.mp (List.flatten_cons ▸ h)
  cases others with
  | nil => exact ⟨rfl, rfl⟩
  | cons other others =>
      obtain ⟨rfl, -⟩ := List.append_eq_nil_iff.mp (List.flatten_cons ▸ hrest)
      exact absurd List.mem_cons_self hothers

/-- The next stage is in the group at hand, or begins another one. -/
theorem cut_cons (h : (group :: others).flatten = first :: rest) (hothers : [] ∉ others) :
    (∃ more, group = first :: more ∧ (more :: others).flatten = rest) ∨
      ∃ next later, group = [] ∧ others = (first :: next) :: later ∧
        (next :: later).flatten = rest ∧ [] ∉ later := by
  cases group with
  | cons stage more =>
      obtain ⟨rfl, hrest⟩ := List.cons.inj h
      exact .inl ⟨more, rfl, hrest⟩
  | nil =>
      cases others with
      | nil => cases h
      | cons other later =>
          cases other with
          | nil => exact absurd List.mem_cons_self hothers
          | cons stage next =>
              obtain ⟨rfl, hrest⟩ := List.cons.inj h
              exact .inr ⟨next, later, rfl, rfl, hrest,
                fun hmem => hothers (List.mem_cons_of_mem _ hmem)⟩

end

/-- The ways to cut the three stages. -/
theorem Cut.cases {groups : List (List Stage)} (h : Cut groups) :
    groups = [[.generate, .build, .run]] ∨ groups = [[.generate, .build], [.run]] ∨
      groups = [[.generate], [.build, .run]] ∨ groups = [[.generate], [.build], [.run]] := by
  -- with an empty group in front, every stage is asked the same question
  have hempty : ([] :: groups).flatten = [.generate, .build, .run] := h.stages
  obtain ⟨_, hnil, -⟩ | ⟨_, _, -, rfl, hgenerated, hothers⟩ := cut_cons hempty h.nonempty
  · cases hnil
  obtain ⟨_, rfl, hbuilt⟩ | ⟨_, _, rfl, rfl, hbuilt, hlater⟩ := cut_cons hgenerated hothers
  · obtain ⟨_, rfl, hran⟩ | ⟨_, _, rfl, rfl, hran, hlast⟩ := cut_cons hbuilt hothers
    · obtain ⟨rfl, rfl⟩ := cut_nil hran hothers
      exact .inl rfl
    · obtain ⟨rfl, rfl⟩ := cut_nil hran hlast
      exact .inr (.inl rfl)
  · obtain ⟨_, rfl, hran⟩ | ⟨_, _, rfl, rfl, hran, hlast⟩ := cut_cons hbuilt hlater
    · obtain ⟨rfl, rfl⟩ := cut_nil hran hlater
      exact .inr (.inr (.inl rfl))
    · obtain ⟨rfl, rfl⟩ := cut_nil hran hlast
      exact .inr (.inr (.inr rfl))

/-! ## Several calls -/

/-- Calls one after the other, each for a group of stages, until one fails. -/
def Script.callEach (pipeline : Pipeline σ) (script : Script) (args : List String)
    (capture : Bool) : List (List Stage) → Run σ (Except Failure (List Outcome))
  | [] => return .ok []
  | group :: later => proceed (script.call pipeline (.ofStages group) args capture) fun outcome =>
      return (← script.callEach pipeline args capture later).map (outcome :: ·)

/-- The rest of a call that has begun, and the calls after it. -/
def Script.goOn (pipeline : Pipeline σ) (script : Script) (args : List String) (capture : Bool)
    (selection : Selection) (later : List (List Stage)) (outcome : Outcome) :
    Run σ (Except Failure (List Outcome)) :=
  proceed (pipeline.buildAndRun selection args capture outcome) fun made =>
    return (← script.callEach pipeline args capture later).map (made :: ·)

/-- The analysis and the generation that begin a call. -/
def Script.entering (pipeline : Pipeline σ) (script : Script) : Run σ (Except Failure Outcome) :=
  proceed (script.analysis pipeline) fun metadata =>
    pipeline.generateFrom script.stem script.source? (.ok metadata)

theorem proceed_assoc {ε α β γ : Type} (action : Run σ (Except ε α))
    (next : α → Run σ (Except ε β)) (last : β → Run σ (Except ε γ)) :
    proceed (proceed action next) last = proceed action fun value => proceed (next value) last := by
  funext tracker
  simp only [proceed_apply]
  cases (action tracker).1 <;> rfl

section

variable (pipeline) (script : Script) {group : List Stage} (args : List String) (capture : Bool)
  (later : List (List Stage)) (tracker : Tracker (Session σ))

theorem Script.call_of_generate {selection : Selection} (h : selection.generate = true) :
    script.call pipeline selection args capture tracker =
      proceed (script.entering pipeline) (pipeline.buildAndRun selection args capture)
        (pipeline.renew tracker).2 := by
  rw [Script.call_eq pipeline script h]
  rfl

theorem Script.callEach_of_generate (h : (Selection.ofStages group).generate = true) :
    script.callEach pipeline args capture (group :: later) tracker =
      proceed (script.entering pipeline)
        (script.goOn pipeline args capture (.ofStages group) later) (pipeline.renew tracker).2 := by
  unfold Script.callEach Script.goOn
  rw [← proceed_assoc, proceed_apply, proceed_apply, script.call_of_generate pipeline args capture
    tracker h]

theorem Script.callEach_of_resume (h : (Selection.ofStages group).generate = false) :
    script.callEach pipeline args capture (group :: later) tracker =
      proceed (pipeline.resume script.stem script.source?)
        (script.goOn pipeline args capture (.ofStages group) later)
        (script.beginning pipeline tracker).2 := by
  unfold Script.callEach Script.goOn
  rw [← proceed_assoc, proceed_apply, proceed_apply, script.call_of_resume h]

end

/-! ## What one call and several calls make -/

/-- The output without the time that the stage took. -/
def StageOutput.untimed (output : StageOutput) : StageOutput := { output with elapsed := none }

/-- Together the outcomes `made` have the outputs of `outcome`, up to the times. -/
structure Gives (outcome : Outcome) (made : List Outcome) : Prop where
  build : (made.filterMap Outcome.buildOutput).map StageOutput.untimed =
    outcome.buildOutput.toList.map StageOutput.untimed
  run : (made.filterMap Outcome.runOutput).map StageOutput.untimed =
    outcome.runOutput.toList.map StageOutput.untimed

/-- One call and several calls have failed in the same way, or they have given the same outputs and
ended with manifests that mean the same. Calls before the several ones have made `made`. -/
inductive Meets (made : List Outcome) : Except Failure Outcome → Except Failure (List Outcome) → Prop
  | failed (failure : Failure) : Meets made (.error failure) (.error failure)
  | done {outcome last : Outcome} {outcomes : List Outcome} {manifest found : Manifest} :
      Gives outcome (made ++ outcomes) → outcomes.getLast? = some last →
      outcome.project.manifest = some manifest → last.project.manifest = some found →
      manifest.same found = true → Meets made (.ok outcome) (.ok outcomes)

theorem Meets.cons {made : List Outcome} {other : Outcome} {one : Except Failure Outcome}
    {several : Except Failure (List Outcome)} (h : Meets (made ++ [other]) one several) :
    Meets made one (several.map (other :: ·)) := by
  cases h with
  | failed failure => exact .failed failure
  | done hgives hlast hmanifest hfound hsame =>
      refine .done ?_ ?_ hmanifest hfound hsame
      · rw [List.append_cons]
        exact hgives
      · rw [List.getLast?_cons, hlast]
        rfl

section

variable {outcome other : Outcome} {made : List Outcome}

/-- A call that has given nothing adds nothing. -/
theorem Gives.concat (h : Gives outcome made) (hbuild : other.buildOutput = none)
    (hrun : other.runOutput = none) : Gives outcome (made ++ [other]) := by
  constructor
  · rw [List.filterMap_append, List.filterMap_cons_none hbuild, List.filterMap_nil, List.append_nil]
    exact h.build
  · rw [List.filterMap_append, List.filterMap_cons_none hrun, List.filterMap_nil, List.append_nil]
    exact h.run

variable (h : Gives outcome (made ++ [other])) (later later' : Project) (output : Command.Output)

include h

theorem Gives.built (hnew : outcome.buildOutput = none) :
    Gives (outcome.built later output) (made ++ [other.built later' output]) := by
  -- no call so far has built, so the output is the only one
  have hnone := h.build
  rw [hnew, List.filterMap_append, List.map_append] at hnone
  obtain ⟨hmade, -⟩ := List.append_eq_nil_iff.mp hnone
  refine ⟨?_, ?_⟩
  · rw [List.filterMap_append, List.map_append, hmade]
    rfl
  · have hrun := h.run
    rw [List.filterMap_append] at hrun ⊢
    exact hrun

theorem Gives.ran (hnew : outcome.runOutput = none) :
    Gives (outcome.ran later output) (made ++ [other.ran later' output]) := by
  have hnone := h.run
  rw [hnew, List.filterMap_append, List.map_append] at hnone
  obtain ⟨hmade, -⟩ := List.append_eq_nil_iff.mp hnone
  refine ⟨?_, ?_⟩
  · have hbuild := h.build
    rw [List.filterMap_append] at hbuild ⊢
    exact hbuild
  · rw [List.filterMap_append, List.map_append, hmade]
    rfl

end

/-! ## The two runs between stages -/

/-- The text is read as a manifest that means the same as `manifest`. -/
structure Tells (text : String) (manifest : Manifest) : Prop where
  stays : textOfBytes (Utf8.encode text) = .ok text
  read : ∃ found, Manifest.read text = .ok found ∧ manifest.same found = true

/-- One call is between two stages and several calls are between two calls: the runs are side by
side, and the several calls have made what the one call has made so far. -/
structure Between (pipeline : Pipeline σ) (logs : Option Path) (here : Place) (seen : σ → κ)
    (script : Script) (manifest : Manifest) (outcome : Outcome) (made : List Outcome)
    (first second : Tracker (Session σ)) : Prop where
  parallel : pipeline.Parallel logs here seen script.stem first second
  noted : LogsNoted logs script.stem second.state.world.files
  place : outcome.project.SharesScript (pipeline.newProject script.stem script.source?)
  described : outcome.project.manifest = some manifest
  gives : Gives outcome made

/-- The same, when the last of the several calls has not come to its end and has made `other`. -/
structure Within (pipeline : Pipeline σ) (logs : Option Path) (here : Place) (seen : σ → κ)
    (script : Script) (manifest : Manifest) (outcome : Outcome) (made : List Outcome)
    (other : Outcome) (first second : Tracker (Session σ)) : Prop extends
    Between pipeline logs here seen script manifest outcome (made ++ [other]) first second where
  place' : other.project.SharesScript (pipeline.newProject script.stem script.source?)
  described' : ∃ found, other.project.manifest = some found ∧ manifest.same found = true

/-- One call and several calls have met at their ends: they have made the same and left the same,
but for what the journal of the script `stem` holds. -/
structure Ends (logs : Option Path) (here : Place) (seen : σ → κ) (stem : String)
    (made : List Outcome) (one : Except Failure Outcome × Tracker (Session σ))
    (several : Except Failure (List Outcome) × Tracker (Session σ)) : Prop where
  meets : Meets made one.1 several.1
  similar : FileSystem.Similar here (JournalAt here logs stem) one.2.state.world.files
    several.2.state.world.files
  outside : seen several.2.state.world.outside = seen one.2.state.world.outside

theorem Ends.cons {here : Place} {seen : σ → κ} {stem : String} {made : List Outcome}
    {other : Outcome} {one : Except Failure Outcome × Tracker (Session σ)}
    {several : Except Failure (List Outcome) × Tracker (Session σ)}
    (h : Ends logs here seen stem (made ++ [other]) one several) :
    Ends logs here seen stem made one (several.1.map (other :: ·), several.2) :=
  ⟨h.meets.cons, h.similar, h.outside⟩

theorem Parallel.ends {here : Place} {seen : σ → κ} {stem : String}
    {first second : Tracker (Session σ)}
    (h : pipeline.Parallel logs here seen stem first second) {made : List Outcome}
    {one : Except Failure Outcome} {several : Except Failure (List Outcome)}
    (hmeets : Meets made one several) :
    Ends logs here seen stem made (one, first) (several, second) :=
  ⟨hmeets, h.similar, h.outside⟩

section

variable (hlogs : pipeline.WritesOnlyLogs logs) {here : Place} {seen : σ → κ} {script : Script}
  {manifest : Manifest} {outcome other : Outcome} {made : List Outcome}
  {first second : Tracker (Session σ)}

include hlogs

theorem Between.skip
    (h : Between pipeline logs here seen script manifest outcome made first second)
    (stage reason : String) :
    Between pipeline logs here seen script manifest outcome made first
      (skip stage reason second).2 := by
  obtain ⟨hparallel, hnoted⟩ := h.parallel.skip hlogs h.noted stage reason
  exact { h with parallel := hparallel, noted := hnoted }

theorem Within.skip
    (h : Within pipeline logs here seen script manifest outcome made other first second)
    (stage reason : String) :
    Within pipeline logs here seen script manifest outcome made other first
      (skip stage reason second).2 :=
  ⟨h.toBetween.skip hlogs stage reason, h.place', h.described'⟩

omit hlogs in
/-- The next call begins. -/
theorem Between.beginning
    (h : Between pipeline logs here seen script manifest outcome made first second) :
    Between pipeline logs here seen script manifest outcome made first
      (script.beginning pipeline second).2 := by
  rw [script.beginning_of_subject h.parallel.reports'.subject]
  exact { h with
    parallel := ⟨h.parallel.similar, h.parallel.outside, h.parallel.reports,
      ⟨rfl, h.parallel.reports'.subject⟩⟩ }

variable {text : String} (htells : Tells text manifest)

include htells

/-- **Handing over.** A call that does not generate takes up what the calls before it have left. -/
theorem Between.handOver
    (h : Between pipeline logs here seen script manifest outcome made first second)
    (hholds : HoldsManifest (pipeline.newProject script.stem script.source?) text
      second.state.world.files) {group : List Stage}
    (hgroup : (Selection.ofStages group).generate = false) (args : List String) (capture : Bool)
    (later : List (List Stage)) :
    ∃ left next, script.callEach pipeline args capture (group :: later) second =
        script.goOn pipeline args capture (.ofStages group) later left next ∧
      Within pipeline logs here seen script manifest outcome made left first next ∧
      HoldsManifest (pipeline.newProject script.stem script.source?) text next.state.world.files := by
  obtain ⟨found, hread, hsame⟩ := htells.read
  have hbegun := h.beginning
  have hkept : HoldsManifest (pipeline.newProject script.stem script.source?) text
      (script.beginning pipeline second).2.state.world.files := by
    rw [script.beginning_of_subject h.parallel.reports'.subject]
    exact hholds
  refine ⟨pipeline.leftOutcome script.stem script.source? found,
    (Progress.skip "generate" notRequested (script.beginning pipeline second).2).2, ?_, ?_, ?_⟩
  · rw [script.callEach_of_resume pipeline args capture later second hgroup, proceed_apply,
      resume_of_holds hlogs htells.stays hread hbegun.parallel.reports' hkept]
  · have hskipped := hbegun.skip hlogs "generate" notRequested
    exact ⟨{ hskipped with gives := hskipped.gives.concat rfl rfl }, ⟨⟨rfl, rfl⟩, rfl⟩, found, rfl,
      hsame⟩
  · exact hkept.notes hlogs (onlyNotes_skip pipeline script.stem "generate" notRequested)
      hbegun.parallel.reports'

end

/-! ## Building and running in both runs -/

section

variable (hlogs : pipeline.WritesOnlyLogs logs) {here : Place} {seen : σ → κ} {script : Script}
  (hoverlooks : pipeline.runner.Overlooks here (JournalAt here logs script.stem))
  (hshows : pipeline.runner.Shows seen)
  {manifest : Manifest} {outcome other : Outcome} {made : List Outcome}
  {first second : Tracker (Session σ)}
  (h : Within pipeline logs here seen script manifest outcome made other first second)

include hlogs hoverlooks hshows h

/-- **Building** fails in both runs in the same way, or leads from between two stages to between two
stages. -/
theorem Within.build (hnew : outcome.buildOutput = none) :
    (∃ failure, (pipeline.buildIf true outcome first).1 = .error failure ∧
      (pipeline.buildIf true other second).1 = .error failure ∧
      pipeline.Parallel logs here seen script.stem (pipeline.buildIf true outcome first).2
        (pipeline.buildIf true other second).2) ∨
    ∃ built built', (pipeline.buildIf true outcome first).1 = .ok built ∧
      (pipeline.buildIf true other second).1 = .ok built' ∧
      built.runOutput = outcome.runOutput ∧
      Within pipeline logs here seen script manifest built made built'
        (pipeline.buildIf true outcome first).2 (pipeline.buildIf true other second).2 := by
  obtain ⟨hcall, hparallel, hnoted⟩ := parallel_build hlogs hoverlooks hshows h.parallel
    h.place.stem (h.place'.trans h.place.symm)
  rcases hcall with ⟨failure, hfirst, hsecond⟩ |
    ⟨project, project', output, hfirst, hsecond, hproject, hproject'⟩
  · exact .inl ⟨failure, hfirst, hsecond, hparallel⟩
  · obtain ⟨found, hfound, hsame⟩ := h.described'
    refine .inr ⟨_, _, hfirst, hsecond, rfl, ⟨hparallel, hnoted, hproject.script.trans h.place,
      hproject.manifest.trans h.described, h.gives.built project project' output hnew⟩,
      hproject'.script.trans h.place', found, hproject'.manifest.trans hfound, hsame⟩

/-- **Running** is the end of both runs. -/
theorem Within.run (hnew : outcome.runOutput = none) (args : List String) (capture : Bool) :
    Ends logs here seen script.stem made (pipeline.runIf true args capture outcome first)
      ((pipeline.runIf true args capture other second).1.map fun last => [last],
        (pipeline.runIf true args capture other second).2) := by
  obtain ⟨hcall, hparallel, -⟩ := parallel_run hlogs hoverlooks hshows h.parallel
    h.place.stem (h.place'.trans h.place.symm) args capture
  have hmeets : Meets made (pipeline.runIf true args capture outcome first).1
      ((pipeline.runIf true args capture other second).1.map fun last => [last]) := by
    rcases hcall with ⟨failure, hfirst, hsecond⟩ |
      ⟨project, project', output, hfirst, hsecond, hproject, hproject'⟩
    · rw [hfirst, hsecond]
      exact .failed failure
    · obtain ⟨found, hfound, hsame⟩ := h.described'
      rw [hfirst, hsecond]
      exact .done (h.gives.ran project project' output hnew) rfl
        (hproject.manifest.trans h.described) (hproject'.manifest.trans hfound) hsame
  exact ⟨hmeets, hparallel.similar, hparallel.outside⟩

end

/-! ## The rest of a call -/

theorem Script.goOn_apply (pipeline : Pipeline σ) (script : Script) (args : List String)
    (capture : Bool) (selection : Selection) (later : List (List Stage)) (outcome : Outcome)
    (tracker : Tracker (Session σ)) :
    script.goOn pipeline args capture selection later outcome tracker =
      proceed (pipeline.buildIf selection.build outcome) (fun built =>
        proceed (pipeline.runIf selection.run args capture built) fun made =>
          return (← script.callEach pipeline args capture later).map (made :: ·)) tracker := by
  unfold Script.goOn
  rw [buildAndRun_eq, proceed_assoc]

/-- No call follows the last one. -/
theorem Script.proceed_callEach_nil (pipeline : Pipeline σ) (script : Script) (args : List String)
    (capture : Bool) (action : Run σ (Except Failure Outcome)) (tracker : Tracker (Session σ)) :
    proceed action (fun made =>
        return (← script.callEach pipeline args capture []).map (made :: ·)) tracker =
      ((action tracker).1.map fun last => [last], (action tracker).2) := by
  rw [proceed_apply]
  cases (action tracker).1 <;> rfl

section

variable (hlogs : pipeline.WritesOnlyLogs logs) {here : Place} {seen : σ → κ} {script : Script}
  (hoverlooks : pipeline.runner.Overlooks here (JournalAt here logs script.stem))
  (hshows : pipeline.runner.Shows seen)
  {manifest : Manifest} {outcome other : Outcome} {made : List Outcome}
  {first second : Tracker (Session σ)}

include hlogs hoverlooks hshows

/-- Both runs build and run. -/
theorem Within.goOn_build_run
    (h : Within pipeline logs here seen script manifest outcome made other first second)
    (hbuild : outcome.buildOutput = none) (hrun : outcome.runOutput = none)
    {selection : Selection} (hselected : selection.build = true) (hlast : selection.run = true)
    (args : List String) (capture : Bool) :
    Ends logs here seen script.stem made
      (pipeline.buildAndRun .all args capture outcome first)
      (script.goOn pipeline args capture selection [] other second) := by
  rw [buildAndRun_eq, Script.goOn_apply, proceed_apply, proceed_apply, hselected, hlast]
  rcases h.build hlogs hoverlooks hshows hbuild with
    ⟨failure, hfirst, hsecond, hparallel⟩ | ⟨built, built', hfirst, hsecond, houtput, hbuilt⟩
  · rw [show (pipeline.buildIf Selection.all.build outcome first).1 = .error failure from hfirst,
      hsecond]
    exact hparallel.ends (.failed failure)
  · rw [show (pipeline.buildIf Selection.all.build outcome first).1 = .ok built from hfirst, hsecond]
    dsimp only
    rw [Script.proceed_callEach_nil]
    exact hbuilt.run hlogs hoverlooks hshows (houtput.trans hrun) args capture

variable {text : String} (htells : Tells text manifest)

include htells

/-- The run in which nothing is left but running takes a further call for it. -/
theorem Between.run_apart
    (h : Between pipeline logs here seen script manifest outcome made first second)
    (hholds : HoldsManifest (pipeline.newProject script.stem script.source?) text
      second.state.world.files)
    (hrun : outcome.runOutput = none) (args : List String) (capture : Bool) :
    Ends logs here seen script.stem made (pipeline.runIf true args capture outcome first)
      (script.callEach pipeline args capture [[.run]] second) := by
  obtain ⟨left, next, hcall, hwithin, -⟩ :=
    h.handOver hlogs htells hholds (show (Selection.ofStages [.run]).generate = false from rfl) args
      capture []
  -- the further call leaves building out, which the one call does not note
  have hskipped := hwithin.skip hlogs "build" notRequested
  rw [hcall, Script.goOn_apply]
  show Ends logs here seen script.stem made _
    (proceed (pipeline.runIf true args capture left) (fun made =>
      return (← script.callEach pipeline args capture []).map (made :: ·))
        (Progress.skip "build" notRequested next).2)
  rw [Script.proceed_callEach_nil]
  exact hskipped.run hlogs hoverlooks hshows hrun args capture

/-- Both runs build, and the second one runs in a further call. -/
theorem Within.goOn_build
    (h : Within pipeline logs here seen script manifest outcome made other first second)
    (hholds : HoldsManifest (pipeline.newProject script.stem script.source?) text
      second.state.world.files)
    (hkeeps : pipeline.KeepsManifest (pipeline.newProject script.stem script.source?))
    (hbuild : outcome.buildOutput = none) (hrun : outcome.runOutput = none)
    {selection : Selection} (hselected : selection.build = true) (hlast : selection.run = false)
    (args : List String) (capture : Bool) :
    Ends logs here seen script.stem made
      (pipeline.buildAndRun .all args capture outcome first)
      (script.goOn pipeline args capture selection [[.run]] other second) := by
  have hkept := hholds.build hlogs hkeeps h.place'.toSharesPlace h.parallel.reports'.listeners
  rw [buildAndRun_eq, Script.goOn_apply, proceed_apply, proceed_apply, hselected, hlast]
  rcases h.build hlogs hoverlooks hshows hbuild with
    ⟨failure, hfirst, hsecond, hparallel⟩ | ⟨built, built', hfirst, hsecond, houtput, hbuilt⟩
  · rw [show (pipeline.buildIf Selection.all.build outcome first).1 = .error failure from hfirst,
      hsecond]
    exact hparallel.ends (.failed failure)
  · rw [show (pipeline.buildIf Selection.all.build outcome first).1 = .ok built from hfirst, hsecond]
    have hskipped := hbuilt.toBetween.skip hlogs "run" notRequested
    have hfound := hkept.notes hlogs (onlyNotes_skip pipeline script.stem "run" notRequested)
      hbuilt.parallel.reports'
    exact (hskipped.run_apart hlogs hoverlooks hshows htells hfound (houtput.trans hrun) args
      capture).cons

omit hoverlooks hshows in
/-- The call of the second run is at its end, and a further one builds. -/
theorem Within.goOn_later
    (h : Within pipeline logs here seen script manifest outcome made other first second)
    (hholds : HoldsManifest (pipeline.newProject script.stem script.source?) text
      second.state.world.files) {selection : Selection} (hbuild : selection.build = false)
    (hrun : selection.run = false) {group : List Stage}
    (hgroup : (Selection.ofStages group).generate = false) (args : List String) (capture : Bool)
    (later : List (List Stage)) {one : Except Failure Outcome × Tracker (Session σ)}
    (hends : ∀ left next,
      Within pipeline logs here seen script manifest outcome (made ++ [other]) left first next →
      HoldsManifest (pipeline.newProject script.stem script.source?) text next.state.world.files →
      Ends logs here seen script.stem (made ++ [other]) one
        (script.goOn pipeline args capture (.ofStages group) later left next)) :
    Ends logs here seen script.stem made one
      (script.goOn pipeline args capture selection (group :: later) other second) := by
  -- the call at hand leaves both stages out before it ends
  have hskipped := (h.toBetween.skip hlogs "build" notRequested).skip hlogs "run" notRequested
  have hkept := (hholds.notes hlogs (onlyNotes_skip pipeline script.stem "build" notRequested)
    h.parallel.reports').notes hlogs (onlyNotes_skip pipeline script.stem "run" notRequested)
      (h.toBetween.skip hlogs "build" notRequested).parallel.reports'
  obtain ⟨left, next, hcall, hwithin, hfound⟩ :=
    hskipped.handOver hlogs htells hkept hgroup args capture later
  rw [Script.goOn_apply, hbuild, hrun]
  exact (hcall ▸ hends left next hwithin hfound).cons

end

end RustScript.Pipeline
