import RustScript.Pipeline.Whole
import RustScript.Proofs.Manifest.Answered
import RustScript.Proofs.Pipeline.Requests

/-!
# Calls as episodes

A call goes through the stages of its plan in order. What it did can be told as a list of episodes,
one for each stage that was reached: the record of the stage and the requests that were made while
the stage ran. `Follows` says which lists of episodes belong to a plan, with a failure or without:
stages that are not selected are skipped, and a failure ends the list. A stage contributes one
episode (`traces_inStage`, `traces_skip`), and plans are put one after the other (`traces_proceed`).
-/

set_option autoImplicit false

namespace RustScript

/-- Two projects are built in the same directory under the same name. -/
structure Project.SharesPlace (project other : Project) : Prop where
  directory : project.directory = other.directory
  stem : project.stem = other.stem

namespace Pipeline

open RustScript.Progress

variable {σ α β : Type}

/-! ## Plans and episodes -/

/-- A stage of a call, with the requests that were made while it ran. -/
structure Episode where
  record : Record
  requests : List Request

/-- A stage that a call has before it. -/
structure Planned where
  stage : String
  selected : Bool
  /-- What the stage may ask for, by the status that it ends with. -/
  allows : Status → List Request → Prop

/-- The episodes go through the plan in order up to the first failure, which `blame` puts down to
its stage. -/
inductive Follows (blame : String → Failure → Prop) :
    List Planned → Option Failure → List Episode → Prop
  | done : Follows blame [] none []
  | skipped {planned : Planned} {rest : List Planned} {failure : Option Failure}
      {episodes : List Episode} (selected : planned.selected = false)
      (h : Follows blame rest failure episodes) :
      Follows blame (planned :: rest) failure
        (⟨.skip planned.stage notRequested, []⟩ :: episodes)
  | completed {planned : Planned} {rest : List Planned} {failure : Option Failure}
      {episodes : List Episode} {episode : Episode} (selected : planned.selected = true)
      (ended : Ended planned.stage Failure.message (.ok ()) episode.record)
      (allowed : planned.allows .completed episode.requests)
      (h : Follows blame rest failure episodes) :
      Follows blame (planned :: rest) failure (episode :: episodes)
  | failed {planned : Planned} {rest : List Planned} {failure : Failure} {episode : Episode}
      (selected : planned.selected = true)
      (ended : Ended planned.stage Failure.message
        (.error failure : Except Failure Unit) episode.record)
      (allowed : planned.allows .failed episode.requests) (blamed : blame planned.stage failure) :
      Follows blame (planned :: rest) (some failure) [episode]

variable {blame : String → Failure → Prop}

theorem Follows.mono {blame' : String → Failure → Prop} {plan : List Planned}
    {failure : Option Failure} {episodes : List Episode} (h : Follows blame plan failure episodes)
    (hmono : ∀ stage failure, blame stage failure → blame' stage failure) :
    Follows blame' plan failure episodes := by
  induction h with
  | done => exact .done
  | skipped selected _ ih => exact .skipped selected ih
  | completed selected ended allowed _ ih => exact .completed selected ended allowed ih
  | failed selected ended allowed blamed =>
      exact .failed selected ended allowed (hmono _ _ blamed)

theorem Follows.append {plan plan' : List Planned} {failure : Option Failure}
    {episodes episodes' : List Episode} (h : Follows blame plan none episodes)
    (h' : Follows blame plan' failure episodes') :
    Follows blame (plan ++ plan') failure (episodes ++ episodes') := by
  generalize hnone : (none : Option Failure) = ended at h
  induction h with
  | done => exact h'
  | skipped selected _ ih => exact .skipped selected (ih hnone)
  | completed selected ended allowed _ ih => exact .completed selected ended allowed (ih hnone)
  | failed => cases hnone

theorem Follows.cut {plan : List Planned} (plan' : List Planned) {failure : Failure}
    {episodes : List Episode} (h : Follows blame plan (some failure) episodes) :
    Follows blame (plan ++ plan') (some failure) episodes := by
  generalize hsome : some failure = ended at h
  induction h with
  | done => cases hsome
  | skipped selected _ ih => exact .skipped selected (ih hsome)
  | completed selected ended allowed _ ih => exact .completed selected ended allowed (ih hsome)
  | failed selected ended allowed blamed =>
      exact .failed selected ended allowed blamed

/-- The last episode of a failure is one of a planned stage. -/
theorem Follows.last {plan : List Planned} {failure : Failure} {episodes : List Episode}
    (h : Follows blame plan (some failure) episodes) :
    ∃ last, episodes.getLast? = some last ∧ last.record.stage ∈ plan.map Planned.stage := by
  generalize hsome : some failure = ended at h
  induction h with
  | done => cases hsome
  | skipped _ _ ih =>
      obtain ⟨last, hlast, hstage⟩ := ih hsome
      exact ⟨last, by rw [List.getLast?_cons, hlast, Option.getD_some],
        List.mem_cons_of_mem _ hstage⟩
  | completed _ _ _ _ ih =>
      obtain ⟨last, hlast, hstage⟩ := ih hsome
      exact ⟨last, by rw [List.getLast?_cons, hlast, Option.getD_some],
        List.mem_cons_of_mem _ hstage⟩
  | @failed planned _ _ episode _ ended =>
      exact ⟨episode, rfl, by rw [ended.stage]; exact List.mem_cons_self⟩

/-- The failure of a call, if it failed. -/
def failureOf : Except Failure α → Option Failure
  | .ok _ => none
  | .error failure => some failure

/-- The action goes through a plan; what it gives when it succeeds has a property. -/
def Traces (blame : String → Failure → Prop) (plan : List Planned) (gives : α → Prop)
    (before : Tracker (Session σ)) (result : Except Failure α) (after : Tracker (Session σ))
    (asked : List Request) : Prop :=
  ∃ episodes : List Episode, after.records = before.records ++ episodes.map Episode.record ∧
    asked = episodes.flatMap Episode.requests ∧ Follows blame plan (failureOf result) episodes ∧
      ∀ value, result = .ok value → gives value

/-- Goes on with what an action gives, unless it failed. -/
def proceed {ε : Type} (action : Run σ (Except ε α)) (next : α → Run σ (Except ε β)) :
    Run σ (Except ε β) := do
  match ← action with
  | .error error => return .error error
  | .ok value => next value

theorem proceed_apply {ε : Type} (action : Run σ (Except ε α)) (next : α → Run σ (Except ε β))
    (tracker : Tracker (Session σ)) :
    proceed action next tracker = match (action tracker).1 with
      | .error error => (.error error, (action tracker).2)
      | .ok value => next value (action tracker).2 := by
  unfold proceed
  rw [Frame.stateBind_apply]
  cases (action tracker).1 <;> rfl

/-- **Plans one after the other**: the second one is begun only if the first one did not fail. -/
theorem traces_proceed {plan plan' : List Planned} {gives : α → Prop} {gives' : β → Prop}
    {first : Run σ (Except Failure α)} {first' : Run (List Request × σ) (Except Failure α)}
    {next : α → Run σ (Except Failure β)} {next' : α → Run (List Request × σ) (Except Failure β)}
    {tracker : Tracker (Session σ)} {before : List Request}
    (hfirst : MirrorsAt Tracker.keeping (Traces blame plan gives) first first' tracker before)
    (hnext : ∀ value, gives value → Notes (Traces blame plan' gives') (next value) (next' value)) :
    MirrorsAt Tracker.keeping (Traces blame (plan ++ plan') gives') (proceed first next)
      (proceed first' next') tracker before := by
  obtain ⟨early, hearly, episodes, hrecords, hasked, hfollows, hgives⟩ := hfirst
  unfold MirrorsAt
  rw [proceed_apply, proceed_apply, hearly]
  cases hresult : (first tracker).1 with
  | error failure =>
      rw [hresult] at hfollows
      exact ⟨early, rfl, episodes, hrecords, hasked, hfollows.cut plan', nofun⟩
  | ok value =>
      rw [hresult] at hfollows
      obtain ⟨late, hlate, others, hothers, hasked', hfollows', hgives'⟩ :=
        hnext value (hgives value hresult) (first tracker).2 (before ++ early)
      refine ⟨early ++ late, ?_, episodes ++ others, ?_, ?_, hfollows.append hfollows', hgives'⟩
      · rw [← List.append_assoc]
        exact hlate
      · rw [hothers, hrecords, List.map_append, List.append_assoc]
      · rw [hasked, hasked', List.flatMap_append]

/-- **A stage** goes through a plan of which it is the only one. -/
theorem traces_stage {planned : Planned} {gives : α → Prop} {action : Run σ (Except Failure α)}
    {noting : Run (List Request × σ) (Except Failure α)} (selected : planned.selected = true)
    (h : Notes (Adds fun result record asked =>
      Ended planned.stage Failure.message result record ∧
        planned.allows (statusOf result) asked ∧
        (∀ failure, result = .error failure → blame planned.stage failure) ∧
        ∀ value, result = .ok value → gives value) action noting) :
    Notes (Traces blame [planned] gives) action noting := by
  refine h.mono ?_
  rintro before result after asked ⟨record, hrecords, ended, allowed, blamed, given⟩
  refine ⟨[⟨record, asked⟩], hrecords, (List.append_nil asked).symm, ?_, given⟩
  cases result with
  | ok value => exact .completed selected ⟨ended.stage, ended.status, ended.error⟩ allowed .done
  | error failure =>
      exact .failed selected ⟨ended.stage, ended.status, ended.error⟩ allowed (blamed failure rfl)

/-- A stage that is not selected is skipped. -/
theorem traces_skip (planned : Planned) {gives : α → Prop} {value : α}
    (selected : planned.selected = false) (hvalue : gives value) :
    Notes (Traces blame [planned] gives)
      (do skip planned.stage notRequested; return .ok value : Run σ (Except Failure α))
      (do skip planned.stage notRequested; return .ok value) := by
  refine ((notes_skip planned.stage notRequested).bind fun _ => mirrors_return _).mono ?_
  rintro before _ after _ ⟨_, _, _, _, ⟨_, hrecords, rfl, rfl⟩, ⟨rfl, rfl, rfl⟩, rfl⟩
  refine ⟨[⟨.skip planned.stage notRequested, []⟩], hrecords, rfl, .skipped selected .done, ?_⟩
  intro given hgiven
  rw [← Except.ok.inj hgiven]
  exact hvalue

/-! ## Stages on projects -/

/-- What a stage on a project comes to, in terms of what its body gives. -/
def conclude (stage : String) (project : Project) (elapsed : Option Binary64) :
    Except Failure (Step α) → Project × Except Failure α
  | .ok step => (step.project.withTiming stage elapsed, .ok step.value)
  | .error failure => ((project.withTiming stage elapsed).markFailed stage, .error failure)

theorem inStage_apply (stage : String) (project : Project) (body : Run σ (Except Failure (Step α)))
    (tracker : Tracker (Session σ)) :
    inStage stage project body tracker =
      (conclude stage project
        ((recorded stage body tracker).2.records[tracker.records.length]? >>= Record.elapsed)
        (recorded stage body tracker).1, (recorded stage body tracker).2) := by
  unfold inStage
  rw [Frame.stateBind_apply, Frame.stateBind_apply, Frame.stateBind_apply]
  show (match (recorded stage body tracker).1 with
    | .ok step => _
    | .error failure => _ : Run σ _) _ = _
  cases (recorded stage body tracker).1 <;> rfl

/-- The record with a detail. -/
def setDetail (place : Nat) (detail : String) : Run σ Unit :=
  amend place fun record => { record with detail }

/-- The detail that a stage gives when it succeeds is all that its body changes in the records. -/
theorem notes_detailed {ε : Type} (place : Nat) (detail : α → String)
    {effect : Except ε α → List Request → Prop} {body : Run σ (Except ε α)}
    {body' : Run (List Request × σ) (Except ε α)} {next : Except ε α → Run σ (Except ε α)}
    {next' : Except ε α → Run (List Request × σ) (Except ε α)}
    (hbody : Notes (Leaves effect) body body')
    (herror : ∀ error, next (.error error) = pure (.error error) ∧
      next' (.error error) = pure (.error error))
    (hok : ∀ value,
      next (.ok value) = (do setDetail place (detail value); return .ok value) ∧
        next' (.ok value) = (do setDetail place (detail value); return .ok value)) :
    Notes (Amends place effect) (body >>= next) (body' >>= next') := by
  let gives (given : Except ε α) : Tracker (Session σ) → Except ε α → Tracker (Session σ) →
      List Request → Prop := fun before result after asked => result = given ∧ asked = [] ∧
    ∃ change : Record → Record, (∀ record, (change record).stage = record.stage) ∧
      after.records = before.records.modify place change
  have hnext : ∀ given, Notes (gives given) (next given) (next' given) := by
    intro given
    cases given with
    | error error =>
        rw [(herror error).1, (herror error).2]
        exact mirrors_pure fun tracker => ⟨rfl, rfl, id, fun _ => rfl, (List.modify_id ..).symm⟩
    | ok value =>
        rw [(hok value).1, (hok value).2]
        refine ((notes_amend place _).bind fun _ => mirrors_return _).mono ?_
        rintro before _ after _ ⟨_, _, _, _, ⟨hrecords, rfl⟩, ⟨rfl, rfl, rfl⟩, rfl⟩
        exact ⟨rfl, rfl, fun record => { record with detail := detail value }, fun _ => rfl,
          hrecords⟩
  refine (hbody.bind hnext).mono ?_
  rintro before _ after _ ⟨result, between, asked, _, ⟨hleft, heffect⟩,
    ⟨rfl, rfl, change, hchange, hrecords⟩, rfl⟩
  rw [hleft] at hrecords
  rw [List.append_nil]
  exact ⟨⟨change, hchange, hrecords⟩, heffect⟩

/-- **A stage on a project** adds one record, and asks for what its body asks for. -/
theorem notes_inStage (stage : String) (project : Project)
    {effect : Except Failure (Step α) → List Request → Prop}
    {body : Run σ (Except Failure (Step α))}
    {body' : Run (List Request × σ) (Except Failure (Step α))}
    (hbody : Notes (Leaves effect) body body') :
    Notes (Adds fun outcome record asked => Ended stage Failure.message outcome.2 record ∧
      ∃ elapsed result, outcome = conclude stage project elapsed result ∧ effect result asked)
      (inStage stage project body) (inStage stage project body') := by
  have hrecorded : Notes (Adds fun result record asked =>
      Ended stage Failure.message result record ∧ effect result asked)
      (recorded stage body) (recorded stage body') :=
    notes_track mirrors_now stage Failure.message fun place =>
      notes_detailed place Step.detail hbody (fun _ => ⟨rfl, rfl⟩) fun _ => ⟨rfl, rfl⟩
  intro tracker before
  obtain ⟨asked, hrun, record, hrecords, ended, heffect⟩ := hrecorded tracker before
  unfold MirrorsAt
  rw [inStage_apply, inStage_apply, hrun]
  refine ⟨asked, rfl, record, hrecords, ?_, _, (recorded stage body tracker).1, rfl, heffect⟩
  refine ⟨ended.stage, ?_, ?_⟩
  · rw [ended.status]
    cases (recorded stage body tracker).1 <;> rfl
  · rw [ended.error]
    cases (recorded stage body tracker).1 <;> rfl

theorem notes_about (stem : String) :
    Notes (Leaves fun _ asked => asked = []) (about stem : Run σ Unit) (about stem) := by
  intro tracker before
  refine ⟨[], ?_, rfl, rfl⟩
  rw [List.append_nil]
  rfl

/-- What the body of a planned stage on a project comes to, and what it asked for. -/
structure Worked (blame : String → Failure → Prop) (planned : Planned) (project : Project)
    (result : Except Failure (Step α)) (asked : List Request) : Prop where
  allowed : planned.allows (statusOf result) asked
  blamed : ∀ failure, result = .error failure → blame planned.stage failure
  place : ∀ step, result = .ok step → step.project.SharesPlace project

theorem Worked.of_error {planned : Planned} {project : Project} {failure : Failure}
    {asked : List Request} (hallowed : planned.allows .failed asked)
    (hblame : blame planned.stage failure) :
    Worked blame planned project (.error failure : Except Failure (Step α)) asked := by
  refine ⟨hallowed, fun other h => ?_, nofun⟩
  rw [← Except.error.inj h]
  exact hblame

theorem Worked.of_ok {planned : Planned} {project : Project} {step : Step α}
    {asked : List Request} (hallowed : planned.allows .completed asked)
    (hplace : step.project.SharesPlace project) :
    Worked blame planned project (.ok step) asked := by
  refine ⟨hallowed, nofun, fun other h => ?_⟩
  rw [← Except.ok.inj h]
  exact hplace

theorem sharesPlace_conclude {stage : String} {project other : Project} {elapsed : Option Binary64}
    {step : Step α} (hplace : step.project.SharesPlace other) :
    (conclude stage project elapsed (.ok step)).1.SharesPlace other := by
  cases elapsed <;> exact ⟨hplace.directory, hplace.stem⟩

/-- **A stage on a project**, in a call that has selected it; `enter` enters what the stage gives
into what the call has made. -/
theorem traces_inStage {planned : Planned} (selected : planned.selected = true)
    {project other : Project} {body : Run σ (Except Failure (Step α))}
    {body' : Run (List Request × σ) (Except Failure (Step α))}
    (hbody : Notes (Leaves (Worked blame planned other)) body body') {gives : β → Prop}
    (enter : Project → α → β)
    (henter : ∀ project value, project.SharesPlace other → gives (enter project value))
    (stem : String) :
    Notes (Traces blame [planned] gives)
      (do
        about stem
        let reached ← inStage planned.stage project body
        return reached.2.map (enter reached.1))
      (do
        about stem
        let reached ← inStage planned.stage project body'
        return reached.2.map (enter reached.1)) := by
  refine traces_stage selected (notes_adds_of_quiet (notes_about stem) fun _ =>
    (notes_adds_map (notes_inStage planned.stage project hbody)
      fun reached => reached.2.map (enter reached.1)).mono ?_)
  rintro before _ after asked ⟨record, hrecords, reached, ⟨ended, elapsed, result, rfl, hworked⟩,
    rfl⟩
  refine ⟨record, hrecords, ?_⟩
  obtain ⟨hstage, hstatus, herror⟩ := ended
  obtain ⟨hallowed, hblamed, hplace⟩ := hworked
  cases result with
  | error failure =>
      refine ⟨⟨hstage, hstatus, herror⟩, hallowed, fun other h => ?_, nofun⟩
      rw [← Except.error.inj h]
      exact hblamed failure rfl
  | ok step =>
      refine ⟨⟨hstage, hstatus, herror⟩, hallowed, nofun, fun value h => ?_⟩
      rw [← Except.ok.inj h]
      exact henter _ _ (sharesPlace_conclude (hplace step rfl))

end Pipeline

end RustScript
