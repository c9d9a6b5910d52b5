import RustScript.Proofs.Pipeline.Again
import RustScript.Proofs.Pipeline.Completed
import RustScript.Proofs.Progress.Tracker

/-!
# Stages that are timed

A stage adds one record, in which it is noted how long the stage took when it ends, well or not. The
project gets the same seconds (`times_inStage`), and so does the output of a stage that ran a command
(`timesOutput_build`, `timesOutput_run`).
-/

set_option autoImplicit false

namespace RustScript.Pipeline

open RustScript.Progress

variable {σ α : Type}

/-! ## Stages -/

/-- One record is added, which says how the stage ended and how many seconds it took. -/
def Times (stage : String) (result : Except Failure α) (seconds : Binary64)
    (before after : List Record) : Prop :=
  ∃ record, after = before ++ [record] ∧ Ended stage Failure.message result record ∧
    record.elapsed = some seconds

/-- A tracked stage is timed, if its body says no more about its record than a detail. -/
theorem times_track (stage : String) (body : Nat → Run σ (Except Failure α))
    (tracker : Tracker (Session σ)) {detail : String}
    (hbody : (body tracker.records.length (tracker.begun now stage)).2.records =
      tracker.records ++ [{ Record.begin stage (now tracker.state).1 with detail }]) :
    (track now stage Failure.message body tracker).1 =
        (body tracker.records.length (tracker.begun now stage)).1 ∧
      ∃ seconds, Times stage (track now stage Failure.message body tracker).1 seconds
        tracker.records (track now stage Failure.message body tracker).2.records := by
  set result := (body tracker.records.length (tracker.begun now stage)).1
  set worked := (body tracker.records.length (tracker.begun now stage)).2
  set record : Record := { Record.begin stage (now tracker.state).1 with detail }
  have hfound : worked.records[tracker.records.length]? = some record := by
    rw [hbody]
    exact List.getElem?_concat_length
  have htrack : track now stage Failure.message body tracker =
      (result, (finish now tracker.records.length (errorOf Failure.message result) worked).2) := rfl
  rw [htrack, finish_of_found now (errorOf Failure.message result) worked hfound]
  refine ⟨rfl, ((now worked.state).1.sub (now tracker.state).1).roundThousandth,
    record.finish (now worked.state).1 (errorOf Failure.message result), ?_, ⟨rfl, ?_, rfl⟩, rfl⟩
  · show worked.records.modify _ _ = _
    rw [hbody, modify_last]
  · show (record.finish _ (errorOf Failure.message result)).status = statusOf result
    cases result <;> rfl

/-- The action, and then the detail that the record gets if it succeeds. -/
def detailed (action : Run σ (Except Failure α)) (detail : α → String) (place : Nat) :
    Run σ (Except Failure α) := do
  let result ← action
  if let .ok value := result then
    amend place fun record => { record with detail := detail value }
  return result

theorem times_detailed {action : Run σ (Except Failure α)} (h : (bodyFrame σ).Keeps action)
    (stage : String) (detail : α → String) (tracker : Tracker (Session σ)) :
    (track now stage Failure.message (detailed action detail) tracker).1 =
        (action (tracker.begun now stage)).1 ∧
      ∃ seconds, Times stage (track now stage Failure.message (detailed action detail) tracker).1
        seconds tracker.records
        (track now stage Failure.message (detailed action detail) tracker).2.records := by
  have hworked : (action (tracker.begun now stage)).2.records =
      tracker.records ++ [.begin stage (now tracker.state).1] := (h (tracker.begun now stage)).2.1
  have hresult : (detailed action detail tracker.records.length (tracker.begun now stage)).1 =
      (action (tracker.begun now stage)).1 := by
    unfold detailed
    rw [Frame.stateBind_apply]
    cases (action (tracker.begun now stage)).1 <;> rfl
  have hrecords : ∃ said, (detailed action detail tracker.records.length
      (tracker.begun now stage)).2.records =
        tracker.records ++ [{ Record.begin stage (now tracker.state).1 with detail := said }] := by
    unfold detailed
    rw [Frame.stateBind_apply]
    cases (action (tracker.begun now stage)).1 with
    | error failure => exact ⟨"", hworked⟩
    | ok value =>
        refine ⟨detail value, ?_⟩
        show (action (tracker.begun now stage)).2.records.modify _ _ = _
        rw [hworked, modify_last]
  obtain ⟨said, hsaid⟩ := hrecords
  obtain ⟨hgiven, htimes⟩ := times_track _ _ _ hsaid
  exact ⟨hgiven.trans hresult, htimes⟩

/-- A stage on a project is timed, and the project gets the seconds that its record says. -/
theorem times_inStage (stage : String) {project : Project} {body : Run σ (Except Failure (Step α))}
    (hbody : (bodyFrame σ).Keeps body)
    (htimings : ∀ tracker step, (body tracker).1 = .ok step →
      step.project.timings = project.timings)
    (tracker : Tracker (Session σ)) :
    ∃ seconds, Times stage (inStage stage project body tracker).1.2 seconds tracker.records
        (inStage stage project body tracker).2.records ∧
      (inStage stage project body tracker).1.1.timings = project.timings.put stage seconds := by
  have hrecorded : recorded stage body =
      track now stage Failure.message (detailed body Step.detail) := by
    unfold recorded detailed
    congr 1
    funext place
    congr 1
    funext result
    cases result <;> rfl
  obtain ⟨hgiven, seconds, record, hadded, hended, helapsed⟩ :=
    times_detailed hbody stage Step.detail tracker
  rw [← hrecorded] at hgiven hadded hended
  have hseconds : ((recorded stage body tracker).2.records[tracker.records.length]? >>=
      Record.elapsed) = some seconds := by
    rw [hadded, List.getElem?_concat_length]
    exact helapsed
  refine ⟨seconds, ?_⟩
  rw [inStage_apply, hseconds]
  cases hresult : (recorded stage body tracker).1 with
  | error failure =>
      rw [hresult] at hended
      exact ⟨⟨record, hadded, ⟨hended.stage, hended.status, hended.error⟩, helapsed⟩, rfl⟩
  | ok step =>
      rw [hresult] at hended
      refine ⟨⟨record, hadded, ⟨hended.stage, hended.status, hended.error⟩, helapsed⟩, ?_⟩
      show step.project.timings.put stage seconds = _
      rw [htimings _ step (hgiven.symm.trans hresult)]

/-! ## Commands -/

/-- What a stage that ran a command came to: it was timed, and the project and the output have the
seconds that its record says. -/
structure TimesOutput (stage : String) (project : Project) (before : List Record)
    (reached : (Project × Except Failure StageOutput) × Tracker (Session σ)) (seconds : Binary64) :
    Prop where
  record : Times stage reached.1.2 seconds before reached.2.records
  project : reached.1.1.timings = project.timings.put stage seconds
  output : ∀ output, reached.1.2 = .ok output → output.elapsed = some seconds

theorem timesOutput_inStage (stage : String) {project : Project}
    {body : Run σ (Except Failure (Step Command.Output))} (hbody : (bodyFrame σ).Keeps body)
    (htimings : ∀ tracker step, (body tracker).1 = .ok step →
      step.project.timings = project.timings)
    (stem : String) (tracker : Tracker (Session σ)) :
    ∃ seconds, TimesOutput stage project tracker.records
      (((inStage stage project body (aboutStem stem tracker)).1.1,
          (inStage stage project body (aboutStem stem tracker)).1.2.map (StageOutput.ofCommand stage
            (inStage stage project body (aboutStem stem tracker)).1.1)),
        (inStage stage project body (aboutStem stem tracker)).2) seconds := by
  obtain ⟨seconds, ⟨record, hadded, hended, helapsed⟩, hproject⟩ :=
    times_inStage stage hbody htimings (aboutStem stem tracker)
  refine ⟨seconds, ⟨record, hadded, ?_, helapsed⟩, hproject, ?_⟩
  · cases hresult : (inStage stage project body (aboutStem stem tracker)).1.2 with
    | error failure =>
        rw [hresult] at hended
        exact ⟨hended.stage, hended.status, hended.error⟩
    | ok value =>
        rw [hresult] at hended
        exact ⟨hended.stage, hended.status, hended.error⟩
  · intro output houtput
    cases hresult : (inStage stage project body (aboutStem stem tracker)).1.2 with
    | error failure =>
        rw [hresult] at houtput
        cases houtput
    | ok value =>
        rw [hresult] at houtput
        rw [← Except.ok.inj houtput]
        show (inStage stage project body (aboutStem stem tracker)).1.1.timings.get? stage = _
        rw [hproject, Entries.get?_put, if_pos rfl]

theorem timesOutput_build (pipeline : Pipeline σ) (project : Project)
    (tracker : Tracker (Session σ)) :
    ∃ seconds, TimesOutput "build" project tracker.records (pipeline.build project tracker)
      seconds := by
  rw [build_apply, buildStep_eq]
  apply timesOutput_inStage
  · exact keeps_body_commandStep pipeline _ _ _ _ _ _ _ _
  · intro tracker step hstep
    obtain ⟨output, rfl⟩ := step_of_commandStep hstep
    rfl

theorem timesOutput_run (pipeline : Pipeline σ) (project : Project) (args : List String)
    (capture : Bool) (tracker : Tracker (Session σ)) :
    ∃ seconds, TimesOutput "run" project tracker.records
      (pipeline.run project args capture tracker) seconds := by
  rw [run_apply, runStep_eq]
  apply timesOutput_inStage
  · exact keeps_body_commandStep pipeline _ _ _ _ _ _ _ _
  · intro tracker step hstep
    obtain ⟨output, rfl⟩ := step_of_commandStep hstep
    rfl

end RustScript.Pipeline
