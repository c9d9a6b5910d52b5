import RustScript.Proofs.Pipeline.Noted

/-!
# Stages side by side

Two runs are side by side if their files are similar, what holds for one of them in the world outside
holds for the other, and the journals of both hear of the same script (`Parallel`). A stage that
calls a command takes two such runs to two such runs, and ends the same way in both
(`parallel_inStage`); so does building and so does running. A run that notes that a stage is left out
stays beside one that does not (`Parallel.skip`).
-/

set_option autoImplicit false

namespace RustScript

/-! ## Runners that do not see everything -/

/-- The runner does not see what files at `unseen` places hold: its answer does not depend on it, and
neither does what it does to files. -/
def Runner.Overlooks {σ : Type} (runner : Runner σ) (here : Place) (unseen : Place → Prop) : Prop :=
  ∀ call (world other : World σ), FileSystem.Similar here unseen world.files other.files →
    (runner call other).1 = (runner call world).1 ∧
      FileSystem.Similar here unseen (runner call world).2.files (runner call other).2.files

/-- What `seen` shows of the world outside is the same after a call if it was the same before. -/
def Runner.Shows {σ κ : Type} (runner : Runner σ) (seen : σ → κ) : Prop :=
  ∀ call (world other : World σ), seen other.outside = seen world.outside →
    seen (runner call other).2.outside = seen (runner call world).2.outside

/-! ## Projects of one script -/

/-- Two projects of the same script. -/
structure Project.SharesScript (project other : Project) : Prop extends
    project.SharesPlace other where
  sourceName : project.sourceName = other.sourceName

/-- The project `later` is the project after a stage. -/
structure Project.Continues (project later : Project) : Prop where
  script : later.SharesScript project
  manifest : later.manifest = project.manifest

theorem Project.SharesScript.refl (project : Project) : project.SharesScript project :=
  ⟨⟨rfl, rfl⟩, rfl⟩

theorem Project.SharesScript.symm {project other : Project} (h : project.SharesScript other) :
    other.SharesScript project := ⟨⟨h.directory.symm, h.stem.symm⟩, h.sourceName.symm⟩

theorem Project.SharesScript.trans {project other third : Project} (h : project.SharesScript other)
    (hnext : other.SharesScript third) : project.SharesScript third :=
  ⟨⟨h.directory.trans hnext.directory, h.stem.trans hnext.stem⟩,
    h.sourceName.trans hnext.sourceName⟩

theorem Project.Continues.withTiming {project later : Project} (h : project.Continues later)
    (stage : String) (elapsed : Option Binary64) :
    project.Continues (later.withTiming stage elapsed) := by
  cases elapsed with
  | none => exact h
  | some seconds => exact ⟨⟨⟨h.script.directory, h.script.stem⟩, h.script.sourceName⟩, h.manifest⟩

namespace Pipeline

open RustScript.Progress

variable {σ κ α : Type}

/-! ## Runs side by side -/

/-- The runs are in states that differ at most in their records, in the clock, and in what the
journal of the script `stem` holds. -/
structure Parallel (pipeline : Pipeline σ) (logs : Option Path) (here : Place) (seen : σ → κ)
    (stem : String) (first second : Tracker (Session σ)) : Prop where
  similar : FileSystem.Similar here (JournalAt here logs stem) first.state.world.files
    second.state.world.files
  outside : seen second.state.world.outside = seen first.state.world.outside
  reports : pipeline.Reports stem first
  reports' : pipeline.Reports stem second

section

variable {pipeline : Pipeline σ} {logs : Option Path} (hlogs : pipeline.WritesOnlyLogs logs)
  {here : Place} {seen : σ → κ} {stem : String} {first second : Tracker (Session σ)}
  (h : pipeline.Parallel logs here seen stem first second)

include hlogs h

/-- Both runs write a note. -/
theorem Parallel.notes {α β : Type} {action : Run σ α} {other : Run σ β}
    (hnotes : pipeline.OnlyNotes stem action) (hnotes' : pipeline.OnlyNotes stem other)
    (hnote : NoteBetween logs stem first.state.world.files (action first).2.state.world.files)
    (hnote' : NoteBetween logs stem second.state.world.files (other second).2.state.world.files) :
    pipeline.Parallel logs here seen stem (action first).2 (other second).2 ∧
      LogsNoted logs stem (other second).2.state.world.files := by
  obtain ⟨event, hevent⟩ := hnote
  obtain ⟨event', hevent'⟩ := hnote'
  refine ⟨⟨?_, ?_, hnotes.reports h.reports, hnotes'.reports h.reports'⟩, ?_⟩
  · rw [hevent, hevent']
    exact (matches_noteIn logs stem event event' _ _ h.similar).2
  · rw [hlogs.outside_notes hnotes h.reports, hlogs.outside_notes hnotes' h.reports']
    exact h.outside
  · rw [hevent']
    exact noted_noteIn logs stem event' _

/-- **The second run notes that a stage is left out**, behind another note. -/
theorem Parallel.skip (hnoted : LogsNoted logs stem second.state.world.files)
    (stage reason : String) :
    pipeline.Parallel logs here seen stem first (Progress.skip stage reason second).2 ∧
      LogsNoted logs stem (Progress.skip stage reason second).2.state.world.files := by
  have hnotes := onlyNotes_skip pipeline stem stage reason
  obtain ⟨event, hevent⟩ := hlogs.noteBetween_skip h.reports' stage reason
  refine ⟨⟨?_, ?_, h.reports, hnotes.reports h.reports'⟩, ?_⟩
  · rw [hevent]
    exact h.similar.trans (similar_noteIn hnoted h.similar.secondHere event)
  · rw [hlogs.outside_notes hnotes h.reports']
    exact h.outside
  · rw [hevent]
    exact noted_noteIn logs stem event _

end

/-- The journals go on hearing of the script. -/
theorem Parallel.about {pipeline : Pipeline σ} {logs : Option Path} {here : Place} {seen : σ → κ}
    {stem : String} {first second : Tracker (Session σ)}
    (h : pipeline.Parallel logs here seen stem first second) :
    pipeline.Parallel logs here seen stem (aboutStem stem first) (aboutStem stem second) :=
  ⟨h.similar, h.outside, reports_aboutStem h.reports.listeners stem,
    reports_aboutStem h.reports'.listeners stem⟩

/-! ## Stages that call a command -/

/-- Two bodies of a stage have failed in the same way, or both have ended well with projects that
continue `project` and `other`. -/
inductive SameStep (project other : Project) :
    Except Failure (Step α) → Except Failure (Step α) → Prop
  | failed (failure : Failure) : SameStep project other (.error failure) (.error failure)
  | done {step step' : Step α} (value : step'.value = step.value)
      (continues : project.Continues step.project) (continues' : other.Continues step'.project) :
      SameStep project other (.ok step) (.ok step')

/-- Two stages have failed in the same way, or both have given the same with projects that continue
`project` and `other`. -/
def SameEnd (project other : Project) (reached reached' : Project × Except Failure α) : Prop :=
  (∃ failure, reached.2 = .error failure ∧ reached'.2 = .error failure) ∨
    ∃ value, reached.2 = .ok value ∧ reached'.2 = .ok value ∧ project.Continues reached.1 ∧
      other.Continues reached'.1

theorem SameStep.conclude {project other : Project} {result result' : Except Failure (Step α)}
    (h : SameStep project other result result') (stage : String)
    (elapsed elapsed' : Option Binary64) :
    SameEnd project other (conclude stage project elapsed result)
      (Pipeline.conclude stage other elapsed' result') := by
  cases h with
  | failed failure => exact .inl ⟨failure, rfl, rfl⟩
  | done hvalue hproject hother =>
      exact .inr ⟨_, rfl, congrArg Except.ok hvalue, hproject.withTiming stage _,
        hother.withTiming stage _⟩

/-- Two calls have failed in the same way, or both have made the same of two outcomes, with projects
that continue those of the outcomes. -/
def SameCall (make make' : Project → Command.Output → Outcome) (project other : Project)
    (result result' : Except Failure Outcome) : Prop :=
  (∃ failure, result = .error failure ∧ result' = .error failure) ∨
    ∃ later later' output, result = .ok (make later output) ∧
      result' = .ok (make' later' output) ∧ project.Continues later ∧ other.Continues later'

theorem SameEnd.sameCall {project other : Project}
    {reached reached' : Project × Except Failure Command.Output}
    (h : SameEnd project other reached reached') (make make' : Project → Command.Output → Outcome) :
    SameCall make make' project other (reached.2.map (make reached.1))
      (reached'.2.map (make' reached'.1)) := by
  rcases h with ⟨failure, hfirst, hsecond⟩ | ⟨output, hfirst, hsecond, hproject, hother⟩
  · exact .inl ⟨failure, by rw [hfirst]; rfl, by rw [hsecond]; rfl⟩
  · exact .inr ⟨_, _, output, by rw [hfirst]; rfl, by rw [hsecond]; rfl, hproject, hother⟩

/-- Building a project of the same script is the same stage, up to what it makes of the project. -/
theorem buildStep_congr (pipeline : Pipeline σ) {project other : Project}
    (h : other.SharesScript project) :
    pipeline.buildStep other =
      pipeline.commandStep project.stem "build" project.manifestPath
        (.file .noManifest project.manifestPath.toString) (buildCall pipeline.settings project)
        (buildFault pipeline.settings.cargo)
        (fun output => .build (.failed project.sourceName output))
        (fun output => {
          detail := s!"target={project.targetPath}"
          project := { other with status := .built }
          value := output }) := by
  obtain ⟨⟨hdirectory, hstem⟩, hname⟩ := h
  cases project
  cases other
  dsimp only at hdirectory hstem hname
  subst hdirectory hstem hname
  rfl

/-- Running what was built for the same script is the same stage, up to what it makes of the
project. -/
theorem runStep_congr (pipeline : Pipeline σ) {project other : Project}
    (h : other.SharesScript project) (args : List String) (capture : Bool) :
    pipeline.runStep other args capture =
      pipeline.commandStep project.stem "run" project.targetPath
        (.file .noProgram project.targetPath.toString)
        (runCall pipeline.settings project args capture) (runFault project)
        (fun output => .run (.exited project.sourceName output))
        (fun output => {
          detail := s!"exit={output.status}"
          project := { other with status := .ran }
          value := output }) := by
  obtain ⟨⟨hdirectory, hstem⟩, hname⟩ := h
  cases project
  cases other
  dsimp only at hdirectory hstem hname
  subst hdirectory hstem hname
  rfl

section

variable {pipeline : Pipeline σ} {logs : Option Path} (hlogs : pipeline.WritesOnlyLogs logs)
  {here : Place} {seen : σ → κ} {stem : String}

theorem parallel_inWorld {first second : Tracker (Session σ)}
    (h : pipeline.Parallel logs here seen stem first second) {world other : World σ}
    (hsimilar : FileSystem.Similar here (JournalAt here logs stem) world.files other.files)
    (houtside : seen other.outside = seen world.outside) :
    pipeline.Parallel logs here seen stem (inWorld first world) (inWorld second other) :=
  ⟨hsimilar, houtside, ⟨h.reports.listeners, h.reports.subject⟩,
    ⟨h.reports'.listeners, h.reports'.subject⟩⟩

include hlogs

/-- Both runs keep an output. -/
theorem parallel_keepOutput {first second : Tracker (Session σ)}
    (h : pipeline.Parallel logs here seen stem first second) (stage : String)
    (output : Command.Output) :
    pipeline.Parallel logs here seen stem (pipeline.keepOutput stem stage output first).2
      (pipeline.keepOutput stem stage output second).2 := by
  unfold keepOutput
  rw [hlogs.store]
  cases logs with
  | none => exact h
  | some base =>
      have hwrote := FileAction.matches_writeFiles (base.child stem)
        (Log.outputFiles stage output) _ _ h.similar
      exact parallel_inWorld h hwrote.2 h.outside

omit hlogs in
theorem commandStep_apply (stem stage : String) (needed : Path) (missing : Failure)
    (call : Command.Call) (fault : Command.Fault → Failure) (failed : Command.Output → Failure)
    (done : Command.Output → Step Command.Output) (tracker : Tracker (Session σ)) :
    pipeline.commandStep stem stage needed missing call fault failed done tracker =
      if tracker.state.world.files.exists needed then
        match pipeline.runner call tracker.state.world with
        | (.error problem, world) => (.error (fault problem), inWorld tracker world)
        | (.ok output, world) =>
            (if output.ok then .ok (done output) else .error (failed output),
              (pipeline.keepOutput stem stage output (inWorld tracker world)).2)
      else (.error missing, tracker) := by
  unfold commandStep
  rw [Frame.stateBind_apply, onWorld_apply]
  show (if !tracker.state.world.files.exists needed then _ else _ : Run σ _) _ = _
  cases tracker.state.world.files.exists needed with
  | false => rfl
  | true =>
      rw [if_neg (by decide), if_pos rfl, Frame.stateBind_apply, onWorld_apply]
      show pipeline.settle stem stage fault failed done
        (pipeline.runner call tracker.state.world).1
        (inWorld tracker (pipeline.runner call tracker.state.world).2) = _
      rcases pipeline.runner call tracker.state.world with ⟨problem | output, world⟩
      · rfl
      · show pipeline.judge stem stage failed done output (inWorld tracker world) = _
        unfold judge
        rw [Frame.stateBind_apply]
        dsimp only
        cases output.ok <;> rfl

/-- **A stage that calls a command** goes the same way in both runs. -/
theorem parallel_commandStep
    (hoverlooks : pipeline.runner.Overlooks here (JournalAt here logs stem))
    (hshows : pipeline.runner.Shows seen) {first second : Tracker (Session σ)}
    (h : pipeline.Parallel logs here seen stem first second) (stage : String) (needed : Path)
    (missing : Failure) (call : Command.Call) (fault : Command.Fault → Failure)
    (failed : Command.Output → Failure) {done done' : Command.Output → Step Command.Output}
    {project other : Project} (hvalue : ∀ output, (done' output).value = (done output).value)
    (hproject : ∀ output, project.Continues (done output).project)
    (hother : ∀ output, other.Continues (done' output).project) :
    SameStep project other
        (pipeline.commandStep stem stage needed missing call fault failed done first).1
        (pipeline.commandStep stem stage needed missing call fault failed done' second).1 ∧
      pipeline.Parallel logs here seen stem
        (pipeline.commandStep stem stage needed missing call fault failed done first).2
        (pipeline.commandStep stem stage needed missing call fault failed done' second).2 := by
  rw [commandStep_apply, commandStep_apply, h.similar.exists]
  cases first.state.world.files.exists needed with
  | false => exact ⟨.failed missing, h⟩
  | true =>
      obtain ⟨hanswer, hfiles⟩ := hoverlooks call _ _ h.similar
      have hseen := hshows call _ _ h.outside
      rw [if_pos rfl, if_pos rfl]
      -- both answers are taken apart at once, so that they can be found to be the same
      revert hanswer hfiles hseen
      rcases pipeline.runner call first.state.world with ⟨answer, world⟩
      rcases pipeline.runner call second.state.world with ⟨answer', world'⟩
      intro hanswer hfiles hseen
      obtain rfl : answer' = answer := hanswer
      have hran := parallel_inWorld h hfiles hseen
      cases answer' with
      | error problem => exact ⟨.failed _, hran⟩
      | ok output =>
          refine ⟨?_, parallel_keepOutput hlogs hran stage output⟩
          dsimp only
          cases output.ok with
          | false => exact .failed _
          | true => exact .done (hvalue output) (hproject output) (hother output)

/-! ## Stages on projects -/

/-- **A stage on a project** takes runs that are side by side to such runs if its body does. -/
theorem parallel_inStage (stage : String) {project other : Project}
    {body body' : Run σ (Except Failure (Step α))} (hkeeps : (bodyFrame σ).Keeps body)
    (hkeeps' : (bodyFrame σ).Keeps body')
    (hbody : ∀ first second, pipeline.Parallel logs here seen stem first second →
      SameStep project other (body first).1 (body' second).1 ∧
        pipeline.Parallel logs here seen stem (body first).2 (body' second).2)
    {first second : Tracker (Session σ)}
    (h : pipeline.Parallel logs here seen stem first second) :
    SameEnd project other (inStage stage project body first).1
        (inStage stage other body' second).1 ∧
      pipeline.Parallel logs here seen stem (inStage stage project body first).2
        (inStage stage other body' second).2 ∧
      LogsNoted logs stem (inStage stage other body' second).2.state.world.files := by
  have hopening := onlyNotes_opening pipeline stem stage
  obtain ⟨hopened, -⟩ := h.notes hlogs hopening hopening
    (hlogs.noteBetween_opening h.reports stage) (hlogs.noteBetween_opening h.reports' stage)
  obtain ⟨hstep, hdone⟩ := hbody _ _ hopened
  obtain ⟨-, hplace⟩ := reports_body stage hkeeps h.reports
  obtain ⟨-, hplace'⟩ := reports_body stage hkeeps' h.reports'
  rw [inStage_run, inStage_run]
  exact ⟨hstep.conclude stage _ _, hdone.notes hlogs (onlyNotes_closing pipeline stem _ _)
    (onlyNotes_closing pipeline stem _ _) (hlogs.noteBetween_closing hdone.reports hplace _)
    (hlogs.noteBetween_closing hdone.reports' hplace' _)⟩

/-! ## Building and running -/

variable (hoverlooks : pipeline.runner.Overlooks here (JournalAt here logs stem))
  (hshows : pipeline.runner.Shows seen) {first second : Tracker (Session σ)}
  (h : pipeline.Parallel logs here seen stem first second) {outcome other : Outcome}
  (hstem : outcome.project.stem = stem) (hscript : other.project.SharesScript outcome.project)

include hoverlooks hshows h hstem hscript

/-- **Building** takes runs that are side by side to such runs. -/
theorem parallel_build :
    SameCall outcome.built other.built outcome.project other.project
        (pipeline.buildIf true outcome first).1 (pipeline.buildIf true other second).1 ∧
      pipeline.Parallel logs here seen stem (pipeline.buildIf true outcome first).2
        (pipeline.buildIf true other second).2 ∧
      LogsNoted logs stem (pipeline.buildIf true other second).2.state.world.files := by
  subst hstem
  have hbody : ∀ first second, pipeline.Parallel logs here seen outcome.project.stem first second →
      SameStep outcome.project other.project (pipeline.buildStep outcome.project first).1
          (pipeline.buildStep other.project second).1 ∧
        pipeline.Parallel logs here seen outcome.project.stem
          (pipeline.buildStep outcome.project first).2
          (pipeline.buildStep other.project second).2 := by
    intro first second h
    rw [buildStep_congr pipeline hscript, buildStep_eq]
    exact parallel_commandStep hlogs hoverlooks hshows h "build" _ _ _ _ _ (fun _ => rfl)
      (fun _ => ⟨⟨⟨rfl, rfl⟩, rfl⟩, rfl⟩) fun _ => ⟨⟨⟨rfl, rfl⟩, rfl⟩, rfl⟩
  obtain ⟨hend, hafter⟩ := parallel_inStage hlogs "build" (keeps_body_buildStep pipeline _)
    (keeps_body_buildStep pipeline _) hbody h.about
  rw [buildIf_true, buildIf_true, hscript.stem]
  exact ⟨hend.sameCall outcome.built other.built, hafter⟩

/-- **Running** takes runs that are side by side to such runs. -/
theorem parallel_run (args : List String) (capture : Bool) :
    SameCall outcome.ran other.ran outcome.project other.project
        (pipeline.runIf true args capture outcome first).1
        (pipeline.runIf true args capture other second).1 ∧
      pipeline.Parallel logs here seen stem (pipeline.runIf true args capture outcome first).2
        (pipeline.runIf true args capture other second).2 ∧
      LogsNoted logs stem (pipeline.runIf true args capture other second).2.state.world.files := by
  subst hstem
  have hbody : ∀ first second, pipeline.Parallel logs here seen outcome.project.stem first second →
      SameStep outcome.project other.project (pipeline.runStep outcome.project args capture first).1
          (pipeline.runStep other.project args capture second).1 ∧
        pipeline.Parallel logs here seen outcome.project.stem
          (pipeline.runStep outcome.project args capture first).2
          (pipeline.runStep other.project args capture second).2 := by
    intro first second h
    rw [runStep_congr pipeline hscript, runStep_eq]
    exact parallel_commandStep hlogs hoverlooks hshows h "run" _ _ _ _ _ (fun _ => rfl)
      (fun _ => ⟨⟨⟨rfl, rfl⟩, rfl⟩, rfl⟩) fun _ => ⟨⟨⟨rfl, rfl⟩, rfl⟩, rfl⟩
  obtain ⟨hend, hafter⟩ := parallel_inStage hlogs "run"
    (keeps_body_commandStep pipeline _ _ _ _ _ _ _ _)
    (keeps_body_commandStep pipeline _ _ _ _ _ _ _ _) hbody h.about
  rw [runIf_true, runIf_true, hscript.stem]
  exact ⟨hend.sameCall outcome.ran other.ran, hafter⟩

end

end Pipeline

end RustScript
