import RustScript.Proofs.Pipeline.Resumed

/-!
# Working task by task

Besides calls that go through several stages, a pipeline takes single tasks: to analyze a script, to
generate its project or to take up one that stands already, to build it, to run it and to clean it up.
Whoever gives the tasks keeps the projects that came of them, and the pipeline keeps its records and
the stem of the script that its notes are about; a `Desk` holds all of this, so that the pipeline can
go on with it in whatever the world has become meanwhile.
-/

set_option autoImplicit false

namespace RustScript.Pipeline

open RustScript.Progress

variable {σ α : Type}

/-! ## Tasks -/

/-- Something to be done to a project. -/
inductive Job
  | build
  | run (args : List String) (capture : Bool)
  | clean

/-- A task. Projects are told by their places among those that there are so far. -/
inductive Task
  | analyze (script : Path)
  | generate (metadata : Source.Metadata) (stem : String) (source : Option Path)
  /-- Take up a project as an earlier generation left it. -/
  | takeUp (stem : String) (source : Option Path)
  | on (place : Nat) (job : Job)

/-- The answer to a task. -/
inductive Reply
  | analyzed (result : Except Failure Source.Metadata)
  | generated (result : Except Failure (Project × Source.Metadata))
  | takenUp (result : Except Failure Project)
  | output (result : Except Failure StageOutput)
  | cleaned (result : Except Failure Bool)
  /-- There is no project at the place. -/
  | absent

/-- Does a job on a project; gives what became of the project. -/
def doJob (pipeline : Pipeline σ) (project : Project) : Job → Run σ (Project × Reply)
  | .build => do
      let (project, result) ← pipeline.build project
      return (project, .output result)
  | .run args capture => do
      let (project, result) ← pipeline.run project args capture
      return (project, .output result)
  | .clean => do
      let (project, result) ← onWorld (pipeline.clean project)
      return (project, .cleaned result)

/-- The projects with one more, unless there was a failure. -/
def withNew (projects : List Project) : Except Failure Project → List Project
  | .ok project => projects ++ [project]
  | .error _ => projects

/-- Does a task, with the projects that there are. -/
def work (pipeline : Pipeline σ) (projects : List Project) : Task → Run σ (Reply × List Project)
  | .analyze script => return (.analyzed (← pipeline.analyze script), projects)
  | .generate metadata stem source => do
      let result ← pipeline.generate metadata stem source
      return (.generated result, withNew projects (result.map Prod.fst))
  | .takeUp stem source => do
      let result ← onWorld (pipeline.existingProject stem source)
      return (.takenUp result, withNew projects result)
  | .on place job =>
      match projects[place]? with
      | none => return (.absent, projects)
      | some project => do
          let (project, reply) ← pipeline.doJob project job
          return (reply, projects.set place project)

/-! ## Desks -/

/-- What is kept between tasks. -/
structure Desk where
  records : List Record
  subject : Option String
  projects : List Project

/-- Nothing has been done yet. -/
def Desk.empty : Desk := ⟨[], none, []⟩

/-- The tracker under which the next task is done. -/
def Desk.tracker (desk : Desk) (pipeline : Pipeline σ) (world : World σ) : Tracker (Session σ) :=
  ⟨desk.records, pipeline.listeners, ⟨world, desk.subject⟩⟩

/-- Does a task at a desk. -/
def perform (pipeline : Pipeline σ) (desk : Desk) (task : Task) : Act σ (Reply × Desk) := fun world =>
  let ((reply, projects), tracker) := pipeline.work desk.projects task (desk.tracker pipeline world)
  ((reply, ⟨tracker.records, tracker.state.subject, projects⟩), tracker.state.world)

/-- Does tasks one after the other, and keeps the replies. Before each of them the world may have
changed in any way. -/
def performAll (pipeline : Pipeline σ) :
    List ((World σ → World σ) × Task) → Desk → Act σ (List (Task × Reply) × Desk)
  | [], desk => return ([], desk)
  | (change, task) :: rest, desk => do
      modify change
      let (reply, desk) ← pipeline.perform desk task
      let (replies, desk) ← performAll pipeline rest desk
      return ((task, reply) :: replies, desk)

/-! ## What a task does to a project -/

theorem work_on_apply (pipeline : Pipeline σ) (projects : List Project) (place : Nat) (job : Job)
    (tracker : Tracker (Session σ)) :
    pipeline.work projects (.on place job) tracker = match projects[place]? with
      | none => ((.absent, projects), tracker)
      | some project =>
          (((pipeline.doJob project job tracker).1.2,
              projects.set place (pipeline.doJob project job tracker).1.1),
            (pipeline.doJob project job tracker).2) := by
  unfold work
  dsimp only
  cases projects[place]? <;> rfl

-- The proofs of the next two stand in parentheses: as rules for `dsimp` they would have to hold without
-- unfolding the stages, which takes long to find out.

/-- Building is a stage, about the script of the project. -/
theorem build_apply (pipeline : Pipeline σ) (project : Project) (tracker : Tracker (Session σ)) :
    pipeline.build project tracker =
      (((inStage "build" project (pipeline.buildStep project) (aboutStem project.stem tracker)).1.1,
          (inStage "build" project (pipeline.buildStep project)
            (aboutStem project.stem tracker)).1.2.map
              (StageOutput.ofCommand "build" (inStage "build" project (pipeline.buildStep project)
                (aboutStem project.stem tracker)).1.1)),
        (inStage "build" project (pipeline.buildStep project)
          (aboutStem project.stem tracker)).2) := (rfl)

/-- Running is a stage, about the script of the project. -/
theorem run_apply (pipeline : Pipeline σ) (project : Project) (args : List String) (capture : Bool)
    (tracker : Tracker (Session σ)) :
    pipeline.run project args capture tracker =
      (((inStage "run" project (pipeline.runStep project args capture)
            (aboutStem project.stem tracker)).1.1,
          (inStage "run" project (pipeline.runStep project args capture)
            (aboutStem project.stem tracker)).1.2.map
              (StageOutput.ofCommand "run" (inStage "run" project
                (pipeline.runStep project args capture) (aboutStem project.stem tracker)).1.1)),
        (inStage "run" project (pipeline.runStep project args capture)
          (aboutStem project.stem tracker)).2) := (rfl)

/-- A stage that calls a command and succeeds makes a step of the output of the command. -/
theorem step_of_commandStep {pipeline : Pipeline σ} {stem stage : String} {needed : Path}
    {missing : Failure} {call : Command.Call} {fault : Command.Fault → Failure}
    {failed : Command.Output → Failure} {done : Command.Output → Step Command.Output}
    {tracker : Tracker (Session σ)} {step : Step Command.Output}
    (h : (pipeline.commandStep stem stage needed missing call fault failed done tracker).1 =
      .ok step) : ∃ output, step = done output := by
  rw [commandStep_apply] at h
  split at h
  · rcases hrun : pipeline.runner call tracker.state.world with ⟨problem | output, world⟩
    · rw [hrun] at h
      cases h
    · rw [hrun] at h
      dsimp only at h
      split at h
      · exact ⟨output, (Except.ok.inj h).symm⟩
      · cases h
  · cases h

/-- A stage on a project leaves the project in its place, however it ends. -/
theorem sharesPlace_inStage (stage : String) {project : Project}
    (body : Run σ (Except Failure (Step α)))
    (hbody : ∀ tracker step, (body tracker).1 = .ok step → step.project.SharesPlace project)
    (tracker : Tracker (Session σ)) :
    (inStage stage project body tracker).1.1.SharesPlace project := by
  rw [inStage_run]
  cases hresult : (body (opening stage tracker).2).1 with
  | error failure =>
      have hfailed : ∀ elapsed,
          ((project.withTiming stage elapsed).markFailed stage).SharesPlace project := by
        intro elapsed
        cases elapsed <;> exact ⟨rfl, rfl⟩
      exact hfailed _
  | ok step =>
      obtain ⟨hdirectory, hstem⟩ := hbody _ step hresult
      have hdone : ∀ elapsed, (step.project.withTiming stage elapsed).SharesPlace project := by
        intro elapsed
        cases elapsed <;> exact ⟨hdirectory, hstem⟩
      exact hdone _

theorem sharesPlace_build (pipeline : Pipeline σ) (project : Project)
    (tracker : Tracker (Session σ)) :
    (pipeline.build project tracker).1.1.SharesPlace project := by
  refine sharesPlace_inStage "build" (pipeline.buildStep project) (fun tracker step hstep => ?_)
    (aboutStem project.stem tracker)
  rw [buildStep_eq] at hstep
  obtain ⟨output, rfl⟩ := step_of_commandStep hstep
  exact ⟨rfl, rfl⟩

theorem sharesPlace_run (pipeline : Pipeline σ) (project : Project) (args : List String)
    (capture : Bool) (tracker : Tracker (Session σ)) :
    (pipeline.run project args capture tracker).1.1.SharesPlace project := by
  refine sharesPlace_inStage "run" (pipeline.runStep project args capture)
    (fun tracker step hstep => ?_) (aboutStem project.stem tracker)
  rw [runStep_eq] at hstep
  obtain ⟨output, rfl⟩ := step_of_commandStep hstep
  exact ⟨rfl, rfl⟩

/-- **Cleaning up** leaves the project as it is if anything cannot be removed. -/
theorem clean_apply (pipeline : Pipeline σ) (project : Project) (world : World σ) :
    pipeline.clean project world =
      match pipeline.removeAll project (world.files.exists project.directory) world with
      | (.error error, after) =>
          ((project, .error (.file (.cannotDelete error.reason) project.directory.toString)), after)
      | (.ok (), after) => ((project.cleaned, .ok (world.files.exists project.directory)), after) := by
  have hlook : Act.look (·.exists project.directory) world =
      (world.files.exists project.directory, world) := rfl
  unfold clean
  rw [Frame.stateBind_apply, hlook, Frame.stateBind_apply]
  rcases pipeline.removeAll project (world.files.exists project.directory) world with
    ⟨error | _, after⟩ <;> rfl

/-- The project as it is found, by what stands at the place of its manifest file. -/
def foundProject (pipeline : Pipeline σ) (stem : String) (source : Option Path) :
    Option Node → Except Failure Project
  | none => .ok (pipeline.newProject stem source)
  | some node =>
      (manifestAt (pipeline.newProject stem source).manifestPath node).map
        (pipeline.leftProject stem source)

/-- **Taking up a project** looks at its manifest file and changes nothing. -/
theorem existingProject_apply (pipeline : Pipeline σ) (stem : String) (source : Option Path)
    (world : World σ) :
    pipeline.existingProject stem source world =
      (pipeline.foundProject stem source
        (world.files.find? (pipeline.newProject stem source).manifestPath), world) := by
  cases hfind : world.files.find? (pipeline.newProject stem source).manifestPath with
  | some node => exact existingProject_of_find? hfind
  | none =>
      have hlook : Act.look (·.exists (pipeline.newProject stem source).manifestPath) world =
          (false, world) := by
        refine Prod.ext ?_ rfl
        show (world.files.find? _).isSome = false
        rw [hfind]
        rfl
      unfold existingProject
      rw [Frame.stateBind_apply, hlook]
      rfl

/-! ## Where projects are -/

section

variable {pipeline : Pipeline σ} {stem : String} {source : Option Path}

/-- A project that has been generated is where a new one would be. -/
theorem sharesPlace_generate {metadata noted : Source.Metadata} {tracker : Tracker (Session σ)}
    {project : Project}
    (h : (pipeline.generate metadata stem source tracker).1 = .ok (project, noted)) :
    project.SharesPlace (pipeline.newProject stem source) := by
  obtain ⟨_, _, _, _, _, _, rfl⟩ := goes_of_generate h
  exact ⟨rfl, rfl⟩

/-- A project that has been taken up is where a new one would be. -/
theorem sharesPlace_foundProject {node : Option Node} {project : Project}
    (h : pipeline.foundProject stem source node = .ok project) :
    project.SharesPlace (pipeline.newProject stem source) := by
  cases node with
  | none =>
      rw [← Except.ok.inj h]
      exact ⟨rfl, rfl⟩
  | some node =>
      unfold foundProject at h
      dsimp only at h
      cases hmanifest : manifestAt (pipeline.newProject stem source).manifestPath node with
      | error error =>
          rw [hmanifest] at h
          cases h
      | ok manifest =>
          rw [hmanifest] at h
          rw [← Except.ok.inj h]
          exact ⟨rfl, rfl⟩

theorem resume_apply (pipeline : Pipeline σ) (stem : String) (source : Option Path)
    (tracker : Tracker (Session σ)) :
    pipeline.resume stem source tracker =
      ((pipeline.foundProject stem source
          ((skip "generate" notRequested tracker).2.state.world.files.find?
            (pipeline.newProject stem source).manifestPath)).map fun project =>
          ⟨project, none, none, none⟩,
        (skip "generate" notRequested tracker).2) := by
  unfold resume
  rw [Frame.stateBind_apply, Frame.stateBind_apply, onWorld_apply, existingProject_apply]
  rfl

end

end RustScript.Pipeline
