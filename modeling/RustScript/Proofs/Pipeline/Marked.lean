import RustScript.Proofs.Pipeline.Handover
import RustScript.Proofs.Pipeline.Tasks

/-!
# What projects say of their past

A project says how far it has come and which of its stages failed. Here this is compared with what
was done to the project, as it can be told from the replies to the tasks (`histories`). The status is
that of the last thing done, but the failed stage is that of the last failure, however long ago:
neither a later stage that succeeds nor cleaning up takes it back (`marks_of_tasks`). So what a project
says fits together exactly as long as nothing has failed, or right after a failure.
-/

set_option autoImplicit false

namespace RustScript.Pipeline

open RustScript.Progress

variable {σ α : Type}

/-! ## Histories of projects -/

/-- The name of the stage. -/
def Stage.name : Stage → String
  | .generate => "generate"
  | .build => "build"
  | .run => "run"

/-- The status that the stage leads to. -/
def Stage.reached : Stage → ProjectStatus
  | .generate => .generated
  | .build => .built
  | .run => .ran

/-- Something that was done to a project. -/
inductive Deed
  /-- The stage succeeded, or a project was taken up that it had left. -/
  | done (stage : Stage)
  | failed (stage : Stage)
  | cleaned
  deriving DecidableEq, Repr

namespace Deed

/-- The status in which a project is left. -/
def leaves : Deed → ProjectStatus
  | done stage => stage.reached
  | failed _ => .failed
  | cleaned => .init

/-- The stage that failed, if one did. -/
def failure? : Deed → Option Stage
  | failed stage => some stage
  | _ => none

/-- The stage, if it is one, and whether it succeeded. -/
def stage? : Deed → Option (Stage × Bool)
  | done stage => some (stage, true)
  | failed stage => some (stage, false)
  | cleaned => none

/-- What was done by a stage with this result. -/
def ofResult (stage : Stage) : Except Failure α → Deed
  | .ok _ => done stage
  | .error _ => failed stage

theorem ofResult_map {β : Type} (stage : Stage) (result : Except Failure α) (f : α → β) :
    ofResult stage (result.map f) = ofResult stage result := by cases result <;> rfl

end Deed

/-- What a job did to the project, as the reply tells. -/
def Job.deed? : Job → Reply → Option Deed
  | .build, .output result => some (.ofResult .build result)
  | .run _ _, .output result => some (.ofResult .run result)
  | .clean, .cleaned (.ok _) => some .cleaned
  | _, _ => none

/-- The histories of the projects after one more task, as its reply tells. -/
def histories.next (told : List (List Deed)) : Task → Reply → List (List Deed)
  | .generate .., .generated (.ok _) => told ++ [[.done .generate]]
  | .takeUp .., .takenUp (.ok project) =>
      told ++ [if project.manifest.isSome then [.done .generate] else []]
  | .on place job, reply => told.modify place (· ++ (job.deed? reply).toList)
  | _, _ => told

/-- The histories of the projects that came of some tasks, in the order of the projects. -/
def histories (replies : List (Task × Reply)) : List (List Deed) :=
  replies.foldl (fun told reply => histories.next told reply.1 reply.2) []

/-- The status after a history. -/
def statusAfter (history : List Deed) : ProjectStatus :=
  (history.getLast?.map Deed.leaves).getD .init

/-- The last stage of a history that failed, however long ago. -/
def lastFailure? (history : List Deed) : Option Stage := history.reverse.findSome? Deed.failure?

/-- The last stage of a history, and whether it succeeded. -/
def lastStage? (history : List Deed) : Option (Stage × Bool) :=
  history.reverse.findSome? Deed.stage?

/-- The project says how it was left, and which stage failed last. -/
structure Marks (history : List Deed) (project : Project) : Prop where
  status : project.status = statusAfter history
  failedStage : project.failedStage = (lastFailure? history).map Stage.name

/-- What the project says fits together and with its last stage. -/
structure Consistent (history : List Deed) (project : Project) : Prop where
  failed : project.failedStage ≠ none ↔ project.status = .failed
  named : project.status = .failed →
    ∃ stage, project.failedStage = some stage.name ∧ lastStage? history = some (stage, false)
  reached : ∀ stage, project.status = stage.reached → lastStage? history = some (stage, true)

/-- Nothing has failed yet, or just now something has. -/
def Unrecovered (history : List Deed) : Prop :=
  lastFailure? history = none ∨ ∃ stage, history.getLast? = some (.failed stage)

/-! ## What a history says -/

theorem statusAfter_snoc (history : List Deed) (deed : Deed) :
    statusAfter (history ++ [deed]) = deed.leaves := by
  unfold statusAfter
  rw [List.getLast?_concat]
  rfl

theorem lastFailure?_snoc (history : List Deed) (deed : Deed) :
    lastFailure? (history ++ [deed]) = deed.failure?.or (lastFailure? history) := by
  unfold lastFailure?
  rw [List.reverse_append, List.reverse_singleton, List.singleton_append, List.findSome?_cons]
  cases deed.failure? <;> rfl

theorem lastStage?_snoc (history : List Deed) (deed : Deed) :
    lastStage? (history ++ [deed]) = deed.stage?.or (lastStage? history) := by
  unfold lastStage?
  rw [List.reverse_append, List.reverse_singleton, List.singleton_append, List.findSome?_cons]
  cases deed.stage? <;> rfl

theorem Marks.reached {history : List Deed} {project : Project} (h : Marks history project)
    (stage : Stage) (hstage : project.status = stage.reached) :
    lastStage? history = some (stage, true) := by
  rw [h.status] at hstage
  rcases List.eq_nil_or_concat' history with rfl | ⟨before, deed, rfl⟩
  · cases stage <;> cases hstage
  · rw [statusAfter_snoc] at hstage
    rw [lastStage?_snoc]
    cases deed with
    | done other =>
        have hother : other = stage := by cases other <;> cases stage <;> first | rfl | cases hstage
        rw [hother]
        rfl
    | failed other => cases stage <;> cases hstage
    | cleaned => cases stage <;> cases hstage

/-- Right after a failure, what a project says fits together. -/
theorem Marks.consistent_of_failed {before : List Deed} {stage : Stage} {project : Project}
    (h : Marks (before ++ [.failed stage]) project) :
    Consistent (before ++ [.failed stage]) project := by
  have hstatus := h.status
  have hfailed := h.failedStage
  rw [statusAfter_snoc] at hstatus
  rw [lastFailure?_snoc] at hfailed
  refine ⟨?_, fun _ => ⟨stage, hfailed, ?_⟩, h.reached⟩
  · rw [hfailed, hstatus]
    exact iff_of_true nofun rfl
  · rw [lastStage?_snoc]
    rfl

/-- Once a project is past a failure, or before any, what it says fits together exactly if none is
named. -/
theorem Marks.consistent_iff_of_not_failed {history : List Deed} {project : Project}
    (h : Marks history project) (hstatus : project.status ≠ .failed) :
    Consistent history project ↔ lastFailure? history = none := by
  rw [← Option.map_eq_none_iff (f := Stage.name), ← h.failedStage]
  constructor
  · intro hconsistent
    exact not_not.mp (mt hconsistent.failed.mp hstatus)
  · intro hnone
    exact ⟨iff_of_false (fun hne => hne hnone) hstatus, fun h => absurd h hstatus, h.reached⟩

/-- **What a project says fits together exactly** as long as nothing has failed, or right after a
failure. -/
theorem Marks.consistent_iff {history : List Deed} {project : Project}
    (h : Marks history project) : Consistent history project ↔ Unrecovered history := by
  have hunfailed : (∀ stage, history.getLast? ≠ some (.failed stage)) →
      project.status ≠ .failed → (Consistent history project ↔ Unrecovered history) := by
    intro hlast hstatus
    rw [h.consistent_iff_of_not_failed hstatus]
    exact (or_iff_left fun ⟨stage, hstage⟩ => hlast stage hstage).symm
  have hstatus := h.status
  rcases List.eq_nil_or_concat' history with rfl | ⟨before, deed, rfl⟩
  · refine hunfailed (fun _ => nofun) ?_
    rw [hstatus]
    exact nofun
  · rw [statusAfter_snoc] at hstatus
    rw [List.getLast?_concat] at hunfailed
    cases deed with
    | failed stage => exact iff_of_true h.consistent_of_failed (.inr ⟨stage, List.getLast?_concat⟩)
    | done stage =>
        refine hunfailed (fun _ => nofun) ?_
        rw [hstatus]
        cases stage <;> exact nofun
    | cleaned =>
        refine hunfailed (fun _ => nofun) ?_
        rw [hstatus]
        exact nofun

/-! ## What tasks do to what projects say -/

theorem Marks.withTiming {history : List Deed} {project : Project} (h : Marks history project)
    (stage : String) (elapsed : Option Binary64) :
    Marks history (project.withTiming stage elapsed) := by
  cases elapsed with
  | none => exact h
  | some seconds => exact ⟨h.status, h.failedStage⟩

/-- A stage that succeeds sets the status, and leaves alone which stage failed. -/
theorem Marks.done {history : List Deed} {project : Project} (h : Marks history project)
    (stage : Stage) : Marks (history ++ [.done stage]) { project with status := stage.reached } := by
  constructor
  · rw [statusAfter_snoc]
    rfl
  · rw [lastFailure?_snoc]
    exact h.failedStage

theorem Marks.failed {history : List Deed} {project : Project} (stage : Stage) :
    Marks (history ++ [.failed stage]) (project.markFailed stage.name) := by
  constructor
  · rw [statusAfter_snoc]
    rfl
  · rw [lastFailure?_snoc]
    rfl

/-- Cleaning up takes the status back, and leaves alone which stage failed. -/
theorem Marks.cleaned {history : List Deed} {project : Project} (h : Marks history project) :
    Marks (history ++ [.cleaned]) project.cleaned := by
  constructor
  · rw [statusAfter_snoc]
    rfl
  · rw [lastFailure?_snoc]
    exact h.failedStage

/-- A stage that calls a command does one thing to the project. -/
theorem marks_inStage {history : List Deed} {project : Project} (h : Marks history project)
    (stage : Stage) (body : Run σ (Except Failure (Step α)))
    (hbody : ∀ tracker step, (body tracker).1 = .ok step →
      step.project = { project with status := stage.reached })
    (tracker : Tracker (Session σ)) :
    Marks (history ++ [.ofResult stage (inStage stage.name project body tracker).1.2])
      (inStage stage.name project body tracker).1.1 := by
  rw [inStage_run]
  cases hresult : (body (opening stage.name tracker).2).1 with
  | error failure =>
      have hmarked : ∀ elapsed, Marks (history ++ [.failed stage])
          ((project.withTiming stage.name elapsed).markFailed stage.name) := fun _ => .failed stage
      exact hmarked _
  | ok step =>
      have hdone := h.done stage
      rw [← hbody _ step hresult] at hdone
      exact hdone.withTiming stage.name _

theorem marks_build {history : List Deed} {project : Project} (h : Marks history project)
    (pipeline : Pipeline σ) (tracker : Tracker (Session σ)) :
    Marks (history ++ [.ofResult .build (pipeline.build project tracker).1.2])
      (pipeline.build project tracker).1.1 := by
  have hstage := marks_inStage h .build (pipeline.buildStep project)
    (fun tracker step hstep => by
      rw [buildStep_eq] at hstep
      obtain ⟨output, rfl⟩ := step_of_commandStep hstep
      rfl) (aboutStem project.stem tracker)
  rw [build_apply]
  dsimp only
  rwa [Deed.ofResult_map]

theorem marks_run {history : List Deed} {project : Project} (h : Marks history project)
    (pipeline : Pipeline σ) (args : List String) (capture : Bool) (tracker : Tracker (Session σ)) :
    Marks (history ++ [.ofResult .run (pipeline.run project args capture tracker).1.2])
      (pipeline.run project args capture tracker).1.1 := by
  have hstage := marks_inStage h .run (pipeline.runStep project args capture)
    (fun tracker step hstep => by
      rw [runStep_eq] at hstep
      obtain ⟨output, rfl⟩ := step_of_commandStep hstep
      rfl) (aboutStem project.stem tracker)
  rw [run_apply]
  dsimp only
  rwa [Deed.ofResult_map]

theorem marks_clean {history : List Deed} {project : Project} (h : Marks history project)
    (pipeline : Pipeline σ) (world : World σ) :
    Marks (history ++ (Job.clean.deed? (.cleaned (pipeline.clean project world).1.2)).toList)
      (pipeline.clean project world).1.1 := by
  rw [clean_apply]
  rcases pipeline.removeAll project (world.files.exists project.directory) world with
    ⟨error | _, after⟩
  · have hsame : history ++ [] = history := List.append_nil history
    show Marks (history ++ []) project
    rwa [hsame]
  · exact h.cleaned

/-- **A job does to a project what its reply tells.** -/
theorem marks_doJob {history : List Deed} {project : Project} (h : Marks history project)
    (pipeline : Pipeline σ) (job : Job) (tracker : Tracker (Session σ)) :
    Marks (history ++ (job.deed? (pipeline.doJob project job tracker).1.2).toList)
      (pipeline.doJob project job tracker).1.1 := by
  cases job with
  | build => exact marks_build h pipeline tracker
  | run args capture => exact marks_run h pipeline args capture tracker
  | clean => exact marks_clean h pipeline tracker.state.world

theorem marks_newProject (pipeline : Pipeline σ) (stem : String) (source : Option Path) :
    Marks [] (pipeline.newProject stem source) := ⟨rfl, rfl⟩

theorem marks_generated {pipeline : Pipeline σ} {metadata noted : Source.Metadata} {stem : String}
    {source : Option Path} {tracker : Tracker (Session σ)} {project : Project}
    (h : (pipeline.generate metadata stem source tracker).1 = .ok (project, noted)) :
    Marks [.done .generate] project := by
  obtain ⟨_, _, _, _, _, _, rfl⟩ := goes_of_generate h
  exact ⟨rfl, rfl⟩

theorem marks_foundProject {pipeline : Pipeline σ} {stem : String} {source : Option Path}
    {node : Option Node} {project : Project}
    (h : pipeline.foundProject stem source node = .ok project) :
    Marks (if project.manifest.isSome then [.done .generate] else []) project := by
  cases node with
  | none =>
      rw [← Except.ok.inj h]
      exact marks_newProject pipeline stem source
  | some node =>
      unfold foundProject at h
      dsimp only at h
      cases hmanifest : manifestAt (pipeline.newProject stem source).manifestPath node with
      | error error =>
          rw [hmanifest] at h
          cases h
      | ok manifest =>
          rw [hmanifest] at h
          rw [← Except.ok.inj h]
          exact ⟨rfl, rfl⟩

/-! ## Histories and projects in step -/

section

variable {told : List (List Deed)} {projects : List Project}
  (h : List.Forall₂ Marks told projects)

include h

/-- Something more is done to the project at a place. -/
theorem marks_set {place : Nat} {project later : Project} (hplace : projects[place]? = some project)
    {deeds : List Deed} (hdeeds : ∀ history, Marks history project → Marks (history ++ deeds) later) :
    List.Forall₂ Marks (told.modify place (· ++ deeds)) (projects.set place later) := by
  induction h generalizing place with
  | nil => cases hplace
  | cons hfirst hrest ih =>
      cases place with
      | zero =>
          obtain rfl := Option.some.inj hplace
          exact .cons (hdeeds _ hfirst) hrest
      | succ place => exact .cons hfirst (ih hplace)

theorem marks_new {history : List Deed} {project : Project} (hproject : Marks history project) :
    List.Forall₂ Marks (told ++ [history]) (projects ++ [project]) :=
  List.rel_append h (.cons hproject .nil)

/-- **A task keeps histories and projects in step.** -/
theorem marks_work (pipeline : Pipeline σ) (task : Task) (tracker : Tracker (Session σ)) :
    List.Forall₂ Marks (histories.next told task (pipeline.work projects task tracker).1.1)
      (pipeline.work projects task tracker).1.2 := by
  cases task with
  | analyze script => exact h
  | generate metadata stem source =>
      show List.Forall₂ Marks (histories.next told (.generate metadata stem source)
        (.generated (pipeline.generate metadata stem source tracker).1))
        (withNew projects ((pipeline.generate metadata stem source tracker).1.map Prod.fst))
      cases hresult : (pipeline.generate metadata stem source tracker).1 with
      | error failure => exact h
      | ok generated => exact marks_new h (marks_generated hresult)
  | takeUp stem source =>
      show List.Forall₂ Marks (histories.next told (.takeUp stem source)
        (.takenUp (pipeline.existingProject stem source tracker.state.world).1))
        (withNew projects (pipeline.existingProject stem source tracker.state.world).1)
      rw [existingProject_apply]
      cases hresult : pipeline.foundProject stem source (tracker.state.world.files.find?
        (pipeline.newProject stem source).manifestPath) with
      | error failure => exact h
      | ok project => exact marks_new h (marks_foundProject hresult)
  | on place job =>
      rw [work_on_apply]
      cases hplace : projects[place]? with
      | none =>
          have hnone : (fun history : List Deed => history ++ (job.deed? .absent).toList) = id := by
            cases job <;> exact funext List.append_nil
          show List.Forall₂ Marks (told.modify place _) projects
          rw [hnone, List.modify_id]
          exact h
      | some project =>
          exact marks_set h hplace fun _ hhistory => marks_doJob hhistory pipeline job tracker

end

/-- Histories and projects stay in step over any tasks. -/
theorem marks_performAll (pipeline : Pipeline σ) (tasks : List ((World σ → World σ) × Task))
    {told : List (List Deed)} {desk : Desk} (h : List.Forall₂ Marks told desk.projects)
    (world : World σ) :
    List.Forall₂ Marks
      ((pipeline.performAll tasks desk world).1.1.foldl
        (fun told reply => histories.next told reply.1 reply.2) told)
      (pipeline.performAll tasks desk world).1.2.projects := by
  induction tasks generalizing told desk world with
  | nil => exact h
  | cons task rest ih =>
      obtain ⟨change, task⟩ := task
      exact ih (marks_work h pipeline task (desk.tracker pipeline (change world))) _

/-- **What projects say of their past**, after any tasks in any worlds: the status is that of the
last thing done, the failed stage is that of the last failure, however long ago, and so both fit
together and with the last stage exactly if nothing has failed or something has just now. -/
theorem marks_of_tasks (pipeline : Pipeline σ) (tasks : List ((World σ → World σ) × Task))
    (world : World σ) :
    List.Forall₂ (fun history project => Marks history project ∧
        (Consistent history project ↔ Unrecovered history))
      (histories (pipeline.performAll tasks .empty world).1.1)
      (pipeline.performAll tasks .empty world).1.2.projects :=
  (marks_performAll pipeline tasks .nil world).imp fun _ _ hmarks => ⟨hmarks, hmarks.consistent_iff⟩

/-- A manifest file has been put into the directory of the project `demo`. -/
def withManifest (world : World σ) : World σ :=
  { world with files := ⟨[], [(["build"], .directory), (["build", "demo"], .directory),
    (["build", "demo", "Cargo.toml"], .file [])]⟩ }

/-- A project is built too early, and then once its manifest file is there. -/
def builtAgain : List (Task × Reply) × Desk :=
  ((rehearsed []).performAll
    [(id, .takeUp "demo" none), (id, .on 0 .build), (withManifest, .on 0 .build)] .empty
    (World.untouched .empty)).1

/-- **The first failure is still named** after the stage has succeeded. -/
theorem failure_outlives_success :
    ¬ List.Forall₂ Consistent (histories builtAgain.1) builtAgain.2.projects := by
  have hprojects : builtAgain.2.projects.map (fun project =>
      (project.status, project.failedStage)) = [(.built, some "build")] := by decide +kernel
  obtain ⟨project, hproject, hmarks⟩ := List.map_eq_singleton_iff.mp hprojects
  obtain ⟨hstatus, hfailed⟩ := Prod.mk.inj hmarks
  rw [hproject]
  intro hconsistent
  obtain ⟨history, _, hfirst, -, -⟩ := List.forall₂_cons_right_iff.mp hconsistent
  have hnamed : project.failedStage ≠ none := by
    rw [hfailed]
    exact nofun
  rw [hfirst.failed, hstatus] at hnamed
  cases hnamed

end RustScript.Pipeline
