import RustScript.Proofs.Pipeline.Completed

/-!
# All work on one script

Whatever a pipeline does for a script, the world sees few kinds of actions: files are read, crates are
looked up, records are noted, outputs are kept, the files of the project are written, its commands are
called, and its directory is removed with the logs. A frame that allows these for a script
(`AllowsWork`) is kept to by every stage, by every job on its project and by every call (`keeps_call`),
however they end, as long as the journal has heard of no other script.
-/

set_option autoImplicit false

namespace RustScript

/-- An action whose results are of some kind is followed by one that keeps to the frame for these. -/
theorem Frame.keeps_bind_of {ω α β : Type} {frame : Frame ω} {action : StateM ω α}
    {next : α → StateM ω β} (gives : α → Prop) (haction : frame.Keeps action)
    (hgives : ∀ state, gives (action state).1)
    (hnext : ∀ value, gives value → frame.Keeps (next value)) :
    frame.Keeps (action >>= next) := fun state =>
  frame.trans (haction state) (hnext _ (hgives state) (action state).2)

namespace Pipeline

open RustScript.Progress

variable {σ α β : Type}

/-- The frame allows all that the pipeline does to the world for the script `stem`. -/
structure AllowsWork (pipeline : Pipeline σ) (stem : String) (frame : Frame (World σ)) : Prop
    extends AllowsReading frame where
  resolve : ∀ name, frame.Keeps (pipeline.resolver.resolve name)
  append : ∀ store ∈ pipeline.store, ∀ text, frame.Keeps (store.append stem text)
  save : ∀ store ∈ pipeline.store, ∀ stage ∈ commandStages, ∀ output,
    frame.Keeps (store.save stem stage output)
  write : ∀ source manifest,
    frame.Keeps (Act.files (writeProject (pipeline.newProject stem none) source manifest))
  rest : ∀ source,
    frame.Keeps (Act.files (writeRest (pipeline.newProject stem none) source))
  /-- What has a manifest can be built. -/
  build : ∀ world : World σ,
    world.files.exists (pipeline.newProject stem none).manifestPath = true →
    frame.rel world
      (pipeline.runner (buildCall pipeline.settings (pipeline.newProject stem none)) world).2
  /-- What has been built can be run. -/
  run : ∀ args capture, ∀ world : World σ,
    world.files.exists (pipeline.newProject stem none).targetPath = true →
    frame.rel world
      (pipeline.runner (runCall pipeline.settings (pipeline.newProject stem none) args capture)
        world).2
  /-- The project is removed if it is there. -/
  remove : ∀ world : World σ, frame.rel world
    (pipeline.removeAll (pipeline.newProject stem none)
      (world.files.exists (pipeline.newProject stem none).directory) world).2

/-- The task is about the script `stem`. Other tasks are about whatever their projects are about. -/
def Task.IsAbout (stem : String) : Task → Prop
  | .analyze script => script.stem = stem
  | .generate _ other _ => other = stem
  | .takeUp other _ => other = stem
  | .on _ _ => True

/-! ## Sessions about one script -/

/-- The frame of a session that is about the script `stem`, or about none so far. -/
def ownFrame (stem : String) (frame : Frame (World σ)) : Frame (Session σ) :=
  (frame.on Session.world).keeping fun session => ∀ other ∈ session.subject, other = stem

/-- The frame of work on the script `stem`. -/
def workFrame (pipeline : Pipeline σ) (stem : String) (frame : Frame (World σ)) :
    Frame (Tracker (Session σ)) := trackerFrame (ownFrame stem frame) pipeline.listeners

section

variable {pipeline : Pipeline σ} {stem : String} {frame : Frame (World σ)}

theorem keeps_work_onWorld {action : Act σ α} (h : frame.Keeps action) :
    (pipeline.workFrame stem frame).Keeps (onWorld action) :=
  keeps_onState fun session hown => ⟨hown, h session.world⟩

/-- What turns to the script first may rely on it from there. -/
theorem keeps_work_about {action : Run σ α}
    (h : (trackerFrame (sessionFrame stem frame) pipeline.listeners).Keeps action) :
    (pipeline.workFrame stem frame).Keeps (about stem >>= fun _ => action) := by
  intro tracker hlisteners
  obtain ⟨hafter, hsession⟩ := h (aboutStem stem tracker) hlisteners
  obtain ⟨hsubject, hworld⟩ := hsession rfl
  refine ⟨hafter, fun _ => ⟨fun other hother => ?_, hworld⟩⟩
  have hmem : other ∈ some stem := hsubject ▸ hother
  exact (Option.some.inj hmem).symm

/-- The journal hears of the script, or of nothing. -/
theorem keeps_work_listeners (hnotes : pipeline.NotesKeep stem frame) :
    ∀ listener ∈ pipeline.listeners, ∀ record, (ownFrame stem frame).Keeps (listener record) := by
  intro listener hlistener record session hown
  cases hsubject : session.subject with
  | some other =>
      obtain rfl : other = stem := hown other hsubject
      obtain ⟨hafter, hworld⟩ :=
        keeps_listeners_of_notes hnotes listener hlistener record session hsubject
      refine ⟨fun other hother => ?_, hworld⟩
      rw [hafter] at hother
      exact (Option.some.inj hother).symm
  | none =>
      obtain ⟨store, -, rfl⟩ := List.mem_map.mp hlistener
      have hdeaf : (journal store record session).2 = session := by
        unfold journal
        rw [Frame.stateBind_apply]
        have hget : ((get : StateM (Session σ) (Session σ)) session).1.subject = none := hsubject
        rw [hget]
        rfl
      rw [hdeaf]
      exact ⟨hown, frame.refl _⟩

end

/-! ## Stages -/

section

variable {pipeline : Pipeline σ} {stem : String} {frame : Frame (World σ)}
  (h : pipeline.AllowsWork stem frame)

include h

theorem AllowsWork.notes : pipeline.NotesKeep stem frame := fun _ => h.append

theorem keeps_work_skip (stage reason : String) :
    (pipeline.workFrame stem frame).Keeps (skip stage reason : Run σ Unit) :=
  Frame.keeps_bind (keeps_start (keeps_work_listeners h.notes) _) fun _ => Frame.keeps_pure _

/-- A tracked stage about the script. -/
theorem keeps_work_track {stage : String} {body : Nat → Run σ (Except Failure α)}
    (hbody : ∀ place,
      (trackerFrame (sessionFrame stem frame) pipeline.listeners).Keeps (body place)) :
    (pipeline.workFrame stem frame).Keeps
      (about stem >>= fun _ => track now stage Failure.message body) :=
  keeps_work_about
    (keeps_track (keeps_inSession h.now) (keeps_listeners_of_notes h.notes) stage _ hbody)

theorem keeps_work_analyze {path : Path} (hpath : path.stem = stem) :
    (pipeline.workFrame stem frame).Keeps (pipeline.analyze path) := by
  subst hpath
  have hscript : frame.Keeps (readScript path) := by
    refine Frame.keeps_bind (h.text path) fun content => ?_
    rcases content with (_ | _) | _ <;> exact Frame.keeps_pure _
  refine keeps_work_track h fun place => ?_
  refine Frame.keeps_bind (keeps_onWorld (Frame.keeps_bind hscript fun _ => Frame.keeps_pure _))
    fun result => ?_
  cases result with
  | error failure => exact Frame.keeps_pure _
  | ok metadata => exact Frame.keeps_bind (keeps_amend _ _) fun _ => Frame.keeps_pure _

theorem keeps_work_analysis {script : Script} (hscript : script.stem = stem) :
    (pipeline.workFrame stem frame).Keeps (script.analysis pipeline) := by
  cases script with
  | file path => exact keeps_work_analyze h hscript
  | text content =>
      subst hscript
      exact keeps_work_track h fun _ => Frame.keeps_pure _

/-- **Generating** keeps to what the look-ups and the writing keep to. -/
theorem keeps_work_generate (metadata : Source.Metadata) (source : Option Path) :
    (pipeline.workFrame stem frame).Keeps (pipeline.generate metadata stem source) := by
  have hresolve : ∀ project, frame.Keeps (pipeline.resolveManifest metadata project) := fun _ =>
    Frame.keeps_bind (keeps_merge h.resolve _ _ _ _ _) fun _ => Frame.keeps_pure _
  refine keeps_work_about (Frame.keeps_bind ?_ fun _ => Frame.keeps_pure _)
  refine keeps_inStage_of_notes h.notes h.now "generate" _ ?_
  exact keeps_generateStep_of (keeps_onWorld (hresolve _))
    (fun source manifest => keeps_onWorld (h.write source manifest))
    fun source => keeps_onWorld (h.rest source)

theorem keeps_work_keepOutput {stage : String} (hstage : stage ∈ commandStages)
    (output : Command.Output) :
    (trackerFrame (sessionFrame stem frame) pipeline.listeners).Keeps
      (pipeline.keepOutput stem stage output) := by
  unfold keepOutput
  cases hstore : pipeline.store with
  | none => exact Frame.keeps_pure ()
  | some store =>
      exact Frame.keeps_bind (keeps_onWorld (h.save store hstore stage hstage output)) fun _ =>
        Frame.keeps_pure _

/-- A stage that calls a command keeps to what the command keeps to where it can be called. -/
theorem keeps_work_commandStep {stage : String} (hstage : stage ∈ commandStages) {needed : Path}
    {call : Command.Call}
    (hcall : ∀ world : World σ, world.files.exists needed = true →
      frame.rel world (pipeline.runner call world).2)
    (missing : Failure) (fault : Command.Fault → Failure) (failed : Command.Output → Failure)
    (done : Command.Output → Step Command.Output) :
    (trackerFrame (sessionFrame stem frame) pipeline.listeners).Keeps
      (pipeline.commandStep stem stage needed missing call fault failed done) := by
  intro tracker hlisteners
  rw [commandStep_apply]
  cases hexists : tracker.state.world.files.exists needed with
  | false => exact ⟨hlisteners, Frame.refl _ _⟩
  | true =>
      have hran : (trackerFrame (sessionFrame stem frame) pipeline.listeners).rel tracker
          (inWorld tracker (pipeline.runner call tracker.state.world).2) := fun _ =>
        ⟨hlisteners, fun hsubject => ⟨hsubject, hcall _ hexists⟩⟩
      rw [if_pos rfl]
      revert hran
      rcases pipeline.runner call tracker.state.world with ⟨problem | output, world⟩
      · exact fun hran => hran hlisteners
      · exact fun hran =>
          Frame.trans _ hran (keeps_work_keepOutput h hstage output _) hlisteners

section

variable {project : Project} (hplace : project.SharesPlace (pipeline.newProject stem none))

include hplace

theorem keeps_work_build : (pipeline.workFrame stem frame).Keeps (pipeline.build project) := by
  have hname : project.stem = stem := hplace.stem
  have hstep : (trackerFrame (sessionFrame stem frame) pipeline.listeners).Keeps
      (pipeline.buildStep project) := by
    rw [buildStep_eq, buildCall_congr pipeline.settings hplace, hname]
    refine keeps_work_commandStep h (by decide) (fun world hexists => h.build world ?_) _ _ _ _
    unfold Project.manifestPath at hexists ⊢
    rwa [hplace.directory] at hexists
  unfold build
  rw [hname]
  exact keeps_work_about (Frame.keeps_bind (keeps_inStage_of_notes h.notes h.now "build" project hstep)
    fun _ => Frame.keeps_pure _)

theorem keeps_work_run (args : List String) (capture : Bool) :
    (pipeline.workFrame stem frame).Keeps (pipeline.run project args capture) := by
  have hname : project.stem = stem := hplace.stem
  have hstep : (trackerFrame (sessionFrame stem frame) pipeline.listeners).Keeps
      (pipeline.runStep project args capture) := by
    rw [runStep_eq, runCall_congr pipeline.settings hplace, hname]
    refine keeps_work_commandStep h (by decide) (fun world hexists => h.run args capture world ?_)
      _ _ _ _
    unfold Project.targetPath at hexists ⊢
    rwa [hplace.directory, hplace.stem] at hexists
  unfold run
  rw [hname]
  exact keeps_work_about (Frame.keeps_bind (keeps_inStage_of_notes h.notes h.now "run" project hstep)
    fun _ => Frame.keeps_pure _)

omit h in
theorem removeAll_congr (present : Bool) :
    pipeline.removeAll project present = pipeline.removeAll (pipeline.newProject stem none) present := by
  unfold removeAll
  rw [hplace.directory, hplace.stem]

/-- **Cleaning up** does to the world what the removal does. -/
theorem rel_clean (world : World σ) : frame.rel world (pipeline.clean project world).2 := by
  have hremoved := h.remove world
  rw [clean_apply, removeAll_congr hplace, hplace.directory]
  revert hremoved
  rcases pipeline.removeAll (pipeline.newProject stem none)
    (world.files.exists (pipeline.newProject stem none).directory) world with ⟨error | _, after⟩ <;>
    exact id

/-- **Every job** on the project of the script. -/
theorem keeps_work_doJob (job : Job) :
    (pipeline.workFrame stem frame).Keeps (pipeline.doJob project job) := by
  cases job with
  | build => exact Frame.keeps_bind (keeps_work_build h hplace) fun _ => Frame.keeps_pure _
  | run args capture =>
      exact Frame.keeps_bind (keeps_work_run h hplace args capture) fun _ => Frame.keeps_pure _
  | clean =>
      exact Frame.keeps_bind (keeps_work_onWorld (rel_clean h hplace)) fun _ => Frame.keeps_pure _

end

omit h in
theorem keeps_work_existingProject (source : Option Path) :
    frame.Keeps (pipeline.existingProject stem source) := by
  intro world
  rw [existingProject_apply]
  exact frame.refl _

/-! ## Calls -/

section

variable {outcome : Outcome} (hplace : outcome.project.SharesPlace (pipeline.newProject stem none))

include hplace

theorem keeps_work_buildIf (selected : Bool) :
    (pipeline.workFrame stem frame).Keeps (pipeline.buildIf selected outcome) := by
  unfold buildIf
  cases selected with
  | true => exact Frame.keeps_bind (keeps_work_build h hplace) fun _ => Frame.keeps_pure _
  | false => exact Frame.keeps_bind (keeps_work_skip h _ _) fun _ => Frame.keeps_pure _

theorem keeps_work_runIf (selected : Bool) (args : List String) (capture : Bool) :
    (pipeline.workFrame stem frame).Keeps (pipeline.runIf selected args capture outcome) := by
  unfold runIf
  cases selected with
  | true => exact Frame.keeps_bind (keeps_work_run h hplace args capture) fun _ => Frame.keeps_pure _
  | false => exact Frame.keeps_bind (keeps_work_skip h _ _) fun _ => Frame.keeps_pure _

omit h in
/-- Building leaves the project in its place. -/
theorem sharesPlace_buildIf {selected : Bool} {tracker : Tracker (Session σ)} {made : Outcome}
    (hmade : (pipeline.buildIf selected outcome tracker).1 = .ok made) :
    made.project.SharesPlace (pipeline.newProject stem none) := by
  cases selected with
  | true =>
      change (pipeline.build outcome.project tracker).1.2.map _ = .ok made at hmade
      cases hbuilt : (pipeline.build outcome.project tracker).1.2 with
      | error failure =>
          rw [hbuilt] at hmade
          cases hmade
      | ok output =>
          rw [hbuilt] at hmade
          rw [← Except.ok.inj hmade]
          obtain ⟨hdirectory, hstem⟩ := sharesPlace_build pipeline outcome.project tracker
          exact ⟨hdirectory.trans hplace.directory, hstem.trans hplace.stem⟩
  | false =>
      rw [← Except.ok.inj hmade]
      exact hplace

theorem keeps_work_buildAndRun (selection : Selection) (args : List String) (capture : Bool) :
    (pipeline.workFrame stem frame).Keeps
      (pipeline.buildAndRun selection args capture outcome) := by
  refine Frame.keeps_bind_of
    (fun result => ∀ made, result = .ok made →
      made.project.SharesPlace (pipeline.newProject stem none))
    (keeps_work_buildIf h hplace selection.build)
    (fun _ _ hmade => sharesPlace_buildIf hplace hmade) fun result hmade => ?_
  cases result with
  | error failure => exact Frame.keeps_pure _
  | ok made => exact keeps_work_runIf h (hmade made rfl) selection.run args capture

end

/-- Both parts of what goes on unless it failed. -/
theorem keeps_work_proceed {action : Run σ (Except Failure Outcome)} {source : Option Path}
    (haction : (pipeline.workFrame stem frame).Keeps action)
    (hplace : ∀ tracker made, (action tracker).1 = .ok made →
      made.IsAt (pipeline.newProject stem source))
    (selection : Selection) (args : List String) (capture : Bool) :
    (pipeline.workFrame stem frame).Keeps
      (proceed action (pipeline.buildAndRun selection args capture)) := by
  refine Frame.keeps_bind_of
    (fun result => ∀ made, result = .ok made → made.IsAt (pipeline.newProject stem source))
    haction hplace fun result hmade => ?_
  cases result with
  | error failure => exact Frame.keeps_pure _
  | ok made =>
      obtain ⟨hdirectory, hstem⟩ := hmade made rfl
      exact keeps_work_buildAndRun h ⟨hdirectory, hstem⟩ selection args capture

/-- **Every call** about the script, with any stages. -/
theorem keeps_call {script : Script} (hscript : script.stem = stem) (selection : Selection)
    (args : List String) (capture : Bool) :
    (pipeline.workFrame stem frame).Keeps (script.call pipeline selection args capture) := by
  subst hscript
  have hrenew : (pipeline.workFrame script.stem frame).Keeps pipeline.renew := fun tracker _ =>
    ⟨rfl, fun hown => ⟨hown, frame.refl _⟩⟩
  intro tracker
  cases hgenerate : selection.generate with
  | true =>
      rw [script.call_of_generate pipeline args capture tracker hgenerate]
      refine Frame.trans _ (hrenew tracker) ?_
      refine keeps_work_proceed h ?_ (fun _ _ => isAt_entering pipeline script) _ _ _ _
      refine Frame.keeps_bind (keeps_work_analysis h rfl) fun analyzed => ?_
      cases analyzed with
      | error failure => exact Frame.keeps_pure _
      | ok metadata =>
          exact Frame.keeps_bind (keeps_work_generate h metadata _) fun _ => Frame.keeps_pure _
  | false =>
      rw [script.call_of_resume hgenerate]
      have hbegin : (pipeline.workFrame script.stem frame).Keeps (script.beginning pipeline) := by
        cases script with
        | file path => exact hrenew
        | text content =>
            exact Frame.keeps_bind hrenew fun _ tracker hlisteners => ⟨hlisteners, fun _ =>
              ⟨fun _ hother => (Option.some.inj hother).symm, frame.refl _⟩⟩
      refine Frame.trans _ (hbegin tracker) ?_
      refine keeps_work_proceed h ?_ (fun _ _ => isAt_resume pipeline script) _ _ _ _
      exact Frame.keeps_bind (keeps_work_skip h _ _) fun _ =>
        Frame.keeps_bind (keeps_work_onWorld (keeps_work_existingProject _)) fun _ =>
          Frame.keeps_pure _

/-- **Every task** about the script, with projects in its directory. -/
theorem keeps_work {projects : List Project}
    (hprojects : ∀ project ∈ projects, project.SharesPlace (pipeline.newProject stem none))
    {task : Task} (htask : task.IsAbout stem) :
    (pipeline.workFrame stem frame).Keeps (pipeline.work projects task) := by
  cases task with
  | analyze script =>
      exact Frame.keeps_bind (keeps_work_analyze h htask) fun _ => Frame.keeps_pure _
  | generate metadata other source =>
      obtain rfl : other = stem := htask
      exact Frame.keeps_bind (keeps_work_generate h metadata source) fun _ => Frame.keeps_pure _
  | takeUp other source =>
      obtain rfl : other = stem := htask
      exact Frame.keeps_bind (keeps_work_onWorld (keeps_work_existingProject source)) fun _ =>
        Frame.keeps_pure _
  | on place job =>
      intro tracker
      rw [work_on_apply]
      cases hplace : projects[place]? with
      | none => exact Frame.refl _ _
      | some project =>
          exact keeps_work_doJob h (hprojects project (List.mem_of_getElem? hplace)) job tracker

end

/-! ## Whatever is asked for -/

/-- Something that a pipeline is asked to do. -/
inductive Operation
  | analyze (script : Path)
  | generate (metadata : Source.Metadata) (stem : String) (source : Option Path)
  /-- A project is taken up as it was left. -/
  | takeUp (stem : String) (source : Option Path)
  | on (project : Project) (job : Job)
  | list (project : Project)
  | call (script : Script) (selection : Selection) (args : List String) (capture : Bool)

/-- The operation is about the script `stem`. -/
def Operation.IsAbout (pipeline : Pipeline σ) (stem : String) : Operation → Prop
  | .analyze script => script.stem = stem
  | .generate _ other _ => other = stem
  | .takeUp other _ => other = stem
  | .on project _ => project.SharesPlace (pipeline.newProject stem none)
  | .list project => project.SharesPlace (pipeline.newProject stem none)
  | .call script _ _ _ => script.stem = stem

/-- Does what is asked for, whether it succeeds or fails. -/
def operate (pipeline : Pipeline σ) : Operation → Run σ Unit
  | .analyze script => do let _ ← pipeline.analyze script
  | .generate metadata stem source => do let _ ← pipeline.generate metadata stem source
  | .takeUp stem source => do let _ ← onWorld (pipeline.existingProject stem source)
  | .on project job => do let _ ← pipeline.doJob project job
  | .list project => do let _ ← onWorld (list project)
  | .call script selection args capture => do
      let _ ← script.call pipeline selection args capture

/-- Does one operation after the other. -/
def operateAll (pipeline : Pipeline σ) (operations : List Operation) : Run σ Unit :=
  operations.forM pipeline.operate

section

variable {pipeline : Pipeline σ} {stem : String} {frame : Frame (World σ)}
  (h : pipeline.AllowsWork stem frame)

include h

/-- **One operation** keeps to what is allowed for the script. -/
theorem keeps_operate {operation : Operation} (hoperation : operation.IsAbout pipeline stem) :
    (pipeline.workFrame stem frame).Keeps (pipeline.operate operation) := by
  cases operation with
  | analyze script =>
      exact Frame.keeps_bind (keeps_work_analyze h hoperation) fun _ => Frame.keeps_pure _
  | generate metadata other source =>
      obtain rfl : other = stem := hoperation
      exact Frame.keeps_bind (keeps_work_generate h metadata source) fun _ => Frame.keeps_pure _
  | takeUp other source =>
      obtain rfl : other = stem := hoperation
      exact Frame.keeps_bind (keeps_work_onWorld (keeps_work_existingProject source)) fun _ =>
        Frame.keeps_pure _
  | on project job =>
      exact Frame.keeps_bind (keeps_work_doJob h hoperation job) fun _ => Frame.keeps_pure _
  | list project =>
      have hlist : frame.Keeps (list project) := fun world => frame.refl world
      exact Frame.keeps_bind (keeps_work_onWorld hlist) fun _ => Frame.keeps_pure _
  | call script selection args capture =>
      exact Frame.keeps_bind (keeps_call h hoperation selection args capture) fun _ =>
        Frame.keeps_pure _

/-- **Any sequence of operations** keeps to what is allowed for the script. -/
theorem keeps_operateAll {operations : List Operation}
    (hoperations : ∀ operation ∈ operations, operation.IsAbout pipeline stem) :
    (pipeline.workFrame stem frame).Keeps (pipeline.operateAll operations) := by
  induction operations with
  | nil => exact Frame.keeps_pure _
  | cons operation rest ih =>
      exact Frame.keeps_bind (keeps_operate h (hoperations operation List.mem_cons_self)) fun _ =>
        ih fun other hother => hoperations other (List.mem_cons_of_mem _ hother)

end

end Pipeline

end RustScript
