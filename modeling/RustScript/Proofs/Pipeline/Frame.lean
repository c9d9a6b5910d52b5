import RustScript.Log.Local
import RustScript.Pipeline.Whole
import RustScript.Proofs.Files.Frame

/-!
# Frames of stages

Stages act on the world under a tracker, which tells listeners of every change of a record. What
the stage itself, the clock and the listeners keep to, the tracked stage keeps to as well
(`keeps_track`), and so does a stage on a project (`keeps_inStage`).
-/

set_option autoImplicit false

namespace RustScript

/-! ## Tracked stages -/

namespace Progress

variable {ω α ε : Type} {frame : Frame ω} {listeners : List (Listener ω)}

/-- The frame of a tracker with known listeners. -/
def trackerFrame (frame : Frame ω) (listeners : List (Listener ω)) : Frame (Tracker ω) :=
  (frame.on Tracker.state).keeping fun tracker => tracker.listeners = listeners

theorem keeps_onState {action : StateM ω α} (h : frame.Keeps action) :
    (trackerFrame frame listeners).Keeps (onState action) := fun tracker hlisteners =>
  ⟨hlisteners, h tracker.state⟩

theorem keeps_amend (place : Nat) (change : Record → Record) :
    (trackerFrame frame listeners).Keeps (amend place change) := fun tracker hlisteners =>
  ⟨hlisteners, frame.refl tracker.state⟩

theorem keeps_tellAll {record : Record} {listeners : List (Listener ω)}
    (h : ∀ listener ∈ listeners, frame.Keeps (listener record)) :
    frame.Keeps (tellAll record listeners) := by
  induction listeners with
  | nil => exact Frame.keeps_pure ()
  | cons listener rest ih =>
      refine Frame.keeps_bind (h listener List.mem_cons_self) fun _ => ?_
      exact ih fun other hother => h other (List.mem_cons_of_mem _ hother)

theorem keeps_tell (h : ∀ listener ∈ listeners, ∀ record, frame.Keeps (listener record))
    (record : Record) : (trackerFrame frame listeners).Keeps (tell record) := by
  intro tracker hlisteners
  have htell := keeps_tellAll fun listener hmem => h listener hmem record
  rw [← hlisteners] at htell
  exact ⟨hlisteners, htell tracker.state⟩

theorem keeps_start (h : ∀ listener ∈ listeners, ∀ record, frame.Keeps (listener record))
    (record : Record) : (trackerFrame frame listeners).Keeps (start record) := by
  refine Frame.keeps_bind Frame.keeps_get fun tracker => ?_
  refine Frame.keeps_bind (fun tracker hlisteners => ⟨hlisteners, frame.refl _⟩) fun _ => ?_
  exact Frame.keeps_bind (keeps_tell h record) fun _ => Frame.keeps_pure _

theorem keeps_finish {now : StateM ω Binary64} (hnow : frame.Keeps now)
    (h : ∀ listener ∈ listeners, ∀ record, frame.Keeps (listener record)) (place : Nat)
    (error : Option String) : (trackerFrame frame listeners).Keeps (finish now place error) := by
  refine Frame.keeps_bind (keeps_onState hnow) fun reading => ?_
  refine Frame.keeps_bind (keeps_amend _ _) fun _ => ?_
  refine Frame.keeps_bind Frame.keeps_get fun tracker => ?_
  split
  · exact keeps_tell h _
  · exact Frame.keeps_pure _

/-- **A tracked stage keeps to what its parts keep to.** -/
theorem keeps_track {now : StateM ω Binary64} (hnow : frame.Keeps now)
    (h : ∀ listener ∈ listeners, ∀ record, frame.Keeps (listener record)) (stage : String)
    (describe : ε → String) {body : Nat → Tracked ω (Except ε α)}
    (hbody : ∀ place, (trackerFrame frame listeners).Keeps (body place)) :
    (trackerFrame frame listeners).Keeps (track now stage describe body) := by
  refine Frame.keeps_bind (keeps_onState hnow) fun reading => ?_
  refine Frame.keeps_bind (keeps_start h _) fun place => ?_
  refine Frame.keeps_bind (hbody place) fun result => ?_
  exact Frame.keeps_bind (keeps_finish hnow h place _) fun _ => Frame.keeps_pure _

end Progress

/-! ## Actions on the world -/

namespace Act

variable {σ α : Type} {here : Place} {inside way : Place → Prop}

/-- The frame of the files of a world. -/
def frame (σ : Type) (here : Place) (inside way : Place → Prop) : Frame (World σ) :=
  (FileSystem.frame here inside way).on World.files

theorem files_apply (action : FileAction α) (world : World σ) :
    Act.files action world =
      ((action.run world.files).1, { world with files := (action.run world.files).2 }) := rfl

theorem keeps_files {action : FileAction α}
    (h : FileAction.Keeps (FileSystem.frame here inside way) action) :
    (frame σ here inside way).Keeps (Act.files action) := fun world => h world.files

theorem keeps_look (view : FileSystem → α) : (frame σ here inside way).Keeps (Act.look view) :=
  fun world => Frame.refl _ world

theorem keeps_now : (frame σ here inside way).Keeps Act.now := fun world =>
  (FileSystem.frame here inside way).refl world.files

end Act

namespace Pipeline

open RustScript.Progress

variable {σ α : Type} {here : Place} {inside way : Place → Prop} {stem : String}

/-- The frame of a session about the script `stem`. -/
def sessionFrame (stem : String) (frame : Frame (World σ)) : Frame (Session σ) :=
  (frame.on Session.world).keeping fun session => session.subject = some stem

variable {frame : Frame (World σ)} {listeners : List (Listener (Session σ))}

theorem keeps_inSession {action : Act σ α} (h : frame.Keeps action) :
    (sessionFrame stem frame).Keeps (inSession action) := fun session hsubject =>
  ⟨hsubject, h session.world⟩

theorem keeps_onWorld {action : Act σ α} (h : frame.Keeps action) :
    (trackerFrame (sessionFrame stem frame) listeners).Keeps (onWorld action) :=
  keeps_onState (keeps_inSession h)

/-- The journal keeps to what the store keeps to for the script at hand. -/
theorem keeps_journal {store : Log.Store σ}
    (h : stem.isEmpty = false → ∀ text, frame.Keeps (store.append stem text))
    (record : Record) : (sessionFrame stem frame).Keeps (journal store record) := by
  intro session hsubject
  have hnote : (sessionFrame stem frame).Keeps (if stem.isEmpty then pure (.ok ()) else do
      return (← inSession (store.append stem (note record))).mapError SystemError.message :
        StateM (Session σ) (Except String Unit)) := by
    split
    · exact Frame.keeps_pure _
    · next hstem =>
        have happend := h (Bool.eq_false_iff.mpr hstem) (note record)
        exact Frame.keeps_bind (keeps_inSession happend) fun _ => Frame.keeps_pure _
  -- the session is about this script, so the note goes to its log
  have hget : ((get : StateM (Session σ) (Session σ)) session).1.subject = some stem := hsubject
  unfold journal
  rw [Frame.stateBind_apply, hget]
  exact hnote session hsubject

/-- Notes about the script `stem` keep to a frame. -/
def NotesKeep (pipeline : Pipeline σ) (stem : String) (frame : Frame (World σ)) : Prop :=
  stem.isEmpty = false → ∀ store ∈ pipeline.store, ∀ text, frame.Keeps (store.append stem text)

theorem keeps_listeners_of_notes {pipeline : Pipeline σ} (h : pipeline.NotesKeep stem frame) :
    ∀ listener ∈ pipeline.listeners, ∀ record,
      (sessionFrame stem frame).Keeps (listener record) := by
  intro listener hlistener record
  obtain ⟨store, hstore, rfl⟩ := List.mem_map.mp hlistener
  exact keeps_journal (fun hstem => h hstem store (Option.mem_toList.mp hstore)) record

/-- The collaborators of the pipeline keep to a frame as far as the script `stem` is concerned. -/
structure Collaborates (pipeline : Pipeline σ) (stem : String) (frame : Frame (World σ)) :
    Prop where
  resolve : ∀ name, frame.Keeps (pipeline.resolver.resolve name)
  append : ∀ store ∈ pipeline.store, ∀ text, frame.Keeps (store.append stem text)
  delete : ∀ store ∈ pipeline.store, frame.Keeps (store.delete stem)

theorem keeps_listeners {pipeline : Pipeline σ} (h : pipeline.Collaborates stem frame) :
    ∀ listener ∈ pipeline.listeners, ∀ record,
      (sessionFrame stem frame).Keeps (listener record) :=
  keeps_listeners_of_notes fun _ => h.append

/-- **A stage on a project keeps to what its body keeps to**, if the notes about it do. -/
theorem keeps_inStage_of_notes {pipeline : Pipeline σ} (hnotes : pipeline.NotesKeep stem frame)
    (hnow : frame.Keeps Act.now) (stage : String) (project : Project)
    {body : Run σ (Except Failure (Step α))}
    (hbody : (trackerFrame (sessionFrame stem frame) pipeline.listeners).Keeps body) :
    (trackerFrame (sessionFrame stem frame) pipeline.listeners).Keeps
      (inStage stage project body) := by
  refine Frame.keeps_bind Frame.keeps_get fun tracker => ?_
  refine Frame.keeps_bind ?_ fun result => ?_
  · refine keeps_track (keeps_inSession hnow) (keeps_listeners_of_notes hnotes) _ _ fun place => ?_
    refine Frame.keeps_bind hbody fun result => ?_
    cases result with
    | error failure => exact Frame.keeps_pure _
    | ok step => exact Frame.keeps_bind (keeps_amend _ _) fun _ => Frame.keeps_pure _
  · refine Frame.keeps_bind Frame.keeps_get fun after => ?_
    cases result <;> exact Frame.keeps_pure _

theorem keeps_inStage {pipeline : Pipeline σ} (h : pipeline.Collaborates stem frame)
    (hnow : frame.Keeps Act.now) (stage : String) (project : Project)
    {body : Run σ (Except Failure (Step α))}
    (hbody : (trackerFrame (sessionFrame stem frame) pipeline.listeners).Keeps body) :
    (trackerFrame (sessionFrame stem frame) pipeline.listeners).Keeps
      (inStage stage project body) :=
  keeps_inStage_of_notes (fun _ => h.append) hnow stage project hbody

theorem keeps_lookUpAll {resolver : Registry.Resolver σ}
    (h : ∀ name, frame.Keeps (resolver.resolve name)) (names : List String) :
    frame.Keeps (Manifest.lookUpAll resolver names) := by
  induction names with
  | nil => exact Frame.keeps_pure _
  | cons name rest ih =>
      refine Frame.keeps_bind (h name) fun answer => ?_
      cases Manifest.readAnswer answer with
      | error error => exact Frame.keeps_pure _
      | ok given => exact Frame.keeps_bind ih fun _ => Frame.keeps_pure _

theorem keeps_merge {resolver : Registry.Resolver σ}
    (h : ∀ name, frame.Keeps (resolver.resolve name)) (version edition : String)
    (metadata : Source.Metadata) (stem : String) (binary : Path) :
    frame.Keeps (Manifest.merge resolver version edition metadata stem binary) := by
  unfold Manifest.merge
  split
  · exact Frame.keeps_pure _
  · dsimp only
    split
    · exact Frame.keeps_pure _
    · exact Frame.keeps_bind (keeps_lookUpAll h _) fun _ => Frame.keeps_pure _

/-- Generating keeps to what resolving the manifest and writing the files keep to. -/
theorem keeps_generateStep_of {frame : Frame (Tracker (Session σ))} {pipeline : Pipeline σ}
    {metadata : Source.Metadata} {project : Project}
    (hresolve : frame.Keeps (onWorld (pipeline.resolveManifest metadata project)))
    (hwrite : ∀ source manifest,
      frame.Keeps (onWorld (Act.files (writeProject project source manifest))))
    (hrest : ∀ source, frame.Keeps (onWorld (Act.files (writeRest project source)))) :
    frame.Keeps (pipeline.generateStep metadata project) := by
  refine Frame.keeps_bind hresolve fun resolved => ?_
  rcases resolved with failure | ⟨metadata, manifest, text⟩
  · dsimp only
    unfold giveUp
    split
    · refine Frame.keeps_bind (hrest _) fun written => ?_
      cases written <;> exact Frame.keeps_pure _
    · exact Frame.keeps_pure _
  · refine Frame.keeps_bind (hwrite _ _) fun written => ?_
    cases written <;> exact Frame.keeps_pure _

end Pipeline

end RustScript
