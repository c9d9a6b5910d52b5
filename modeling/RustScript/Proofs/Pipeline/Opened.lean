import RustScript.Proofs.Files.Standing
import RustScript.Proofs.Pipeline.Untouched

/-!
# The two ends of a stage

A stage opens a record, does its work and closes the record; the journal hears of both. Here a stage
on a project is taken apart into these three pieces (`inStage_run`), with what the outer two do to
the world: they read the clock and write notes.
-/

set_option autoImplicit false

namespace RustScript.Pipeline

open RustScript.Progress

variable {σ α : Type}

/-! ## Opening and closing -/

/-- Opens the record of a stage. -/
def opening (stage : String) : Run σ Nat := do start (.begin stage (← onState now))

/-- Closes the record of a stage, with the detail or the error that its body gave. -/
def closing (place : Nat) (result : Except Failure (Step α)) : Run σ Unit := do
  if let .ok step := result then setDetail place step.detail
  finish now place (match result with
    | .ok _ => none
    | .error failure => some failure.message)

theorem recorded_apply (stage : String) (body : Run σ (Except Failure (Step α)))
    (tracker : Tracker (Session σ)) :
    recorded stage body tracker =
      ((body (opening stage tracker).2).1,
        (closing (opening stage tracker).1 (body (opening stage tracker).2).1
          (body (opening stage tracker).2).2).2) := by
  unfold recorded track
  rw [Frame.stateBind_apply, Frame.stateBind_apply, Frame.stateBind_apply]
  have hopening : opening stage tracker =
      start (.begin stage (onState now tracker).1) (onState now tracker).2 := rfl
  rw [← hopening]
  simp only [Frame.stateBind_apply]
  rcases body (opening stage tracker).2 with ⟨_ | _, after⟩ <;> rfl

/-- **A stage on a project** is its body between an opening and a closing. -/
theorem inStage_run (stage : String) (project : Project) (body : Run σ (Except Failure (Step α)))
    (tracker : Tracker (Session σ)) :
    inStage stage project body tracker =
      (conclude stage project
        ((closing (opening stage tracker).1 (body (opening stage tracker).2).1
          (body (opening stage tracker).2).2).2.records[tracker.records.length]? >>=
            Record.elapsed)
        (body (opening stage tracker).2).1,
        (closing (opening stage tracker).1 (body (opening stage tracker).2).1
          (body (opening stage tracker).2).2).2) := by
  rw [inStage_apply, recorded_apply]

/-- The action does no more than read the clock and write notes about the script `stem`. -/
def OnlyNotes (pipeline : Pipeline σ) (stem : String) (action : Run σ α) : Prop :=
  ∀ frame : Frame (World σ), frame.Keeps Act.now → pipeline.NotesKeep stem frame →
    (trackerFrame (sessionFrame stem frame) pipeline.listeners).Keeps action

theorem onlyNotes_opening (pipeline : Pipeline σ) (stem stage : String) :
    pipeline.OnlyNotes stem (opening stage) := fun _ hnow hnotes =>
  Frame.keeps_bind (keeps_onState (keeps_inSession hnow)) fun _ =>
    keeps_start (keeps_listeners_of_notes hnotes) _

theorem onlyNotes_closing (pipeline : Pipeline σ) (stem : String) (place : Nat)
    (result : Except Failure (Step α)) : pipeline.OnlyNotes stem (closing place result) := by
  intro frame hnow hnotes
  have hfinish := keeps_finish (keeps_inSession hnow) (keeps_listeners_of_notes hnotes) place
  cases result with
  | error failure => exact hfinish _
  | ok step => exact Frame.keeps_bind (keeps_amend _ _) fun _ => hfinish _

/-- The journal hears of every record, and its notes are about the script `stem`. -/
structure Reports (pipeline : Pipeline σ) (stem : String) (tracker : Tracker (Session σ)) :
    Prop where
  listeners : tracker.listeners = pipeline.listeners
  subject : tracker.state.subject = some stem

theorem reports_aboutStem {pipeline : Pipeline σ} {tracker : Tracker (Session σ)}
    (h : tracker.listeners = pipeline.listeners) (stem : String) :
    pipeline.Reports stem (aboutStem stem tracker) := ⟨h, rfl⟩

section

variable {pipeline : Pipeline σ} {stem : String} {action : Run σ α} {tracker : Tracker (Session σ)}
  (h : pipeline.OnlyNotes stem action) (hreports : pipeline.Reports stem tracker)

include h hreports

theorem OnlyNotes.rel {frame : Frame (World σ)} (hnow : frame.Keeps Act.now)
    (hnotes : pipeline.NotesKeep stem frame) :
    frame.rel tracker.state.world (action tracker).2.state.world :=
  ((h frame hnow hnotes tracker hreports.listeners).2 hreports.subject).2

theorem OnlyNotes.reports : pipeline.Reports stem (action tracker).2 := by
  have hkeeps := h ⟨fun _ _ => True, fun _ => trivial, fun _ _ => trivial⟩ (fun _ => trivial)
    (fun _ _ _ _ _ => trivial) tracker hreports.listeners
  exact ⟨hkeeps.1, (hkeeps.2 hreports.subject).1⟩

end

theorem records_opening (stage : String) (tracker : Tracker (Session σ)) :
    (opening stage tracker).1 = tracker.records.length ∧
      (opening stage tracker).2.records.length = tracker.records.length + 1 := by
  have hrecords : (opening stage tracker).2.records =
      tracker.records ++ [.begin stage (onState now tracker).1] := rfl
  exact ⟨rfl, by rw [hrecords, List.length_append, List.length_singleton]⟩

/-- The last thing about a record that there is: the clock is read, and the listeners hear of it. -/
theorem closing_tells (place : Nat) (result : Except Failure (Step α))
    {tracker : Tracker (Session σ)} (h : place < tracker.records.length) :
    ∃ record, (closing place result tracker).2.state =
      (tellAll record tracker.listeners (now tracker.state).2).2 := by
  have hfinish : ∀ (error : Option String) (tracker : Tracker (Session σ)),
      place < tracker.records.length → ∃ record, (finish now place error tracker).2.state =
        (tellAll record tracker.listeners (now tracker.state).2).2 := by
    intro error tracker hplace
    have hclosed : place < (tracker.records.modify place
        (fun record => record.finish (now tracker.state).1 error)).length := by
      rwa [List.length_modify]
    refine ⟨(tracker.records.modify place
      (fun record => record.finish (now tracker.state).1 error))[place], ?_⟩
    unfold finish
    rw [Frame.stateBind_apply, Frame.stateBind_apply, Frame.stateBind_apply]
    have hrecord : (tracker.records.modify place fun record =>
        record.finish (onState now tracker).1 error)[place]? = some (tracker.records.modify place
          fun record => record.finish (now tracker.state).1 error)[place] :=
      List.getElem?_eq_getElem hclosed
    have hamended : ((get : Run σ _) (amend place
        (fun record => record.finish (onState now tracker).1 error)
        (onState now tracker).2).2).1.records = tracker.records.modify place fun record =>
          record.finish (onState now tracker).1 error := rfl
    rw [hamended, hrecord]
    rfl
  cases result with
  | error failure => exact hfinish _ tracker h
  | ok step =>
      have hplace : place < (setDetail place step.detail tracker).2.records.length := by
        show place < (tracker.records.modify place _).length
        rwa [List.length_modify]
      exact hfinish none (setDetail place step.detail tracker).2 hplace

/-! ## Notes in files -/

/-- The place is that of the journal of a script. -/
def JournalAt (here : Place) (logs : Option Path) (stem : String) (place : Place) : Prop :=
  ∃ base ∈ logs, place = ((base.child stem).child Log.journalName).lands here

/-- The directory of the logs of a script stands, or cannot be made. -/
def LogsSettled (logs : Option Path) (stem : String) (files : FileSystem) : Prop :=
  stem.isEmpty = false → ∀ base ∈ logs, FileAction.Settled files (base.child stem)

/-- The frame of notes: the journal is written, and missing directories on the way to it are
made. -/
def noteFrame (here : Place) (logs : Option Path) (stem : String) : Frame FileSystem :=
  (FileSystem.frame here (JournalAt here logs stem) (OnWayToLogs here logs stem)).both
    FileSystem.growing

/-- The frame of notes once the directory for them is settled: the journal is written. -/
def settledFrame (here : Place) (logs : Option Path) (stem : String) : Frame FileSystem :=
  Frame.keeping (fun files => files.here = here ∧ LogsSettled logs stem files)
    ⟨FileSystem.Confined (JournalAt here logs stem) fun _ => False, .refl, .trans⟩

theorem LogsSettled.grows {logs : Option Path} {stem : String} {before after : FileSystem}
    (h : LogsSettled logs stem before) (hgrows : FileSystem.Grows before after) :
    LogsSettled logs stem after := fun hstem base hbase => (h hstem base hbase).grows hgrows

/-- A note in a file: the directory for it is made, and then the journal is written. -/
def noteAction (directory : Path) (event : String) : FileAction Unit := do
  FileAction.makeDirectories directory
  FileAction.append (directory.child Log.journalName) (Utf8.encode (Log.journalLine event))

theorem keeps_noteAction (here : Place) {base : Path} {logs : Option Path} (hbase : base ∈ logs)
    (stem event : String) :
    FileAction.Keeps (noteFrame here logs stem) (noteAction (base.child stem) event) := by
  have hplaces : FileAction.Keeps (FileSystem.frame here (JournalAt here logs stem)
      (OnWayToLogs here logs stem)) (noteAction (base.child stem) event) :=
    FileAction.keeps_bind
      (FileAction.keeps_makeDirectories fun place hplace => ⟨base, hbase, hplace⟩)
      fun _ => FileAction.keeps_append ⟨base, hbase, rfl⟩ _
  have hgrows : FileAction.Keeps FileSystem.growing (noteAction (base.child stem) event) :=
    FileAction.keeps_bind (FileAction.keeps_growing_makeDirectories _)
      fun _ => FileAction.keeps_growing_change _ _
  exact fun files => ⟨hplaces files, hgrows files⟩

/-- A note settles the directory for notes. -/
theorem settled_noteAction (directory : Path) (event : String) (files : FileSystem) :
    FileAction.Settled ((noteAction directory event).run files).2 directory := by
  have hmade := FileAction.settled_makeDirectories directory files
  unfold noteAction
  rw [FileAction.run_bind]
  revert hmade
  rcases (FileAction.makeDirectories directory).run files with ⟨error | _, made⟩
  · exact id
  · exact fun hmade => hmade.grows (FileAction.keeps_growing_change _ _ made)

theorem keeps_noteAction_of_settled (here : Place) {base : Path} {logs : Option Path}
    (hbase : base ∈ logs) {stem : String} (hstem : stem.isEmpty = false) (event : String) :
    FileAction.Keeps (settledFrame here logs stem) (noteAction (base.child stem) event) := by
  rintro files ⟨hhere, hsettled⟩
  have hgrows := (keeps_noteAction here hbase stem event files).2
  refine ⟨⟨hgrows.here.trans hhere, hsettled.grows hgrows⟩, ?_⟩
  have hsame := FileAction.makeDirectories_of_settled (hsettled hstem base hbase)
  unfold noteAction
  rw [FileAction.run_bind]
  revert hsame
  rcases (FileAction.makeDirectories (base.child stem)).run files with ⟨error | _, made⟩
  · rintro rfl
    exact .refl _
  · rintro rfl
    have hplace : JournalAt here logs stem (((base.child stem).child Log.journalName).lands here) :=
      ⟨base, hbase, rfl⟩
    exact (FileAction.keeps_append hplace _ made hhere).2

section

variable {pipeline : Pipeline σ} {logs : Option Path} (hlogs : pipeline.WritesOnlyLogs logs)

include hlogs

theorem WritesOnlyLogs.mem_store {store : Log.Store σ} (h : store ∈ pipeline.store) :
    ∃ base ∈ logs, store = Log.storeIn base := by
  rw [hlogs.store] at h
  obtain ⟨base, hbase, rfl⟩ := Option.mem_map.mp h
  exact ⟨base, hbase, rfl⟩

theorem WritesOnlyLogs.notesKeep (here : Place) (stem : String) :
    pipeline.NotesKeep stem ((noteFrame here logs stem).on World.files) := by
  intro _ store hstore text world
  obtain ⟨base, hbase, rfl⟩ := hlogs.mem_store hstore
  exact keeps_noteAction here hbase stem text world.files

section

variable {stem : String} {action : Run σ α} {tracker : Tracker (Session σ)}
  (h : pipeline.OnlyNotes stem action) (hreports : pipeline.Reports stem tracker)

include h hreports

/-- **Notes** change the journal, and make missing directories on the way to it. -/
theorem WritesOnlyLogs.confined_notes :
    FileSystem.Confined (JournalAt tracker.state.world.files.here logs stem)
        (OnWayToLogs tracker.state.world.files.here logs stem) tracker.state.world.files
        (action tracker).2.state.world.files ∧
      FileSystem.Grows tracker.state.world.files (action tracker).2.state.world.files := by
  obtain ⟨hconfined, hgrows⟩ := h.rel hreports
    (fun world => (noteFrame _ logs stem).refl world.files) (hlogs.notesKeep _ stem)
  exact ⟨(hconfined rfl).2, hgrows⟩

/-- Once the directory for notes is settled, they change nothing but the journal. -/
theorem WritesOnlyLogs.confined_notes_of_settled
    (hsettled : LogsSettled logs stem tracker.state.world.files) :
    FileSystem.Confined (JournalAt tracker.state.world.files.here logs stem) (fun _ => False)
        tracker.state.world.files (action tracker).2.state.world.files := by
  have hnotes : pipeline.NotesKeep stem
      ((settledFrame tracker.state.world.files.here logs stem).on World.files) := by
    intro hstem store hstore text world
    obtain ⟨base, hbase, rfl⟩ := hlogs.mem_store hstore
    exact keeps_noteAction_of_settled _ hbase hstem text world.files
  exact (h.rel hreports (fun world => (settledFrame _ logs stem).refl world.files) hnotes
    ⟨rfl, hsettled⟩).2

/-- Notes leave alone what the collaborators keep. -/
theorem WritesOnlyLogs.outside_notes :
    (action tracker).2.state.world.outside = tracker.state.world.outside := by
  have hnotes : pipeline.NotesKeep stem ((⟨(· = ·), fun _ => rfl, Eq.trans⟩ : Frame σ).on
      World.outside) := by
    intro _ store hstore text world
    obtain ⟨base, -, rfl⟩ := hlogs.mem_store hstore
    rfl
  exact (h.rel hreports (fun _ => rfl) hnotes).symm

end

/-- **Closing a record settles the directory for notes.** -/
theorem WritesOnlyLogs.settled_closing {stem : String} (place : Nat)
    (result : Except Failure (Step α)) {tracker : Tracker (Session σ)}
    (hplace : place < tracker.records.length) (hreports : pipeline.Reports stem tracker) :
    LogsSettled logs stem (closing place result tracker).2.state.world.files := by
  intro hstem base hbase
  obtain ⟨record, hstate⟩ := closing_tells place result hplace
  have hstore : pipeline.listeners = [journal (Log.storeIn base)] := by
    unfold Pipeline.listeners
    rw [hlogs.store, Option.mem_def.mp hbase]
    rfl
  have htold : (tellAll record tracker.listeners (now tracker.state).2).2 =
      (journal (Log.storeIn base) record (now tracker.state).2).2 := by
    rw [hreports.listeners, hstore]
    rfl
  have hsubject : (now tracker.state).2.subject = some stem := hreports.subject
  rw [hstate, htold, journal_apply, hsubject]
  dsimp only
  rw [if_neg (Bool.eq_false_iff.mp hstem)]
  exact settled_noteAction _ _ _

/-- What happens between the opening and the closing of a record goes on in the world alone. -/
def bodyFrame (σ : Type) : Frame (Tracker (Session σ)) where
  rel before after := after.listeners = before.listeners ∧ after.records = before.records ∧
    after.state.subject = before.state.subject
  refl _ := ⟨rfl, rfl, rfl⟩
  trans first second := ⟨second.1.trans first.1, second.2.1.trans first.2.1,
    second.2.2.trans first.2.2⟩

omit hlogs in
theorem keeps_body_onWorld (action : Act σ α) : (bodyFrame σ).Keeps (onWorld action) :=
  fun _ => ⟨rfl, rfl, rfl⟩

omit hlogs in
/-- When the body of a stage ends, the record that was opened is there to be closed, and the journal
still hears of the script. -/
theorem reports_body {stem : String} (stage : String) {body : Run σ (Except Failure (Step α))}
    (hbody : (bodyFrame σ).Keeps body) {tracker : Tracker (Session σ)}
    (hreports : pipeline.Reports stem tracker) :
    pipeline.Reports stem (body (opening stage tracker).2).2 ∧
      (opening stage tracker).1 < (body (opening stage tracker).2).2.records.length := by
  have hopened := (onlyNotes_opening pipeline stem stage).reports hreports
  obtain ⟨hplace, hlength⟩ := records_opening stage tracker
  obtain ⟨hlisteners, hrecords, hsubject⟩ := hbody (opening stage tracker).2
  refine ⟨⟨hlisteners.trans hopened.listeners, hsubject.trans hopened.subject⟩, ?_⟩
  rw [hplace, hrecords, hlength]
  exact Nat.lt_succ_self _

/-- **A stage on a project settles the directory for notes**, however it ends. -/
theorem WritesOnlyLogs.settled_inStage {stem : String} (stage : String) (project : Project)
    {body : Run σ (Except Failure (Step α))} (hbody : (bodyFrame σ).Keeps body)
    {tracker : Tracker (Session σ)} (hreports : pipeline.Reports stem tracker) :
    pipeline.Reports stem (inStage stage project body tracker).2 ∧
      LogsSettled logs stem (inStage stage project body tracker).2.state.world.files := by
  obtain ⟨hdone, hplace⟩ := reports_body stage hbody hreports
  rw [inStage_run]
  exact ⟨(onlyNotes_closing pipeline stem _ _).reports hdone,
    hlogs.settled_closing _ _ hplace hdone⟩

end

end RustScript.Pipeline
