import RustScript.Proofs.Files.Similar
import RustScript.Proofs.Pipeline.Again

/-!
# Notes in similar trees

A note makes the directory for notes and writes at the end of the journal. In two similar trees it
does the same, whatever it says (`matches_noteIn`), and after one note a further one changes nothing
but what the journal holds (`similar_noteIn`). So two runs in which notes are written leave similar
trees, and so do runs of which one writes notes that the other does not.
-/

set_option autoImplicit false

namespace RustScript.Pipeline

open RustScript.Progress

variable {σ α β : Type} {here : Place}

/-! ## The journal of a directory -/

/-- The directory for notes is settled, and the journal stands if its place can be reached. -/
structure Noted (files : FileSystem) (directory : Path) : Prop where
  settled : FileAction.Settled files directory
  stands : ∀ place, files.place (directory.child Log.journalName) = .ok place →
    files.node? place ≠ none

theorem journal_eq_inner (directory : Path) :
    directory.child Log.journalName = directory.inner Log.journalName :=
  child_eq_inner directory ordinary_journal

/-- The place of the journal can be reached exactly if its directory stands. -/
theorem place_journal_eq_ok_iff {files : FileSystem} {directory : Path} {place : Place} :
    files.place (directory.child Log.journalName) = .ok place ↔
      files.find? directory = some .directory ∧
        place = directory.lands files.here ++ [Log.journalName] := by
  rw [journal_eq_inner]
  exact FileSystem.place_inner_eq_ok_iff ordinary_journal.2.2.1 ordinary_journal.2.1

/-- No directory stands where a file is in the way. -/
theorem not_directory_of_blocked {files : FileSystem} {directory : Path}
    (h : FileAction.Blocked files directory) : files.find? directory ≠ some .directory := by
  intro hstands
  rcases FileAction.place_of_blocked h with ⟨content, hfile⟩ | herror
  · rw [hstands] at hfile
    cases hfile
  · rw [(FileSystem.place_of_find? hstands).1] at herror
    cases herror

/-- A file that has been written stands at its place. -/
theorem node?_of_change {path : Path} {f : List UInt8 → List UInt8} {files : FileSystem}
    {place : Place} (hplace : files.place path = .ok place) (hroot : place ≠ []) :
    ((FileAction.change path f).run files).2.node? place ≠ none := by
  have hput : ∀ content, (files.put place (.file content)).node? place ≠ none := by
    intro content
    rw [FileSystem.node?_put, if_pos ⟨hroot, rfl⟩]
    exact nofun
  rw [FileAction.run_change, hplace]
  dsimp only
  rcases hnode : files.node? place with _ | (_ | content)
  · exact hput _
  · dsimp only
    rw [hnode]
    exact nofun
  · exact hput _

/-- **After a note** the journal is noted. -/
theorem noted_noteAction (directory : Path) (event : String) (files : FileSystem) :
    Noted ((noteAction directory event).run files).2 directory := by
  refine ⟨settled_noteAction directory event files, ?_⟩
  have hmade : FileAction.Settles directory ((FileAction.makeDirectories directory).run files) :=
    FileAction.settles_makeDirectoriesTo (Nat.le_refl directory.names.length) files
  unfold noteAction
  rw [FileAction.run_bind]
  revert hmade
  rcases (FileAction.makeDirectories directory).run files with ⟨error | _, made⟩
  · rintro (⟨hok, -⟩ | ⟨-, hblocked⟩) place hplace
    · cases hok
    · exact absurd (place_journal_eq_ok_iff.mp hplace).1 (not_directory_of_blocked hblocked)
  · rintro (⟨-, hstands⟩ | ⟨⟨error, herror⟩, -⟩) place hplace
    · -- the directory stands, so the place of the journal was known before it was written
      have hjournal := place_journal_eq_ok_iff.mpr ⟨hstands, rfl⟩
      have hgrows := FileAction.keeps_growing_change (directory.child Log.journalName)
        (· ++ Utf8.encode (Log.journalLine event)) made
      rw [show place = directory.lands made.here ++ [Log.journalName] from
        Except.ok.inj (hplace.symm.trans (hgrows.place hjournal))]
      exact node?_of_change hjournal
        (List.append_ne_nil_of_right_ne_nil _ (List.cons_ne_nil _ _))
    · cases herror

/-- **A further note** changes nothing but what the journal holds. -/
theorem similar_noteAction {unseen : Place → Prop} {directory : Path} {files : FileSystem}
    (h : Noted files directory) (hhere : files.here = here)
    (hunseen : unseen ((directory.child Log.journalName).lands here)) (event : String) :
    FileSystem.Similar here unseen files ((noteAction directory event).run files).2 := by
  have hsame := FileAction.makeDirectories_of_settled h.settled
  unfold noteAction
  rw [FileAction.run_bind]
  revert hsame
  rcases (FileAction.makeDirectories directory).run files with ⟨error | _, made⟩
  · rintro rfl
    exact .refl hhere
  · rintro rfl
    dsimp only
    unfold FileAction.append
    rw [FileAction.run_change]
    cases hplace : made.place (directory.child Log.journalName) with
    | error error => exact .refl hhere
    | ok place =>
        have hlands : place = (directory.child Log.journalName).lands here := by
          rw [FileSystem.place_eq_ok hplace, hhere]
        dsimp only
        -- the journal stands already, so that nothing is new but what it holds
        rcases hnode : made.node? place with _ | (_ | content)
        · exact absurd hnode (h.stands place hplace)
        · exact .refl hhere
        · refine ⟨hhere, hhere, fun other => ?_⟩
          rw [FileSystem.node?_put]
          by_cases hother : other ≠ [] ∧ place = other
          · rw [if_pos hother, ← hother.2]
            exact .inr ⟨hlands ▸ hunseen, content, _, hnode, rfl⟩
          · rw [if_neg hother]
            exact .inl rfl

/-- Notes do the same in similar trees, whatever they say. -/
theorem matches_noteAction {unseen : Place → Prop} {directory : Path}
    (h : unseen ((directory.child Log.journalName).lands here)) (event event' : String) :
    FileAction.Matches here unseen (noteAction directory event) (noteAction directory event') :=
  (FileAction.matches_makeDirectories directory).bind fun _ => FileAction.matches_append h _ _

/-! ## The journal of a script -/

/-- A note about the script `stem`, if notes are taken. -/
def noteIn (logs : Option Path) (stem event : String) : FileAction Unit :=
  match logs with
  | none => pure ()
  | some base => if stem.isEmpty then pure () else noteAction (base.child stem) event

/-- The journal of the script is noted, if notes are taken. -/
def LogsNoted (logs : Option Path) (stem : String) (files : FileSystem) : Prop :=
  stem.isEmpty = false → ∀ base ∈ logs, Noted files (base.child stem)

theorem noted_noteIn (logs : Option Path) (stem event : String) (files : FileSystem) :
    LogsNoted logs stem ((noteIn logs stem event).run files).2 := by
  rintro hstem base rfl
  unfold noteIn
  dsimp only
  rw [if_neg (Bool.eq_false_iff.mp hstem)]
  exact noted_noteAction _ event files

theorem similar_noteIn {logs : Option Path} {stem : String} {files : FileSystem}
    (h : LogsNoted logs stem files) (hhere : files.here = here) (event : String) :
    FileSystem.Similar here (JournalAt here logs stem) files
      ((noteIn logs stem event).run files).2 := by
  unfold noteIn
  cases logs with
  | none => exact .refl hhere
  | some base =>
      dsimp only
      split
      · exact .refl hhere
      · next hstem =>
          exact similar_noteAction (h (Bool.eq_false_iff.mpr hstem) base rfl) hhere
            ⟨base, rfl, rfl⟩ event

theorem matches_noteIn (logs : Option Path) (stem event event' : String) :
    FileAction.Matches here (JournalAt here logs stem) (noteIn logs stem event)
      (noteIn logs stem event') := by
  unfold noteIn
  cases logs with
  | none => exact FileAction.matches_pure ()
  | some base =>
      dsimp only
      split
      · exact FileAction.matches_pure ()
      · exact matches_noteAction ⟨base, rfl, rfl⟩ event event'

/-! ## Actions that write one note -/

theorem onlyNotes_skip (pipeline : Pipeline σ) (stem stage reason : String) :
    pipeline.OnlyNotes stem (skip stage reason) := fun _ _ hnotes =>
  Frame.keeps_bind (keeps_start (keeps_listeners_of_notes hnotes) _) fun _ => Frame.keeps_pure _

/-- From the one state to the other one note about the script `stem` has been written, whatever it
says. -/
def NoteBetween (logs : Option Path) (stem : String) (before after : FileSystem) : Prop :=
  ∃ event, after = ((noteIn logs stem event).run before).2

section

variable {pipeline : Pipeline σ} {logs : Option Path} (hlogs : pipeline.WritesOnlyLogs logs)
  {stem : String} {tracker : Tracker (Session σ)}

include hlogs

/-- The listeners are told by a note. -/
theorem WritesOnlyLogs.noteBetween_tellAll (record : Record) {session : Session σ}
    (h : session.subject = some stem) :
    NoteBetween logs stem session.world.files
      (tellAll record pipeline.listeners session).2.world.files := by
  refine ⟨note record, ?_⟩
  unfold Pipeline.listeners noteIn
  rw [hlogs.store]
  cases logs with
  | none => rfl
  | some base =>
      have htold : (tellAll record ((some base).map Log.storeIn |>.toList.map journal)
          session).2 = (journal (Log.storeIn base) record session).2 := rfl
      rw [htold, journal_apply, h]
      dsimp only
      split
      · rfl
      · rfl

variable (hreports : pipeline.Reports stem tracker)

include hreports

theorem WritesOnlyLogs.noteBetween_start (record : Record) :
    NoteBetween logs stem tracker.state.world.files
      (start record tracker).2.state.world.files := by
  have htold := hlogs.noteBetween_tellAll record hreports.subject
  rw [← hreports.listeners] at htold
  exact htold

theorem WritesOnlyLogs.noteBetween_skip (stage reason : String) :
    NoteBetween logs stem tracker.state.world.files
      (skip stage reason tracker).2.state.world.files :=
  hlogs.noteBetween_start hreports _

theorem WritesOnlyLogs.noteBetween_opening (stage : String) :
    NoteBetween logs stem tracker.state.world.files
      (opening stage tracker).2.state.world.files := by
  have hread : pipeline.Reports stem (onState now tracker).2 :=
    ⟨hreports.listeners, hreports.subject⟩
  exact hlogs.noteBetween_start hread (.begin stage (onState now tracker).1)

theorem WritesOnlyLogs.noteBetween_closing {place : Nat} (hplace : place < tracker.records.length)
    (result : Except Failure (Step α)) :
    NoteBetween logs stem tracker.state.world.files
      (closing place result tracker).2.state.world.files := by
  obtain ⟨record, hstate⟩ := closing_tells place result hplace
  have hsubject : (now tracker.state).2.subject = some stem := hreports.subject
  rw [hstate, hreports.listeners]
  exact hlogs.noteBetween_tellAll record hsubject

end

/-- **After a stage on a project** the journal is noted, however it ended. -/
theorem WritesOnlyLogs.noted_inStage {pipeline : Pipeline σ} {logs : Option Path}
    (hlogs : pipeline.WritesOnlyLogs logs) {stem : String} (stage : String) (project : Project)
    {body : Run σ (Except Failure (Step α))} (hbody : (bodyFrame σ).Keeps body)
    {tracker : Tracker (Session σ)} (hreports : pipeline.Reports stem tracker) :
    LogsNoted logs stem (inStage stage project body tracker).2.state.world.files := by
  obtain ⟨hdone, hplace⟩ := reports_body stage hbody hreports
  rw [inStage_run]
  obtain ⟨event, hevent⟩ := hlogs.noteBetween_closing hdone hplace
    (body (opening stage tracker).2).1
  rw [hevent]
  exact noted_noteIn logs stem event _

end RustScript.Pipeline
