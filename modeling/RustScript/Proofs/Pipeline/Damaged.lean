import RustScript.CommandLine.Report
import RustScript.Proofs.Manifest.Shape
import RustScript.Proofs.Pipeline.Resumed

/-!
# What a call makes of a manifest file

A call that does not generate reads the manifest file of the project, whatever stands there. From a
document in the shape of a manifest it goes on; a text that is not TOML, or names no package, is
reported as a failure of the analysis. Everything else is `Damaged`: no stage provides for it, and
the failure ends the call as it is (`call_of_manifestFile`).
-/

set_option autoImplicit false

namespace RustScript.Pipeline

open RustScript.Progress RustScript.Manifest

variable {σ : Type} {pipeline : Pipeline σ} {logs : Option Path}

/-- What stands for the manifest file is nothing that a stage provides for: a directory, a file that
is not UTF-8, a text that cannot be read beyond a decimal integer of too many digits or beyond values
that stand too deep inside each other, or a document that names a package and has another part in the
wrong shape. -/
inductive Damaged : Node → Prop
  | directory : Damaged .directory
  | notUtf8 {content : List UInt8} {offset : Nat} : Utf8.decode content = .error offset →
      Damaged (.file content)
  | excessive {content : List UInt8} {text : String} {excess : Toml.Excess} :
      textOfBytes content = .ok text → Exceeds text excess → Damaged (.file content)
  | misshapen {content : List UInt8} {text : String} {table : Toml.Table} :
      textOfBytes content = .ok text → Toml.parse text = .ok table → NamesPackage table →
      Misshapen table → Damaged (.file content)

theorem textOfBytes_of_decode {content : List UInt8} {offset : Nat}
    (h : Utf8.decode content = .error offset) : textOfBytes content = .error (.notUtf8 offset) := by
  unfold textOfBytes
  rw [h]

theorem read_of_parse {text : String} {table : Toml.Table} (h : Toml.parse text = .ok table) :
    Manifest.read text = ofTable table := by
  unfold Manifest.read document
  rw [h]
  rfl

theorem read_of_parse_error {text : String} {error : Toml.SyntaxError}
    (h : Toml.parse text = .error error) :
    Manifest.read text = .error (.malformed (.ofToml error)) := by
  unfold Manifest.read document
  rw [h]
  rfl

theorem manifestAt_of_damaged (path : Path) {node : Node} (h : Damaged node) :
    ∃ failure, manifestAt path node = .error failure ∧ failure.stage? = none := by
  cases h with
  | directory => exact ⟨_, rfl, rfl⟩
  | @notUtf8 content offset hdecode =>
      have htext : textAt path (.file content) = .error (.notUtf8 offset) :=
        textOfBytes_of_decode hdecode
      refine ⟨.text (.notUtf8 offset), ?_, rfl⟩
      unfold manifestAt
      rw [htext]
      rfl
  | @excessive content text excess htext hexceeds =>
      obtain ⟨error, hparse, hexcess⟩ := hexceeds
      refine ⟨.load (.malformed (.excessive excess)), ?_, rfl⟩
      rw [manifestAt_of_text htext, read_of_parse_error hparse, ofToml_of_excess hexcess]
      rfl
  | misshapen htext hparse hname hshape =>
      obtain ⟨error, herror, hother⟩ := ofTable_of_misshapen hname hshape
      refine ⟨.load error, ?_, ?_⟩
      · rw [manifestAt_of_text htext, read_of_parse hparse, herror]
        rfl
      · cases error with
        | malformed cause => exact absurd rfl (hother cause)
        | _ => rfl

theorem stage?_of_foreseen {cause : Malformed} (h : cause.isForeseen = true) :
    (Failure.load (.malformed cause)).stage? = some Failure.manifestStage := if_pos h

/-- A file that is not damaged holds a manifest, or a text that is reported. -/
theorem manifestAt_of_not_damaged (path : Path) {node : Node} (h : ¬ Damaged node) :
    (∃ manifest, manifestAt path node = .ok manifest) ∨
      ∃ cause : Malformed, cause.isForeseen = true ∧
        manifestAt path node = .error (.load (.malformed cause)) := by
  cases node with
  | directory => exact absurd .directory h
  | file content =>
      cases hdecode : Utf8.decode content with
      | error offset => exact absurd (.notUtf8 hdecode) h
      | ok characters =>
          have htext : textOfBytes content =
              .ok (String.ofList (Text.normalizeLineEnds characters)) := by
            unfold textOfBytes
            rw [hdecode]
          rw [manifestAt_of_text htext]
          cases hparse : Toml.parse (String.ofList (Text.normalizeLineEnds characters)) with
          | error error =>
              have hcause : Malformed.ofToml error = .notToml error := by
                cases hexcess : error.excess? with
                | none => exact ofToml_of_none hexcess
                | some excess => exact absurd (.excessive htext ⟨error, hparse, hexcess⟩) h
              refine .inr ⟨.notToml error, rfl, ?_⟩
              rw [read_of_parse_error hparse, hcause]
              rfl
          | ok table =>
              rw [read_of_parse hparse]
              by_cases hname : NamesPackage table
              · have hshape : ¬ Misshapen table := fun hshape =>
                  h (.misshapen htext hparse hname hshape)
                obtain ⟨manifest, hmanifest⟩ := ofTable_of_shapely hname hshape
                exact .inl ⟨manifest, by rw [hmanifest]; rfl⟩
              · exact .inr ⟨_, rfl, by rw [ofTable_of_unnamed hname]; rfl⟩

/-! ## The file is found -/

/-- The journal hears of nothing while no script is at hand. -/
theorem tellAll_of_no_subject (record : Record) {session : Session σ}
    (h : session.subject = none) : tellAll record pipeline.listeners session = ((), session) := by
  unfold listeners
  cases pipeline.store with
  | none => rfl
  | some store =>
      have hjournal : journal store record session = (.ok (), session) := by
        unfold journal
        rw [Frame.stateBind_apply]
        have hget : ((get : StateM (Session σ) (Session σ)) session).1.subject = none := h
        rw [hget]
        rfl
      show (journal store record >>= fun _ => tellAll record []) session = _
      rw [Frame.stateBind_apply, hjournal]
      rfl

/-- A note about a stage that is left out leaves the manifest file as it is. -/
theorem find?_of_skip (hstore : pipeline.store = logs.map Log.storeIn) (stage reason : String)
    {tracker : Tracker (Session σ)} (hlisteners : tracker.listeners = pipeline.listeners)
    {project : Project} {node : Node}
    (h : tracker.state.world.files.find? project.manifestPath = some node) :
    (skip stage reason tracker).2.state.world.files.find? project.manifestPath = some node := by
  -- a first call for a file that does not analyze it has no script at hand yet
  cases hsubject : tracker.state.subject with
  | none =>
      have hstate : (skip stage reason tracker).2.state = tracker.state := by
        show (tellAll (.skip stage reason) tracker.listeners tracker.state).2 = tracker.state
        rw [hlisteners, tellAll_of_no_subject _ hsubject]
      rw [hstate]
      exact h
  | some stem =>
      have hreports : pipeline.Reports stem tracker := ⟨hlisteners, hsubject⟩
      have hnotes : pipeline.NotesKeep stem
          ((noteFrame tracker.state.world.files.here logs stem).on World.files) := by
        intro _ store hkept text world
        rw [hstore] at hkept
        obtain ⟨base, hbase, rfl⟩ := Option.mem_map.mp hkept
        exact keeps_noteAction _ hbase stem text world.files
      obtain ⟨hconfined, hgrows⟩ := (onlyNotes_skip pipeline stem stage reason).rel hreports
        (fun world => (noteFrame _ logs stem).refl world.files) hnotes
      exact find?_of_notes ordinary_cargoToml (by decide) (hconfined rfl).2 hgrows h

/-! ## Calls -/

/-- A call that does not generate has looked for the manifest file. -/
def Script.looked (pipeline : Pipeline σ) (script : Script) (tracker : Tracker (Session σ)) :
    Tracker (Session σ) :=
  (skip "generate" notRequested (script.beginning pipeline tracker).2).2

/-- The manifest file of a script. -/
def Script.manifestPath (pipeline : Pipeline σ) (script : Script) : Path :=
  (pipeline.newProject script.stem script.source?).manifestPath

theorem find?_beginning (pipeline : Pipeline σ) (script : Script)
    (tracker : Tracker (Session σ)) :
    (script.beginning pipeline tracker).2.listeners = pipeline.listeners ∧
      (script.beginning pipeline tracker).2.state.world = tracker.state.world := by
  cases script <;> exact ⟨rfl, rfl⟩

theorem call_of_find? (hstore : pipeline.store = logs.map Log.storeIn) (script : Script)
    {selection : Selection} (hselection : selection.generate = false) (args : List String)
    (capture : Bool) {tracker : Tracker (Session σ)} {node : Node}
    (hnode : tracker.state.world.files.find? (script.manifestPath pipeline) = some node) :
    script.call pipeline selection args capture tracker =
      match manifestAt (script.manifestPath pipeline) node with
      | .error failure => (.error failure, script.looked pipeline tracker)
      | .ok manifest => pipeline.buildAndRun selection args capture
          (pipeline.leftOutcome script.stem script.source? manifest)
          (script.looked pipeline tracker) := by
  obtain ⟨hlisteners, hworld⟩ := find?_beginning pipeline script tracker
  have hfound := find?_of_skip hstore "generate" notRequested hlisteners
    (show _ = some node from hworld ▸ hnode)
  rw [Script.call_of_resume script hselection, proceed_apply, resume_of_find? hfound]
  unfold Script.manifestPath
  cases manifestAt (pipeline.newProject script.stem script.source?).manifestPath node <;> rfl

/-! ## Reports -/

section

open CommandLine

variable (selection : Selection) (timings : Bool) (records : List Record)

theorem report_of_reported {failure : Failure} {stage : String} (h : failure.stage? = some stage)
    (houtput : failure.output? = none) (hexit : exitStatus failure = 1) :
    Report.ofStages selection timings records (.error failure) =
      ⟨1, "", (if timings then timingTable records else "") ++
        s!"Error [{stage}]: {failure.message}\n", none⟩ := by
  unfold Report.ofStages
  have hreported : failure.isReported = true := by
    unfold Failure.isReported
    rw [h]
    rfl
  dsimp only
  rw [if_pos hreported]
  unfold Report.ofFailure
  rw [h, houtput, hexit]
  simp [toString]

theorem report_of_escaped {failure : Failure} (h : failure.stage? = none) :
    Report.ofStages selection timings records (.error failure) =
      ⟨1, "", "", some failure⟩ := by
  unfold Report.ofStages
  have hreported : ¬ failure.isReported = true := by
    unfold Failure.isReported
    rw [h]
    exact Bool.false_ne_true
  dsimp only
  rw [if_neg hreported]
  unfold Report.ofFailure
  rw [h]

end

/-- **What a call makes of a manifest file** that it does not generate itself. If it is damaged, the
call ends with a failure that no stage reports, and the program prints nothing. Otherwise the call
goes on with the manifest in the file, or fails in a way that is reported. -/
theorem call_of_manifestFile (hstore : pipeline.store = logs.map Log.storeIn) (script : Script)
    {selection : Selection} (hselection : selection.generate = false) (args : List String)
    (capture : Bool) {tracker : Tracker (Session σ)} {node : Node}
    (hnode : tracker.state.world.files.find? (script.manifestPath pipeline) = some node) :
    (Damaged node → ∃ failure, failure.stage? = none ∧
      script.call pipeline selection args capture tracker =
        (.error failure, script.looked pipeline tracker) ∧
      ∀ timings records, CommandLine.Report.ofStages selection timings records
        (script.call pipeline selection args capture tracker).1 = ⟨1, "", "", some failure⟩) ∧
    (¬ Damaged node →
      (∃ manifest, manifestAt (script.manifestPath pipeline) node = .ok manifest ∧
        script.call pipeline selection args capture tracker =
          pipeline.buildAndRun selection args capture
            (pipeline.leftOutcome script.stem script.source? manifest)
            (script.looked pipeline tracker)) ∨
      ∃ cause : Malformed, cause.isForeseen = true ∧
        script.call pipeline selection args capture tracker =
          (.error (.load (.malformed cause)), script.looked pipeline tracker) ∧
        ∀ timings records, CommandLine.Report.ofStages selection timings records
          (script.call pipeline selection args capture tracker).1 =
            ⟨1, "", (if timings then CommandLine.timingTable records else "") ++
              s!"Error [analyze]: {(Failure.load (.malformed cause)).message}\n", none⟩) := by
  have hcall := call_of_find? hstore script hselection args capture hnode
  constructor
  · intro hdamaged
    obtain ⟨failure, hfailure, hstage⟩ :=
      manifestAt_of_damaged (script.manifestPath pipeline) hdamaged
    rw [hfailure] at hcall
    refine ⟨failure, hstage, hcall, fun timings records => ?_⟩
    rw [hcall]
    exact report_of_escaped selection timings records hstage
  · intro hdamaged
    rcases manifestAt_of_not_damaged (script.manifestPath pipeline) hdamaged with
      ⟨manifest, hmanifest⟩ | ⟨cause, hforeseen, hcause⟩
    · rw [hmanifest] at hcall
      exact .inl ⟨manifest, hmanifest, hcall⟩
    · rw [hcause] at hcall
      refine .inr ⟨cause, hforeseen, hcall, fun timings records => ?_⟩
      have hlabel : toString "Error [" ++ toString Failure.manifestStage ++ toString "]: " =
          toString "Error [analyze]: " := rfl
      have hreport :=
        report_of_reported selection timings records (stage?_of_foreseen hforeseen) rfl rfl
      rw [hcall, hreport, hlabel]

/-- A world in which something stands for the manifest file of the script `demo.rs`. -/
def demoWorld (node : Node) : World Rehearsal.Trace :=
  { World.untouched Rehearsal.Trace.empty with
    files := ⟨[], [(["build"], .directory), (["build", "demo"], .directory),
      (["build", "demo", "Cargo.toml"], node)]⟩ }

/-- The script `demo.rs` is built, and its project is not generated. -/
def demoBuild (node : Node) : Except Failure Outcome :=
  ((Script.file (Path.ofString "demo.rs")).call (rehearsed []) ⟨false, true, false⟩ [] true
    ((rehearsed []).opened (demoWorld node))).1

theorem find?_demoWorld (node : Node) :
    (demoWorld node).files.find?
      ((Script.file (Path.ofString "demo.rs")).manifestPath (rehearsed [])) = some node := by
  rfl

theorem not_damaged_empty : ¬ Damaged (.file []) := by
  rintro (_ | hdecode | ⟨htext, _, hparse, -⟩ | ⟨htext, hparse, ⟨entries, name, hpackage, -⟩, -⟩)
  · cases hdecode
  · obtain rfl : "" = _ := Except.ok.inj htext
    cases hparse
  · obtain rfl : "" = _ := Except.ok.inj htext
    obtain rfl : [] = _ := Except.ok.inj hparse
    cases hpackage

/-- A directory in place of the manifest file ends the call; an empty file does not. -/
theorem call_of_manifestFile_demo :
    (∃ failure, failure.stage? = none ∧ demoBuild .directory = .error failure) ∧
      ((∃ outcome, demoBuild (.file []) = .ok outcome) ∨
        ∃ failure, failure.stage? ≠ none ∧ demoBuild (.file []) = .error failure) := by
  have hstore : (rehearsed []).store = Option.map Log.storeIn none := rfl
  have hfound : ∀ node, ((rehearsed []).opened (demoWorld node)).state.world.files.find?
      ((Script.file (Path.ofString "demo.rs")).manifestPath (rehearsed [])) = some node :=
    find?_demoWorld
  constructor
  · obtain ⟨failure, hstage, hcall, -⟩ := (call_of_manifestFile hstore _
      (show (⟨false, true, false⟩ : Selection).generate = false from rfl) [] true
      (hfound .directory)).1 .directory
    exact ⟨failure, hstage, congrArg Prod.fst hcall⟩
  · rcases (call_of_manifestFile hstore _
      (show (⟨false, true, false⟩ : Selection).generate = false from rfl) [] true
      (hfound (.file []))).2 not_damaged_empty with
      ⟨manifest, hmanifest, -⟩ | ⟨cause, hforeseen, hcall, -⟩
    · cases hmanifest
    · refine .inr ⟨.load (.malformed cause), ?_, congrArg Prod.fst hcall⟩
      rw [stage?_of_foreseen hforeseen]
      exact nofun

/-- The result is a failure that no stage reports. -/
def escapes {α : Type} : Except Failure α → Bool
  | .error failure => !failure.isReported
  | .ok _ => false

/-- A directory, a byte that begins no character, a number of binaries and a list of names escape. -/
theorem damaged_manifestFile_escapes :
    escapes (demoBuild .directory) = true ∧ escapes (demoBuild (.file [0xFF])) = true ∧
      escapes (demoBuild (.file (Utf8.encode "bin = 5\n[package]\nname = 'demo'\n"))) = true ∧
      escapes (demoBuild (.file
        (Utf8.encode "dependencies = ['rand']\n[package]\nname = 'demo'\n"))) = true := by
  refine ⟨?_, ?_, ?_, ?_⟩ <;> decide +kernel

end RustScript.Pipeline
