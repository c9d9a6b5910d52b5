import RustScript.Proofs.Manifest.Canonical
import RustScript.Proofs.Pipeline.Parallel
import RustScript.Proofs.Toml.Characters

/-!
# Going on from what a generation left

A generation leaves the text of its manifest in the manifest file, and notes and builds leave it
there (`HoldsManifest`). A later call that does not generate reads this text again and goes on with a
project of the same script (`resume_of_holds`); the manifest that it reads means the same as the one
that was written (`left_of_generate`).
-/

set_option autoImplicit false

namespace RustScript.Pipeline

open RustScript.Progress

variable {σ α : Type} {pipeline : Pipeline σ} {logs : Option Path}

/-! ## The manifest file -/

/-- The manifest file of the project holds a text. -/
def HoldsManifest (project : Project) (text : String) (files : FileSystem) : Prop :=
  files.find? project.manifestPath = some (.file (Utf8.encode text))

/-- Building the project leaves its manifest file as it is. -/
def KeepsManifest (pipeline : Pipeline σ) (project : Project) : Prop :=
  ∀ world content, world.files.find? project.manifestPath = some (.file content) →
    (pipeline.runner (buildCall pipeline.settings project) world).2.files.find?
      project.manifestPath = some (.file content)

theorem keeps_writeFiles (here : Place) (directory : Path) (contents : List (String × String)) :
    FileAction.Keeps (FileSystem.frame here
      (fun place => ∃ file ∈ contents, place = (directory.child file.1).lands here)
      (FileAction.OnWay here directory)) (Log.writeFiles directory contents) ∧
    FileAction.Keeps FileSystem.growing (Log.writeFiles directory contents) := by
  constructor
  · exact FileAction.keeps_bind (FileAction.keeps_makeDirectories fun _ => id) fun _ =>
      FileAction.keeps_forM fun file hfile => FileAction.keeps_write ⟨file, hfile, rfl⟩ _
  · exact FileAction.keeps_bind (FileAction.keeps_growing_makeDirectories _) fun _ =>
      FileAction.keeps_forM fun _ _ => FileAction.keeps_growing_change _ _

/-- The stages whose outputs are kept. -/
def commandStages : List String := ["build", "run"]

theorem ordinary_outputFiles {stage : String} (hstage : stage ∈ commandStages)
    {output : Command.Output} {file : String × String} (h : file ∈ Log.outputFiles stage output) :
    Path.Ordinary file.1 ∧ "Cargo.toml" ≠ file.1 ∧ Log.journalName ≠ file.1 := by
  have hnames : ∀ stage ∈ commandStages, ∀ ending ∈ [".stdout", ".stderr", ".status"],
      Path.Ordinary (stage ++ ending) ∧ "Cargo.toml" ≠ stage ++ ending ∧
        Log.journalName ≠ stage ++ ending := by
    unfold Path.Ordinary
    decide
  have hname : file.1 ∈ [".stdout", ".stderr", ".status"].map (stage ++ ·) :=
    List.mem_map_of_mem (f := Prod.fst) h
  obtain ⟨ending, hending, hname⟩ := List.mem_map.mp hname
  rw [← hname]
  exact hnames stage hstage ending hending

/-- Outputs are kept in the directory of the script. -/
theorem keeps_save (here : Place) (base : Path) (stem : String) {stage : String}
    (hstage : stage ∈ commandStages) (output : Command.Output) :
    (Act.frame σ here (InLogs here base stem) (FileAction.OnWay here (base.child stem))).Keeps
      ((Log.storeIn base).save stem stage output) := by
  intro world hhere
  obtain ⟨hafter, hconfined⟩ :=
    (keeps_writeFiles here (base.child stem) (Log.outputFiles stage output)).1 world.files hhere
  refine ⟨hafter, hconfined.mono ?_ fun _ => id⟩
  rintro _ ⟨file, hfile, rfl⟩
  unfold InLogs
  rw [Path.lands_child_of_ordinary here (ordinary_outputFiles hstage hfile).1]
  exact List.prefix_append _ _

section

variable {project : Project} {text : String}

theorem HoldsManifest.of_sharesPlace {other : Project} (h : project.SharesPlace other)
    {files : FileSystem} (hholds : HoldsManifest project text files) :
    HoldsManifest other text files := by
  unfold HoldsManifest Project.manifestPath at hholds ⊢
  rw [← h.directory]
  exact hholds

variable (hlogs : pipeline.WritesOnlyLogs logs) {stem : String} {tracker : Tracker (Session σ)}
  (hholds : HoldsManifest project text tracker.state.world.files)

include hlogs hholds

theorem HoldsManifest.notes {action : Run σ α} (hnotes : pipeline.OnlyNotes stem action)
    (hreports : pipeline.Reports stem tracker) :
    HoldsManifest project text (action tracker).2.state.world.files := by
  obtain ⟨hconfined, hgrows⟩ := hlogs.confined_notes hnotes hreports
  exact find?_of_notes ordinary_cargoToml (by decide) hconfined hgrows hholds

theorem HoldsManifest.keepOutput (output : Command.Output) :
    HoldsManifest project text
      (pipeline.keepOutput stem "build" output tracker).2.state.world.files := by
  unfold Pipeline.keepOutput
  rw [hlogs.store]
  cases logs with
  | none => exact hholds
  | some base =>
      obtain ⟨hplaces, hgrows⟩ := keeps_writeFiles tracker.state.world.files.here
        (base.child stem) (Log.outputFiles "build" output)
      refine (hgrows tracker.state.world.files).find?_of_confined
        (hplaces tracker.state.world.files rfl).2 ?_ hholds
      rintro ⟨file, hfile, heq⟩
      obtain ⟨hordinary, hname, -⟩ := ordinary_outputFiles (by decide) hfile
      exact lands_child_ne ordinary_cargoToml hordinary hname _ _ _ heq

/-- **A build** leaves the manifest file as it is if its command does. -/
theorem HoldsManifest.build (hkeeps : pipeline.KeepsManifest project) {outcome : Outcome}
    (hplace : outcome.project.SharesPlace project)
    (hlisteners : tracker.listeners = pipeline.listeners) :
    HoldsManifest project text
      (pipeline.buildIf true outcome tracker).2.state.world.files := by
  have hreports := reports_aboutStem hlisteners outcome.project.stem
  have hopening := onlyNotes_opening pipeline outcome.project.stem "build"
  have habout : HoldsManifest project text
      (aboutStem outcome.project.stem tracker).state.world.files := hholds
  have hopened := habout.notes hlogs hopening hreports
  have hbody : HoldsManifest project text (pipeline.buildStep outcome.project
      (opening "build" (aboutStem outcome.project.stem tracker)).2).2.state.world.files := by
    rw [buildStep_eq, commandStep_apply, buildCall_congr pipeline.settings hplace]
    split
    · have hran := hkeeps _ _ hopened
      revert hran
      rcases pipeline.runner (buildCall pipeline.settings project)
        (opening "build" (aboutStem outcome.project.stem tracker)).2.state.world with
        ⟨problem | output, world⟩
      · exact id
      · intro hran
        have hworld : HoldsManifest project text (inWorld
          (opening "build" (aboutStem outcome.project.stem tracker)).2 world).state.world.files :=
            hran
        exact hworld.keepOutput hlogs output
    · exact hopened
  obtain ⟨hbodyReports, -⟩ :=
    reports_body "build" (keeps_body_buildStep pipeline outcome.project) hreports
  have hclosed := hbody.notes hlogs (onlyNotes_closing pipeline outcome.project.stem
    (opening "build" (aboutStem outcome.project.stem tracker)).1
    (pipeline.buildStep outcome.project
      (opening "build" (aboutStem outcome.project.stem tracker)).2).1) hbodyReports
  rw [buildIf_true]
  show HoldsManifest project text (inStage "build" outcome.project
    (pipeline.buildStep outcome.project)
    (aboutStem outcome.project.stem tracker)).2.state.world.files
  rw [inStage_run]
  exact hclosed

end

/-! ## Going on -/

/-- The text that what stands at a path gives. -/
def textAt (path : Path) : Node → Except TextError String
  | .directory => .error (.system (.isDirectory path.toString))
  | .file content => textOfBytes content

/-- What stands at a path is read as a text file. -/
theorem readText_of_find? {path : Path} {node : Node} {world : World σ}
    (h : world.files.find? path = some node) :
    Act.readText path world = (textAt path node, world) := by
  obtain ⟨hplace, hnode⟩ := FileSystem.place_of_find? h
  have hread := FileAction.run_read path world.files
  rw [hplace] at hread
  dsimp only at hread
  rw [hnode] at hread
  unfold Act.readText
  rw [Frame.stateBind_apply, Act.files_apply, hread]
  cases node <;> rfl

/-- The manifest that what stands at a path gives. -/
def manifestAt (path : Path) (node : Node) : Except Failure Manifest := do
  let text ← (textAt path node).mapError .text
  (Manifest.read text).mapError .load

theorem manifestAt_of_text {content : List UInt8} {text : String}
    (h : textOfBytes content = .ok text) (path : Path) :
    manifestAt path (.file content) = (Manifest.read text).mapError .load := by
  have htext : textAt path (.file content) = .ok text := h
  unfold manifestAt
  rw [htext]
  rfl

/-- The project of which an earlier generation has left the manifest. -/
def leftProject (pipeline : Pipeline σ) (stem : String) (source : Option Path)
    (manifest : Manifest) : Project :=
  { pipeline.newProject stem source with
    manifest := some manifest
    status := .generated }

/-- What a call goes on with when it finds a manifest. -/
def leftOutcome (pipeline : Pipeline σ) (stem : String) (source : Option Path)
    (manifest : Manifest) : Outcome :=
  ⟨pipeline.leftProject stem source manifest, none, none, none⟩

section

variable {stem : String} {source : Option Path}

/-- **A project is taken as its manifest file is found.** -/
theorem existingProject_of_find? {node : Node} {world : World σ}
    (h : world.files.find? (pipeline.newProject stem source).manifestPath = some node) :
    pipeline.existingProject stem source world =
      ((manifestAt (pipeline.newProject stem source).manifestPath node).map
        (pipeline.leftProject stem source), world) := by
  have hexists : world.files.exists (pipeline.newProject stem source).manifestPath = true := by
    unfold FileSystem.exists
    rw [h]
    rfl
  have hlook : Act.look (fun files => files.exists (pipeline.newProject stem source).manifestPath)
      world = (true, world) := Prod.ext hexists rfl
  unfold existingProject manifestAt
  rw [Frame.stateBind_apply, hlook]
  dsimp only
  rw [if_pos rfl, Frame.stateBind_apply, readText_of_find? h]
  dsimp only
  cases textAt (pipeline.newProject stem source).manifestPath node with
  | error error => rfl
  | ok text =>
      change _ =
        (((Manifest.read text).mapError Failure.load).map (pipeline.leftProject stem source), world)
      dsimp only
      cases Manifest.read text <;> rfl

theorem resume_of_find? {node : Node} {tracker : Tracker (Session σ)}
    (h : (skip "generate" notRequested tracker).2.state.world.files.find?
      (pipeline.newProject stem source).manifestPath = some node) :
    pipeline.resume stem source tracker =
      ((manifestAt (pipeline.newProject stem source).manifestPath node).map
        (pipeline.leftOutcome stem source), (skip "generate" notRequested tracker).2) := by
  unfold resume
  rw [Frame.stateBind_apply, Frame.stateBind_apply, onWorld_apply, existingProject_of_find? h]
  cases manifestAt (pipeline.newProject stem source).manifestPath node <;> rfl

theorem resume_of_holds (hlogs : pipeline.WritesOnlyLogs logs) {text : String} {found : Manifest}
    (htext : textOfBytes (Utf8.encode text) = .ok text) (hread : Manifest.read text = .ok found)
    {tracker : Tracker (Session σ)} (hreports : pipeline.Reports stem tracker)
    (hholds : HoldsManifest (pipeline.newProject stem source) text tracker.state.world.files) :
    pipeline.resume stem source tracker =
      (.ok (pipeline.leftOutcome stem source found), (skip "generate" notRequested tracker).2) := by
  have hskipped := hholds.notes hlogs
    (onlyNotes_skip pipeline stem "generate" notRequested) hreports
  have hfound : manifestAt (pipeline.newProject stem source).manifestPath
      (.file (Utf8.encode text)) = .ok found := by
    rw [manifestAt_of_text htext, hread]
    rfl
  rw [resume_of_find? hskipped, hfound]
  rfl

end

/-- How a call that does not generate begins. -/
def Script.beginning (pipeline : Pipeline σ) : Script → Run σ Unit
  | .file _ => pipeline.renew
  | .text _ => do
      pipeline.renew
      about textStem

/-- A call that does not generate goes on from what an earlier one left. -/
theorem Script.call_of_resume (script : Script) {selection : Selection}
    (h : selection.generate = false) (args : List String) (capture : Bool)
    (tracker : Tracker (Session σ)) :
    script.call pipeline selection args capture tracker =
      proceed (pipeline.resume script.stem script.source?)
        (pipeline.buildAndRun selection args capture) (script.beginning pipeline tracker).2 := by
  cases script with
  | file path =>
      show pipeline.runScript path selection args capture tracker = _
      rw [runScript_of_resume pipeline path h, Frame.stateBind_apply]
      rfl
  | text content =>
      show pipeline.runText content selection args capture tracker =
        proceed (pipeline.resume textStem none) (pipeline.buildAndRun selection args capture)
          (about textStem (pipeline.renew tracker).2).2
      unfold runText
      rw [if_neg (by rw [h]; exact Bool.false_ne_true)]
      simp only [Frame.stateBind_apply, proceed_apply]
      cases (pipeline.resume textStem none (about textStem (pipeline.renew tracker).2).2).1 <;> rfl

/-- A call that goes on with the script at hand begins with new records and nothing else. -/
theorem Script.beginning_of_subject (script : Script) {tracker : Tracker (Session σ)}
    (h : tracker.state.subject = some script.stem) :
    (script.beginning pipeline tracker).2 = (pipeline.renew tracker).2 := by
  cases script with
  | file path => rfl
  | text content =>
      have hkept : (pipeline.renew tracker).2.state.subject = some textStem := h
      show aboutStem textStem (pipeline.renew tracker).2 = (pipeline.renew tracker).2
      unfold aboutStem
      rw [← hkept]

/-! ## What a generation leaves for later calls -/

/-- A generation has left the text of its manifest, and the journal hears of the script. -/
structure Left (pipeline : Pipeline σ) (logs : Option Path) (stem : String)
    (source : Option Path) (project : Project) (manifest : Manifest) (text : String)
    (tracker : Tracker (Session σ)) : Prop where
  script : project.SharesScript (pipeline.newProject stem source)
  described : project.manifest = some manifest
  arises : manifest.Arises
  written : manifest.write = .ok text
  reports : pipeline.Reports stem tracker
  noted : LogsNoted logs stem tracker.state.world.files
  holds : HoldsManifest (pipeline.newProject stem source) text tracker.state.world.files

/-- **A generation leaves its manifest behind.** -/
theorem left_of_generate (hlogs : pipeline.WritesOnlyLogs logs) {metadata noted : Source.Metadata}
    {stem : String} {source : Option Path} {tracker : Tracker (Session σ)} {project : Project}
    (hlisteners : tracker.listeners = pipeline.listeners)
    (h : (pipeline.generate metadata stem source tracker).1 = .ok (project, noted)) :
    ∃ manifest text, pipeline.Left logs stem source project manifest text
      (pipeline.generate metadata stem source tracker).2 := by
  obtain ⟨manifest, text, written, after, hgoes, timings, hproject⟩ := goes_of_generate h
  obtain ⟨hmerged, htext, -⟩ := hgoes.merged hlogs
  obtain ⟨hplace, hgenerated, -⟩ := generated_of_generate hlogs hlisteners h
  obtain ⟨kept, text', hkept, htext', hholds, -⟩ := hgenerated.manifest
  have hmanifest : project.manifest = some manifest := by
    rw [hproject]
    rfl
  rw [hmanifest] at hkept
  obtain rfl := Option.some.inj hkept
  rw [htext] at htext'
  obtain rfl := Except.ok.inj htext'
  refine ⟨manifest, text, ⟨⟨hplace, ?_⟩, hmanifest, .merge hmerged, htext,
    (settled_generate hlogs metadata source hlisteners).1, ?_, ?_⟩⟩
  · rw [hproject]
    rfl
  · rw [generate_apply]
    exact hlogs.noted_inStage "generate" _ (keeps_body_generateStep pipeline _ _)
      (reports_aboutStem hlisteners stem)
  · exact HoldsManifest.of_sharesPlace hplace hholds

end RustScript.Pipeline
