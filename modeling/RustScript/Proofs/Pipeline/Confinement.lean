import RustScript.Proofs.Pipeline.Frame
import RustScript.Proofs.Project.Stem
import RustScript.Rehearsal.Basic

/-!
# Projects stay in their directories

The directory of a project is one level below the build root exactly if the stem of its script is
an ordinary name. For such a script generating a project leaves its marks in this directory only,
apart from missing directories on the way to it, and cleaning up removes nothing elsewhere
(`confinement`). Otherwise the directory is the build root itself or the one around it.
-/

set_option autoImplicit false

namespace RustScript

/-! ## Directories of projects -/

namespace Path

/-- The path is one level below another one. -/
def IsChildOf (path base : Path) : Prop :=
  ∃ name, Ordinary name ∧ path = ⟨base.slashes, base.names ++ [name]⟩

theorem child_of_no_slash {base : Path} {text : String} (h : '/' ∉ text.toList) :
    base.child text = ⟨base.slashes, base.names ++ [text].filter isName⟩ := by
  unfold child join
  rw [ofString_of_no_slash h]
  rfl

theorem isName_of_ordinary {name : String} (h : Ordinary name) : isName name = true := by
  unfold isName
  rw [Bool.and_eq_true, Bool.not_eq_true', decide_eq_true_eq]
  exact ⟨String.isEmpty_eq_false_iff.mpr h.1, h.2.1⟩

theorem child_of_ordinary {base : Path} {name : String} (h : Ordinary name) :
    base.child name = ⟨base.slashes, base.names ++ [name]⟩ := by
  rw [child_of_no_slash h.2.2.2, List.filter_cons_of_pos (isName_of_ordinary h), List.filter_nil]

theorem lands_child_of_ordinary (here : Place) {base : Path} {name : String} (h : Ordinary name) :
    lands here (base.child name) = lands here base ++ [name] := by
  rw [child_of_ordinary h, lands_child h.2.2.1 h.2.1]

theorem isChildOf_child_iff {base : Path} {name : String} (hslash : '/' ∉ name.toList) :
    (base.child name).IsChildOf base ↔ Ordinary name := by
  constructor
  · rintro ⟨other, hother, hpath⟩
    rw [child_of_no_slash hslash] at hpath
    have hnames := List.append_cancel_left (Path.mk.inj hpath).2
    have hmem : other ∈ [name].filter isName := by rw [hnames]; exact List.mem_singleton_self _
    rw [← List.mem_singleton.mp (List.mem_filter.mp hmem).1]
    exact hother
  · intro h
    exact ⟨name, h, child_of_ordinary h⟩

/-- A name that no directory can have stands for the directory itself or for the one around it. -/
theorem child_of_not_ordinary {base : Path} {name : String} (hslash : '/' ∉ name.toList)
    (h : ¬ Ordinary name) :
    base.child name = base ∨ base.child name = ⟨base.slashes, base.names ++ [".."]⟩ := by
  have hnames : name = "" ∨ name = "." ∨ name = ".." := by
    by_contra hnone
    rw [not_or, not_or] at hnone
    exact h ⟨hnone.1, hnone.2.1, hnone.2.2, hslash⟩
  have hnil : ∀ text, isName text = false → [text].filter isName = [] := fun text htext => by
    rw [List.filter_cons_of_neg (by rw [htext]; exact Bool.false_ne_true), List.filter_nil]
  rcases hnames with rfl | rfl | rfl
  · exact Or.inl (by rw [child_of_no_slash hslash, hnil _ (by decide), List.append_nil])
  · exact Or.inl (by rw [child_of_no_slash hslash, hnil _ (by decide), List.append_nil])
  · exact Or.inr (by rw [child_of_no_slash hslash]; rfl)

end Path

/-! ## Files of projects -/

namespace Pipeline

open RustScript.Progress

variable {σ : Type} {here : Place} {inside way : Place → Prop}

theorem ordinary_cargoToml : Path.Ordinary "Cargo.toml" := by
  refine ⟨?_, ?_, ?_, ?_⟩ <;> decide

theorem ordinary_mainRs : Path.Ordinary "main.rs" := by
  refine ⟨?_, ?_, ?_, ?_⟩ <;> decide

theorem ordinary_target : Path.Ordinary "target" := by
  refine ⟨?_, ?_, ?_, ?_⟩ <;> decide

theorem ordinary_debug : Path.Ordinary "debug" := by
  refine ⟨?_, ?_, ?_, ?_⟩ <;> decide

theorem ordinary_demo : Path.Ordinary "demo" := by
  refine ⟨?_, ?_, ?_, ?_⟩ <;> decide

theorem keeps_writeChanged {path : Path} (h : inside (path.lands here)) (content : List UInt8) :
    FileAction.Keeps (FileSystem.frame here inside way) (writeChanged path content) := by
  have hwrite : FileAction.Keeps (FileSystem.frame here inside way) (do
      FileAction.write path content
      return true) :=
    FileAction.keeps_bind (FileAction.keeps_write h content) fun _ => FileAction.keeps_pure _
  refine FileAction.keeps_bind FileAction.keeps_get fun files => FileAction.keeps_ite ?_ hwrite
  refine FileAction.keeps_bind (FileAction.keeps_read path) fun old => ?_
  exact FileAction.keeps_ite (FileAction.keeps_pure _) hwrite

theorem keeps_leaveEmpty {path : Path} (h : inside (path.lands here)) :
    FileAction.Keeps (FileSystem.frame here inside way) (leaveEmpty path) := by
  refine FileAction.keeps_bind FileAction.keeps_get fun files => FileAction.keeps_ite ?_ ?_
  · exact FileAction.keeps_bind (FileAction.keeps_read path) fun _ => FileAction.keeps_pure _
  · exact FileAction.keeps_write h _

theorem keeps_writeProject {project : Project}
    (hinside : ∀ place, project.directory.lands here <+: place → inside place)
    (hway : ∀ place, FileAction.OnWay here project.directory place → way place)
    (source manifest : String) :
    FileAction.Keeps (FileSystem.frame here inside way) (writeProject project source manifest) := by
  have hfile : ∀ name, Path.Ordinary name →
      inside (Path.lands here (project.directory.child name)) := by
    intro name hname
    rw [Path.lands_child_of_ordinary here hname]
    exact hinside _ (List.prefix_append _ _)
  refine FileAction.keeps_bind (FileAction.keeps_makeDirectories hway) fun _ => ?_
  refine FileAction.keeps_bind (FileAction.keeps_write (hfile _ ordinary_mainRs) _) fun _ => ?_
  exact keeps_writeChanged (hfile _ ordinary_cargoToml) _

theorem keeps_writeRest {project : Project}
    (hinside : ∀ place, project.directory.lands here <+: place → inside place)
    (hway : ∀ place, FileAction.OnWay here project.directory place → way place)
    (source : String) :
    FileAction.Keeps (FileSystem.frame here inside way) (writeRest project source) := by
  have hfile : ∀ name, Path.Ordinary name →
      inside (Path.lands here (project.directory.child name)) := by
    intro name hname
    rw [Path.lands_child_of_ordinary here hname]
    exact hinside _ (List.prefix_append _ _)
  refine FileAction.keeps_bind (FileAction.keeps_makeDirectories hway) fun _ => ?_
  refine FileAction.keeps_bind (FileAction.keeps_write (hfile _ ordinary_mainRs) _) fun _ => ?_
  exact keeps_leaveEmpty (hfile _ ordinary_cargoToml)

variable {pipeline : Pipeline σ} {stem : String}

theorem keeps_generateStep {project : Project}
    (hpipeline : pipeline.Collaborates stem (Act.frame σ here inside way))
    (hinside : ∀ place, project.directory.lands here <+: place → inside place)
    (hway : ∀ place, FileAction.OnWay here project.directory place → way place)
    (metadata : Source.Metadata) :
    (trackerFrame (sessionFrame stem (Act.frame σ here inside way)) pipeline.listeners).Keeps
      (pipeline.generateStep metadata project) := by
  have hresolve : (Act.frame σ here inside way).Keeps
      (pipeline.resolveManifest metadata project) :=
    Frame.keeps_bind (keeps_merge hpipeline.resolve _ _ _ _ _) fun _ => Frame.keeps_pure _
  exact keeps_generateStep_of (keeps_onWorld hresolve)
    (fun _ _ => keeps_onWorld (Act.keeps_files (keeps_writeProject hinside hway _ _)))
    fun _ => keeps_onWorld (Act.keeps_files (keeps_writeRest hinside hway _))

/-- **Generating** changes files only in the directory of the project and where the collaborators
do, and makes missing directories on the way. -/
theorem confined_generate
    (hpipeline : pipeline.Collaborates stem (Act.frame σ here inside way))
    {source : Option Path}
    (hinside : ∀ place, (pipeline.newProject stem source).directory.lands here <+: place →
      inside place)
    (hway : ∀ place, FileAction.OnWay here (pipeline.newProject stem source).directory place →
      way place)
    (metadata : Source.Metadata) {tracker : Tracker (Session σ)}
    (hhere : tracker.state.world.files.here = here)
    (hlisteners : tracker.listeners = pipeline.listeners) :
    FileSystem.Confined inside way tracker.state.world.files
      (pipeline.generate metadata stem source tracker).2.state.world.files := by
  have hstage : (trackerFrame (sessionFrame stem (Act.frame σ here inside way))
      pipeline.listeners).Keeps (do
        let outcome ← inStage "generate" (pipeline.newProject stem source)
          (pipeline.generateStep metadata (pipeline.newProject stem source))
        return outcome.2.map fun metadata => (outcome.1, metadata)) :=
    Frame.keeps_bind (keeps_inStage hpipeline Act.keeps_now _ _
      (keeps_generateStep hpipeline hinside hway metadata)) fun _ => Frame.keeps_pure _
  -- the journal is about this script from here on, and nothing else has changed
  obtain ⟨-, hrun⟩ := hstage
    { tracker with state := { tracker.state with subject := some stem } } hlisteners
  obtain ⟨-, hfiles⟩ := hrun rfl
  exact (hfiles hhere).2

/-- Removing a project keeps to its directory and to what the store keeps to. -/
theorem keeps_removeAll
    (hdelete : ∀ store ∈ pipeline.store, (Act.frame σ here inside way).Keeps (store.delete stem))
    {project : Project} (hstem : project.stem = stem)
    (hinside : ∀ place, project.directory.lands here <+: place → inside place) (present : Bool) :
    (Act.frame σ here inside way).Keeps (pipeline.removeAll project present) := by
  refine Frame.keeps_bind ?_ fun removed => ?_
  · split
    · exact Act.keeps_files (FileAction.keeps_removeTree hinside)
    · exact Frame.keeps_pure _
  · cases removed with
    | error error => exact Frame.keeps_pure _
    | ok _ =>
        cases hstore : pipeline.store with
        | none => exact Frame.keeps_pure _
        | some store =>
            rw [hstem]
            exact hdelete store hstore

/-- **Cleaning up** changes files only in the directory of the project and where the store does. -/
theorem confined_clean
    (hdelete : ∀ store ∈ pipeline.store, (Act.frame σ here inside way).Keeps (store.delete stem))
    {project : Project} (hstem : project.stem = stem)
    (hinside : ∀ place, project.directory.lands here <+: place → inside place)
    {world : World σ} (hhere : world.files.here = here) :
    FileSystem.Confined inside way world.files (pipeline.clean project world).2.files := by
  have hclean : (Act.frame σ here inside way).Keeps (pipeline.clean project) := by
    refine Frame.keeps_bind (Act.keeps_look _) fun present => ?_
    refine Frame.keeps_bind (keeps_removeAll hdelete hstem hinside present) fun removed => ?_
    cases removed <;> exact Frame.keeps_pure _
  exact (hclean world hhere).2

/-! ## Logs in files -/

/-- The directory in which a store of files has the logs of the script `stem`. -/
def InLogs (here : Place) (base : Path) (stem : String) (place : Place) : Prop :=
  (base.child stem).lands here <+: place

/-- The store that keeps logs in files keeps to the directory of the script. -/
theorem keeps_storeIn (here : Place) (base : Path) (stem : String) :
    (∀ text, (Act.frame σ here (InLogs here base stem)
        (FileAction.OnWay here (base.child stem))).Keeps ((Log.storeIn base).append stem text)) ∧
      (Act.frame σ here (InLogs here base stem)
        (FileAction.OnWay here (base.child stem))).Keeps ((Log.storeIn base).delete stem) := by
  have hjournal : Path.Ordinary Log.journalName := by
    refine ⟨?_, ?_, ?_, ?_⟩ <;> decide
  constructor
  · intro text
    refine Act.keeps_files (FileAction.keeps_bind (FileAction.keeps_makeDirectories fun _ => id)
      fun _ => FileAction.keeps_append ?_ _)
    rw [Path.lands_child_of_ordinary here hjournal]
    exact List.prefix_append _ _
  · refine Frame.keeps_bind (Act.keeps_look _) fun present => ?_
    split
    · exact Act.keeps_files (FileAction.keeps_removeTree fun _ => id)
    · exact Frame.keeps_pure _

/-! ## Confinement -/

theorem Collaborates.mono {inside' way' : Place → Prop}
    (h : pipeline.Collaborates stem (Act.frame σ here inside way))
    (hinside : ∀ place, inside place → inside' place) (hway : ∀ place, way place → way' place) :
    pipeline.Collaborates stem (Act.frame σ here inside' way') := by
  have hmono : ∀ {α : Type} {action : Act σ α}, (Act.frame σ here inside way).Keeps action →
      (Act.frame σ here inside' way').Keeps action := fun haction world hhere =>
    ⟨(haction world hhere).1, (haction world hhere).2.mono hinside hway⟩
  exact ⟨fun name => hmono (h.resolve name), fun store hstore text =>
    hmono (h.append store hstore text), fun store hstore => hmono (h.delete store hstore)⟩

/-- Generating the project of the script `stem` and cleaning it up leave their marks at and below
`place`, and elsewhere only what the collaborators leave at `others` and, as missing directories, at
`ways`. -/
structure Confines (pipeline : Pipeline σ) (stem : String) (source : Option Path) (here : Place)
    (others ways : Place → Prop) (place : Place) : Prop where
  /-- Generating makes, besides, the directories on the way that are missing. -/
  generate : ∀ metadata tracker, tracker.state.world.files.here = here →
    tracker.listeners = pipeline.listeners →
    FileSystem.Confined (fun other => place <+: other ∨ others other)
      (fun other => FileAction.OnWay here (pipeline.newProject stem source).directory other ∨
        ways other)
      tracker.state.world.files
      (pipeline.generate metadata stem source tracker).2.state.world.files
  clean : ∀ world, world.files.here = here →
    FileSystem.Confined (fun other => place <+: other ∨ others other) ways
      world.files (pipeline.clean (pipeline.newProject stem source) world).2.files

theorem directory_newProject (pipeline : Pipeline σ) (stem : String) (source : Option Path) :
    (pipeline.newProject stem source).directory = pipeline.settings.buildRoot.child stem := rfl

theorem confines_of_ordinary {source : Option Path} {others ways : Place → Prop}
    (hstem : Path.Ordinary stem)
    (hpipeline : pipeline.Collaborates stem (Act.frame σ here others ways)) :
    pipeline.Confines stem source here others ways
      (Path.lands here pipeline.settings.buildRoot ++ [stem]) := by
  have hlands : (pipeline.newProject stem source).directory.lands here =
      Path.lands here pipeline.settings.buildRoot ++ [stem] :=
    calc (pipeline.newProject stem source).directory.lands here
        = Path.lands here (pipeline.settings.buildRoot.child stem) := by
          rw [directory_newProject]
      _ = Path.lands here pipeline.settings.buildRoot ++ [stem] :=
          Path.lands_child_of_ordinary here hstem
  rw [← hlands]
  refine ⟨?_, ?_⟩
  · intro metadata tracker hhere hlisteners
    exact confined_generate (hpipeline.mono (fun _ => Or.inr) fun _ => Or.inr)
      (fun place => Or.inl) (fun place => Or.inl) metadata hhere hlisteners
  · intro world hhere
    exact confined_clean (hpipeline.mono (fun _ => Or.inr) fun _ => id).delete rfl
      (fun place => Or.inl) hhere

/-- **Confinement.** The directory of the project of a script is one level below the build root
exactly if the name of the script is not odd; otherwise it is the build root or the directory around
it. In the first case generating the project and cleaning it up are confined to that level, up to
what the registry and the store do at places of their own. -/
theorem confinement (pipeline : Pipeline σ) (script : String) (source : Option Path) :
    ((pipeline.newProject (Path.ofString script).stem source).directory.IsChildOf
        pipeline.settings.buildRoot ↔ ¬ Path.Odd (Path.ofString script).name) ∧
    (Path.Odd (Path.ofString script).name →
      (pipeline.newProject (Path.ofString script).stem source).directory =
          pipeline.settings.buildRoot ∨
        (pipeline.newProject (Path.ofString script).stem source).directory =
          ⟨pipeline.settings.buildRoot.slashes, pipeline.settings.buildRoot.names ++ [".."]⟩) ∧
    ∀ {here : Place} {others ways : Place → Prop}, ¬ Path.Odd (Path.ofString script).name →
      pipeline.Collaborates (Path.ofString script).stem (Act.frame σ here others ways) →
      pipeline.Confines (Path.ofString script).stem source here others ways
        (Path.lands here pipeline.settings.buildRoot ++ [(Path.ofString script).stem]) := by
  have hslash : '/' ∉ (Path.ofString script).stem.toList :=
    Path.slash_not_mem_stemOf (Path.name_ofString script).2
  have hordinary := Path.ordinary_stem_iff script
  rw [directory_newProject]
  refine ⟨(Path.isChildOf_child_iff hslash).trans hordinary, ?_, ?_⟩
  · intro hodd
    exact Path.child_of_not_ordinary hslash fun h => hordinary.mp h hodd
  · intro here others ways hname hpipeline
    exact confines_of_ordinary (hordinary.mpr hname) hpipeline

/-- A pipeline that builds in `build` and keeps its logs in `logs`. -/
def besideLogs : Pipeline Rehearsal.Trace :=
  ⟨Settings.standard (Path.ofString "build"), Rehearsal.fixedResolver [],
    Rehearsal.Cast.plain.runner, some (Log.storeIn (Path.ofString "logs")), true⟩

theorem collaborates_besideLogs (stem : String) (here : Place) :
    besideLogs.Collaborates stem (Act.frame Rehearsal.Trace here
      (InLogs here (Path.ofString "logs") stem)
      (FileAction.OnWay here ((Path.ofString "logs").child stem))) := by
  obtain ⟨happend, hdelete⟩ := keeps_storeIn here (Path.ofString "logs") stem
  refine ⟨?_, ?_, ?_⟩
  · intro name world
    have hfiles : ((Rehearsal.fixedResolver []).resolve name world).2.files = world.files := rfl
    show (FileSystem.frame here _ _).rel world.files
      ((Rehearsal.fixedResolver []).resolve name world).2.files
    rw [hfiles]
    exact Frame.refl _ world.files
  · intro store hstore text
    rw [← Option.some.inj hstore]
    exact happend text
  · intro store hstore
    rw [← Option.some.inj hstore]
    exact hdelete

theorem confinement_besideLogs :
    besideLogs.Confines (Path.ofString "demo.rs").stem none []
      (InLogs [] (Path.ofString "logs") (Path.ofString "demo.rs").stem)
      (FileAction.OnWay [] ((Path.ofString "logs").child (Path.ofString "demo.rs").stem))
      (Path.lands [] besideLogs.settings.buildRoot ++ [(Path.ofString "demo.rs").stem]) := by
  have hordinary : Path.Ordinary (Path.ofString "demo.rs").stem := by
    refine ⟨?_, ?_, ?_, ?_⟩ <;> decide
  exact (confinement besideLogs "demo.rs" none).2.2 ((Path.ordinary_stem_iff "demo.rs").mp hordinary)
    (collaborates_besideLogs _ [])

/-- Cleaning up after `..` removes what stands beside the build root. -/
theorem clean_up_removes_outside :
    FileSystem.node? ⟨[], [(["build"], .directory), (["precious"], .file [])]⟩ ["precious"] =
        some (.file []) ∧
      (besideLogs.clean (besideLogs.newProject (Path.ofString "..").stem none)
        ⟨⟨[], [(["build"], .directory), (["precious"], .file [])]⟩, fun _ => .nan, 0,
          .empty⟩).2.files.node? ["precious"] = none := by
  decide

end Pipeline

end RustScript
