import RustScript.Proofs.Pipeline.Home
import RustScript.Proofs.Pipeline.Observed

/-!
# Work beside others

While a pipeline works on a script, others may be at work in the same tree of files, at places of their
own. If the paths of the script keep clear of these places (`KeepsClear`), if what the resolver answers
depends on the name alone and what the runner does on the directory of the project alone, then the
pipeline meets the same as it would without the others: its notes and outputs leave the worlds near
(`company_of_clear`), its project is found, written, built and run alike (`serves_of_home`), and
cleaning up comes to the same (`relates_clean`). Only the journal tells of other times.
-/

set_option autoImplicit false

namespace RustScript

/-- One directory is like the other one, and both actions work in it alone: they give the same and leave
near trees. -/
theorem Act.WorksIn.relates {σ α : Type} {here : Place} {directory : Path} {action : Act σ α}
    (h : action.WorksIn here directory) {differences : Differences}
    (hfixed : ∀ place, directory.lands here <+: place → differences.Fixed here place)
    {first second : World σ} (hnear : World.Near differences here (fun _ => ()) first second)
    (hfirst : first.files.find? directory = some .directory)
    (hsecond : second.files.find? directory = some .directory) :
    (action first).1 = (action second).1 ∧
      World.Near differences here (fun _ => ()) (action first).2 (action second).2 := by
  have hsame : ∀ place, directory.lands here <+: place →
      second.files.node? place = first.files.node? place := fun place hplace =>
    hnear.files.node?_of_fixed (hfixed place hplace)
  obtain ⟨hresult, hinside⟩ := h.depends first second hnear.files.firstHere hnear.files.secondHere
    hnear.files.rooted hfirst hsecond hsame
  exact ⟨hresult.symm, hnear.files.alike
    (h.rooted first hnear.files.firstHere hfirst hnear.files.rooted)
    (h.confined first hnear.files.firstHere hfirst)
    (h.confined second hnear.files.secondHere hsecond) hinside, rfl⟩

namespace Pipeline

open RustScript.Progress

variable {σ : Type}

/-! ## Journals -/

/-- The contents of two journals are the same apart from the times. -/
inductive TellsSame : List UInt8 → List UInt8 → Prop
  | same (content : List UInt8) : TellsSame content content
  | more {content content' : List UInt8} {record record' : Record} (h : TellsSame content content')
      (records : record.timeless = record'.timeless) :
      TellsSame (content ++ Utf8.encode (Log.journalLine (note record)))
        (content' ++ Utf8.encode (Log.journalLine (note record')))

/-- The place of the journal of a script, if it has one. -/
def IsJournal (here : Place) (logs : Option Path) (stem : String) (place : Place) : Prop :=
  ∃ base ∈ logs, place = (base.child stem).lands here ++ [Log.journalName]

/-- Where the trees differ that are met by a script alone and beside others, who are at work at `inside`
places and make directories at `way` places. -/
def besideOthers (here : Place) (logs : Option Path) (stem : String) (inside way : Place → Prop) :
    Differences where
  inside := inside
  way := way
  told place content content' := IsJournal here logs stem place ∧ TellsSame content content'

/-- The paths of a script keep clear of the places of others. -/
structure KeepsClear (here : Place) (root : Path) (logs : Option Path) (stem : String)
    (inside way : Place → Prop) : Prop where
  /-- They lead past these places, and upwards only from where nobody else makes directories. -/
  paths : ∀ path ∈ ownPaths root logs stem,
    (besideOthers here logs stem inside way).Clear here path
  own : ∀ place, Holds here root logs stem place → ¬ inside place ∧ ¬ way place
  /-- The journal is outside the directory of the project. -/
  journal : ∀ base ∈ logs, ¬ (root.child stem).lands here <+:
    (base.child stem).lands here ++ [Log.journalName]
  /-- The working directory is elsewhere. -/
  away : ∀ place, Holds here root logs stem place → ¬ place <+: here

section

variable {here : Place} {root : Path} {logs : Option Path} {stem : String}
  {inside way : Place → Prop} (hclear : KeepsClear here root logs stem inside way)

include hclear

/-- All that is in the directory of the project is the same. -/
theorem KeepsClear.fixed_home {place : Place} (hplace : (root.child stem).lands here <+: place) :
    (besideOthers here logs stem inside way).Fixed here place where
  outside := (hclear.own place (.inl hplace)).1
  standing hway := absurd hway (hclear.own place (.inl hplace)).2
  untold := by
    rintro content content' ⟨⟨base, hbase, rfl⟩, -⟩
    exact hclear.journal base hbase hplace

/-- All that is in the logs is the same, but for the journal. -/
theorem KeepsClear.fixed_logs {base : Path} (hbase : base ∈ logs) {place : Place}
    (hplace : (base.child stem).lands here <+: place)
    (hjournal : place ≠ (base.child stem).lands here ++ [Log.journalName]) :
    (besideOthers here logs stem inside way).Fixed here place where
  outside := (hclear.own place (.inr ⟨base, hbase, hplace⟩)).1
  standing hway := absurd hway (hclear.own place (.inr ⟨base, hbase, hplace⟩)).2
  untold := by
    rintro content content' ⟨⟨other, hother, heq⟩, -⟩
    rw [Option.mem_unique hother hbase] at heq
    exact hjournal heq

/-- A path that leads on in the directory of the project. -/
theorem KeepsClear.free_child {path : Path}
    (hpath : (besideOthers here logs stem inside way).Clear here path)
    (hplace : (root.child stem).lands here <+: path.lands here) {name : String}
    (hname : Path.Ordinary name) :
    (besideOthers here logs stem inside way).Free here (path.child name) := by
  have hfixed := hclear.fixed_home (hplace.trans (List.prefix_append _ [name]))
  refine ⟨?_, ?_⟩
  · rw [child_eq_inner _ hname]
    exact hpath.inner hname.2.2.1 hname.2.1 hfixed.outside
  · rw [Path.lands_child_of_ordinary here hname]
    exact hfixed

/-- The paths of the project are clear. -/
theorem KeepsClear.project (hstem : Path.Ordinary stem) {project : Project}
    (hdirectory : project.directory = root.child stem) (hname : project.stem = stem) :
    project.Clear (besideOthers here logs stem inside way) here := by
  have hbase := hclear.paths _ directory_mem_ownPaths
  have hroot : (root.child stem).lands here <+: (root.child stem).lands here := List.prefix_refl _
  have htarget := hclear.free_child hbase hroot ordinary_target
  have hbelow : (root.child stem).lands here <+: ((root.child stem).child "target").lands here := by
    rw [Path.lands_child_of_ordinary here ordinary_target]
    exact List.prefix_append _ _
  have hdebug := hclear.free_child htarget.clear hbelow ordinary_debug
  have hdeeper : (root.child stem).lands here <+:
      (((root.child stem).child "target").child "debug").lands here := by
    rw [Path.lands_child_of_ordinary here ordinary_debug]
    exact hbelow.trans (List.prefix_append _ _)
  refine ⟨hdirectory ▸ hbase, ?_, ?_, ?_⟩
  · unfold Project.generatedSourcePath
    rw [hdirectory]
    exact hclear.free_child hbase hroot ordinary_mainRs
  · unfold Project.manifestPath
    rw [hdirectory]
    exact hclear.free_child hbase hroot ordinary_cargoToml
  · unfold Project.targetPath
    rw [hdirectory, hname]
    exact hclear.free_child hdebug.clear hdeeper hstem

theorem KeepsClear.free_directory :
    (besideOthers here logs stem inside way).Free here (root.child stem) :=
  ⟨hclear.paths _ directory_mem_ownPaths, hclear.fixed_home (List.prefix_refl _)⟩

theorem KeepsClear.free_logs {base : Path} (hbase : base ∈ logs) :
    (besideOthers here logs stem inside way).Free here (base.child stem) := by
  refine ⟨hclear.paths _ (logs_mem_ownPaths hbase),
    hclear.fixed_logs hbase (List.prefix_refl _) fun heq => ?_⟩
  exact List.cons_ne_nil _ _ (List.append_right_eq_self.mp heq.symm)

end

/-! ## Company -/

/-- The worlds that a script meets alone and beside others. -/
abbrev NearOthers (σ : Type) (here : Place) (logs : Option Path) (stem : String)
    (inside way : Place → Prop) : World σ → World σ → Prop :=
  World.Near (besideOthers here logs stem inside way) here fun _ => ()

/-- What the resolver answers is a function of the name. -/
def AnswersByName (pipeline : Pipeline σ) : Prop :=
  ∀ name world other, (pipeline.resolver.resolve name world).1 =
    (pipeline.resolver.resolve name other).1

section

variable {pipeline : Pipeline σ} {logs : Option Path} {here : Place} {stem : String}
  {inside way : Place → Prop}
  (hclear : KeepsClear here pipeline.settings.buildRoot logs stem inside way)

include hclear

/-- Both journals get a line. -/
theorem relates_journal {base : Path} (hbase : base ∈ logs) {record record' : Record}
    (hrecord : record.timeless = record'.timeless) (world world' : World σ)
    (hnear : NearOthers σ here logs stem inside way world world') :
    NearOthers σ here logs stem inside way
      ((Log.storeIn base).append stem (note record) world).2
      ((Log.storeIn base).append stem (note record') world').2 := by
  have hordinary := ordinary_journal
  have hown := hclear.own ((base.child stem).lands here ++ [Log.journalName])
    (.inr ⟨base, hbase, List.prefix_append _ _⟩)
  have hpath : (besideOthers here logs stem inside way).Clear here
      ((base.child stem).inner Log.journalName) :=
    (hclear.paths _ (logs_mem_ownPaths hbase)).inner hordinary.2.2.1 hordinary.2.1 hown.1
  -- whatever the journals tell, they go on telling the same
  have htold : Relates
      (FileAction.NearIn (besideOthers here logs stem inside way) here (base.child stem)) Eq
      (FileAction.change ((base.child stem).inner Log.journalName)
        (· ++ Utf8.encode (Log.journalLine (note record)))).run
      (FileAction.change ((base.child stem).inner Log.journalName)
        (· ++ Utf8.encode (Log.journalLine (note record')))).run := by
    refine FileAction.relates_change hordinary.2.2.1 hordinary.2.1 hpath
      (fun hway => absurd hway hown.2) fun content content' hsame => .inr ⟨⟨base, hbase, rfl⟩, ?_⟩
    rcases hsame with rfl | ⟨-, htells⟩
    · exact .more (.same content) hrecord
    · exact .more htells hrecord
  have hfiles := FileAction.relates_inDirectory (hclear.paths _ (logs_mem_ownPaths hbase)) htold
  rw [← child_eq_inner _ hordinary] at hfiles
  exact (World.relates_files hfiles world world' hnear).2

/-- Both logs get an output. -/
theorem relates_save {base : Path} (hbase : base ∈ logs) {stage : String}
    (hstage : stage ∈ commandStages) (output : Command.Output) :
    Relates (NearOthers σ here logs stem inside way) Eq
      ((Log.storeIn base).save stem stage output) ((Log.storeIn base).save stem stage output) := by
  refine World.relates_files (FileAction.relates_inDirectory
    (hclear.paths _ (logs_mem_ownPaths hbase)) (FileAction.relates_forM fun file hfile => ?_))
  obtain ⟨hordinary, -, hjournal⟩ := ordinary_outputFiles hstage hfile
  have hfixed := hclear.fixed_logs hbase (List.prefix_append _ [file.1]) fun heq =>
    hjournal (List.cons.inj (List.append_cancel_left heq)).1.symm
  have hpath := (hclear.paths _ (logs_mem_ownPaths hbase)).inner hordinary.2.2.1 hordinary.2.1
    hfixed.outside
  dsimp only
  rw [child_eq_inner _ hordinary]
  exact FileAction.relates_write hordinary.2.2.1 hordinary.2.1 hpath hfixed _

variable (hlogs : pipeline.WritesOnlyLogs logs)

include hlogs

/-- **A pipeline beside others** is in company with itself alone. -/
theorem company_of_clear (hanswers : pipeline.AnswersByName) :
    Company pipeline pipeline (NearOthers σ here logs stem inside way) (· = stem) where
  settings := rfl
  structural := rfl
  now _ _ h := ⟨h.files, h.outside⟩
  note := by
    rintro _ rfl record record' hrecord world world' hnear
    unfold noted
    split
    · exact hnear
    · cases hstore : pipeline.store with
      | none => exact hnear
      | some store =>
          obtain ⟨base, hbase, rfl⟩ := hlogs.mem_store hstore
          exact relates_journal hclear hbase hrecord world world' hnear
  keep := by
    rintro _ rfl stage hstage output world world' hnear
    unfold kept
    cases hstore : pipeline.store with
    | none => exact hnear
    | some store =>
        obtain ⟨base, hbase, rfl⟩ := hlogs.mem_store hstore
        exact (relates_save hclear hbase hstage output world world' hnear).2
  resolve name world world' hnear := by
    refine ⟨hanswers name world world', ?_, rfl⟩
    rw [hlogs.resolver, hlogs.resolver]
    exact hnear.files

variable (hstem : Path.Ordinary stem)

include hstem

omit hlogs in
/-- The project of the script is served alike by a runner that works in its directory. -/
theorem serves_of_home (hworks : pipeline.WorksAtHome here (pipeline.newProject stem none)) :
    Serves pipeline pipeline (NearOthers σ here logs stem inside way)
      (pipeline.newProject stem none) := by
  have hproject := hclear.project hstem (pipeline.directory_newProject stem none) rfl
  have hcalls : ∀ {call : Command.Call} {needed : Path},
      Act.WorksIn here (pipeline.newProject stem none).directory (pipeline.runner call) →
      (∀ world world' : World σ, NearOthers σ here logs stem inside way world world' →
        world'.files.find? needed = world.files.find? needed) →
      (∀ files : FileSystem, files.exists needed = true →
        files.find? (pipeline.newProject stem none).directory = some .directory) →
      RelatesWhere (·.files.exists needed = true) (NearOthers σ here logs stem inside way) Eq
        (pipeline.runner call) (pipeline.runner call) := by
    intro call needed hcall hneeded hstands world world' hnear hexists
    have hexists' : world'.files.exists needed = true := by
      unfold FileSystem.exists at hexists ⊢
      rwa [hneeded world world' hnear]
    exact hcall.relates (fun _ => hclear.fixed_home) hnear (hstands _ hexists) (hstands _ hexists')
  refine ⟨fun _ _ h => h.files.find?_of_free hproject.manifest, fun _ _ h => ?_,
    fun source manifest => World.relates_files (relates_writeProject hproject source manifest),
    fun source => World.relates_files (relates_writeRest hproject source), ?_,
    fun args capture => ?_⟩
  · unfold FileSystem.exists
    rw [h.files.find?_of_free hproject.target]
  · exact hcalls hworks.build (fun _ _ h => h.files.find?_of_free hproject.manifest)
      fun _ => directory_of_manifest
  · exact hcalls (hworks.run args capture) (fun _ _ h => h.files.find?_of_free hproject.target)
      fun _ => directory_of_target hstem

/-! ## Cleaning up -/

omit hclear hlogs hstem in
/-- A directory with an ordinary name is removed alike. -/
theorem relates_remove {base : Path} {name : String} (hname : Path.Ordinary name)
    {differences : Differences} (hfree : differences.Free here (base.child name))
    (haway : ¬ (base.child name).lands here <+: here) :
    Relates (FileSystem.Near differences here) Eq (FileAction.removeTree (base.child name)).run
      (FileAction.removeTree (base.child name)).run := by
  refine FileAction.relates_removeTree hfree ?_ ?_ haway
  · rw [Path.child_of_ordinary hname]
    exact List.append_ne_nil_of_right_ne_nil _ (List.cons_ne_nil _ _)
  · rw [Path.child_of_ordinary hname, List.getLast?_concat]
    exact fun heq => hname.2.2.1 (Option.some.inj heq)

/-- The logs are deleted alike. -/
theorem relates_delete :
    ∀ store ∈ pipeline.store, Relates (NearOthers σ here logs stem inside way) Eq
      (store.delete stem) (store.delete stem) := by
  intro store hstore
  obtain ⟨base, hbase, rfl⟩ := hlogs.mem_store hstore
  have hfree := hclear.free_logs hbase
  have hlook : Relates (NearOthers σ here logs stem inside way) Eq
      (Act.look (·.exists (base.child stem)) : Act σ Bool) (Act.look (·.exists (base.child stem))) := by
    intro world world' hnear
    refine ⟨?_, hnear⟩
    show (world.files.find? _).isSome = (world'.files.find? _).isSome
    rw [hnear.files.find?_of_free hfree]
  refine hlook.bind fun present _ hpresent => ?_
  subst hpresent
  cases present with
  | false => exact relates_pure rfl
  | true => exact World.relates_files (relates_remove hstem hfree
      (hclear.away _ (.inr ⟨base, hbase, List.prefix_refl _⟩)))

/-- **Cleaning up** comes to the same. -/
theorem relates_clean {project project' : Project} (hproject : project.timeless = project'.timeless)
    (hplace : project.SharesPlace (pipeline.newProject stem none)) :
    Relates (NearOthers σ here logs stem inside way)
      (fun reached reached' => reached.1.timeless = reached'.1.timeless ∧ reached.2 = reached'.2)
      (pipeline.clean project) (pipeline.clean project') := by
  have hplace' : project'.SharesPlace (pipeline.newProject stem none) := by
    obtain ⟨⟨hdirectory, hname⟩, -⟩ := Project.sharesScript_of_timeless hproject
    exact ⟨hdirectory.trans hplace.directory, hname.trans hplace.stem⟩
  have hfree := hclear.free_directory
  have hremoves : ∀ present, Relates (NearOthers σ here logs stem inside way) Eq
      (pipeline.removeAll (pipeline.newProject stem none) present)
      (pipeline.removeAll (pipeline.newProject stem none) present) := by
    intro present
    have hproject : Relates (NearOthers σ here logs stem inside way) Eq
        (if present then
            Act.files (FileAction.removeTree (pipeline.newProject stem none).directory)
          else pure (.ok ()) : Act σ (Except SystemError Unit))
        (if present then
            Act.files (FileAction.removeTree (pipeline.newProject stem none).directory)
          else pure (.ok ())) := by
      cases present with
      | false => exact relates_pure rfl
      | true => exact World.relates_files (relates_remove hstem hfree
          (hclear.away _ (.inl (List.prefix_refl _))))
    refine hproject.bind fun removed _ hremoved => ?_
    subst hremoved
    cases removed with
    | error error => exact relates_pure rfl
    | ok _ =>
        cases hstore : pipeline.store with
        | none => exact relates_pure rfl
        | some store => exact relates_delete hclear hlogs hstem store hstore
  intro world world' hnear
  have hexists : world'.files.exists (pipeline.newProject stem none).directory =
      world.files.exists (pipeline.newProject stem none).directory := by
    unfold FileSystem.exists
    rw [pipeline.directory_newProject, hnear.files.find?_of_free hfree]
  obtain ⟨hresult, hafter⟩ := hremoves
    (world.files.exists (pipeline.newProject stem none).directory) world world' hnear
  rw [clean_apply, clean_apply, removeAll_congr hplace, removeAll_congr hplace', hplace.directory,
    hplace'.directory, hexists]
  revert hresult hafter
  rcases pipeline.removeAll (pipeline.newProject stem none)
    (world.files.exists (pipeline.newProject stem none).directory) world with ⟨result, after⟩
  rcases pipeline.removeAll (pipeline.newProject stem none)
    (world.files.exists (pipeline.newProject stem none).directory) world' with ⟨result', after'⟩
  rintro (rfl : result = result') hafter
  cases result with
  | error error => exact ⟨⟨hproject, rfl⟩, hafter⟩
  | ok _ => exact ⟨⟨Project.timeless_cleaned hproject, rfl⟩, hafter⟩

end

/-! ## A runner that works at home -/

/-- Trees that have the same in a directory and on the path to it, and anything elsewhere. -/
def elsewhere (here : Place) (directory : Path) : Differences where
  inside place := ¬ directory.lands here <+: place ∧
    ∀ names, names <+: directory.names → place ≠ (directory.cut names).lands here
  way _ := False
  told _ _ _ := False

section

variable {here : Place} {directory : Path}

theorem fixed_elsewhere {place : Place} (h : directory.lands here <+: place) :
    (elsewhere here directory).Fixed here place := ⟨fun hinside => hinside.1 h, nofun, fun _ _ => id⟩

theorem clear_elsewhere : (elsewhere here directory).Clear here directory where
  outside front hfront hinside := hinside.2 front hfront rfl
  upward front hfront := ⟨fun hinside =>
    hinside.2 front ((List.prefix_append _ _).trans hfront) rfl, nofun, fun _ _ => id⟩

theorem free_child_elsewhere {path : Path} (hpath : (elsewhere here directory).Clear here path)
    (hplace : directory.lands here <+: path.lands here) {name : String} (hname : Path.Ordinary name) :
    directory.lands here <+: (path.child name).lands here ∧
      (elsewhere here directory).Free here (path.child name) := by
  have hbelow : directory.lands here <+: path.lands here ++ [name] :=
    hplace.trans (List.prefix_append _ _)
  have hfixed := fixed_elsewhere hbelow
  rw [← Path.lands_child_of_ordinary here hname] at hbelow
  refine ⟨hbelow, ?_, fixed_elsewhere hbelow⟩
  rw [child_eq_inner _ hname]
  exact hpath.inner hname.2.2.1 hname.2.1 hfixed.outside

/-- Where the directory stands in both trees, all directories on the path to it do. -/
theorem near_elsewhere {first second : FileSystem} (hfirst : first.here = here)
    (hsecond : second.here = here) (hrooted : first.Rooted)
    (hstands : first.find? directory = some .directory)
    (hstands' : second.find? directory = some .directory)
    (hsame : ∀ place, directory.lands here <+: place → second.node? place = first.node? place) :
    FileSystem.Near (elsewhere here directory) here first second := by
  refine ⟨hfirst, hsecond, hrooted, fun place hplace => ?_⟩
  suffices heq : second.node? place = first.node? place by
    rw [heq]
    exact .same _
  by_cases hinside : directory.lands here <+: place
  · exact hsame place hinside
  · refine Decidable.byContradiction fun hne => hplace ⟨hinside, ?_⟩
    rintro names hnames rfl
    have hnode := (FileSystem.place_of_find? (FileSystem.find?_cut hstands hnames)).2
    have hnode' := (FileSystem.place_of_find? (FileSystem.find?_cut hstands' hnames)).2
    rw [hfirst] at hnode
    rw [hsecond] at hnode'
    exact hne (hnode'.trans hnode.symm)

open Rehearsal

/-- **A rehearsed command** works in the directory in which it is called. -/
theorem worksIn_cast (cast : Cast) (here : Place) {directory : Path}
    (hname : Path.Ordinary directory.name) {call : Command.Call}
    (hcall : call.directory = none ∨ call.directory = some directory) :
    Act.WorksIn here directory (cast.runner call) where
  toStaysIn := staysIn_cast cast here hname hcall
  depends world other hhere hhere' hrooted hstands hstands' hsame := by
    have hprogram : Relates (FileSystem.Near (elsewhere here directory) here) Eq
        (makeProgram directory).run (makeProgram directory).run := by
      obtain ⟨hbelow, htarget⟩ :=
        free_child_elsewhere clear_elsewhere (List.prefix_refl _) ordinary_target
      obtain ⟨hdeeper, hdebug⟩ := free_child_elsewhere htarget.clear hbelow ordinary_debug
      obtain ⟨hplace, hfree⟩ := free_child_elsewhere hdebug.clear hdeeper hname
      refine FileAction.relates_inDirectory hdebug.clear ?_
      have hclear := hfree.clear
      rw [child_eq_inner _ hname] at hclear ⊢
      refine FileAction.relates_write hname.2.2.1 hname.2.1 hclear ?_ _
      rw [← Path.lands_child_of_ordinary here hname]
      exact hfree.fixed
    have hruns : Relates (World.Near (elsewhere here directory) here fun _ : Trace => ()) Eq
        (cast.runner call) (cast.runner call) := by
      refine relates_cast (fun _ _ _ h => ⟨rfl, h.files, rfl⟩) fun _ hmem => ?_
      obtain hnone | hsome := hcall
      · rw [hnone] at hmem
        cases hmem
      · rw [hsome] at hmem
        rw [← Option.some.inj hmem]
        exact World.relates_files hprogram
    obtain ⟨hresult, hafter⟩ := hruns world other
      ⟨near_elsewhere hhere hhere' hrooted hstands hstands' hsame, rfl⟩
    exact ⟨hresult.symm, fun _ hplace => hafter.files.node?_of_fixed (fixed_elsewhere hplace)⟩

theorem worksAtHome_cast {pipeline : Pipeline Trace} {cast : Cast}
    (hrunner : pipeline.runner = cast.runner) (here : Place) {project : Project}
    (hname : Path.Ordinary project.directory.name) : pipeline.WorksAtHome here project := by
  constructor
  · rw [hrunner]
    exact worksIn_cast cast here hname (.inr rfl)
  · intro args capture
    rw [hrunner]
    exact worksIn_cast cast here hname (.inl rfl)

end

end Pipeline

end RustScript
