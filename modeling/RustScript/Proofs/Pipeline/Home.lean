import RustScript.Proofs.Files.Rooted
import RustScript.Proofs.Pipeline.Allowed

/-!
# Tasks keep to the directories of their script

A script has a directory for its project below the build root, and one for its logs if there are any.
If the runner stays in the directory of the project, then every task about the script leaves its
marks in these directories, apart from missing directories on the way to them (`confined_perform`), and
every project that comes of such tasks lies in the directory of the script (`atHome_perform`).
-/

set_option autoImplicit false

namespace RustScript

/-! ## Working in one directory -/

/-- Where the directory stands, the action changes files in it alone. -/
structure Act.StaysIn {σ α : Type} (here : Place) (directory : Path) (action : Act σ α) : Prop where
  confined : ∀ world, world.files.here = here → world.files.find? directory = some .directory →
    FileSystem.Confined (directory.lands here <+: ·) (fun _ => False) world.files
      (action world).2.files
  rooted : ∀ world, world.files.here = here → world.files.find? directory = some .directory →
    world.files.Rooted → (action world).2.files.Rooted

/-- Where the directory stands, the action reads and changes files in it alone. -/
structure Act.WorksIn {σ α : Type} (here : Place) (directory : Path) (action : Act σ α) : Prop
    extends Act.StaysIn here directory action where
  /-- What the action gives and what it leaves in the directory depends on nothing else. -/
  depends : ∀ world other, world.files.here = here → other.files.here = here →
    world.files.Rooted → world.files.find? directory = some .directory →
    other.files.find? directory = some .directory →
    (∀ place, directory.lands here <+: place →
      other.files.node? place = world.files.node? place) →
    (action other).1 = (action world).1 ∧ ∀ place, directory.lands here <+: place →
      (action other).2.files.node? place = (action world).2.files.node? place

namespace Pipeline

open RustScript.Progress

variable {σ : Type}

/-- The runner stays in the directory of the project when it builds and runs the project. -/
structure StaysAtHome (pipeline : Pipeline σ) (here : Place) (project : Project) : Prop where
  build : Act.StaysIn here project.directory (pipeline.runner (buildCall pipeline.settings project))
  run : ∀ args capture, Act.StaysIn here project.directory
    (pipeline.runner (runCall pipeline.settings project args capture))

/-- The runner works in the directory of the project when it builds and runs the project. -/
structure WorksAtHome (pipeline : Pipeline σ) (here : Place) (project : Project) : Prop where
  build : Act.WorksIn here project.directory (pipeline.runner (buildCall pipeline.settings project))
  run : ∀ args capture, Act.WorksIn here project.directory
    (pipeline.runner (runCall pipeline.settings project args capture))

theorem WorksAtHome.stays {pipeline : Pipeline σ} {here : Place} {project : Project}
    (h : pipeline.WorksAtHome here project) : pipeline.StaysAtHome here project :=
  ⟨h.build.toStaysIn, fun args capture => (h.run args capture).toStaysIn⟩

/-- The directory of a project that can be built stands. -/
theorem directory_of_manifest {project : Project} {files : FileSystem}
    (h : files.exists project.manifestPath = true) :
    files.find? project.directory = some .directory := by
  obtain ⟨node, hnode⟩ := Option.isSome_iff_exists.mp h
  exact find?_of_child ordinary_cargoToml hnode

/-- The directory of a project that can be run stands. -/
theorem directory_of_target {project : Project} (hstem : Path.Ordinary project.stem)
    {files : FileSystem} (h : files.exists project.targetPath = true) :
    files.find? project.directory = some .directory := by
  obtain ⟨node, hnode⟩ := Option.isSome_iff_exists.mp h
  exact find?_of_child ordinary_target (find?_of_child ordinary_debug (find?_of_child hstem hnode))

/-! ## The directories of a script -/

/-- The place is in the directory of the project of the script `stem`, or in the one of its logs. -/
def Holds (here : Place) (root : Path) (logs : Option Path) (stem : String) (place : Place) : Prop :=
  (root.child stem).lands here <+: place ∨ InLogsOf here logs stem place

/-- The place is on the way to one of these directories. -/
def LeadsHome (here : Place) (root : Path) (logs : Option Path) (stem : String) (place : Place) :
    Prop :=
  FileAction.OnWay here (root.child stem) place ∨ OnWayToLogs here logs stem place

/-- The directories that are made for a script: that of its project and that of its logs. -/
def ownPaths (root : Path) (logs : Option Path) (stem : String) : List Path :=
  root.child stem :: (logs.map fun base => base.child stem).toList

section

variable {root : Path} {logs : Option Path} {stem : String}

theorem directory_mem_ownPaths : root.child stem ∈ ownPaths root logs stem := List.mem_cons_self

theorem logs_mem_ownPaths {base : Path} (h : base ∈ logs) :
    base.child stem ∈ ownPaths root logs stem := by
  refine List.mem_cons_of_mem _ (Option.mem_toList.mpr ?_)
  rw [Option.mem_def.mp h]
  rfl

theorem mem_ownPaths {path : Path} (h : path ∈ ownPaths root logs stem) :
    path = root.child stem ∨ ∃ base ∈ logs, path = base.child stem := by
  refine (List.mem_cons.mp h).imp_right fun hlogs => ?_
  obtain ⟨base, hbase, rfl⟩ := Option.mem_map.mp (Option.mem_toList.mp hlogs)
  exact ⟨base, hbase, rfl⟩

end

/-- What a task may change of the files. -/
def homeFrame (σ : Type) (here : Place) (root : Path) (logs : Option Path) (stem : String) :
    Frame (World σ) := Act.frame σ here (Holds here root logs stem) (LeadsHome here root logs stem)

/-- The desk of the script `stem`: all projects lie in its directory, and the journal has heard of no
other script. -/
structure AtHome (pipeline : Pipeline σ) (stem : String) (desk : Desk) : Prop where
  projects : ∀ project ∈ desk.projects, project.SharesPlace (pipeline.newProject stem none)
  subject : ∀ other ∈ desk.subject, other = stem

theorem atHome_empty (pipeline : Pipeline σ) (stem : String) : pipeline.AtHome stem .empty :=
  ⟨fun _ hmem => absurd hmem List.not_mem_nil, fun _ hmem => absurd hmem (Option.not_mem_none _)⟩

section

variable {pipeline : Pipeline σ} {logs : Option Path} {here : Place} {stem : String}

/-! ## Projects stay at home -/

theorem sharesPlace_doJob (project : Project) (job : Job) (tracker : Tracker (Session σ)) :
    (pipeline.doJob project job tracker).1.1.SharesPlace project := by
  cases job with
  | build => exact sharesPlace_build pipeline project tracker
  | run args capture => exact sharesPlace_run pipeline project args capture tracker
  | clean =>
      show (pipeline.clean project tracker.state.world).1.1.SharesPlace project
      rw [clean_apply]
      rcases pipeline.removeAll project _ tracker.state.world with ⟨error | _, after⟩ <;>
        exact ⟨rfl, rfl⟩

theorem sharesPlace_withNew {projects : List Project}
    (h : ∀ project ∈ projects, project.SharesPlace (pipeline.newProject stem none))
    {result : Except Failure Project}
    (hresult : ∀ project, result = .ok project →
      project.SharesPlace (pipeline.newProject stem none)) :
    ∀ project ∈ withNew projects result, project.SharesPlace (pipeline.newProject stem none) := by
  cases result with
  | error failure => exact h
  | ok project =>
      intro other hother
      rcases List.mem_append.mp hother with hold | hnew
      · exact h other hold
      · rw [List.mem_singleton.mp hnew]
        exact hresult project rfl

theorem sharesPlace_work {task : Task} (htask : task.IsAbout stem) {projects : List Project}
    (h : ∀ project ∈ projects, project.SharesPlace (pipeline.newProject stem none))
    (tracker : Tracker (Session σ)) :
    ∀ project ∈ (pipeline.work projects task tracker).1.2,
      project.SharesPlace (pipeline.newProject stem none) := by
  cases task with
  | analyze script => exact h
  | generate metadata other source =>
      obtain rfl : other = stem := htask
      refine sharesPlace_withNew h fun project hproject => ?_
      change (pipeline.generate metadata other source tracker).1.map Prod.fst = _ at hproject
      cases hresult : (pipeline.generate metadata other source tracker).1 with
      | error failure =>
          rw [hresult] at hproject
          cases hproject
      | ok generated =>
          rw [hresult] at hproject
          rw [← Except.ok.inj hproject]
          obtain ⟨hdirectory, hstem⟩ := sharesPlace_generate hresult
          exact ⟨hdirectory, hstem⟩
  | takeUp other source =>
      obtain rfl : other = stem := htask
      refine sharesPlace_withNew h fun project hproject => ?_
      change (pipeline.existingProject other source tracker.state.world).1 = _ at hproject
      rw [existingProject_apply] at hproject
      obtain ⟨hdirectory, hstem⟩ := sharesPlace_foundProject hproject
      exact ⟨hdirectory, hstem⟩
  | on place job =>
      rw [work_on_apply]
      cases hplace : projects[place]? with
      | none => exact h
      | some project =>
          intro other hother
          rcases List.mem_or_eq_of_mem_set hother with hold | rfl
          · exact h other hold
          · obtain ⟨hdirectory, hstem⟩ := sharesPlace_doJob project job tracker
            obtain ⟨hplace, hname⟩ := h project (List.mem_of_getElem? hplace)
            exact ⟨hdirectory.trans hplace, hstem.trans hname⟩

/-- What may happen if anything may. -/
theorem allowsWork_anything (pipeline : Pipeline σ) (stem : String) :
    pipeline.AllowsWork stem ⟨fun _ _ => True, fun _ => trivial, fun _ _ => trivial⟩ :=
  ⟨⟨fun _ => trivial, fun _ _ => trivial⟩, fun _ _ => trivial, fun _ _ _ _ => trivial,
    fun _ _ _ _ _ _ => trivial, fun _ _ _ => trivial, fun _ _ => trivial, fun _ _ => trivial,
    fun _ _ _ _ => trivial, fun _ => trivial⟩

/-- **Projects stay in the directory of their script.** -/
theorem atHome_perform {desk : Desk} {task : Task} (htask : task.IsAbout stem)
    (h : pipeline.AtHome stem desk) (world : World σ) :
    pipeline.AtHome stem (pipeline.perform desk task world).1.2 where
  projects := sharesPlace_work htask h.projects (desk.tracker pipeline world)
  subject := ((keeps_work (pipeline.allowsWork_anything stem) h.projects htask
    (desk.tracker pipeline world) rfl).2 h.subject).1

/-! ## Tasks stay at home -/

section

variable (hlogs : pipeline.WritesOnlyLogs logs) (hstem : Path.Ordinary stem)
  (hstays : pipeline.StaysAtHome here (pipeline.newProject stem none))

include hlogs hstem hstays

/-- All that a pipeline does whose runner stays at home. -/
theorem allowsWork_home :
    pipeline.AllowsWork stem (homeFrame σ here pipeline.settings.buildRoot logs stem) := by
  have hhome : pipeline.Collaborates stem
      (homeFrame σ here pipeline.settings.buildRoot logs stem) :=
    (hlogs.collaborates here stem).mono (fun _ => .inr) fun _ => .inr
  have hcalls : ∀ {call : Command.Call},
      Act.StaysIn here (pipeline.newProject stem none).directory (pipeline.runner call) →
      ∀ world : World σ, world.files.find? (pipeline.newProject stem none).directory =
        some .directory →
      (homeFrame σ here pipeline.settings.buildRoot logs stem).rel world
        (pipeline.runner call world).2 := by
    intro call hcall world hstands hhere
    have hconfined := hcall.confined world hhere hstands
    exact ⟨hconfined.here.trans hhere, hconfined.mono (fun _ => .inl) fun _ => False.elim⟩
  refine ⟨allowsReading_files _ _ _, hhome.resolve, hhome.append, ?_,
    fun source manifest => Act.keeps_files (keeps_writeProject (fun _ => .inl) (fun _ => .inl) _ _),
    fun source => Act.keeps_files (keeps_writeRest (fun _ => .inl) (fun _ => .inl) _),
    fun world hexists => hcalls hstays.build world (directory_of_manifest hexists),
    fun args capture world hexists =>
      hcalls (hstays.run args capture) world (directory_of_target hstem hexists), fun world => ?_⟩
  · intro store hstore stage hstage output world hhere
    obtain ⟨base, hbase, rfl⟩ := hlogs.mem_store hstore
    obtain ⟨hafter, hconfined⟩ := keeps_save here base stem hstage output world hhere
    exact ⟨hafter, hconfined.mono (fun _ hplace => .inr ⟨base, hbase, hplace⟩)
      fun _ hplace => .inr ⟨base, hbase, hplace⟩⟩
  · exact keeps_removeAll hhome.delete rfl (fun _ => .inl) _ world

/-- **Tasks stay at home**: they leave their marks in the directories of their script, and make missing
directories on the way. -/
theorem confined_perform {desk : Desk} {task : Task} (htask : task.IsAbout stem)
    (hdesk : pipeline.AtHome stem desk) {world : World σ} (hhere : world.files.here = here) :
    FileSystem.Confined (Holds here pipeline.settings.buildRoot logs stem)
      (LeadsHome here pipeline.settings.buildRoot logs stem) world.files
      (pipeline.perform desk task world).2.files := by
  obtain ⟨-, hrun⟩ := keeps_work (allowsWork_home hlogs hstem hstays) hdesk.projects htask
    (desk.tracker pipeline world) rfl
  obtain ⟨-, hfiles⟩ := hrun hdesk.subject
  exact (hfiles hhere).2

end

end

/-! ## A runner that stays at home -/

section

open Rehearsal

/-- A rehearsed build makes its program in the directory of the project. -/
theorem files_cast (cast : Cast) (call : Command.Call) (world : World Trace) :
    (cast.runner call world).2.files = world.files ∨ ∃ directory, call.directory = some directory ∧
      (cast.runner call world).2.files = ((makeProgram directory).run world.files).2 := by
  unfold Cast.runner
  rw [Frame.stateBind_apply]
  cases Kind.ofCall call with
  | search => exact .inl rfl
  | run => exact .inl rfl
  | build =>
      show (cast.buildOutcome call _).2.files = _ ∨ _
      unfold Cast.buildOutcome
      cases cast.build.outcome call with
      | error fault => exact .inl rfl
      | ok output =>
          cases hdirectory : call.directory with
          | none => exact .inl rfl
          | some directory =>
              dsimp only
              split
              · exact .inr ⟨directory, rfl, rfl⟩
              · exact .inl rfl

/-- Where a directory stands, a program is put into it alone. -/
theorem staysIn_makeProgram {here : Place} {directory : Path}
    (hname : Path.Ordinary directory.name) {files : FileSystem} (hhere : files.here = here)
    (hstands : files.find? directory = some .directory) :
    FileSystem.Confined (directory.lands here <+: ·) (fun _ => False) files
        ((makeProgram directory).run files).2 ∧
      (files.Rooted → ((makeProgram directory).run files).2.Rooted) := by
  constructor
  · have hkeeps : FileAction.Keeps (FileSystem.frame here (directory.lands here <+: ·)
        (FileAction.OnWay here ((directory.child "target").child "debug")))
        (makeProgram directory) := by
      refine FileAction.keeps_bind (FileAction.keeps_makeDirectories fun _ => id) fun _ =>
        FileAction.keeps_write ?_ _
      rw [Path.lands_child_of_ordinary here hname, Path.lands_child_of_ordinary here ordinary_debug,
        Path.lands_child_of_ordinary here ordinary_target, List.append_assoc, List.append_assoc]
      exact List.prefix_append _ _
    obtain ⟨-, hconfined⟩ := hkeeps files hhere
    refine ⟨hconfined.here, fun place hplace => .inl ?_⟩
    refine (hconfined.nodes place hplace).resolve_right ?_
    rintro ⟨⟨names, hnames, rfl⟩, hnone, -⟩
    have hbelow : ∀ rest : List String, ".." ∉ rest →
        directory.lands here <+: Path.lands here ⟨directory.slashes, directory.names ++ rest⟩ := by
      intro rest hup
      unfold Path.lands
      rw [List.foldl_append]
      exact Path.prefix_foldl_follow _ hup
    rw [Path.child_of_ordinary ordinary_target, Path.child_of_ordinary ordinary_debug]
      at hnames hplace hnone
    rcases List.prefix_concat_iff.mp hnames with rfl | hnames
    · refine hplace ?_
      rw [List.append_assoc]
      exact hbelow ["target", "debug"] (by decide)
    rcases List.prefix_concat_iff.mp hnames with rfl | hnames
    · exact hplace (hbelow ["target"] (by decide))
    · -- what is on the way to the directory stands already
      obtain ⟨-, hnode⟩ := FileSystem.place_of_find? (FileSystem.find?_cut hstands hnames)
      rw [hhere] at hnode
      rw [show Path.lands here ⟨directory.slashes, names⟩ = (directory.cut names).lands here from rfl,
        hnode] at hnone
      cases hnone
  · intro hrooted
    exact ((FileAction.keeps_bind (FileAction.keeps_rooting_makeDirectories _) fun _ =>
      FileAction.keeps_rooting_change _ _) files hrooted).1

/-- **A rehearsed command** stays in the directory in which it is called. -/
theorem staysIn_cast (cast : Cast) (here : Place) {directory : Path}
    (hname : Path.Ordinary directory.name) {call : Command.Call}
    (hcall : call.directory = none ∨ call.directory = some directory) :
    Act.StaysIn here directory (cast.runner call) := by
  have hfiles : ∀ world : World Trace, (cast.runner call world).2.files = world.files ∨
      (cast.runner call world).2.files = ((makeProgram directory).run world.files).2 := by
    intro world
    obtain hsame | ⟨other, hother, hmade⟩ := files_cast cast call world
    · exact .inl hsame
    · rw [hother] at hcall
      rw [Option.some.inj (hcall.resolve_left nofun)] at hmade
      exact .inr hmade
  constructor
  · intro world hhere hstands
    obtain hsame | hmade := hfiles world
    · rw [hsame]
      exact .refl _
    · rw [hmade]
      exact (staysIn_makeProgram hname hhere hstands).1
  · intro world hhere hstands hrooted
    obtain hsame | hmade := hfiles world
    · rwa [hsame]
    · rw [hmade]
      exact (staysIn_makeProgram hname hhere hstands).2 hrooted

theorem staysAtHome_cast {pipeline : Pipeline Trace} {cast : Cast}
    (hrunner : pipeline.runner = cast.runner) (here : Place) {project : Project}
    (hname : Path.Ordinary project.directory.name) : pipeline.StaysAtHome here project := by
  constructor
  · rw [hrunner]
    exact staysIn_cast cast here hname (.inr rfl)
  · intro args capture
    rw [hrunner]
    exact staysIn_cast cast here hname (.inl rfl)

end

end Pipeline

end RustScript
