import RustScript.Proofs.Pipeline.Abreast
import RustScript.Proofs.Pipeline.Noting

/-!
# Logs only observe

A store for logs keeps aside if it writes only at places of its own and does not touch what is shown of
the world outside; it may fail at any time. A call with such a store is compared with the same call
without any. If the paths of the script and of its project keep clear of the places of the store, and
the resolver and the runner do not look at them, then both calls come to the same apart from the
times: they give the same result or failure, ask for the same, have the same records, and leave the
same below the build root (`logs_only_observe`). Without the first condition they need not: a script
may be found only by way of the directory that the store has made (`found_by_way_of_logs`).
-/

set_option autoImplicit false

namespace RustScript

/-! ## Worlds that are near each other -/

/-- What is shown of a state stays the same. -/
def Frame.same {ω κ : Type} (seen : ω → κ) : Frame ω where
  rel before after := seen after = seen before
  refl _ := rfl
  trans first second := second.trans first

namespace World

variable {σ κ : Type}

/-- The files of the worlds are near, and the same is shown of what is outside. -/
structure Near (differences : Differences) (here : Place) (seen : σ → κ) (first second : World σ) :
    Prop where
  files : FileSystem.Near differences here first.files second.files
  outside : seen second.outside = seen first.outside

variable {differences : Differences} {here : Place} {seen : σ → κ}

/-- Files are changed, and nothing else. -/
theorem relates_files {α : Type} {action other : FileAction α}
    (h : Relates (FileSystem.Near differences here) Eq action.run other.run) :
    Relates (World.Near differences here seen) Eq (Act.files action) (Act.files other) := by
  intro first second hnear
  obtain ⟨hresult, hfiles⟩ := h _ _ hnear.files
  exact ⟨hresult, hfiles, hnear.outside⟩

/-- A file at a free path reads the same. -/
theorem relates_readText {path : Path} (hfree : differences.Free here path) :
    Relates (World.Near differences here seen) Eq (Act.readText path : Act σ _)
      (Act.readText path) := by
  have hread : Relates (World.Near differences here seen) Eq
      (Act.files (FileAction.read path) : Act σ _) (Act.files (FileAction.read path)) := by
    refine relates_files fun first second h => ⟨FileAction.run_read_of_free h hfree, ?_⟩
    rw [FileAction.run_read, FileAction.run_read]
    exact h
  refine hread.bind fun content _ hcontent => ?_
  subst hcontent
  cases content <;> exact relates_pure rfl

end World

/-! ## Projects in near trees -/

/-- The paths of the project keep clear of where trees of files may differ. -/
structure Project.Clear (project : Project) (differences : Differences) (here : Place) : Prop where
  directory : differences.Clear here project.directory
  source : differences.Free here project.generatedSourcePath
  manifest : differences.Free here project.manifestPath
  target : differences.Free here project.targetPath

namespace Pipeline

open RustScript.Progress

variable {σ κ : Type} {differences : Differences} {here : Place} {seen : σ → κ}

/-- A file in a directory is written in both trees or in neither. -/
theorem relates_writeChild {base : Path} {name : String} (hname : Path.Ordinary name)
    (hfree : differences.Free here (base.child name)) (content : List UInt8) :
    Relates (FileAction.NearIn differences here base) Eq
      (FileAction.write (base.child name) content).run
      (FileAction.write (base.child name) content).run := by
  have hfixed := hfree.fixed
  have hclear := hfree.clear
  rw [Path.lands_child_of_ordinary here hname] at hfixed
  rw [child_eq_inner base hname] at hclear ⊢
  exact FileAction.relates_write hname.2.2.1 hname.2.1 hclear hfixed content

/-- A file in a directory is written unless it has its content already, in both trees or in
neither. -/
theorem relates_writeChanged {base : Path} {name : String} (hname : Path.Ordinary name)
    (hfree : differences.Free here (base.child name)) (content : List UInt8) :
    Relates (FileAction.NearIn differences here base) Eq (writeChanged (base.child name) content).run
      (writeChanged (base.child name) content).run := by
  intro first second h
  rw [run_writeChanged, run_writeChanged, h.near.find?_of_free hfree]
  split
  · exact ⟨rfl, h⟩
  · split
    · exact ⟨rfl, h⟩
    · obtain ⟨hresult, hafter⟩ := relates_writeChild hname hfree content first second h
      revert hresult hafter
      rcases (FileAction.write (base.child name) content).run first with ⟨result, after⟩
      rcases (FileAction.write (base.child name) content).run second with ⟨result', after'⟩
      rintro (rfl : result = result') hafter
      cases result <;> exact ⟨rfl, hafter⟩

/-- An empty file is made in both trees or in neither. -/
theorem relates_leaveEmpty {base : Path} {name : String} (hname : Path.Ordinary name)
    (hfree : differences.Free here (base.child name)) :
    Relates (FileAction.NearIn differences here base) Eq (leaveEmpty (base.child name)).run
      (leaveEmpty (base.child name)).run := by
  intro first second h
  rw [run_leaveEmpty, run_leaveEmpty, h.near.find?_of_free hfree]
  split
  · exact relates_writeChild hname hfree [] first second h
  · exact ⟨rfl, h⟩
  · exact ⟨rfl, h⟩

section

variable {project : Project} (hclear : project.Clear differences here)

include hclear

/-- **Writing a project** does the same in near trees. -/
theorem relates_writeProject (source manifest : String) :
    Relates (FileSystem.Near differences here) Eq (writeProject project source manifest).run
      (writeProject project source manifest).run :=
  FileAction.relates_inDirectory hclear.directory (FileAction.relates_bind
    (relates_writeChild ordinary_mainRs hclear.source _) fun _ =>
      relates_writeChanged ordinary_cargoToml hclear.manifest _)

theorem relates_writeRest (source : String) :
    Relates (FileSystem.Near differences here) Eq (writeRest project source).run
      (writeRest project source).run :=
  FileAction.relates_inDirectory hclear.directory (FileAction.relates_bind
    (relates_writeChild ordinary_mainRs hclear.source _) fun _ =>
      relates_leaveEmpty ordinary_cargoToml hclear.manifest)

end

/-- The resolver, and the runner when it builds and runs the project, do not look at where worlds may
differ. -/
structure Unaware (pipeline : Pipeline σ) (near : World σ → World σ → Prop) (project : Project) :
    Prop where
  resolve : ∀ name,
    Relates near Eq (pipeline.resolver.resolve name) (pipeline.resolver.resolve name)
  build : Relates near Eq (pipeline.runner (buildCall pipeline.settings project))
    (pipeline.runner (buildCall pipeline.settings project))
  run : ∀ args capture, Relates near Eq
    (pipeline.runner (runCall pipeline.settings project args capture))
    (pipeline.runner (runCall pipeline.settings project args capture))

/-- A project whose paths are clear is served alike by a runner that is unaware. -/
theorem serves_of_clear {pipeline other : Pipeline σ} {project : Project}
    (hclear : project.Clear differences here)
    (hunaware : pipeline.Unaware (World.Near differences here seen) project)
    (hrunner : other.runner = pipeline.runner) :
    Serves pipeline other (World.Near differences here seen) project where
  manifest _ _ h := h.files.find?_of_free hclear.manifest
  target _ _ h := by
    unfold FileSystem.exists
    rw [h.files.find?_of_free hclear.target]
  write source manifest := World.relates_files (relates_writeProject hclear source manifest)
  rest source := World.relates_files (relates_writeRest hclear source)
  build := Relates.restrict (hrunner ▸ hunaware.build) _
  run args capture := Relates.restrict (hrunner ▸ hunaware.run args capture) _

/-! ## Stores that keep aside -/

/-- The pipeline without a store. -/
def unlogged (pipeline : Pipeline σ) : Pipeline σ := { pipeline with store := none }

/-- What is done aside: nothing changes but at the given places and in what is not shown. -/
def asideFrame (differences : Differences) (here : Place) (seen : σ → κ) : Frame (World σ) :=
  (Act.frame σ here differences.inside differences.way).both ((Frame.same seen).on World.outside)

/-- What is kept of the script `stem` is kept aside, whether or not that succeeds. -/
structure LogsAside (pipeline : Pipeline σ) (differences : Differences) (here : Place)
    (seen : σ → κ) (stem : String) : Prop where
  notes : pipeline.NotesKeep stem (asideFrame differences here seen)
  outputs : ∀ store ∈ pipeline.store, ∀ stage ∈ commandStages, ∀ output,
    (asideFrame differences here seen).Keeps (store.save stem stage output)

theorem near_aside {first second third : World σ} (h : World.Near differences here seen first second)
    (haside : (asideFrame differences here seen).rel second third) :
    World.Near differences here seen first third :=
  ⟨h.files.confined (haside.1 h.files.secondHere).2, haside.2.trans h.outside⟩

/-- A pipeline is in company with itself without its store. -/
theorem company_unlogged {pipeline : Pipeline σ} {heard : String → Prop} {project : Project}
    (haside : ∀ stem, heard stem → pipeline.LogsAside differences here seen stem)
    (hunaware : pipeline.Unaware (World.Near differences here seen) project) :
    Company pipeline.unlogged pipeline (World.Near differences here seen) heard where
  settings := rfl
  structural := rfl
  now _ _ h := ⟨h.files, h.outside⟩
  note stem hstem _ record _ _ world h := by
    unfold noted
    cases hempty : stem.isEmpty with
    | true => exact h
    | false =>
        cases hstore : pipeline.store with
        | none => exact h
        | some store => exact near_aside h ((haside stem hstem).notes hempty store hstore _ world)
  keep stem hstem stage hstage output _ world h := by
    unfold kept
    cases hstore : pipeline.store with
    | none => exact h
    | some store =>
        exact near_aside h ((haside stem hstem).outputs store hstore stage hstage output world)
  resolve := hunaware.resolve

/-! ## The law -/

/-- Notes of a call can be about these scripts: its own, and the one that the pipeline is at. -/
def Script.Hears (script : Script) (tracker : Tracker (Session σ)) (stem : String) : Prop :=
  stem = script.stem ∨ stem ∈ tracker.state.subject

/-- Two runs that came to the same, as far as can be told below the place `root`. -/
structure ComesToSame (root : Place) (first second : Except Failure Outcome × Tracker (Session σ)) :
    Prop where
  /-- The same result or failure, apart from the times. -/
  result : first.1.map Outcome.timeless = second.1.map Outcome.timeless
  /-- The same stages, statuses, details and errors. -/
  records : first.2.records.map Record.timeless = second.2.records.map Record.timeless
  files : ∀ place, root <+: place →
    second.2.state.world.files.node? place = first.2.state.world.files.node? place

/-- The places of the store are out of the way of a call: out of the paths of the script and of its
project, out of the build root, and not looked at by the resolver and the runner. -/
structure OutOfTheWay (pipeline : Pipeline σ) (script : Script) (tracker : Tracker (Session σ))
    (differences : Differences) (seen : σ → κ) : Prop where
  rooted : tracker.state.world.files.Rooted
  logs : ∀ stem, script.Hears tracker stem →
    pipeline.LogsAside differences tracker.state.world.files.here seen stem
  unaware : pipeline.Unaware (World.Near differences tracker.state.world.files.here seen)
    (pipeline.newProject script.stem script.source?)
  read : ∀ path ∈ script.source?, differences.Free tracker.state.world.files.here path
  project : (pipeline.newProject script.stem script.source?).Clear differences
    tracker.state.world.files.here
  root : ∀ place,
    pipeline.settings.buildRoot.lands tracker.state.world.files.here <+: place →
      differences.Fixed tracker.state.world.files.here place

section

variable {pipeline : Pipeline σ} {script : Script} {tracker : Tracker (Session σ)}

/-- A call comes to the same as without the store. -/
theorem OutOfTheWay.comesToSame (h : pipeline.OutOfTheWay script tracker differences seen)
    (selection : Selection) (args : List String) (capture : Bool) :
    ComesToSame (pipeline.settings.buildRoot.lands tracker.state.world.files.here)
        (script.call pipeline.unlogged selection args capture tracker)
        (script.call pipeline selection args capture tracker) ∧
      seen (script.call pipeline selection args capture tracker).2.state.world.outside =
        seen (script.call pipeline.unlogged selection args capture tracker).2.state.world.outside := by
  have hserves : Serves pipeline.unlogged pipeline
      (World.Near differences tracker.state.world.files.here seen)
      (pipeline.unlogged.newProject script.stem script.source?) :=
    serves_of_clear h.project ⟨h.unaware.resolve, h.unaware.build, h.unaware.run⟩ rfl
  have hnear : World.Near differences tracker.state.world.files.here seen tracker.state.world
      tracker.state.world := ⟨.refl rfl h.rooted, rfl⟩
  obtain ⟨hresult, habreast⟩ := abreast_call (company_unlogged h.logs h.unaware) (.inl rfl) hserves
    (fun path hpath => World.relates_readText (h.read path hpath)) selection args capture hnear
    rfl fun stem => .inr
  exact ⟨⟨hresult, habreast.records, fun place hplace =>
    habreast.near.files.node?_of_fixed (h.root place hplace)⟩, habreast.near.outside⟩

/-! ### What is asked for -/

theorem Unaware.noting {project : Project}
    (h : pipeline.Unaware (World.Near differences here seen) project) :
    pipeline.noting.Unaware (World.Near differences here (Prod.map id seen)) project := by
  have hnoting : ∀ {α : Type} (request : Request) {action : Act σ α},
      Relates (World.Near differences here seen) Eq action action →
      Relates (World.Near differences here (Prod.map id seen)) Eq
        (request.take >>= fun _ => action.beside) (request.take >>= fun _ => action.beside) := by
    intro α request action haction first second hnear
    obtain ⟨hasked, hseen⟩ := Prod.mk.inj hnear.outside
    obtain ⟨hresult, hafter⟩ := haction first.behind second.behind ⟨hnear.files, hseen⟩
    exact ⟨hresult, hafter.files,
      Prod.ext (congrArg (· ++ [request]) hasked) hafter.outside⟩
  exact ⟨fun name => hnoting _ (h.resolve name), hnoting _ h.build,
    fun args capture => hnoting _ (h.run args capture)⟩

theorem LogsAside.noting {stem : String} (h : pipeline.LogsAside differences here seen stem) :
    pipeline.noting.LogsAside differences here (Prod.map id seen) stem := by
  have hbeside : ∀ {α : Type} {action : Act σ α}, (asideFrame differences here seen).Keeps action →
      (asideFrame differences here (Prod.map id seen)).Keeps
        (action.beside : Act (List Request × σ) α) := by
    intro α action haction world
    obtain ⟨hfiles, hseen⟩ := haction world.behind
    exact ⟨hfiles, Prod.ext rfl hseen⟩
  refine ⟨fun hstem store hstore text => ?_, fun store hstore stage hstage output => ?_⟩
  · obtain ⟨inner, hinner, rfl⟩ := Option.mem_map.mp hstore
    exact hbeside (h.notes hstem inner hinner text)
  · obtain ⟨inner, hinner, rfl⟩ := Option.mem_map.mp hstore
    exact hbeside (h.outputs inner hinner stage hstage output)

theorem OutOfTheWay.noting (h : pipeline.OutOfTheWay script tracker differences seen) :
    pipeline.noting.OutOfTheWay script (tracker.keeping []) differences (Prod.map id seen) where
  rooted := h.rooted
  logs stem hstem := (h.logs stem hstem).noting
  unaware := h.unaware.noting
  read := h.read
  project := h.project
  root := h.root

/-- **Logs only observe.** If the places of the store are out of the way of a call, then whatever the
store does there and however often it fails, the call comes to the same as without the store: the same
result or failure and the same records, apart from the times, the same requests in the same order, and
the same files below the build root. -/
theorem logs_only_observe (h : pipeline.OutOfTheWay script tracker differences seen)
    (selection : Selection) (args : List String) (capture : Bool) :
    ComesToSame (pipeline.settings.buildRoot.lands tracker.state.world.files.here)
        (script.call pipeline.unlogged selection args capture tracker)
        (script.call pipeline selection args capture tracker) ∧
      (script.call pipeline.noting selection args capture
          (tracker.keeping [])).2.state.world.outside.1 =
        (script.call pipeline.unlogged.noting selection args capture
          (tracker.keeping [])).2.state.world.outside.1 := by
  obtain ⟨-, hasked⟩ := h.noting.comesToSame selection args capture
  exact ⟨(h.comesToSame selection args capture).1, (Prod.mk.inj hasked).1⟩

end

/-! ## Logs in files -/

/-- Where a store of files keeps the logs of the script `stem`. -/
def logDifferences (here : Place) (base : Path) (stem : String) : Differences where
  inside := InLogs here base stem
  way := FileAction.OnWay here (base.child stem)
  told _ _ _ := False

/-- A store of files keeps aside, whatever is shown. -/
theorem WritesOnlyLogs.logsAside {pipeline : Pipeline σ} {base : Path}
    (h : pipeline.WritesOnlyLogs (some base)) (here : Place) (seen : σ → κ) (stem : String) :
    pipeline.LogsAside (logDifferences here base stem) here seen stem := by
  have hstore : ∀ store ∈ pipeline.store, store = Log.storeIn base := by
    intro store hstore
    obtain ⟨_, hbase, rfl⟩ := h.mem_store hstore
    rw [Option.mem_some.mp hbase]
  refine ⟨fun _ store hmem text => ?_, fun store hmem stage hstage output => ?_⟩
  · rw [hstore store hmem]
    exact fun world => ⟨(keeps_storeIn here base stem).1 text world, rfl⟩
  · rw [hstore store hmem]
    exact fun world => ⟨keeps_save here base stem hstage output world, rfl⟩

section

variable {base : Path} {stem : String} {root : Place} (hup : ".." ∉ (base.child stem).names)
  (hapart : Apart root ((base.child stem).lands here))

include hup hapart

/-- Trees are the same at and below a place that is apart from the logs. -/
theorem fixed_of_apart {place : Place} (hplace : root <+: place) :
    (logDifferences here base stem).Fixed here place where
  outside hlogs := (List.prefix_or_prefix_of_prefix hplace hlogs).elim hapart.1 hapart.2
  standing hway := absurd (hplace.trans (FileAction.prefix_of_onWay hup hway)) hapart.1
  untold _ _ := id

/-- A path to such a place is free. -/
theorem free_of_apart {path : Path} (hnames : ".." ∉ path.names)
    (hplace : root <+: path.lands here) : (logDifferences here base stem).Free here path where
  clear := by
    refine Differences.clear_of_outside hnames fun place habove hlogs => ?_
    exact (List.prefix_or_prefix_of_prefix hplace (List.IsPrefix.trans hlogs habove)).elim
      hapart.1 hapart.2
  fixed := fixed_of_apart hup hapart hplace

end

/-! ## A rehearsal -/

section

open RustScript.Rehearsal

/-- A rehearsed command comes to the same if what it takes down and the program that it makes do. -/
theorem relates_cast {near : World Trace → World Trace → Prop} {cast : Cast} {call : Command.Call}
    (htakes : ∀ change : Trace → Trace,
      Relates near Eq (Act.outside change : Act Trace Unit) (Act.outside change))
    (hmakes : ∀ directory ∈ call.directory, Relates near Eq
      (Act.files (makeProgram directory) : Act Trace _) (Act.files (makeProgram directory))) :
    Relates near Eq (cast.runner call) (cast.runner call) := by
  refine (htakes _).bind fun _ _ _ => ?_
  cases Kind.ofCall call with
  | search => exact relates_pure rfl
  | run => exact relates_pure rfl
  | build =>
      show Relates _ _ (cast.buildOutcome call) (cast.buildOutcome call)
      unfold Cast.buildOutcome
      cases cast.build.outcome call with
      | error fault => exact relates_pure rfl
      | ok output =>
          cases hdirectory : call.directory with
          | none => exact relates_pure rfl
          | some directory =>
              dsimp only
              split
              · exact (hmakes directory hdirectory).bind fun made _ hsame => relates_pure (hsame ▸ rfl)
              · exact relates_pure rfl

/-- Collaborators that answer from a script look at no files, and put a program in its place. -/
theorem unaware_cast {pipeline : Pipeline Trace} {cast : Cast} {versions : List (String × String)}
    (hrunner : pipeline.runner = cast.runner) (hresolver : pipeline.resolver = fixedResolver versions)
    {project : Project} (hname : Path.Ordinary project.directory.name)
    (hmade : differences.Clear here ((project.directory.child "target").child "debug"))
    (hprogram : differences.Free here
      (((project.directory.child "target").child "debug").child project.directory.name)) :
    pipeline.Unaware (World.Near differences here id) project := by
  have hfixed := hprogram.fixed
  have hclear := hprogram.clear
  rw [Path.lands_child_of_ordinary here hname] at hfixed
  rw [child_eq_inner _ hname] at hclear
  have htakes : ∀ change : Trace → Trace, Relates (World.Near differences here id) Eq
      (Act.outside change : Act Trace Unit) (Act.outside change) :=
    fun change _ _ h => ⟨rfl, h.files, congrArg change h.outside⟩
  have hmakes : Relates (World.Near differences here id) Eq
      (Act.files (makeProgram project.directory) : Act Trace _)
      (Act.files (makeProgram project.directory)) := by
    refine World.relates_files (FileAction.relates_inDirectory hmade ?_)
    rw [child_eq_inner _ hname]
    exact FileAction.relates_write hname.2.2.1 hname.2.1 hclear hfixed _
  have hcalls : ∀ call : Command.Call, call.directory = none ∨
      call.directory = some project.directory →
      Relates (World.Near differences here id) Eq (pipeline.runner call) (pipeline.runner call) := by
    intro call hdirectory
    rw [hrunner]
    refine relates_cast htakes fun directory hmem => ?_
    obtain hnone | hsome := hdirectory
    · rw [hnone] at hmem
      cases hmem
    · rw [hsome] at hmem
      rw [← Option.some.inj hmem]
      exact hmakes
  refine ⟨fun name => ?_, hcalls _ (.inr rfl), fun args capture => hcalls _ (.inl rfl)⟩
  rw [hresolver]
  refine (htakes _).bind fun _ _ _ => ?_
  cases (shelf versions).get? (Crate.normalize name) <;> exact relates_pure rfl

end

/-- The logs of what is given as text are beside its project, which lies in `build`. -/
theorem outOfTheWay_besideLogs :
    besideLogs.OutOfTheWay (.text "1")
      (besideLogs.opened (World.untouched Rehearsal.Trace.empty))
      (logDifferences [] (Path.ofString "logs") textStem) id := by
  have hup : ".." ∉ ((Path.ofString "logs").child textStem).names := by decide
  have hapart : Apart ["build"] (((Path.ofString "logs").child textStem).lands []) := by decide
  have hfree : ∀ path : Path, ".." ∉ path.names → ["build"] <+: path.lands [] →
      (logDifferences [] (Path.ofString "logs") textStem).Free [] path :=
    fun _ => free_of_apart hup hapart
  have hwrites : besideLogs.WritesOnlyLogs (some (Path.ofString "logs")) := ⟨rfl, fun _ _ => rfl⟩
  have hresolver : besideLogs.resolver = Rehearsal.fixedResolver [] := rfl
  refine ⟨.bare rfl, ?_, ?_, nofun, ⟨(hfree _ ?_ ?_).clear, hfree _ ?_ ?_, hfree _ ?_ ?_,
    hfree _ ?_ ?_⟩, fun place hplace => fixed_of_apart hup hapart hplace⟩
  · rintro stem (rfl | hstem)
    · exact hwrites.logsAside [] id textStem
    · cases hstem
  · refine unaware_cast rfl hresolver ⟨?_, ?_, ?_, ?_⟩ (hfree _ ?_ ?_).clear (hfree _ ?_ ?_)
    all_goals decide
  all_goals decide

/-- With the logs beside the project, a call comes to the same as without any. -/
theorem logs_only_observe_besideLogs :
    besideLogs.OutOfTheWay (.text "1") (besideLogs.opened (World.untouched Rehearsal.Trace.empty))
      (logDifferences [] (Path.ofString "logs") textStem) id ∧
    ComesToSame ["build"]
      ((Script.text "1").call besideLogs.unlogged .all [] true
        (besideLogs.opened (World.untouched Rehearsal.Trace.empty)))
      ((Script.text "1").call besideLogs .all [] true
        (besideLogs.opened (World.untouched Rehearsal.Trace.empty))) :=
  ⟨outOfTheWay_besideLogs, (logs_only_observe outOfTheWay_besideLogs .all [] true).1⟩

/-- A world with one script. -/
def besideScript : World Rehearsal.Trace :=
  ⟨⟨[], [(["demo.rs"], .file (Utf8.encode "fn main() {}\n"))]⟩, fun _ => .nan, 0, .empty⟩

/-- The path of the script leads through the directory for logs, which stands once the store has taken
the first note: with the store the script is found and runs, without it there is no such file. -/
theorem found_by_way_of_logs :
    besideLogs.LogsAside (logDifferences [] (Path.ofString "logs") "demo") [] id "demo" ∧
      (∀ place, besideLogs.settings.buildRoot.lands [] <+: place →
        (logDifferences [] (Path.ofString "logs") "demo").Fixed [] place) ∧
      ((Script.file (Path.ofString "logs/../demo.rs")).call besideLogs.unlogged .all [] true
        (besideLogs.opened besideScript)).1.isOk = false ∧
      ((Script.file (Path.ofString "logs/../demo.rs")).call besideLogs .all [] true
        (besideLogs.opened besideScript)).1.isOk = true := by
  have hwrites : besideLogs.WritesOnlyLogs (some (Path.ofString "logs")) := ⟨rfl, fun _ _ => rfl⟩
  refine ⟨hwrites.logsAside [] id "demo", fun place => fixed_of_apart ?_ ?_, ?_, ?_⟩
  all_goals decide +kernel

end Pipeline

end RustScript
