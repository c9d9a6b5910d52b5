import RustScript.Proofs.Files.Undone
import RustScript.Proofs.Pipeline.Home

/-!
# Cleaning up undoes everything

Whatever has been done for a script, and however it ended, a cleaning up that succeeds leaves the files as
they were before the first operation, apart from directories on the way to the build root and to the
logs (`clean_undoes`). Each operation leaves its marks where the two paths lead at which the cleaning up
removes something. That this is enough needs the paths not to lead through the directory of the project
and out of it again: the logs would be out of reach as soon as the directory is gone
(`logs_out_of_reach`).
-/

set_option autoImplicit false

namespace RustScript

namespace Path

/-- A text with something at its end that does not begin with a slash begins with a slash only if the
text does. -/
theorem leadingSlashes_append {first : Char} (hfirst : first ≠ '/') (rest : List Char)
    {text : List Char} (h : leadingSlashes text = 0) :
    leadingSlashes (text ++ first :: rest) = 0 := by
  cases text with
  | nil =>
      rw [List.nil_append]
      unfold leadingSlashes
      split <;> simp_all
  | cons char text =>
      have hchar : char ≠ '/' := by
        rintro rfl
        unfold leadingSlashes at h
        split at h <;> simp_all
      rw [List.cons_append]
      unfold leadingSlashes
      split <;> simp_all

/-- A path that leads on from another one. -/
theorem child_of_relative {base : Path} {text : String} (h : leadingSlashes text.toList = 0) :
    base.child text = ⟨base.slashes, base.names ++ (ofString text).names⟩ := if_pos h

end Path

namespace FileSystem

/-- Where a path leads to nothing, no path leads on from there. -/
theorem exists_eq_false_of_prefix {files : FileSystem} {path : Path}
    (h : files.exists path = false) (names : List String) :
    files.exists ⟨path.slashes, path.names ++ names⟩ = false := by
  refine Bool.eq_false_iff.mpr fun hexists => ?_
  obtain ⟨node, hnode⟩ := exists_iff.mp hexists
  obtain ⟨hplace, -⟩ := place_of_find? hnode
  unfold FileSystem.place at hplace
  rw [walk_append] at hplace
  cases hwalk : files.walk (if path.slashes = 0 then files.here else []) path.names with
  | error error =>
      rw [hwalk] at hplace
      cases hplace
  | ok place =>
      have hfind : files.find? path = files.node? place := by
        refine find?_of_place ?_
        unfold FileSystem.place
        rw [hwalk]
        rfl
      cases names with
      | nil =>
          rw [List.append_nil] at hexists
          rw [h] at hexists
          cases hexists
      | cons name rest =>
          rw [hwalk] at hplace
          change (files.walk place (name :: rest)).mapError _ = _ at hplace
          rw [walk_cons] at hplace
          cases hstands : files.node? place with
          | none =>
              rw [hstands] at hplace
              cases hplace
          | some other =>
              rw [Bool.eq_false_iff] at h
              exact h (exists_iff.mpr ⟨other, hfind.trans hstands⟩)

end FileSystem

namespace Pipeline

open RustScript.Progress FileSystem FileAction

variable {σ : Type}

/-! ## Where a script leaves its marks -/

/-- The place is on the way to the build root or to the logs. -/
def LeadsToRoots (here : Place) (root : Path) (logs : Option Path) (place : Place) : Prop :=
  OnWay here root place ∨ ∃ base ∈ logs, OnWay here base place

/-- No path leads through the directory of the project and out of it again. -/
structure LaidOut (here : Place) (root : Path) (logs : Option Path) (stem : String) : Prop where
  project : root.Avoids here ((root.child stem).lands here)
  logs : ∀ base ∈ logs, (root.child stem).lands here <+: (base.child stem).lands here ∨
    base.Avoids here ((root.child stem).lands here)

/-- Paths that go nowhere upwards never lead out of a directory again. -/
theorem laidOut_of_downward {here : Place} {root : Path} {logs : Option Path} {stem : String}
    (hstem : Path.Ordinary stem) (hroot : ".." ∉ root.names)
    (hlogs : ∀ base ∈ logs, ".." ∉ base.names) : LaidOut here root logs stem := by
  constructor
  · refine Path.avoids_of_outside hroot fun hprefix => ?_
    have hlength := hprefix.length_le
    rw [Path.lands_child_of_ordinary here hstem, List.length_append] at hlength
    exact absurd hlength (by simp)
  · intro base hbase
    by_cases hinside : (root.child stem).lands here <+: base.lands here
    · rw [Path.lands_child_of_ordinary here hstem] at hinside ⊢
      rw [Path.lands_child_of_ordinary here hstem]
      exact .inl (hinside.trans (List.prefix_append _ _))
    · exact .inr (Path.avoids_of_outside (hlogs base hbase) hinside)

/-- Nothing stands where the project and the logs of the script are to be. -/
structure Fresh (initial : FileSystem) (root : Path) (logs : Option Path) (stem : String) : Prop where
  rooted : initial.Rooted
  project : initial.node? ((root.child stem).lands initial.here) = none
  logs : ∀ base ∈ logs, initial.node? ((base.child stem).lands initial.here) = none

/-- What has been done for the script since `initial` can be undone. -/
abbrev Undo (root : Path) (logs : Option Path) (stem : String) (initial files : FileSystem) : Prop :=
  Undoable (ownPaths root logs stem) (LeadsToRoots initial.here root logs) initial files

/-- The frame of operations on files that can be undone. -/
def ownUndoing (root : Path) (logs : Option Path) (stem : String) (initial : FileSystem) :
    Frame FileSystem :=
  undoing (ownPaths root logs stem) (LeadsToRoots initial.here root logs) initial

/-- The frame of all that can be undone. -/
def undoFrame (σ : Type) (root : Path) (logs : Option Path) (stem : String) (initial : FileSystem) :
    Frame (World σ) := (ownUndoing root logs stem initial).on World.files

section

variable {root : Path} {logs : Option Path} {stem : String} {initial : FileSystem}

/-- Where nothing stands, nothing stands below. -/
theorem none_below {place : Place} (hrooted : initial.Rooted) (h : initial.node? place = none) :
    ∀ other, place <+: other → initial.node? other = none := by
  rintro other ⟨rest, rfl⟩
  cases rest with
  | nil => rwa [List.append_nil]
  | cons name rest =>
      refine Decidable.byContradiction fun hnode => ?_
      rw [hrooted.directory_of_append hnode] at h
      cases h

/-- A directory of a script is made, with those on the way to it. -/
theorem keeps_ownUndoing_makeDirectories (hstem : Path.Ordinary stem) {base : Path}
    (hbase : base = root ∨ base ∈ logs) :
    Keeps (ownUndoing root logs stem initial) (makeDirectories (base.child stem)) := by
  have hmem : base.child stem ∈ ownPaths root logs stem := by
    obtain rfl | hlogs := hbase
    · exact directory_mem_ownPaths
    · exact logs_mem_ownPaths hlogs
  rw [child_eq_inner _ hstem] at hmem ⊢
  refine keeps_undoing_makeDirectories hmem fun names hnames => ?_
  obtain rfl | hlogs := hbase
  · exact .inl ⟨names, hnames, rfl⟩
  · exact .inr ⟨base, hlogs, names, hnames, rfl⟩

/-- A file in a directory of a script is changed. -/
theorem keeps_ownUndoing_change {path : Path} (hpath : path ∈ ownPaths root logs stem)
    {name : String} (hname : Path.Ordinary name) (f : List UInt8 → List UInt8) :
    Keeps (ownUndoing root logs stem initial) (change (path.child name) f) := by
  rw [child_eq_inner _ hname]
  exact keeps_undoing_change hpath hname.2.2.1 hname.2.1 f

theorem keeps_ownUndoing_writeChanged {path : Path} (hpath : path ∈ ownPaths root logs stem)
    {name : String} (hname : Path.Ordinary name) (content : List UInt8) :
    Keeps (ownUndoing root logs stem initial) (writeChanged (path.child name) content) := by
  have hwrite : Keeps (ownUndoing root logs stem initial) (do
      write (path.child name) content
      return true) :=
    keeps_bind (keeps_ownUndoing_change hpath hname _) fun _ => keeps_pure _
  refine keeps_bind keeps_get fun files => keeps_ite ?_ hwrite
  exact keeps_bind (keeps_read _) fun old => keeps_ite (keeps_pure _) hwrite

theorem keeps_ownUndoing_leaveEmpty {path : Path} (hpath : path ∈ ownPaths root logs stem)
    {name : String} (hname : Path.Ordinary name) :
    Keeps (ownUndoing root logs stem initial) (leaveEmpty (path.child name)) :=
  keeps_bind keeps_get fun _ => keeps_ite
    (keeps_bind (keeps_read _) fun _ => keeps_pure _) (keeps_ownUndoing_change hpath hname _)

/-- Whatever the runner does in the directory of the project can be undone. -/
theorem undo_of_confined (hstem : Path.Ordinary stem) (hlaid : LaidOut initial.here root logs stem)
    (hfresh : Fresh initial root logs stem) {files after : FileSystem}
    (h : Undo root logs stem initial files)
    (hstands : files.find? (root.child stem) = some .directory)
    (hconfined : Confined ((root.child stem).lands initial.here <+: ·) (fun _ => False) files after)
    (hrooted : after.Rooted) : Undo root logs stem initial after := by
  have hbelow := none_below hfresh.rooted hfresh.project
  have hproject := hlaid.project
  have hothers : ∀ path ∈ ownPaths root logs stem,
      (root.child stem).lands initial.here <+: path.lands initial.here ∨
        path.Avoids initial.here ((root.child stem).lands initial.here) := by
    intro path hpath
    obtain rfl | ⟨base, hbase, rfl⟩ := mem_ownPaths hpath
    · exact .inl (List.prefix_refl _)
    · by_cases hinside : (root.child stem).lands initial.here <+: (base.child stem).lands initial.here
      · exact .inl hinside
      · have havoids := (hlaid.logs base hbase).resolve_left hinside
        rw [child_eq_inner base hstem] at hinside ⊢
        exact .inr (havoids.inner hinside)
  have hmem : root.child stem ∈ ownPaths root logs stem := directory_mem_ownPaths
  rw [child_eq_inner root hstem] at hbelow hproject hothers hmem hstands hconfined
  exact h.changed hstem.2.2.1 hstem.2.1 hmem hbelow hproject hothers
    (find?_of_inner hstem.2.2.1 hstem.2.1 hstands) hconfined hrooted

end

/-! ## Removing what there is -/

/-- Something is removed if it is there. -/
inductive Cleared (path : Path) (files : FileSystem) : Except SystemError Unit → FileSystem → Prop
  | absent (h : files.exists path = false) : Cleared path files (.ok ()) files
  | present {result : Except SystemError Unit} {after : FileSystem} (h : files.exists path = true)
      (removal : Removal path files result after) : Cleared path files result after

theorem Cleared.grows {path : Path} {files after : FileSystem} {result : Except SystemError Unit}
    (h : Cleared path files result after) : Grows after files := by
  cases h with
  | absent _ => exact .refl files
  | present _ removal => exact removal.grows

theorem Cleared.exists_eq_false {base : Path} {stem : String} (hstem : Path.Ordinary stem)
    {files after : FileSystem} (h : Cleared (base.child stem) files (.ok ()) after) :
    after.exists (base.child stem) = false := by
  cases h with
  | absent h => exact h
  | present _ removal =>
      rw [child_eq_inner base hstem] at removal ⊢
      exact removal.exists_eq_false hstem.2.2.1 hstem.2.1

/-- The two removals of a cleaning up. The logs are left if the first one fails. -/
inductive Cleaning (directory : Path) (files : FileSystem) :
    Option Path → Except SystemError Unit → FileSystem → Prop
  | stuck {logs : Option Path} {error : SystemError} {after : FileSystem}
      (h : Cleared directory files (.error error) after) :
      Cleaning directory files logs (.error error) after
  | unlogged {after : FileSystem} (h : Cleared directory files (.ok ()) after) :
      Cleaning directory files none (.ok ()) after
  | logged {logs : Path} {middle after : FileSystem} {result : Except SystemError Unit}
      (h : Cleared directory files (.ok ()) middle) (hlogs : Cleared logs middle result after) :
      Cleaning directory files (some logs) result after

theorem cleared_removeTree {base : Path} {stem : String} (hstem : Path.Ordinary stem)
    (world : World σ) (h : world.files.exists (base.child stem) = true) :
    Cleared (base.child stem) world.files (Act.files (removeTree (base.child stem)) world).1
      (Act.files (removeTree (base.child stem)) world).2.files := by
  refine .present h ?_
  rw [child_eq_inner base hstem]
  exact removal_removeTree hstem.2.2.1 world.files

theorem delete_of_gone {base : Path} {stem : String} {world : World σ}
    (h : world.files.exists (base.child stem) = false) :
    (Log.storeIn base).delete stem world = (.ok (), world) := by
  show (if world.files.exists (base.child stem) then _ else _ : Act σ _) world = _
  rw [h]
  rfl

theorem cleared_delete {base : Path} {stem : String} (hstem : Path.Ordinary stem)
    (world : World σ) :
    Cleared (base.child stem) world.files ((Log.storeIn base).delete stem world).1
      ((Log.storeIn base).delete stem world).2.files := by
  cases hexists : world.files.exists (base.child stem) with
  | true =>
      have hrun : (Log.storeIn base).delete stem world =
          Act.files (removeTree (base.child stem)) world := by
        show (if world.files.exists (base.child stem) then _ else _ : Act σ _) world = _
        rw [hexists]
        rfl
      rw [hrun]
      exact cleared_removeTree hstem world hexists
  | false =>
      rw [delete_of_gone hexists]
      exact .absent hexists

section

variable {pipeline : Pipeline σ} {logs : Option Path} {stem : String} {initial : FileSystem}
  (hlogs : pipeline.WritesOnlyLogs logs) (hstem : Path.Ordinary stem)

include hlogs hstem

omit hstem in
/-- Once the directory of the project is gone, the logs are removed. -/
theorem removeAll_eq (project : Project) (present : Bool) (world : World σ)
    {result : Except SystemError Unit} {middle : World σ}
    (h : (if present then Act.files (removeTree project.directory) else pure (.ok ()) : Act σ _)
      world = (result, middle)) :
    (∀ error, result = .error error →
      pipeline.removeAll project present world = (.error error, middle)) ∧
    (result = .ok () → logs = none → pipeline.removeAll project present world = (.ok (), middle)) ∧
    ∀ base ∈ logs, result = .ok () → pipeline.removeAll project present world =
      (Log.storeIn base).delete project.stem middle := by
  unfold removeAll
  rw [Frame.stateBind_apply, h]
  refine ⟨?_, ?_, ?_⟩
  · rintro error rfl
    rfl
  · rintro rfl rfl
    rw [hlogs.store]
    rfl
  · rintro base hbase rfl
    rw [hlogs.store, Option.mem_def.mp hbase]
    rfl

/-- **Removing a project** removes its directory if it is there, and then its logs. -/
theorem cleaning_removeAll (world : World σ) :
    Cleaning (pipeline.settings.buildRoot.child stem) world.files
      (logs.map fun base => base.child stem)
      (pipeline.removeAll (pipeline.newProject stem none)
        (world.files.exists (pipeline.settings.buildRoot.child stem)) world).1
      (pipeline.removeAll (pipeline.newProject stem none)
        (world.files.exists (pipeline.settings.buildRoot.child stem)) world).2.files := by
  obtain ⟨result, middle, hfirst, hcleared⟩ : ∃ result middle,
      (if world.files.exists (pipeline.settings.buildRoot.child stem) then
        Act.files (removeTree (pipeline.settings.buildRoot.child stem)) else pure (.ok ()) : Act σ _)
          world = (result, middle) ∧
      Cleared (pipeline.settings.buildRoot.child stem) world.files result middle.files := by
    refine ⟨_, _, rfl, ?_⟩
    cases hexists : world.files.exists (pipeline.settings.buildRoot.child stem) with
    | true => exact cleared_removeTree hstem world hexists
    | false => exact .absent hexists
  obtain ⟨herror, hplain, hlogged⟩ :=
    removeAll_eq hlogs (pipeline.newProject stem none) _ world hfirst
  cases result with
  | error error =>
      rw [herror error rfl]
      exact .stuck hcleared
  | ok _ =>
      cases hbase : logs with
      | none =>
          rw [hplain rfl hbase]
          exact .unlogged hcleared
      | some base =>
          rw [hlogged base hbase rfl]
          exact .logged hcleared (cleared_delete hstem middle)

end

section

variable {root : Path} {logs : Option Path} {stem : String} {initial files after : FileSystem}
  {result : Except SystemError Unit}

/-- Removing the directory of the project can be undone. -/
theorem Cleared.undo_project (hstem : Path.Ordinary stem)
    (hlaid : LaidOut initial.here root logs stem) (hfresh : Fresh initial root logs stem)
    (h : Cleared (root.child stem) files result after) (hundo : Undo root logs stem initial files) :
    Undo root logs stem initial after := by
  cases h with
  | absent _ => exact hundo
  | present _ removal =>
      have hplain : files.here = initial.here := hundo.confined.here
      obtain hsame | ⟨hstood, -⟩ := removal.cases_inside
      · rwa [hsame]
      · have hconfined := removal.confined
        rw [hplain] at hconfined
        refine undo_of_confined hstem hlaid hfresh hundo hstood hconfined
          (removal.rooted hundo.rooted ?_)
        rw [hplain]
        intro hprefix
        have hnone := none_below hfresh.rooted hfresh.project _ hprefix
        rw [hfresh.rooted.here] at hnone
        cases hnone

/-- Removing the logs can be undone once the directory of the project is gone. -/
theorem Cleared.undo_logs (hstem : Path.Ordinary stem) (hfresh : Fresh initial root logs stem)
    {base : Path} (hbase : base ∈ logs) (h : Cleared (base.child stem) files result after)
    (hundo : Undo root logs stem initial files) (hgone : files.exists (root.child stem) = false) :
    Undo root logs stem initial after := by
  cases h with
  | absent _ => exact hundo
  | present _ removal =>
      have hmem : base.child stem ∈ ownPaths root logs stem := logs_mem_ownPaths hbase
      have hbelow := none_below hfresh.rooted (hfresh.logs base hbase)
      have hothers : ∀ path ∈ ownPaths root logs stem,
          path = base.child stem ∨ files.exists path = false := by
        intro path hpath
        obtain rfl | ⟨other, hother, rfl⟩ := mem_ownPaths hpath
        · exact .inr hgone
        · exact .inl (by rw [Option.mem_unique hother hbase])
      rw [child_eq_inner base hstem] at hmem hbelow hothers removal
      exact hundo.removed hstem.2.2.1 hstem.2.1 hmem
        (fun names hnames => .inr ⟨base, hbase, names, hnames, rfl⟩) hfresh.rooted hbelow hothers
        removal

theorem Cleaning.undo (hstem : Path.Ordinary stem) (hlaid : LaidOut initial.here root logs stem)
    (hfresh : Fresh initial root logs stem)
    (h : Cleaning (root.child stem) files (logs.map fun base => base.child stem) result after)
    (hundo : Undo root logs stem initial files) : Undo root logs stem initial after := by
  generalize hpaths : (logs.map fun base => base.child stem) = paths at h
  cases h with
  | stuck h => exact h.undo_project hstem hlaid hfresh hundo
  | unlogged h => exact h.undo_project hstem hlaid hfresh hundo
  | logged h hlogs =>
      obtain ⟨base, hbase, rfl⟩ := Option.map_eq_some_iff.mp hpaths
      exact hlogs.undo_logs hstem hfresh hbase (h.undo_project hstem hlaid hfresh hundo)
        (h.exists_eq_false hstem)

/-- **A cleaning up that succeeds** leaves nothing at any of the paths. -/
theorem Cleaning.gone (hstem : Path.Ordinary stem)
    (h : Cleaning (root.child stem) files (logs.map fun base => base.child stem) (.ok ()) after) :
    ∀ path ∈ ownPaths root logs stem, after.exists path = false := by
  generalize hpaths : (logs.map fun base => base.child stem) = paths at h
  intro path hpath
  cases h with
  | unlogged h =>
      obtain rfl | ⟨base, hbase, rfl⟩ := mem_ownPaths hpath
      · exact h.exists_eq_false hstem
      · rw [Option.map_eq_none_iff.mp hpaths] at hbase
        cases hbase
  | logged h hlogs =>
      obtain ⟨base, hbase, rfl⟩ := Option.map_eq_some_iff.mp hpaths
      obtain rfl | ⟨other, hother, rfl⟩ := mem_ownPaths hpath
      · refine Bool.eq_false_iff.mpr fun hexists => ?_
        have hgone := h.exists_eq_false hstem
        rw [hlogs.grows.exists hexists] at hgone
        cases hgone
      · rw [Option.mem_unique hother hbase]
        exact hlogs.exists_eq_false hstem

end

/-! ## All that is done for a script -/

section

variable {pipeline : Pipeline σ} {logs : Option Path} {stem : String} {initial : FileSystem}
  (hlogs : pipeline.WritesOnlyLogs logs) (hstem : Path.Ordinary stem)

include hlogs hstem

theorem keeps_undo_append {store : Log.Store σ} (hstore : store ∈ pipeline.store) (text : String) :
    (undoFrame σ pipeline.settings.buildRoot logs stem initial).Keeps (store.append stem text) := by
  obtain ⟨base, hbase, rfl⟩ := hlogs.mem_store hstore
  have hmade : Keeps (ownUndoing pipeline.settings.buildRoot logs stem initial)
      (makeDirectories (base.child stem)) :=
    keeps_ownUndoing_makeDirectories hstem (.inr hbase)
  have hfiles := keeps_bind hmade fun _ =>
    keeps_ownUndoing_change (logs_mem_ownPaths hbase) ordinary_journal
      (· ++ Utf8.encode (Log.journalLine text))
  exact fun world => hfiles world.files

theorem keeps_undo_save {store : Log.Store σ} (hstore : store ∈ pipeline.store) {stage : String}
    (hstage : stage ∈ commandStages) (output : Command.Output) :
    (undoFrame σ pipeline.settings.buildRoot logs stem initial).Keeps
      (store.save stem stage output) := by
  obtain ⟨base, hbase, rfl⟩ := hlogs.mem_store hstore
  have hmade : Keeps (ownUndoing pipeline.settings.buildRoot logs stem initial)
      (makeDirectories (base.child stem)) :=
    keeps_ownUndoing_makeDirectories hstem (.inr hbase)
  have hfiles : Keeps (ownUndoing pipeline.settings.buildRoot logs stem initial)
      (Log.writeFiles (base.child stem) (Log.outputFiles stage output)) :=
    keeps_bind hmade fun _ => keeps_forM fun file hfile =>
      keeps_ownUndoing_change (logs_mem_ownPaths hbase) (ordinary_outputFiles hstage hfile).1 _
  exact fun world => hfiles world.files

/-- **All that a pipeline does for a script** can be undone, if its runner stays at home. -/
theorem allowsWork_undo (hlaid : LaidOut initial.here pipeline.settings.buildRoot logs stem)
    (hfresh : Fresh initial pipeline.settings.buildRoot logs stem)
    (hstays : pipeline.StaysAtHome initial.here (pipeline.newProject stem none)) :
    pipeline.AllowsWork stem (undoFrame σ pipeline.settings.buildRoot logs stem initial) := by
  have hcalls : ∀ {call : Command.Call},
      Act.StaysIn initial.here (pipeline.newProject stem none).directory (pipeline.runner call) →
      ∀ world : World σ, world.files.find? (pipeline.newProject stem none).directory =
        some .directory →
      (undoFrame σ pipeline.settings.buildRoot logs stem initial).rel world
        (pipeline.runner call world).2 := by
    intro call hcall world hstands
    refine undoing_rel fun hundo => ?_
    have hhere := hundo.confined.here
    exact undo_of_confined hstem hlaid hfresh hundo hstands (hcall.confined world hhere hstands)
      (hcall.rooted world hhere hstands hundo.rooted)
  refine ⟨⟨fun world => (ownUndoing _ _ _ _).refl world.files, fun path => ?_⟩, fun name world => ?_,
    fun store hstore => keeps_undo_append hlogs hstem hstore,
    fun store hstore stage hstage => keeps_undo_save hlogs hstem hstore hstage, ?_, ?_,
    fun world hexists => hcalls hstays.build world (directory_of_manifest hexists),
    fun args capture world hexists =>
      hcalls (hstays.run args capture) world (directory_of_target hstem hexists), fun world => ?_⟩
  · have hread : Keeps (ownUndoing pipeline.settings.buildRoot logs stem initial)
        (FileAction.read path) := keeps_read path
    refine Frame.keeps_bind (fun world => hread world.files) fun content => ?_
    cases content <;> exact Frame.keeps_pure _
  · show (ownUndoing _ _ _ _).rel world.files (pipeline.resolver.resolve name world).2.files
    rw [hlogs.resolver]
    exact Frame.refl _ _
  · intro source manifest
    have hfiles : Keeps (ownUndoing pipeline.settings.buildRoot logs stem initial)
        (writeProject (pipeline.newProject stem none) source manifest) :=
      keeps_bind (keeps_ownUndoing_makeDirectories hstem (.inl rfl)) fun _ =>
        keeps_bind (keeps_ownUndoing_change directory_mem_ownPaths ordinary_mainRs _) fun _ =>
          keeps_ownUndoing_writeChanged directory_mem_ownPaths ordinary_cargoToml _
    exact fun world => hfiles world.files
  · intro source
    have hfiles : Keeps (ownUndoing pipeline.settings.buildRoot logs stem initial)
        (writeRest (pipeline.newProject stem none) source) :=
      keeps_bind (keeps_ownUndoing_makeDirectories hstem (.inl rfl)) fun _ =>
        keeps_bind (keeps_ownUndoing_change directory_mem_ownPaths ordinary_mainRs _) fun _ =>
          keeps_ownUndoing_leaveEmpty directory_mem_ownPaths ordinary_cargoToml
    exact fun world => hfiles world.files
  · exact undoing_rel ((cleaning_removeAll hlogs hstem world).undo hstem hlaid hfresh)

end

/-! ## The law -/

/-- Nothing of the script is left. -/
structure Spotless (pipeline : Pipeline σ) (logs : Option Path) (stem : String)
    (initial : FileSystem) (world : World σ) : Prop where
  /-- The files are as they were, apart from directories on the way. -/
  files : Confined (fun _ => False) (LeadsToRoots initial.here pipeline.settings.buildRoot logs)
    initial world.files
  takenUp : ∀ source, pipeline.existingProject stem source world =
    (.ok (pipeline.newProject stem source), world)
  outputs : ∀ store ∈ pipeline.store, ∀ stage : String, Path.leadingSlashes stage.toList = 0 →
    store.load stem stage world = (.ok none, world)
  events : ∀ store ∈ pipeline.store, store.events stem world = (.ok [], world)
  /-- There is nothing to be cleaned up any more. -/
  again : ∀ project, project.SharesPlace (pipeline.newProject stem none) →
    pipeline.clean project world = ((project.cleaned, .ok false), world)

/-- Cleaning up the project undoes what has been done since `initial`, unless it fails. -/
structure CleansUp (pipeline : Pipeline σ) (logs : Option Path) (stem : String)
    (initial : FileSystem) (project : Project) (world : World σ) : Prop where
  /-- If it fails, the project is left as it was. -/
  failed : ∀ failure, (pipeline.clean project world).1.2 = .error failure →
    (pipeline.clean project world).1.1 = project ∧ ∃ error : SystemError,
      failure = .file (.cannotDelete error.reason) project.directory.toString
  /-- If it succeeds, it tells whether there was a project, and there is none any more. -/
  succeeded : ∀ stood, (pipeline.clean project world).1.2 = .ok stood →
    stood = world.files.exists project.directory ∧
      (pipeline.clean project world).1.1.status = .init ∧
      (pipeline.clean project world).1.1.manifest = none ∧
      pipeline.Spotless logs stem initial (pipeline.clean project world).2

section

variable {pipeline : Pipeline σ} {logs : Option Path} {stem : String} {initial : FileSystem}
  (hlogs : pipeline.WritesOnlyLogs logs) (hstem : Path.Ordinary stem)

include hlogs

/-- Where none of the paths leads anywhere, nothing of the script is left. -/
theorem spotless_of_gone {world : World σ}
    (hundo : Undo pipeline.settings.buildRoot logs stem initial world.files)
    (hgone : ∀ path ∈ ownPaths pipeline.settings.buildRoot logs stem,
      world.files.exists path = false) :
    pipeline.Spotless logs stem initial world := by
  have hproject : world.files.exists (pipeline.settings.buildRoot.child stem) = false :=
    hgone _ directory_mem_ownPaths
  have hinLogs : ∀ base ∈ logs, ∀ text : String, Path.leadingSlashes text.toList = 0 →
      world.files.exists ((base.child stem).child text) = false := by
    intro base hbase text htext
    rw [Path.child_of_relative htext]
    exact exists_eq_false_of_prefix (hgone _ (logs_mem_ownPaths hbase)) _
  refine ⟨hundo.undone hgone, fun source => ?_, fun store hstore stage hstage => ?_,
    fun store hstore => ?_, fun project hplace => ?_⟩
  · have hmanifest : world.files.find? (pipeline.newProject stem source).manifestPath = none := by
      rw [← Option.isNone_iff_eq_none, ← Option.isSome_eq_false_iff]
      show world.files.exists ((pipeline.settings.buildRoot.child stem).child "Cargo.toml") = false
      rw [Path.child_of_relative (by decide)]
      exact exists_eq_false_of_prefix hproject _
    rw [existingProject_apply, hmanifest]
    rfl
  · obtain ⟨base, hbase, rfl⟩ := hlogs.mem_store hstore
    have hslash : Path.leadingSlashes (stage ++ ".status").toList = 0 := by
      rw [String.toList_append]
      exact Path.leadingSlashes_append (by decide) _ hstage
    have hnone := hinLogs base hbase _ hslash
    show (if world.files.exists ((base.child stem).child (stage ++ ".status")) then _ else _ :
      Act σ _) world = _
    rw [hnone]
    rfl
  · obtain ⟨base, hbase, rfl⟩ := hlogs.mem_store hstore
    have hnone := hinLogs base hbase Log.journalName (by decide)
    show (if world.files.exists ((base.child stem).child Log.journalName) then _ else _ :
      Act σ _) world = _
    rw [hnone]
    rfl
  · have hdirectory : world.files.exists project.directory = false := by
      rw [hplace.directory]
      exact hproject
    have hname : project.stem = stem := hplace.stem
    have hremoved : pipeline.removeAll project false world = (.ok (), world) := by
      obtain ⟨-, hplain, hlogged⟩ := removeAll_eq hlogs project false world rfl
      cases hbase : logs with
      | none => exact hplain rfl hbase
      | some base =>
          rw [hlogged base hbase rfl, hname]
          exact delete_of_gone (hgone _ (logs_mem_ownPaths hbase))
    rw [clean_apply, hdirectory, hremoved]

include hstem

/-- Cleaning up undoes what has been done since `initial`, or leaves the project as it was. -/
theorem cleansUp_of_undo (hlaid : LaidOut initial.here pipeline.settings.buildRoot logs stem)
    (hfresh : Fresh initial pipeline.settings.buildRoot logs stem) {project : Project}
    (hplace : project.SharesPlace (pipeline.newProject stem none)) {world : World σ}
    (hundo : Undo pipeline.settings.buildRoot logs stem initial world.files) :
    pipeline.CleansUp logs stem initial project world := by
  have hcleaning := cleaning_removeAll hlogs hstem world
  have hclean := pipeline.clean_apply project world
  rw [removeAll_congr hplace, hplace.directory] at hclean
  rcases hremoved : pipeline.removeAll (pipeline.newProject stem none)
    (world.files.exists (pipeline.newProject stem none).directory) world with ⟨error | _, after⟩
  · rw [hremoved] at hclean
    refine ⟨fun failure hfailure => ?_, fun stood hstood => ?_⟩
    · rw [hclean] at hfailure ⊢
      refine ⟨rfl, error, ?_⟩
      rw [hplace.directory]
      exact (Except.error.inj hfailure).symm
    · rw [hclean] at hstood
      cases hstood
  · rw [hremoved] at hclean
    refine ⟨fun failure hfailure => ?_, fun stood hstood => ?_⟩
    · rw [hclean] at hfailure
      cases hfailure
    · rw [hclean] at hstood ⊢
      refine ⟨?_, rfl, rfl, ?_⟩
      · rw [hplace.directory]
        exact (Except.ok.inj hstood).symm
      · change Cleaning _ _ _ (pipeline.removeAll (pipeline.newProject stem none)
          (world.files.exists (pipeline.newProject stem none).directory) world).1 (pipeline.removeAll
          (pipeline.newProject stem none)
          (world.files.exists (pipeline.newProject stem none).directory) world).2.files at hcleaning
        rw [hremoved] at hcleaning
        exact spotless_of_gone hlogs (hcleaning.undo hstem hlaid hfresh hundo)
          (hcleaning.gone hstem)

/-- **Cleaning up undoes everything**, if no path leads through the directory of the project and out of
it again. Whatever has been done for a script since nothing stood at its places, and however it ended, a
cleaning up that succeeds leaves nothing of the script. -/
theorem clean_undoes (hlaid : LaidOut initial.here pipeline.settings.buildRoot logs stem)
    (hfresh : Fresh initial pipeline.settings.buildRoot logs stem)
    (hstays : pipeline.StaysAtHome initial.here (pipeline.newProject stem none))
    {operations : List Operation}
    (hoperations : ∀ operation ∈ operations, operation.IsAbout pipeline stem)
    {world : World σ} (hworld : world.files = initial)
    {project : Project} (hplace : project.SharesPlace (pipeline.newProject stem none)) :
    pipeline.CleansUp logs stem initial project
      (pipeline.operateAll operations (pipeline.opened world)).2.state.world := by
  refine cleansUp_of_undo hlogs hstem hlaid hfresh hplace ?_
  obtain ⟨-, hrun⟩ := keeps_operateAll (allowsWork_undo hlogs hstem hlaid hfresh hstays)
    hoperations (pipeline.opened world) rfl
  obtain ⟨-, hfiles⟩ := hrun nofun
  refine (hfiles ?_).1
  rw [show (pipeline.opened world).state.world.files = initial from hworld]
  exact .refl hfresh.rooted

end

/-- A script, and nothing else. -/
def soleScript : FileSystem := FileSystem.put ⟨[], []⟩ ["demo.rs"] (.file (Utf8.encode "println!();\n"))

theorem rooted_soleScript : soleScript.Rooted := by
  refine (Rooted.bare rfl).put (by decide) ?_ _
  rintro outer name h
  have hlength : outer.length = 0 := by simpa using (congrArg List.length h).symm
  obtain rfl := List.eq_nil_of_length_eq_zero hlength
  rfl

/-- The script is analyzed, its project is generated and built, and then all is done again in one
call. -/
def demoOperations : List Operation :=
  [.analyze (Path.ofString "demo.rs"), .generate greeting "demo" none,
    .on (besideLogs.newProject "demo" none) .build,
    .call (.file (Path.ofString "demo.rs")) .all [] true]

/-- The world in which the script stands alone. -/
def soleWorld : World Rehearsal.Trace := ⟨soleScript, fun _ => .nan, 0, .empty⟩

theorem isAbout_demoOperations :
    ∀ operation ∈ demoOperations, operation.IsAbout besideLogs "demo" := by
  intro operation hmem
  unfold demoOperations at hmem
  simp only [List.mem_cons, List.not_mem_nil, or_false] at hmem
  rcases hmem with rfl | rfl | rfl | rfl
  · show (Path.ofString "demo.rs").stem = "demo"
    decide
  · rfl
  · exact ⟨rfl, rfl⟩
  · show (Path.ofString "demo.rs").stem = "demo"
    decide

theorem clean_undoes_demo :
    besideLogs.CleansUp (some (Path.ofString "logs")) "demo" soleScript
        (besideLogs.newProject "demo" none)
        (besideLogs.operateAll demoOperations (besideLogs.opened soleWorld)).2.state.world ∧
      (besideLogs.clean (besideLogs.newProject "demo" none)
        (besideLogs.operateAll demoOperations (besideLogs.opened soleWorld)).2.state.world).1.2.toOption =
          some true := by
  have hlaid : LaidOut [] besideLogs.settings.buildRoot (some (Path.ofString "logs")) "demo" :=
    laidOut_of_downward ordinary_demo (by decide) fun base hbase => by
      obtain rfl := Option.mem_some.mp hbase
      decide
  have hfresh : Fresh soleScript besideLogs.settings.buildRoot (some (Path.ofString "logs")) "demo" :=
    ⟨rooted_soleScript, by decide, fun base hbase => by
      obtain rfl := Option.mem_some.mp hbase
      decide⟩
  have hname : (besideLogs.newProject "demo" none).directory.name = "demo" := by decide
  exact ⟨clean_undoes ⟨rfl, fun _ _ => rfl⟩ ordinary_demo hlaid hfresh
    (staysAtHome_cast rfl _ (hname ▸ ordinary_demo)) isAbout_demoOperations rfl ⟨rfl, rfl⟩,
    by decide +kernel⟩

/-- A pipeline whose logs are found by way of the directory of a project. -/
def loggingThrough : Pipeline Rehearsal.Trace :=
  { besideLogs with store := some (Log.storeIn (Path.ofString "build/demo/../logs")) }

/-- The world after a call about the script. -/
def calledThrough : World Rehearsal.Trace :=
  (loggingThrough.operateAll [.call (.file (Path.ofString "demo.rs")) .all [] true]
    (loggingThrough.opened soleWorld)).2.state.world

/-- The path of the logs leads through the directory of the project: once that is gone, the logs cannot be
reached, and the journal is left behind. -/
theorem logs_out_of_reach :
    Path.Ordinary "demo" ∧
      loggingThrough.WritesOnlyLogs (some (Path.ofString "build/demo/../logs")) ∧
      Fresh soleScript loggingThrough.settings.buildRoot (some (Path.ofString "build/demo/../logs"))
        "demo" ∧
      loggingThrough.StaysAtHome [] (loggingThrough.newProject "demo" none) ∧
      (loggingThrough.clean (loggingThrough.newProject "demo" none) calledThrough).1.2.toOption =
        some true ∧
      (∃ content, (loggingThrough.clean (loggingThrough.newProject "demo" none)
        calledThrough).2.files.node? ["build", "logs", "demo", "events.log"] = some (.file content)) ∧
      ¬ loggingThrough.CleansUp (some (Path.ofString "build/demo/../logs")) "demo" soleScript
        (loggingThrough.newProject "demo" none) calledThrough := by
  have hname : (loggingThrough.newProject "demo" none).directory.name = "demo" := by decide
  have htrue : (loggingThrough.clean (loggingThrough.newProject "demo" none)
      calledThrough).1.2.toOption = some true := by decide +kernel
  have hleft : ∃ content, (loggingThrough.clean (loggingThrough.newProject "demo" none)
      calledThrough).2.files.node? ["build", "logs", "demo", "events.log"] = some (.file content) := by
    have hstands : (((loggingThrough.clean (loggingThrough.newProject "demo" none)
        calledThrough).2.files.node? ["build", "logs", "demo", "events.log"]).any
          (· ≠ .directory)) = true := by decide +kernel
    obtain ⟨node, hnode, hfile⟩ := Option.any_eq_true .. |>.mp hstands
    cases node with
    | directory => cases hfile
    | file content => exact ⟨content, hnode⟩
  refine ⟨ordinary_demo, ⟨rfl, fun _ _ => rfl⟩, ⟨rooted_soleScript, by decide, fun base hbase => ?_⟩,
    staysAtHome_cast rfl _ (hname ▸ ordinary_demo), htrue, hleft, fun hcleans => ?_⟩
  · obtain rfl := Option.mem_some.mp hbase
    decide
  · obtain ⟨content, hcontent⟩ := hleft
    cases hresult : (loggingThrough.clean (loggingThrough.newProject "demo" none)
        calledThrough).1.2 with
    | error failure =>
        rw [hresult] at htrue
        cases htrue
    | ok stood =>
        obtain ⟨-, -, -, hspotless⟩ := hcleans.succeeded stood hresult
        obtain hsame | ⟨-, -, hmade⟩ :=
          hspotless.files.nodes ["build", "logs", "demo", "events.log"] id
        · rw [hcontent] at hsame
          cases hsame
        · rw [hcontent] at hmade
          cases hmade

end Pipeline

end RustScript
