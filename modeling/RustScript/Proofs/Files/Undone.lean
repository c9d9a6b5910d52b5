import RustScript.Proofs.Files.Near

/-!
# Changes that can be undone

Some directories are to be removed in the end, each by its path. Whatever has been changed meanwhile is
undone by that if it is in one of these directories and the path of the directory still leads to it; only
directories that were made on the way to them may remain (`Undoable`). Writing into such a directory
keeps it so, and so does changing what it holds in any way and removing it, as long as no path of
another one leads through it. Once none of the paths leads anywhere, everything is as it was
(`Undoable.undone`).
-/

set_option autoImplicit false

namespace RustScript

/-! ## Paths that keep out of a directory -/

namespace Path

/-- The path leads at no point to the place or below it. -/
def Avoids (here : Place) (path : Path) (place : Place) : Prop :=
  ∀ names, names <+: path.names → ¬ place <+: lands here (path.cut names)

/-- A path that goes nowhere upwards keeps out if it does not end there. -/
theorem avoids_of_outside {here : Place} {path : Path} (hup : ".." ∉ path.names) {place : Place}
    (h : ¬ place <+: path.lands here) : path.Avoids here place := by
  rintro names ⟨rest, hrest⟩ hplace
  refine h (hplace.trans ?_)
  unfold lands
  rw [← hrest] at hup ⊢
  rw [List.foldl_append]
  exact prefix_foldl_follow _ fun hmem => hup (List.mem_append_right _ hmem)

theorem Avoids.inner {here : Place} {base : Path} {place : Place} (h : base.Avoids here place)
    {name : String} (hplace : ¬ place <+: (base.inner name).lands here) :
    (base.inner name).Avoids here place := by
  intro names hnames
  rcases List.prefix_concat_iff.mp hnames with rfl | hnames
  · exact hplace
  · exact h names hnames

/-- What leads below a place from elsewhere leads to the place itself first. -/
theorem exists_foldl_follow_eq {start place : Place} {names : List String} (h : ¬ place <+: start)
    (hplace : place <+: names.foldl follow start) :
    ∃ front, front <+: names ∧ front.foldl follow start = place := by
  induction names generalizing start with
  | nil => exact absurd hplace h
  | cons name rest ih =>
      by_cases hnext : place <+: follow start name
      · refine ⟨[name], List.cons_prefix_cons.mpr ⟨rfl, List.nil_prefix⟩, ?_⟩
        show follow start name = place
        unfold follow at hnext ⊢
        -- a step upwards or to the same place leads to nothing new
        split at hnext
        · exact absurd (hnext.trans (List.dropLast_prefix _)) h
        · split at hnext
          · exact absurd hnext h
          · next hup hhere =>
              rw [if_neg hup, if_neg hhere]
              exact ((List.prefix_concat_iff.mp hnext).resolve_right h).symm
      · obtain ⟨front, hfront, heq⟩ := ih hnext hplace
        exact ⟨name :: front, List.cons_prefix_cons.mpr ⟨rfl, hfront⟩, heq⟩

theorem exists_cut_lands_eq {here place : Place} {path : Path} (haway : ¬ place <+: here)
    (hroot : place ≠ []) (h : place <+: path.lands here) :
    ∃ names, names <+: path.names ∧ (path.cut names).lands here = place := by
  refine exists_foldl_follow_eq ?_ h
  split
  · exact haway
  · exact fun hprefix => hroot (List.prefix_nil.mp hprefix)

end Path

namespace FileSystem

/-- A walk is the same if the same stands on the way. -/
theorem walk_congr {first second : FileSystem} {start : Place} {names : List String}
    (h : ∀ front, front <+: names →
      second.node? (front.foldl Path.follow start) = first.node? (front.foldl Path.follow start)) :
    second.walk start names = first.walk start names := by
  induction names generalizing start with
  | nil => rfl
  | cons name rest ih =>
      rw [walk_cons, walk_cons, show second.node? start = first.node? start from h [] List.nil_prefix,
        ih fun front hfront => h (name :: front) (List.cons_prefix_cons.mpr ⟨rfl, hfront⟩)]

theorem find?_congr {first second : FileSystem} {path : Path} (hhere : second.here = first.here)
    (h : ∀ names, names <+: path.names →
      second.node? ((path.cut names).lands first.here) =
        first.node? ((path.cut names).lands first.here)) :
    second.find? path = first.find? path := by
  have hplace : second.place path = first.place path := by
    unfold FileSystem.place
    rw [hhere, walk_congr h]
  unfold find?
  rw [hplace]
  cases hfirst : first.place path with
  | error error => rfl
  | ok place =>
      rw [place_eq_ok hfirst]
      exact h path.names (List.prefix_refl _)

theorem exists_iff {files : FileSystem} {path : Path} :
    files.exists path = true ↔ ∃ node, files.find? path = some node := Option.isSome_iff_exists

/-- A path leads to something in a directory exactly if it leads to the directory and something is in
it. -/
theorem exists_inner_iff {files : FileSystem} {base : Path} {name : String} (hup : name ≠ "..")
    (hhere : name ≠ ".") : files.exists (base.inner name) = true ↔
      files.find? base = some .directory ∧
        files.node? ((base.inner name).lands files.here) ≠ none := by
  rw [exists_iff, Path.inner, Path.lands_child hup hhere]
  constructor
  · rintro ⟨node, hnode⟩
    have hbase := find?_of_inner hup hhere hnode
    rw [← Path.inner, find?_inner hup hhere hbase] at hnode
    rw [hnode]
    exact ⟨hbase, nofun⟩
  · rintro ⟨hbase, hnode⟩
    obtain ⟨node, hnode⟩ := Option.ne_none_iff_exists'.mp hnode
    exact ⟨node, (find?_inner hup hhere hbase).trans hnode⟩

theorem Grows.exists {before after : FileSystem} (h : Grows before after) {path : Path}
    (hpath : before.exists path = true) : after.exists path = true := by
  obtain ⟨node, hnode⟩ := exists_iff.mp hpath
  cases node with
  | directory => exact exists_iff.mpr ⟨_, h.find?_directory hnode⟩
  | file content =>
      obtain ⟨other, hother⟩ := h.find?_file hnode
      exact exists_iff.mpr ⟨_, hother⟩

/-- What is removed was there before. -/
theorem Grows.dropWhere (files : FileSystem) (gone : Place → Bool) :
    Grows (files.dropWhere gone) files := by
  have hkept : ∀ place node, (files.dropWhere gone).node? place = some node →
      files.node? place = some node := by
    intro place node hnode
    rw [node?_dropWhere] at hnode
    split at hnode
    · cases hnode
    · exact hnode
  exact ⟨rfl, fun place => hkept place _, fun place content hnode => ⟨content, hkept place _ hnode⟩⟩

/-! ## Undoable changes -/

/-- The place is in a directory to which one of the paths leads. -/
def Reached (paths : List Path) (files : FileSystem) (place : Place) : Prop :=
  ∃ path ∈ paths, files.exists path = true ∧ path.lands files.here <+: place

/-- What has changed since `initial` is in directories to which their paths lead, apart from directories
that have been made at `way` places. -/
structure Undoable (paths : List Path) (way : Place → Prop) (initial files : FileSystem) : Prop where
  confined : Confined (Reached paths files) way initial files
  rooted : files.Rooted

variable {paths : List Path} {way : Place → Prop} {initial files after : FileSystem}

theorem Undoable.refl (h : initial.Rooted) : Undoable paths way initial initial := ⟨.refl _, h⟩

/-- **Once no path leads anywhere**, all changes are undone. -/
theorem Undoable.undone (h : Undoable paths way initial files)
    (hgone : ∀ path ∈ paths, files.exists path = false) :
    Confined (fun _ => False) way initial files := by
  refine h.confined.mono ?_ fun _ => id
  rintro place ⟨path, hpath, hexists, -⟩
  rw [hgone path hpath] at hexists
  cases hexists

/-- More is put into the directories. -/
theorem Undoable.grown (h : Undoable paths way initial files) (hgrows : Grows files after)
    (hconfined : Confined (Reached paths after) way files after) (hrooted : after.Rooted) :
    Undoable paths way initial after := by
  refine ⟨(h.confined.mono ?_ fun _ => id).trans hconfined, hrooted⟩
  rintro place ⟨path, hpath, hexists, hplace⟩
  exact ⟨path, hpath, hgrows.exists hexists, hgrows.here ▸ hplace⟩

/-- The frame of changes that can be undone. -/
def undoing (paths : List Path) (way : Place → Prop) (initial : FileSystem) : Frame FileSystem :=
  Frame.keeping (Undoable paths way initial)
    ⟨fun _ _ => True, fun _ => trivial, fun _ _ => trivial⟩

theorem undoing_rel {before after : FileSystem}
    (h : Undoable paths way initial before → Undoable paths way initial after) :
    (undoing paths way initial).rel before after := fun hbefore => ⟨h hbefore, trivial⟩

end FileSystem

/-! ## Writing into the directories -/

namespace FileAction

open FileSystem

variable {paths : List Path} {way : Place → Prop} {initial : FileSystem} {base : Path}
  {name : String}

/-- A file in one of the directories is changed. -/
theorem keeps_undoing_change (hpath : base ∈ paths) (hup : name ≠ "..") (hhere : name ≠ ".")
    (f : List UInt8 → List UInt8) : Keeps (undoing paths way initial) (change (base.inner name) f) := by
  refine fun files => undoing_rel fun h => ?_
  have hrooted := (keeps_rooting_change (base.inner name) f files h.rooted).1
  have hgrows := keeps_growing_change (base.inner name) f files
  refine h.grown hgrows ?_ hrooted
  rw [run_change] at hgrows ⊢
  cases hplace : files.place (base.inner name) with
  | error error => exact .refl files
  | ok place =>
      obtain ⟨hbase, rfl⟩ := (place_inner_eq_ok_iff hup hhere).mp hplace
      rw [hplace] at hgrows
      dsimp only at hgrows ⊢
      have hreached : ∀ after : FileSystem, Grows files after →
          Reached paths after (base.lands files.here ++ [name]) := fun after hgrows =>
        ⟨base, hpath, exists_iff.mpr ⟨_, hgrows.find?_directory hbase⟩,
          hgrows.here ▸ List.prefix_append _ _⟩
      rcases hnode : files.node? (base.lands files.here ++ [name]) with _ | (_ | content)
      all_goals rw [hnode] at hgrows
      · exact .put files (hreached _ hgrows) _
      · exact .refl files
      · exact .put files (hreached _ hgrows) _

/-- One of the directories is made, with those around it. -/
theorem keeps_undoing_makeDirectories (hpath : base.inner name ∈ paths)
    (hway : ∀ names, names <+: base.names → way ((base.cut names).lands initial.here)) :
    Keeps (undoing paths way initial) (makeDirectories (base.inner name)) := by
  refine keeps_makeDirectoriesTo _ fun names hnames files => undoing_rel fun h => ?_
  rw [run_makeDirectory]
  cases hplace : files.place ⟨(base.inner name).slashes, names⟩ with
  | error error => exact h
  | ok place =>
      dsimp only
      cases hnode : files.node? place with
      | some node => exact h
      | none =>
          have hgrows := Grows.put_directory hnode
          have hfree : files.node? place ≠ some .directory := by
            rw [hnode]
            exact nofun
          refine h.grown hgrows ?_ (h.rooted.put hfree (h.rooted.around_place hplace) _)
          have hlands := place_eq_ok hplace
          rcases List.prefix_concat_iff.mp hnames with rfl | hshort
          · -- now that the directory stands, its path leads to it
            refine .put files ⟨_, hpath, exists_iff.mpr ⟨.directory, ?_⟩, ?_⟩ _
            · have hroot : place ≠ [] := by
                rintro rfl
                cases hnode
              refine (find?_of_place (hgrows.place hplace)).trans ?_
              rw [node?_put, if_pos ⟨hroot, rfl⟩]
            · rw [hlands]
              exact List.prefix_refl _
          · refine .put_directory ?_ hnode
            rw [hlands, h.confined.here]
            exact hway names hshort

end FileAction

/-! ## Changing and removing the directories -/

namespace FileSystem

variable {paths : List Path} {way : Place → Prop} {initial files after : FileSystem} {base : Path}
  {name : String}

/-- **Whatever is changed in one of the directories** can be undone, if the paths of the others do not
lead through it. -/
theorem Undoable.changed (h : Undoable paths way initial files) (hup : name ≠ "..")
    (hhere : name ≠ ".") (hpath : base.inner name ∈ paths)
    (hfresh : ∀ place, (base.inner name).lands initial.here <+: place → initial.node? place = none)
    (havoids : base.Avoids initial.here ((base.inner name).lands initial.here))
    (hothers : ∀ path ∈ paths, (base.inner name).lands initial.here <+: path.lands initial.here ∨
      path.Avoids initial.here ((base.inner name).lands initial.here))
    (hstands : files.find? base = some .directory)
    (hconfined : Confined ((base.inner name).lands initial.here <+: ·) (fun _ => False) files after)
    (hrooted : after.Rooted) : Undoable paths way initial after := by
  have hplain : files.here = initial.here := h.confined.here
  have hhereAfter : after.here = files.here := hconfined.here
  have hsame : ∀ place, ¬ (base.inner name).lands initial.here <+: place →
      after.node? place = files.node? place := fun place hplace =>
    (hconfined.nodes place hplace).resolve_right fun hmade => hmade.1
  have hfound : ∀ path : Path, path.Avoids initial.here ((base.inner name).lands initial.here) →
      after.find? path = files.find? path := by
    intro path hpath
    refine find?_congr hhereAfter fun names hnames => ?_
    rw [hplain]
    exact hsame _ (hpath names hnames)
  refine ⟨⟨hhereAfter.trans hplain, fun place hplace => ?_⟩, hrooted⟩
  by_cases hinside : (base.inner name).lands initial.here <+: place
  · -- the path leads on to the directory, so if it leads to nothing, there is nothing
    left
    rw [hfresh place hinside]
    have hgone : after.node? ((base.inner name).lands initial.here) = none := by
      refine Decidable.byContradiction fun hnode => ?_
      refine hplace ⟨_, hpath, (exists_inner_iff hup hhere).mpr ⟨?_, ?_⟩, ?_⟩
      · rw [hfound base havoids, hstands]
      · rw [hhereAfter, hplain]
        exact hnode
      · rw [hhereAfter, hplain]
        exact hinside
    obtain ⟨rest, rfl⟩ := hinside
    cases rest with
    | nil => rwa [List.append_nil]
    | cons first rest =>
        refine Decidable.byContradiction fun hnode => ?_
        rw [hrooted.directory_of_append hnode] at hgone
        cases hgone
  · rw [hsame place hinside]
    refine h.confined.nodes place ?_
    rintro ⟨path, hmem, hexists, hlands⟩
    rw [hplain] at hlands
    refine hplace ⟨path, hmem, ?_, by rwa [hhereAfter, hplain]⟩
    obtain hbelow | havoid := hothers path hmem
    · exact absurd (hbelow.trans hlands) hinside
    · obtain ⟨node, hnode⟩ := exists_iff.mp hexists
      exact exists_iff.mpr ⟨node, (hfound path havoid).trans hnode⟩

end FileSystem

/-! ## Removing the directories -/

namespace FileAction

open FileSystem

variable {base : Path} {name : String}

/-- An emptied directory holds nothing. -/
theorem node?_of_emptied (files : FileSystem) (place : Place) (name : String) (rest : List String) :
    (files.dropWhere (isInside place)).node? (place ++ name :: rest) = none := by
  rw [node?_dropWhere, if_pos]
  refine ⟨List.append_ne_nil_of_right_ne_nil _ nofun, ?_⟩
  unfold isInside
  rw [Bool.and_eq_true, bne_iff_ne]
  exact ⟨List.isPrefixOf_iff_prefix.mpr (List.prefix_append _ _),
    fun heq => List.cons_ne_nil _ _ (List.append_right_eq_self.mp heq)⟩

/-- How removing a directory may end: nothing is done, or the directory is emptied and left because
its path has led through what it held, or all is gone. -/
inductive Removal (path : Path) (files : FileSystem) : Except SystemError Unit → FileSystem → Prop
  | refused (error : SystemError) : Removal path files (.error error) files
  | emptied (error : SystemError) (stood : files.find? path = some .directory) :
      Removal path files (.error error) (files.dropWhere (isInside (path.lands files.here)))
  | removed (stood : files.find? path = some .directory) :
      Removal path files (.ok ()) ((files.dropWhere (isInside (path.lands files.here))).dropWhere
        (· == path.lands files.here))

theorem removal_removeTree (hup : name ≠ "..") (files : FileSystem) :
    Removal (base.inner name) files ((removeTree (base.inner name)).run files).1
      ((removeTree (base.inner name)).run files).2 := by
  have hnames : (base.inner name).names ≠ [] := List.append_ne_nil_of_right_ne_nil _ nofun
  have hlast : (base.inner name).names.getLast? ≠ some ".." := by
    rw [show (base.inner name).names = base.names ++ [name] from rfl, List.getLast?_concat]
    exact fun heq => hup (Option.some.inj heq)
  rw [run_removeTree]
  cases hplace : files.place (base.inner name) with
  | error error => exact .refused error
  | ok place =>
      have hfind := find?_of_place hplace
      obtain rfl := place_eq_ok hplace
      dsimp only
      rcases hnode : files.node? ((base.inner name).lands files.here) with _ | (_ | content)
      · exact .refused _
      · rw [hnode] at hfind
        dsimp only
        rw [run_removeEmptyDirectory hnames hlast]
        cases hagain : (files.dropWhere (isInside ((base.inner name).lands files.here))).place
            (base.inner name) with
        | error error => exact .emptied error hfind
        | ok other =>
            have hlands := place_eq_ok hagain
            have hsame : (files.dropWhere (isInside ((base.inner name).lands files.here))).here =
                files.here := rfl
            rw [hsame] at hlands
            dsimp only
            rw [hlands]
            split
            · exact .emptied _ hfind
            · exact .removed hfind
      · exact .refused _

section

variable {path : Path} {files after : FileSystem} {result : Except SystemError Unit}
  (h : Removal path files result after)

include h

theorem Removal.grows : Grows after files := by
  cases h with
  | refused error => exact .refl files
  | emptied error _ => exact .dropWhere files _
  | removed _ => exact (Grows.dropWhere _ _).trans (.dropWhere files _)

/-- Nothing is removed elsewhere. -/
theorem Removal.confined :
    Confined (path.lands files.here <+: ·) (fun _ => False) files after := by
  have hinside : ∀ place, isInside (path.lands files.here) place = true →
      path.lands files.here <+: place := fun place hplace =>
    List.isPrefixOf_iff_prefix.mp (Bool.and_eq_true_iff.mp hplace).1
  cases h with
  | refused error => exact .refl files
  | emptied error _ => exact .dropWhere files hinside
  | removed _ =>
      refine (Confined.dropWhere files hinside).trans (.dropWhere _ fun place hplace => ?_)
      obtain rfl := beq_iff_eq.mp hplace
      exact List.prefix_refl _

/-- What the directory held is gone, unless nothing was done. -/
theorem Removal.cases_inside : after = files ∨
    (files.find? path = some .directory ∧
      ∀ name rest, after.node? (path.lands files.here ++ name :: rest) = none) := by
  cases h with
  | refused error => exact .inl rfl
  | emptied error stood => exact .inr ⟨stood, node?_of_emptied files _⟩
  | removed stood =>
      refine .inr ⟨stood, fun name rest => ?_⟩
      rw [node?_dropWhere]
      split
      · rfl
      · exact node?_of_emptied files _ name rest

/-- **Whatever is removed leaves a rooted tree**, if the working directory is elsewhere. -/
theorem Removal.rooted (hrooted : files.Rooted) (hhere : ¬ path.lands files.here <+: files.here) :
    after.Rooted := by
  have hemptied := hrooted.emptied hhere
  cases h with
  | refused error => exact hrooted
  | emptied error _ => exact hemptied
  | removed _ =>
      exact hemptied.removed hhere fun name => node?_of_emptied files _ name []

end

/-- What has been removed is gone. -/
theorem Removal.exists_eq_false {base : Path} {name : String} {files after : FileSystem}
    (hup : name ≠ "..") (hhere : name ≠ ".")
    (h : Removal (base.inner name) files (.ok ()) after) :
    after.exists (base.inner name) = false := by
  refine Bool.eq_false_iff.mpr fun hexists => ((exists_inner_iff hup hhere).mp hexists).2 ?_
  cases h with
  | removed _ =>
      rw [node?_dropWhere, if_pos]
      refine ⟨?_, beq_iff_eq.mpr rfl⟩
      rw [Path.inner, Path.lands_child hup hhere]
      exact List.append_ne_nil_of_right_ne_nil _ nofun

/-- A directory that is left is still where its path leads, or its path has led through it. -/
theorem Removal.left {base : Path} {name : String} {files after : FileSystem}
    {result : Except SystemError Unit} (h : Removal (base.inner name) files result after)
    (hup : name ≠ "..") (hhere : name ≠ ".")
    (haway : ¬ (base.inner name).lands files.here <+: files.here)
    (hstood : files.find? (base.inner name) = some .directory)
    (hleft : after.node? ((base.inner name).lands files.here) ≠ none) :
    after.exists (base.inner name) = true ∨
      ∃ names, names <+: base.names ∧
        (base.cut names).lands files.here = (base.inner name).lands files.here := by
  by_cases hthrough : ∃ names, names <+: base.names ∧
      (base.inner name).lands files.here <+: (base.cut names).lands files.here
  · obtain ⟨names, hnames, hbelow⟩ := hthrough
    have hroot : (base.inner name).lands files.here ≠ [] := by
      rw [Path.inner, Path.lands_child hup hhere]
      exact List.append_ne_nil_of_right_ne_nil _ nofun
    obtain ⟨front, hfront, hlands⟩ := Path.exists_cut_lands_eq haway hroot hbelow
    exact .inr ⟨front, hfront.trans hnames, hlands⟩
  · left
    have hsame : after.find? base = files.find? base :=
      find?_congr h.confined.here fun names hnames =>
        (h.confined.nodes _ fun hbelow => hthrough ⟨names, hnames, hbelow⟩).resolve_right
          fun hmade => hmade.1
    refine (exists_inner_iff hup hhere).mpr ⟨?_, ?_⟩
    · rw [hsame]
      exact find?_of_inner hup hhere hstood
    · rwa [h.confined.here]

end FileAction

namespace FileSystem

open FileAction

/-- **A directory is removed** when none of the other paths leads anywhere any more. -/
theorem Undoable.removed {paths : List Path} {way : Place → Prop} {initial files : FileSystem}
    {base : Path} {name : String} (h : Undoable paths way initial files) (hup : name ≠ "..")
    (hhere : name ≠ ".") (hpath : base.inner name ∈ paths)
    (hway : ∀ names, names <+: base.names → way ((base.cut names).lands initial.here))
    (hinitial : initial.Rooted)
    (hfresh : ∀ place, (base.inner name).lands initial.here <+: place → initial.node? place = none)
    (hothers : ∀ path ∈ paths, path = base.inner name ∨ files.exists path = false)
    {result : Except SystemError Unit} {after : FileSystem}
    (hremoval : Removal (base.inner name) files result after) :
    Undoable paths way initial after := by
  have hplain : files.here = initial.here := h.confined.here
  have haway : ¬ (base.inner name).lands initial.here <+: initial.here := by
    intro hprefix
    have hnone := hfresh _ hprefix
    rw [hinitial.here] at hnone
    cases hnone
  have hconfined := hremoval.confined
  have hhereAfter : after.here = files.here := hconfined.here
  refine ⟨⟨hhereAfter.trans hplain, fun place hplace => ?_⟩, hremoval.rooted h.rooted (by rwa [hplain])⟩
  by_cases hinside : (base.inner name).lands initial.here <+: place
  · obtain hsame | ⟨hstood, hgone⟩ := hremoval.cases_inside
    · rw [hsame] at hplace ⊢
      exact h.confined.nodes place hplace
    rw [hplain] at hgone
    obtain ⟨rest, rfl⟩ := hinside
    cases rest with
    | cons first rest => exact .inl ((hgone first rest).trans (hfresh _ (List.prefix_append _ _)).symm)
    | nil =>
        rw [List.append_nil] at hplace ⊢
        rw [hfresh _ (List.prefix_refl _)]
        cases hnode : after.node? ((base.inner name).lands initial.here) with
        | none => exact .inl rfl
        | some node =>
            have hstays : node = .directory := by
              obtain ⟨-, hbefore⟩ := place_of_find? hstood
              rw [hplain] at hbefore
              cases node with
              | directory => rfl
              | file content =>
                  obtain ⟨other, hother⟩ := hremoval.grows.file _ _ hnode
                  rw [hbefore] at hother
                  cases hother
            have hleft : after.node? ((base.inner name).lands files.here) ≠ none := by
              rw [hplain, hnode]
              exact nofun
            obtain hexists | ⟨names, hnames, hlands⟩ :=
              hremoval.left hup hhere (by rwa [hplain]) hstood hleft
            · refine absurd ⟨_, hpath, hexists, ?_⟩ hplace
              have hlands : (base.inner name).lands after.here = (base.inner name).lands initial.here := by
                rw [hhereAfter, hplain]
              exact hlands ▸ List.prefix_refl _
            · rw [hplain] at hlands
              exact .inr ⟨hlands ▸ hway names hnames, rfl, congrArg some hstays⟩
  · have hkept := (hconfined.nodes place (by rwa [hplain])).resolve_right fun hmade => hmade.1
    rw [hkept]
    refine h.confined.nodes place ?_
    rintro ⟨path, hmem, hexists, hlands⟩
    rw [hplain] at hlands
    obtain rfl | hgone := hothers path hmem
    · exact hinside hlands
    · rw [hgone] at hexists
      cases hexists

end FileSystem

end RustScript
