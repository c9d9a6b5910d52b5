import RustScript.Proofs.Files.Undone

/-!
# Direct paths

A path whose names lead nowhere but down leads to what stands at its place, if the tree is rooted
(`Rooted.find?_direct`). So it is known in advance what an operation on such a path does: a directory
is made unless a file is in the way, a file in it is written, and a directory is removed with all
that it holds.
-/

set_option autoImplicit false

namespace RustScript

/-- Every name of the path leads down. -/
def Path.Direct (path : Path) : Prop := ∀ name ∈ path.names, name ≠ "." ∧ name ≠ ".."

theorem Path.foldl_follow_direct {names : List String}
    (h : ∀ name ∈ names, name ≠ "." ∧ name ≠ "..") (start : Place) :
    names.foldl Path.follow start = start ++ names := by
  induction names generalizing start with
  | nil => rw [List.foldl_nil, List.append_nil]
  | cons name rest ih =>
      obtain ⟨⟨hhere, hup⟩, hrest⟩ := List.forall_mem_cons.mp h
      have hfollow : Path.follow start name = start ++ [name] := by
        unfold Path.follow
        rw [if_neg hup, if_neg hhere]
      rw [List.foldl_cons, hfollow, ih hrest, List.append_assoc, List.singleton_append]

theorem Path.lands_direct {path : Path} (h : path.Direct) (here : Place) :
    path.lands here = (if path.slashes = 0 then here else []) ++ path.names :=
  Path.foldl_follow_direct h _

namespace FileSystem

variable {files : FileSystem} {path : Path}

/-- No file stands at the place or on the way to it. -/
def Open (files : FileSystem) (place : Place) : Prop :=
  ∀ outer, outer <+: place → ∀ content, files.node? outer ≠ some (.file content)

section

variable (hrooted : files.Rooted)

include hrooted

/-- A walk that gets lost would have led to nothing. -/
theorem Rooted.walk_direct {names : List String} (hnames : ∀ name ∈ names, name ≠ "." ∧ name ≠ "..")
    (start : Place) : (match files.walk start names with
      | .ok place => files.node? place
      | .error _ => none) = files.node? (start ++ names) := by
  induction names generalizing start with
  | nil => rw [List.append_nil]; rfl
  | cons name rest ih =>
      obtain ⟨⟨hhere, hup⟩, hrest⟩ := List.forall_mem_cons.mp hnames
      have hlost : files.node? start ≠ some .directory →
          files.node? (start ++ name :: rest) = none := fun hstart =>
        Classical.byContradiction fun hstands => hstart (hrooted.directory_of_append hstands)
      have hfollow : Path.follow start name = start ++ [name] := by
        unfold Path.follow
        rw [if_neg hup, if_neg hhere]
      rw [walk_cons]
      rcases hnode : files.node? start with _ | (_ | content)
      · rw [hlost (by rw [hnode]; exact nofun)]
      · dsimp only
        rw [hfollow, ih hrest, List.append_assoc, List.singleton_append]
      · rw [hlost (by rw [hnode]; exact fun heq => by cases heq)]

/-- **A direct path leads to what stands at its place.** -/
theorem Rooted.find?_direct (hpath : path.Direct) :
    files.find? path = files.node? (path.lands files.here) := by
  rw [Path.lands_direct hpath, ← hrooted.walk_direct hpath]
  unfold find? FileSystem.place
  cases files.walk (if path.slashes = 0 then files.here else []) path.names <;> rfl

theorem Rooted.place_direct (hpath : path.Direct)
    (hstands : files.node? (path.lands files.here) ≠ none) :
    files.place path = .ok (path.lands files.here) := by
  rw [← hrooted.find?_direct hpath] at hstands
  obtain ⟨node, hnode⟩ := Option.ne_none_iff_exists'.mp hstands
  obtain ⟨hplace, -⟩ := place_of_find? hnode
  exact hplace

end

end FileSystem

namespace FileAction

open FileSystem

variable {files : FileSystem} {path directory : Path} {name : String}

/-- **A directory is made unless a file is in the way**, and nothing else changes. -/
theorem makeDirectories_of_open (hrooted : files.Rooted) (hpath : path.Direct)
    (hopen : files.Open (path.lands files.here)) :
    ∃ after, (makeDirectories path).run files = (.ok (), after) ∧ after.Rooted ∧
      Confined (fun _ => False) (· <+: path.lands files.here) files after ∧
      after.node? (path.lands files.here) = some .directory := by
  have hup : ".." ∉ path.names := fun hmem => (hpath _ hmem).2 rfl
  have hkeeps : Keeps (FileSystem.frame files.here (fun _ => False)
      (· <+: path.lands files.here)) (makeDirectories path) :=
    keeps_makeDirectories fun _ => prefix_of_onWay hup
  obtain ⟨hhere, hconfined⟩ := hkeeps files rfl
  obtain ⟨hafter, -⟩ := keeps_rooting_makeDirectories path files hrooted
  obtain ⟨result, after, hrun⟩ : ∃ result after,
      (makeDirectories path).run files = (result, after) := ⟨_, _, rfl⟩
  have hsettles := settles_makeDirectoriesTo (Nat.le_refl path.names.length) files
  rw [show makeDirectoriesTo path.names.length path = makeDirectories path from rfl] at hsettles
  rw [hrun] at hhere hconfined hafter hsettles ⊢
  rcases hsettles with ⟨hok, hstands⟩ | ⟨-, names, hnames, content, hfile⟩
  · refine ⟨after, Prod.ext hok rfl, hafter, hconfined, ?_⟩
    rw [← hhere, ← hafter.find?_direct hpath]
    exact hstands
  · -- the file in the way would have been there before
    have hcut : (path.cut names).Direct := fun name hname => hpath name (hnames.subset hname)
    have hprefix : (path.cut names).lands files.here <+: path.lands files.here := by
      rw [Path.lands_direct hcut, Path.lands_direct hpath]
      exact (List.prefix_append_right_inj _).mpr hnames
    have hnode : after.node? ((path.cut names).lands files.here) = some (.file content) := by
      rw [← hhere, ← hafter.find?_direct hcut]
      exact hfile
    rcases hconfined.nodes _ not_false with hsame | ⟨-, -, hmade⟩
    · exact absurd (hsame.symm.trans hnode) (hopen _ hprefix content)
    · rw [hnode] at hmade
      cases hmade

/-- **A file in a directory is changed**, or made of nothing. -/
theorem change_in_directory (hup : name ≠ "..") (hhere : name ≠ ".")
    (hstands : files.find? directory = some .directory) (f : List UInt8 → List UInt8)
    {old : Option (List UInt8)}
    (hold : files.node? (directory.lands files.here ++ [name]) = old.map .file) :
    (change (directory.inner name) f).run files =
      (.ok (), files.put (directory.lands files.here ++ [name]) (.file (f (old.getD [])))) := by
  rw [run_change, (place_inner_eq_ok_iff hup hhere).mpr ⟨hstands, rfl⟩]
  dsimp only
  rw [hold]
  cases old <;> rfl

/-- **A directory is removed with all that it holds.** -/
theorem removeTree_of_directory (hrooted : files.Rooted) (hpath : path.Direct)
    (hnames : path.names ≠ []) (haway : ¬ path.lands files.here <+: files.here)
    (hstands : files.node? (path.lands files.here) = some .directory) :
    (removeTree path).run files =
      (.ok (), (files.dropWhere (isInside (path.lands files.here))).dropWhere
        (· == path.lands files.here)) := by
  have hlast : path.names.getLast? ≠ some ".." := fun hlast =>
    (hpath _ (List.mem_of_getLast? hlast)).2 rfl
  have hemptied := hrooted.emptied haway
  have hleft : (files.dropWhere (isInside (path.lands files.here))).node?
      (path.lands files.here) = some .directory := by
    rw [node?_dropWhere, if_neg, hstands]
    rintro ⟨-, hinside⟩
    unfold isInside at hinside
    rw [Bool.and_eq_true, bne_self_eq_false] at hinside
    cases hinside.2
  rw [run_removeTree, hrooted.place_direct hpath (by rw [hstands]; exact nofun)]
  dsimp only
  rw [hstands]
  dsimp only
  rw [run_removeEmptyDirectory hnames hlast,
    hemptied.place_direct hpath (by
      show _ ≠ _
      rw [show (files.dropWhere (isInside (path.lands files.here))).here = files.here from rfl,
        hleft]
      exact nofun)]
  dsimp only
  rw [show (files.dropWhere (isInside (path.lands files.here))).here = files.here from rfl, hleft,
    if_neg (by exact nofun)]

end FileAction

end RustScript
