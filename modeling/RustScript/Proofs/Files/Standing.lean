import RustScript.Proofs.Files.Frame

/-!
# What goes on standing

Writing files and making directories takes nothing away: a directory stays a directory and a file
stays a file (`Grows`), so a path that led somewhere leads there still. Therefore an operation that
has been done is done: a directory that stands is not made again, and one that could not be made is
not made on a second attempt either (`Settled`).
-/

set_option autoImplicit false

namespace RustScript

namespace Path

/-- The path of `name` in the directory `base`. -/
def inner (base : Path) (name : String) : Path := ⟨base.slashes, base.names ++ [name]⟩

/-- The path of the directory that the first `names` of a path lead to. -/
def cut (path : Path) (names : List String) : Path := ⟨path.slashes, names⟩

end Path

namespace FileSystem

/-! ## Paths in directories -/

theorem walk_cons (files : FileSystem) (start : Place) (name : String) (rest : List String) :
    files.walk start (name :: rest) = match files.node? start with
      | none => .error .noEntry
      | some (.file _) => .error .notDirectory
      | some .directory => files.walk (Path.follow start name) rest := by
  rw [walk]
  unfold Path.follow
  rcases files.node? start with _ | (_ | _)
  · rfl
  · dsimp only
    split
    · rfl
    · split <;> rfl
  · rfl

theorem walk_append (files : FileSystem) (start : Place) (names more : List String) :
    files.walk start (names ++ more) = (files.walk start names).bind (files.walk · more) := by
  induction names generalizing start with
  | nil => rfl
  | cons name rest ih =>
      rw [List.cons_append, walk_cons, walk_cons]
      rcases files.node? start with _ | (_ | _)
      · rfl
      · exact ih _
      · rfl

theorem find?_of_place {files : FileSystem} {path : Path} {place : Place}
    (h : files.place path = .ok place) : files.find? path = files.node? place := by
  unfold find?
  rw [h]

theorem place_of_find? {files : FileSystem} {path : Path} {node : Node}
    (h : files.find? path = some node) :
    files.place path = .ok (path.lands files.here) ∧
      files.node? (path.lands files.here) = some node := by
  unfold find? at h
  split at h
  · next place hplace =>
      rw [← place_eq_ok hplace]
      exact ⟨hplace, h⟩
  · cases h

/-- All directories stand that a path leads through to a directory. -/
theorem find?_cut {files : FileSystem} {path : Path} (h : files.find? path = some .directory)
    {names : List String} (hnames : names <+: path.names) :
    files.find? (path.cut names) = some .directory := by
  obtain ⟨rest, hrest⟩ := hnames
  obtain ⟨hplace, hnode⟩ := place_of_find? h
  cases rest with
  | nil =>
      rw [List.append_nil] at hrest
      rwa [Path.cut, hrest]
  | cons name rest =>
      unfold FileSystem.place at hplace
      rw [← hrest, walk_append] at hplace
      cases hwalk : files.walk (if path.slashes = 0 then files.here else []) names with
      | error error =>
          rw [hwalk] at hplace
          cases hplace
      | ok place =>
          rw [hwalk] at hplace
          change (files.walk place (name :: rest)).mapError _ = _ at hplace
          rw [walk_cons] at hplace
          have hcut : files.place (path.cut names) = .ok place := by
            unfold FileSystem.place
            rw [show (path.cut names).slashes = path.slashes from rfl,
              show (path.cut names).names = names from rfl, hwalk]
            rfl
          rw [find?_of_place hcut]
          rcases hstands : files.node? place with _ | (_ | _)
          · rw [hstands] at hplace
            cases hplace
          · rfl
          · rw [hstands] at hplace
            cases hplace

section

variable {files : FileSystem} {base : Path} {name : String}

/-- A path leads below a directory exactly if it leads to the directory. -/
theorem place_inner_eq_ok_iff (hup : name ≠ "..") (hhere : name ≠ ".") {place : Place} :
    files.place (base.inner name) = .ok place ↔
      files.find? base = some .directory ∧ place = base.lands files.here ++ [name] := by
  have hinner : files.place (base.inner name) =
      ((files.walk (if base.slashes = 0 then files.here else []) base.names).bind
        (files.walk · [name])).mapError (· (base.inner name).toString) := by
    rw [← walk_append]
    rfl
  rw [hinner]
  cases hwalk : files.walk (if base.slashes = 0 then files.here else []) base.names with
  | error error =>
      have hnone : files.find? base = none := by
        unfold find? FileSystem.place
        rw [hwalk]
        rfl
      have hlost : ¬ (files.find? base = some .directory ∧
          place = base.lands files.here ++ [name]) := by
        rw [hnone]
        exact fun h => by cases h.1
      exact iff_of_false (fun h => by cases h) hlost
  | ok found =>
      have hplace : files.place base = .ok found := by
        unfold FileSystem.place
        rw [hwalk]
        rfl
      have hlast : Path.follow found name = found ++ [name] := by
        unfold Path.follow
        rw [if_neg hup, if_neg hhere]
      rw [find?_of_place hplace, ← place_eq_ok hplace]
      show (files.walk found [name]).mapError _ = _ ↔ _
      rw [walk_cons, hlast]
      rcases files.node? found with _ | (_ | _)
      · exact iff_of_false (fun h => by cases h) fun h => by cases h.1
      · exact ⟨fun h => ⟨rfl, (Except.ok.inj h).symm⟩, fun h => congrArg Except.ok h.2.symm⟩
      · exact iff_of_false (fun h => by cases h) fun h => by cases h.1

/-- What stands below a directory shows that the directory stands. -/
theorem find?_of_inner (hup : name ≠ "..") (hhere : name ≠ ".") {node : Node}
    (h : files.find? (base.inner name) = some node) : files.find? base = some .directory :=
  ((place_inner_eq_ok_iff hup hhere).mp (place_of_find? h).1).1

theorem find?_inner (hup : name ≠ "..") (hhere : name ≠ ".")
    (h : files.find? base = some .directory) :
    files.find? (base.inner name) = files.node? (base.lands files.here ++ [name]) :=
  find?_of_place ((place_inner_eq_ok_iff hup hhere).mpr ⟨h, rfl⟩)

end

/-! ## Growing -/

/-- Directories stay directories and files stay files. -/
structure Grows (before after : FileSystem) : Prop where
  here : after.here = before.here
  directory : ∀ place, before.node? place = some .directory →
    after.node? place = some .directory
  file : ∀ place content, before.node? place = some (.file content) →
    ∃ other, after.node? place = some (.file other)

theorem Grows.refl (files : FileSystem) : Grows files files :=
  ⟨rfl, fun _ => id, fun _ content h => ⟨content, h⟩⟩

theorem Grows.trans {first second third : FileSystem} (hfirst : Grows first second)
    (hsecond : Grows second third) : Grows first third := by
  refine ⟨hsecond.here.trans hfirst.here, fun place h => ?_, fun place content h => ?_⟩
  · exact hsecond.directory place (hfirst.directory place h)
  · obtain ⟨other, hother⟩ := hfirst.file place content h
    exact hsecond.file place other hother

theorem Grows.put_file {files : FileSystem} {place : Place}
    (h : files.node? place ≠ some .directory) (content : List UInt8) :
    Grows files (files.put place (.file content)) := by
  refine ⟨rfl, fun other hother => ?_, fun other old hother => ?_⟩
  · rw [node?_put, if_neg]
    · exact hother
    · rintro ⟨-, rfl⟩
      exact h hother
  · rw [node?_put]
    split
    · exact ⟨content, rfl⟩
    · exact ⟨old, hother⟩

theorem Grows.put_directory {files : FileSystem} {place : Place} (h : files.node? place = none) :
    Grows files (files.put place .directory) := by
  have hne : ∀ other node, files.node? other = some node → place ≠ other := by
    rintro other node hother rfl
    rw [h] at hother
    cases hother
  refine ⟨rfl, fun other hother => ?_, fun other old hother => ⟨old, ?_⟩⟩
  · rw [node?_put, if_neg fun heq => hne other _ hother heq.2, hother]
  · rw [node?_put, if_neg fun heq => hne other _ hother heq.2, hother]

theorem Grows.of_same {before after : FileSystem}
    (h : Confined (fun _ => False) (fun _ => False) before after) : Grows before after := by
  have hsame : ∀ place, after.node? place = before.node? place := fun place =>
    (h.nodes place id).resolve_right fun hmade => hmade.1
  refine ⟨h.here, fun place hnode => ?_, fun place content hnode => ⟨content, ?_⟩⟩
  · rw [hsame, hnode]
  · rw [hsame, hnode]

/-- The frame in which nothing is taken away. -/
def growing : Frame FileSystem := ⟨Grows, .refl, .trans⟩

section

variable {before after : FileSystem} (h : Grows before after)

include h

theorem Grows.walk {start place : Place} {names : List String}
    (hwalk : before.walk start names = .ok place) : after.walk start names = .ok place := by
  induction names generalizing start with
  | nil => exact hwalk
  | cons name rest ih =>
      rw [walk_cons] at hwalk ⊢
      rcases hnode : before.node? start with _ | (_ | _)
      · rw [hnode] at hwalk
        cases hwalk
      · rw [hnode] at hwalk
        rw [h.directory start hnode]
        exact ih hwalk
      · rw [hnode] at hwalk
        cases hwalk

theorem Grows.place {path : Path} {place : Place} (hplace : before.place path = .ok place) :
    after.place path = .ok place := by
  unfold FileSystem.place at hplace ⊢
  rw [h.here]
  cases hwalk : before.walk (if path.slashes = 0 then before.here else []) path.names with
  | error error => rw [hwalk] at hplace; cases hplace
  | ok found =>
      rw [hwalk] at hplace
      rw [h.walk hwalk]
      exact hplace

theorem Grows.find?_directory {path : Path} (hpath : before.find? path = some .directory) :
    after.find? path = some .directory := by
  obtain ⟨hplace, hnode⟩ := place_of_find? hpath
  rw [find?_of_place (h.place hplace)]
  exact h.directory _ hnode

theorem Grows.find?_file {path : Path} {content : List UInt8}
    (hpath : before.find? path = some (.file content)) :
    ∃ other, after.find? path = some (.file other) := by
  obtain ⟨hplace, hnode⟩ := place_of_find? hpath
  rw [find?_of_place (h.place hplace)]
  exact h.file _ _ hnode

/-- What stands where nothing may change is found as before. -/
theorem Grows.find?_of_confined {inside way : Place → Prop}
    (hconfined : Confined inside way before after) {path : Path} {node : Node}
    (hfree : ¬ inside (path.lands before.here)) (hpath : before.find? path = some node) :
    after.find? path = some node := by
  obtain ⟨hplace, hnode⟩ := place_of_find? hpath
  rw [find?_of_place (h.place hplace)]
  rcases hconfined.nodes _ hfree with hsame | ⟨-, hnone, -⟩
  · rw [hsame, hnode]
  · rw [hnode] at hnone
    cases hnone

end

end FileSystem

/-! ## Runs of operations -/

namespace FileAction

theorem run_read (path : Path) (files : FileSystem) :
    (read path).run files = (match files.place path with
      | .error error => .error error
      | .ok place => match files.node? place with
        | some (.file content) => .ok content
        | some .directory => .error (.isDirectory path.toString)
        | none => .error (.noEntry path.toString), files) := by
  rw [read, run_bind, run_place]
  cases files.place path with
  | error error => rfl
  | ok place =>
      dsimp only
      rw [run_bind, run_get]
      dsimp only
      rcases files.node? place with _ | (_ | _) <;> rfl

theorem run_change (path : Path) (f : List UInt8 → List UInt8) (files : FileSystem) :
    (change path f).run files = match files.place path with
      | .error error => (.error error, files)
      | .ok place => match files.node? place with
        | some (.file content) => (.ok (), files.put place (.file (f content)))
        | some .directory => (.error (.isDirectory path.toString), files)
        | none => (.ok (), files.put place (.file (f []))) := by
  rw [change, run_bind, run_place]
  cases files.place path with
  | error error => rfl
  | ok place =>
      dsimp only
      rw [run_bind, run_get]
      dsimp only
      rcases files.node? place with _ | (_ | _) <;> rfl

theorem run_makeDirectory (path : Path) (files : FileSystem) :
    (makeDirectory path).run files = match files.place path with
      | .error error => (.error error, files)
      | .ok place => match files.node? place with
        | some _ => (.error (.alreadyExists path.toString), files)
        | none => (.ok (), files.put place .directory) := by
  rw [makeDirectory, run_bind, run_place]
  cases files.place path with
  | error error => rfl
  | ok place =>
      dsimp only
      rw [run_bind, run_get]
      dsimp only
      rcases files.node? place with _ | _ <;> rfl

/-! ## Operations that take nothing away -/

theorem keeps_growing_change (path : Path) (f : List UInt8 → List UInt8) :
    Keeps FileSystem.growing (change path f) := by
  intro files
  rw [run_change]
  cases files.place path with
  | error error => exact .refl files
  | ok place =>
      dsimp only
      rcases hnode : files.node? place with _ | (_ | _)
      · exact .put_file (by rw [hnode]; exact fun h => by cases h) _
      · exact .refl files
      · exact .put_file (by rw [hnode]; exact fun h => by cases h) _

theorem keeps_growing_makeDirectory (path : Path) :
    Keeps FileSystem.growing (makeDirectory path) := by
  intro files
  rw [run_makeDirectory]
  cases files.place path with
  | error error => exact .refl files
  | ok place =>
      dsimp only
      cases hnode : files.node? place with
      | none => exact .put_directory hnode
      | some node => exact .refl files

theorem keeps_growing_makeDirectories (path : Path) :
    Keeps FileSystem.growing (makeDirectories path) :=
  keeps_makeDirectoriesTo _ fun _ _ => keeps_growing_makeDirectory _

/-! ## Files that have been written -/

/-- A file that stands can be written. -/
theorem write_of_file {path : Path} {files : FileSystem} {old : List UInt8}
    (h : files.find? path = some (.file old)) (content : List UInt8) :
    (write path content).run files =
      (.ok (), files.put (path.lands files.here) (.file content)) := by
  obtain ⟨hplace, hnode⟩ := FileSystem.place_of_find? h
  rw [write, run_change, hplace]
  dsimp only
  rw [hnode]

/-- Writing a file puts it at the place of its path. -/
theorem write_eq_ok {path : Path} {content : List UInt8} {files after : FileSystem}
    (h : (write path content).run files = (.ok (), after)) :
    ∃ place, files.place path = .ok place ∧ files.node? place ≠ some .directory ∧
      after = files.put place (.file content) := by
  rw [write, run_change] at h
  cases hplace : files.place path with
  | error error =>
      rw [hplace] at h
      cases (Prod.mk.inj h).1
  | ok place =>
      rw [hplace] at h
      dsimp only at h
      rcases hnode : files.node? place with _ | (_ | _)
      · rw [hnode] at h
        exact ⟨place, rfl, by simp [hnode], (Prod.mk.inj h).2.symm⟩
      · rw [hnode] at h
        cases (Prod.mk.inj h).1
      · rw [hnode] at h
        exact ⟨place, rfl, by simp [hnode], (Prod.mk.inj h).2.symm⟩

/-- A file that has been written has its content. -/
theorem find?_of_write {path : Path} {content : List UInt8} {files after : FileSystem}
    (h : (write path content).run files = (.ok (), after)) :
    after.find? path = some (.file content) := by
  obtain ⟨place, hplace, hfree, rfl⟩ := write_eq_ok h
  -- the root is a directory, so the place is not the root
  have hroot : place ≠ [] := by
    rintro rfl
    exact hfree rfl
  rw [FileSystem.find?_of_place ((FileSystem.Grows.put_file hfree content).place hplace),
    FileSystem.node?_put, if_pos ⟨hroot, rfl⟩]

/-! ## Directories that have been made -/

theorem run_ensureDirectory (path : Path) (files : FileSystem) :
    (ensureDirectory path).run files = match (makeDirectory path).run files with
      | (.ok _, after) => (.ok (), after)
      | (.error error, after) =>
          if after.isDirectory path then (.ok (), after) else (.error error, after) := by
  unfold ensureDirectory
  rw [run_bind, run_tryCatch, run_bind]
  rcases (makeDirectory path).run files with ⟨error | _, after⟩
  · dsimp only
    rw [run_bind, run_get]
    dsimp only
    by_cases hdirectory : after.isDirectory path = true
    · rw [if_pos hdirectory, if_pos hdirectory]
      rfl
    · rw [if_neg hdirectory, if_neg hdirectory]
      rfl
  · rfl

theorem run_makeDirectoriesTo_succ (depth : Nat) (path : Path) (files : FileSystem) :
    (makeDirectoriesTo (depth + 1) path).run files = match (makeDirectory path).run files with
      | (.ok _, after) => (.ok (), after)
      | (.error error, after) =>
          if error = .noEntry path.toString then
            match path.parent? with
            | none => (.error error, after)
            | some parent => match (makeDirectoriesTo depth parent).run after with
              | (.error error, made) => (.error error, made)
              | (.ok _, made) => (ensureDirectory path).run made
          else if after.isDirectory path then (.ok (), after) else (.error error, after) := by
  rw [makeDirectoriesTo]
  rw [run_bind, run_tryCatch, run_bind]
  rcases (makeDirectory path).run files with ⟨error | _, after⟩
  · dsimp only
    by_cases hmissing : error = .noEntry path.toString
    · rw [if_pos hmissing, if_pos hmissing]
      rcases path.parent? with _ | parent
      · rfl
      · dsimp only
        rw [run_bind]
        rcases (makeDirectoriesTo depth parent).run after with ⟨error | _, made⟩
        · rfl
        · dsimp only
          rw [run_bind]
          rcases (ensureDirectory path).run made with ⟨_ | _, _⟩ <;> rfl
    · rw [if_neg hmissing, if_neg hmissing, run_bind, run_get]
      dsimp only
      by_cases hdirectory : after.isDirectory path = true
      · rw [if_pos hdirectory, if_pos hdirectory]
        rfl
      · rw [if_neg hdirectory, if_neg hdirectory]
        rfl
  · rfl

theorem alreadyExists_ne_noEntry (file : String) :
    SystemError.alreadyExists file ≠ .noEntry file := fun heq =>
  absurd (congrArg SystemError.code heq) (show (17 : Int) ≠ 2 by decide)

theorem notDirectory_ne_noEntry (file : String) :
    SystemError.notDirectory file ≠ .noEntry file := fun heq =>
  absurd (congrArg SystemError.code heq) (show (20 : Int) ≠ 2 by decide)

/-- Making directories does what can be done about the last one, if it is not missing the one
around it. -/
theorem makeDirectoriesTo_of_error {path : Path} {files : FileSystem} {error : SystemError}
    (h : (makeDirectory path).run files = (.error error, files))
    (hpresent : error ≠ .noEntry path.toString) (depth : Nat) :
    (makeDirectoriesTo depth path).run files =
      if files.isDirectory path then (.ok (), files) else (.error error, files) := by
  cases depth with
  | zero =>
      rw [makeDirectoriesTo, run_ensureDirectory, h]
  | succ depth =>
      rw [run_makeDirectoriesTo_succ, h]
      dsimp only
      rw [if_neg hpresent]

theorem isDirectory_eq {files : FileSystem} {path : Path} {node : Option Node}
    (h : files.find? path = node) : files.isDirectory path = (node == some .directory) := by
  unfold FileSystem.isDirectory
  rw [h]

/-- What stands at a path is not made again. -/
theorem makeDirectoriesTo_of_find? {path : Path} {files : FileSystem} {node : Node}
    (h : files.find? path = some node) (depth : Nat) :
    (makeDirectoriesTo depth path).run files =
      if files.isDirectory path then (.ok (), files)
      else (.error (.alreadyExists path.toString), files) := by
  obtain ⟨hplace, hnode⟩ := FileSystem.place_of_find? h
  refine makeDirectoriesTo_of_error ?_ (alreadyExists_ne_noEntry _) depth
  rw [run_makeDirectory, hplace]
  dsimp only
  rw [hnode]

/-- A directory that stands is not made again. -/
theorem makeDirectories_of_directory {path : Path} {files : FileSystem}
    (h : files.find? path = some .directory) : (makeDirectories path).run files = (.ok (), files) := by
  rw [makeDirectories, makeDirectoriesTo_of_find? h, isDirectory_eq h]
  rfl

/-! ## Settled directories -/

/-- A file stands on the way to the path, or at its end. -/
def Blocked (files : FileSystem) (path : Path) : Prop :=
  ∃ names, names <+: path.names ∧ ∃ content, files.find? (path.cut names) = some (.file content)

/-- Nothing can be done about the directory at a path: it stands, or a file is in the way. -/
def Settled (files : FileSystem) (path : Path) : Prop :=
  files.find? path = some .directory ∨ Blocked files path

theorem Settled.grows {before after : FileSystem} {path : Path} (h : Settled before path)
    (hgrows : FileSystem.Grows before after) : Settled after path := by
  rcases h with hstands | ⟨names, hnames, content, hfile⟩
  · exact .inl (hgrows.find?_directory hstands)
  · exact .inr ⟨names, hnames, hgrows.find?_file hfile⟩

theorem place_of_blocked {files : FileSystem} {path : Path} (h : Blocked files path) :
    (∃ content, files.find? path = some (.file content)) ∨
      files.place path = .error (.notDirectory path.toString) := by
  obtain ⟨names, ⟨more, hmore⟩, content, hfile⟩ := h
  cases more with
  | nil =>
      rw [List.append_nil] at hmore
      have hpath : path.cut names = path := by rw [Path.cut, hmore]
      rw [hpath] at hfile
      exact .inl ⟨content, hfile⟩
  | cons name rest =>
      obtain ⟨hplace, hnode⟩ := FileSystem.place_of_find? hfile
      right
      unfold FileSystem.place at hplace ⊢
      cases hwalk : files.walk (if path.slashes = 0 then files.here else []) names with
      | error error =>
          rw [show (path.cut names).names = names from rfl,
            show (path.cut names).slashes = path.slashes from rfl, hwalk] at hplace
          cases hplace
      | ok place =>
          rw [show (path.cut names).names = names from rfl,
            show (path.cut names).slashes = path.slashes from rfl, hwalk] at hplace
          rw [← Except.ok.inj hplace] at hnode
          rw [← hmore, FileSystem.walk_append, hwalk]
          show (files.walk place (name :: rest)).mapError _ = _
          rw [FileSystem.walk_cons, hnode]
          rfl

/-- **What is settled is not changed** by making directories. -/
theorem makeDirectories_of_settled {path : Path} {files : FileSystem} (h : Settled files path) :
    ((makeDirectories path).run files).2 = files := by
  have hif : ∀ (condition : Prop) [Decidable condition] (yes no : Except SystemError Unit),
      (if condition then (yes, files) else (no, files)).2 = files := by
    intro condition _ yes no
    split <;> rfl
  rcases h with hstands | hblocked
  · rw [makeDirectories_of_directory hstands]
  · rcases place_of_blocked hblocked with ⟨content, hfile⟩ | herror
    · rw [makeDirectories, makeDirectoriesTo_of_find? hfile]
      exact hif _ _ _
    · have hrun : (makeDirectory path).run files =
          (.error (.notDirectory path.toString), files) := by
        rw [run_makeDirectory, herror]
      rw [makeDirectories, makeDirectoriesTo_of_error hrun (notDirectory_ne_noEntry _)]
      exact hif _ _ _

/-- Outcomes of making directories: the directory stands, or a file is in the way. -/
def Settles (path : Path) (outcome : Except SystemError Unit × FileSystem) : Prop :=
  (outcome.1 = .ok () ∧ outcome.2.find? path = some .directory) ∨
    ((∃ error, outcome.1 = .error error) ∧ Blocked outcome.2 path)

theorem settles_ensureDirectory {path : Path} {files : FileSystem} {place : Place}
    (h : files.place path = .ok place) : Settles path ((ensureDirectory path).run files) := by
  have hfind := FileSystem.find?_of_place h
  rw [run_ensureDirectory, run_makeDirectory, h]
  dsimp only
  rcases hnode : files.node? place with _ | node
  · have hroot : place ≠ [] := by
      rintro rfl
      cases hnode
    refine .inl ⟨rfl, ?_⟩
    rw [FileSystem.find?_of_place ((FileSystem.Grows.put_directory hnode).place h),
      FileSystem.node?_put, if_pos ⟨hroot, rfl⟩]
  · rw [hnode] at hfind
    dsimp only
    rw [isDirectory_eq hfind]
    cases node with
    | directory => exact .inl ⟨rfl, hfind⟩
    | file content => exact .inr ⟨⟨_, rfl⟩, path.names, List.prefix_refl _, content, hfind⟩

theorem walk_eq_error {files : FileSystem} {start : Place} {names : List String}
    {error : String → SystemError} (h : files.walk start names = .error error) :
    (error = .noEntry ∧ names ≠ []) ∨ (error = .notDirectory ∧ ∃ front, front <+: names ∧
      ∃ place content, files.walk start front = .ok place ∧
        files.node? place = some (.file content)) := by
  induction names generalizing start with
  | nil => cases h
  | cons name rest ih =>
      rw [FileSystem.walk_cons] at h
      rcases hnode : files.node? start with _ | (_ | content)
      · rw [hnode] at h
        exact .inl ⟨(Except.error.inj h).symm, List.cons_ne_nil _ _⟩
      · rw [hnode] at h
        rcases ih h with ⟨herror, -⟩ | ⟨herror, front, hfront, place, content, hwalk, hfile⟩
        · exact .inl ⟨herror, List.cons_ne_nil _ _⟩
        · refine .inr ⟨herror, name :: front, List.cons_prefix_cons.mpr ⟨rfl, hfront⟩, place,
            content, ?_, hfile⟩
          rw [FileSystem.walk_cons, hnode]
          exact hwalk
      · rw [hnode] at h
        exact .inr ⟨(Except.error.inj h).symm, [], List.nil_prefix, start, content, rfl, hnode⟩

/-- The place of a path is known if the directory around it stands. -/
theorem place_of_parent {files : FileSystem} {path parent : Path} (h : path.parent? = some parent)
    (hstands : files.find? parent = some .directory) : ∃ place, files.place path = .ok place := by
  unfold Path.parent? at h
  split at h
  · cases h
  · next hnames =>
      obtain rfl := Option.some.inj h
      obtain ⟨hplace, hnode⟩ := FileSystem.place_of_find? hstands
      unfold FileSystem.place at hplace ⊢
      rw [← List.dropLast_concat_getLast hnames, FileSystem.walk_append]
      cases hwalk : files.walk (if path.slashes = 0 then files.here else []) path.names.dropLast with
      | error error =>
          rw [hwalk] at hplace
          cases hplace
      | ok place =>
          rw [hwalk] at hplace
          rw [← Except.ok.inj hplace] at hnode
          show ∃ other, (files.walk place [path.names.getLast hnames]).mapError _ = _
          rw [FileSystem.walk_cons, hnode]
          exact ⟨_, rfl⟩

theorem Blocked.of_parent {files : FileSystem} {path parent : Path} (h : path.parent? = some parent)
    (hblocked : Blocked files parent) : Blocked files path := by
  unfold Path.parent? at h
  split at h
  · cases h
  · obtain rfl := Option.some.inj h
    obtain ⟨names, hnames, hfile⟩ := hblocked
    exact ⟨names, hnames.trans (List.dropLast_prefix _), hfile⟩

theorem settles_makeDirectoriesTo {depth : Nat} {path : Path} (hdepth : path.names.length ≤ depth)
    (files : FileSystem) : Settles path ((makeDirectoriesTo depth path).run files) := by
  induction depth generalizing path files with
  | zero =>
      have hnames : path.names = [] := List.eq_nil_of_length_eq_zero (Nat.le_zero.mp hdepth)
      have hplace : ∃ place, files.place path = .ok place := by
        unfold FileSystem.place
        rw [hnames]
        exact ⟨_, rfl⟩
      obtain ⟨place, hplace⟩ := hplace
      exact settles_ensureDirectory hplace
  | succ depth ih =>
      rw [run_makeDirectoriesTo_succ]
      cases hplace : files.place path with
      | ok place =>
          have hensure := settles_ensureDirectory hplace
          rw [run_ensureDirectory, run_makeDirectory, hplace] at hensure
          rw [run_makeDirectory, hplace]
          dsimp only at hensure ⊢
          rcases hnode : files.node? place with _ | node
          · rw [hnode] at hensure
            exact hensure
          · rw [hnode] at hensure
            dsimp only at hensure ⊢
            rw [if_neg (alreadyExists_ne_noEntry _)]
            exact hensure
      | error error =>
          rw [run_makeDirectory, hplace]
          dsimp only
          have hlost : files.find? path = none := by
            unfold FileSystem.find?
            rw [hplace]
          unfold FileSystem.place at hplace
          cases hwalk : files.walk (if path.slashes = 0 then files.here else []) path.names with
          | ok place => rw [hwalk] at hplace; cases hplace
          | error reason =>
              rw [hwalk] at hplace
              obtain rfl := Except.error.inj hplace
              rcases walk_eq_error hwalk with
                ⟨rfl, hnames⟩ | ⟨rfl, front, hfront, place, content, hfront', hfile⟩
              · -- the directory around the path is made first
                rw [if_pos rfl]
                have hparent : path.parent? = some ⟨path.slashes, path.names.dropLast⟩ := by
                  unfold Path.parent?
                  rw [if_neg hnames]
                rw [hparent]
                dsimp only
                have hshort : path.names.dropLast.length ≤ depth := by
                  rw [List.length_dropLast]
                  omega
                have hmade : Settles ⟨path.slashes, path.names.dropLast⟩
                    ((makeDirectoriesTo depth ⟨path.slashes, path.names.dropLast⟩).run files) :=
                  ih hshort files
                rcases hrun : (makeDirectoriesTo depth ⟨path.slashes, path.names.dropLast⟩).run
                  files with ⟨failed | _, made⟩
                · rw [hrun] at hmade
                  rcases hmade with ⟨hok, -⟩ | ⟨-, hblocked⟩
                  · cases hok
                  · exact .inr ⟨⟨_, rfl⟩, hblocked.of_parent hparent⟩
                · rw [hrun] at hmade
                  rcases hmade with ⟨-, hstands⟩ | ⟨⟨_, herror⟩, -⟩
                  · obtain ⟨place, hplace⟩ := place_of_parent hparent hstands
                    exact settles_ensureDirectory hplace
                  · cases herror
              · rw [if_neg (notDirectory_ne_noEntry _), isDirectory_eq hlost, if_neg (by decide)]
                have hcut : files.place (path.cut front) = .ok place := by
                  unfold FileSystem.place
                  show (files.walk (if path.slashes = 0 then files.here else []) front).mapError _ = _
                  rw [hfront']
                  rfl
                refine .inr ⟨⟨_, rfl⟩, front, hfront, content, ?_⟩
                rw [FileSystem.find?_of_place hcut]
                exact hfile

/-- **Making directories settles them**, whether it succeeds or fails. -/
theorem settled_makeDirectories (path : Path) (files : FileSystem) :
    Settled ((makeDirectories path).run files).2 path := by
  rcases settles_makeDirectoriesTo (Nat.le_refl path.names.length) files with
    ⟨-, hstands⟩ | ⟨-, hblocked⟩
  · exact .inl hstands
  · exact .inr hblocked

end FileAction

end RustScript
