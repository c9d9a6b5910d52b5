import RustScript.Files.Error
import RustScript.Path
import RustScript.Text.Sorted

/-!
# A tree of files

The files and directories that a program sees, and its working directory. A place is the list of
the names that lead to it from the root; the root is always a directory. `walk` finds the place
that a path means: every name but the last must lead to a directory. `changes` says what has to be done
to get from one tree to another: things are removed from the inside out, before others are made from
the outside in.
-/

set_option autoImplicit false

namespace RustScript

/-- What stands at a place. -/
inductive Node
  | directory
  | file (content : List UInt8)
  deriving DecidableEq, Repr

/-- The names that lead to a place from the root. -/
abbrev Place := List String

/-- The files and directories of a machine. -/
structure FileSystem where
  /-- The working directory. -/
  here : Place
  /-- What stands where. -/
  nodes : List (Place × Node)
  deriving Repr

namespace FileSystem

/-- What stands at a place. -/
def node? (files : FileSystem) (place : Place) : Option Node :=
  if place = [] then some .directory else (files.nodes.find? (·.1 == place)).map (·.2)

/-- The place that the names lead to from `start`; the error says what is in the way. -/
def walk (files : FileSystem) (start : Place) : List String → Except (String → SystemError) Place
  | [] => .ok start
  | name :: rest =>
      match files.node? start with
      | none => .error .noEntry
      | some (.file _) => .error .notDirectory
      | some .directory =>
          if name = ".." then walk files start.dropLast rest
          else if name = "." then walk files start rest
          else walk files (start ++ [name]) rest

/-- The place that a path means. Something need not stand there. -/
def place (files : FileSystem) (path : Path) : Except SystemError Place :=
  (files.walk (if path.slashes = 0 then files.here else []) path.names).mapError (· path.toString)

/-- What a path leads to. -/
def find? (files : FileSystem) (path : Path) : Option Node :=
  match files.place path with
  | .ok place => files.node? place
  | .error _ => none

/-- The path leads to something. -/
def «exists» (files : FileSystem) (path : Path) : Bool := (files.find? path).isSome

/-- The path leads to a directory. -/
def isDirectory (files : FileSystem) (path : Path) : Bool := files.find? path == some .directory

/-- What a path text leads to, when a slash or `.` at its end is taken to ask for a directory. -/
def lookUp? (files : FileSystem) (text : String) : Option Node :=
  let names := (Text.cutAt '/' text.toList).map fun name =>
    if name.isEmpty then "." else String.ofList name
  if text.isEmpty then none
  else match files.walk (if Path.leadingSlashes text.toList = 0 then files.here else []) names with
    | .ok place => files.node? place
    | .error _ => none

/-- The names of what a directory holds, sorted. -/
def children (files : FileSystem) (place : Place) : List String :=
  let isChild (other : Place) : Bool := other.length = place.length + 1 && place.isPrefixOf other
  Text.sortedNames (files.nodes.filterMap fun entry =>
    if isChild entry.1 then entry.1.getLast? else none)

/-- The names of what the directory at a path holds, sorted. -/
def entries (files : FileSystem) (path : Path) : List String :=
  match files.place path with
  | .ok place => files.children place
  | .error _ => []

/-- The tree with something standing at a place. -/
def put (files : FileSystem) (place : Place) (node : Node) : FileSystem :=
  { files with nodes := (place, node) :: files.nodes.filter (·.1 != place) }

/-- The tree without what stands at places that `gone` picks out. -/
def dropWhere (files : FileSystem) (gone : Place → Bool) : FileSystem :=
  { files with nodes := files.nodes.filter fun entry => !gone entry.1 }

theorem node?_put (files : FileSystem) (place other : Place) (node : Node) :
    (files.put place node).node? other =
      if other ≠ [] ∧ place = other then some node else files.node? other := by
  by_cases hroot : other = []
  · simp [node?, hroot]
  · by_cases h : place = other
    · simp [node?, put, hroot, h]
    · have hfind : (files.nodes.filter (·.1 != place)).find? (·.1 == other) =
          files.nodes.find? (·.1 == other) := by
        rw [List.find?_filter]
        congr 1
        funext entry
        by_cases he : entry.1 = other
        · have : entry.1 ≠ place := fun hp => h (hp.symm.trans he)
          simp [he, Ne.symm h]
        · simp [he]
      simp [node?, put, hroot, h, hfind]

theorem node?_dropWhere (files : FileSystem) (gone : Place → Bool) (place : Place) :
    (files.dropWhere gone).node? place =
      if place ≠ [] ∧ gone place = true then none else files.node? place := by
  by_cases hroot : place = []
  · simp [node?, hroot]
  · have hfind : (files.nodes.filter fun entry => !gone entry.1).find? (·.1 == place) =
        if gone place = true then none else files.nodes.find? (·.1 == place) := by
      rw [List.find?_filter]
      by_cases h : gone place = true
      · rw [if_pos h, List.find?_eq_none]
        intro entry _
        by_cases he : entry.1 = place <;> simp [he, h]
      · rw [if_neg h]
        congr 1
        funext entry
        by_cases he : entry.1 = place <;> simp [he, h]
    by_cases h : gone place = true <;> simp [node?, dropWhere, hroot, hfind, h]

end FileSystem

/-! ## Changes -/

/-- A step from one tree of files to another. -/
inductive Change
  | removeFile (place : Place)
  | removeDirectory (place : Place)
  | makeDirectory (place : Place)
  | writeFile (place : Place) (content : List UInt8)
  deriving DecidableEq, Repr

namespace FileSystem

/-- What stood somewhere before and stands there no more. -/
def removals (before after : FileSystem) : List Change :=
  let gone := before.nodes.filter fun (place, node) => after.node? place ≠ some node
  (gone.mergeSort fun a b => decide (b.1.length ≤ a.1.length)).map fun (place, node) =>
    match node with
    | .directory => .removeDirectory place
    | .file _ => .removeFile place

/-- What stands somewhere now and did not stand there before. -/
def additions (before after : FileSystem) : List Change :=
  let fresh := after.nodes.filter fun (place, node) => before.node? place ≠ some node
  (fresh.mergeSort fun a b => decide (a.1.length ≤ b.1.length)).map fun (place, node) =>
    match node with
    | .directory => .makeDirectory place
    | .file content => .writeFile place content

/-- The steps from one tree to another. -/
def changes (before after : FileSystem) : List Change :=
  removals before after ++ additions before after

end FileSystem

end RustScript
