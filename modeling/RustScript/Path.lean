import RustScript.Text.Lines

/-!
# Paths

A path is a sequence of names, from the root or from the working directory. Empty names and `.`
mean nothing and are not kept; `..` is kept. The root is written with one slash or with exactly two.
-/

set_option autoImplicit false

namespace RustScript

/-- A path of a file or directory. -/
structure Path where
  /-- The slashes in front: none for a relative path, one or two for an absolute one. -/
  slashes : Nat
  /-- The names, outermost first. -/
  names : List String
  deriving DecidableEq, Repr

namespace Path

/-- The slashes that count of those in front of a text. More than two mean one. -/
def leadingSlashes : List Char → Nat
  | '/' :: '/' :: '/' :: _ => 1
  | '/' :: '/' :: _ => 2
  | '/' :: _ => 1
  | _ => 0

/-- A name that means something. -/
def isName (name : String) : Bool := !name.isEmpty && name ≠ "."

/-- The path that a text writes. -/
def ofString (text : String) : Path where
  slashes := leadingSlashes text.toList
  names := ((Text.cutAt '/' text.toList).map String.ofList).filter isName

/-- The path as text; the working directory itself is `.`. -/
def toString (path : Path) : String :=
  if path.slashes = 0 ∧ path.names = [] then "."
  else String.ofList (List.replicate path.slashes '/') ++ String.intercalate "/" path.names

instance : ToString Path := ⟨toString⟩

/-- The last name, empty for a root and for the working directory. -/
def name (path : Path) : String := path.names.getLastD ""

/-- A file name without its last extension. A dot in front or at the end begins none. -/
def stemOf (name : String) : String :=
  match name.toList.reverse.dropWhile (· ≠ '.') with
  | '.' :: before =>
      if before.isEmpty || name.toList.getLast? = some '.' then name
      else String.ofList before.reverse
  | _ => name

/-- The last name without its last extension. -/
def stem (path : Path) : String := stemOf path.name

/-- The path that `other` means when it is read at `base`. -/
def join (base other : Path) : Path :=
  if other.slashes = 0 then ⟨base.slashes, base.names ++ other.names⟩ else other

/-- The path that a text means when it is read at `base`. -/
def child (base : Path) (text : String) : Path := base.join (ofString text)

/-- The directory around a path; a root and the working directory have none. -/
def parent? (path : Path) : Option Path :=
  if path.names = [] then none else some ⟨path.slashes, path.names.dropLast⟩

/-- The name occurs in the path. -/
def mentions (path : Path) (name : String) : Bool := path.names.contains name

end Path

end RustScript
