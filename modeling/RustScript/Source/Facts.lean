import RustScript.Rust.Syntax
import RustScript.Text.Sorted

/-!
# Facts about a source

What a script tells about itself whichever way it is read: how many entry points it has, the
crates that its imports start from, and the names that it declares. `Facts.externalCrates` are the
crates that must come from a registry.
-/

set_option autoImplicit false

namespace RustScript.Source

open RustScript.Rust

/-- The roots that the toolchain provides, and the keywords that can start a path. -/
def builtinCrates : List String :=
  ["std", "core", "alloc", "proc_macro", "test", "self", "super", "crate", "Self"]

/-- What a script declares and imports. The lists stand for sets. -/
structure Facts where
  /-- How many functions named `main` there are at the top level. -/
  mainCount : Nat
  /-- The first segments of imports, and the names of external crates. -/
  crateRoots : List String
  /-- The modules that the script declares. -/
  localModules : List String
  /-- The types that the script declares, and the names that imports bind. -/
  localNames : List String
  deriving Repr

/-- A crate root that is neither built in nor declared by the script. -/
def Facts.isExternal (facts : Facts) (name : String) : Bool :=
  facts.crateRoots.contains name && !builtinCrates.contains name &&
    !facts.localModules.contains name && !facts.localNames.contains name

/-- The crates that must come from a registry, in code point order. -/
def Facts.externalCrates (facts : Facts) : List String :=
  Text.sortedNames (facts.crateRoots.filter facts.isExternal)

/-! ## The facts of a syntax tree -/

/-- A character of an ASCII identifier, the first one apart. -/
def isAsciiWord (c : Char) : Bool := c.isAlphanum || c = '_'

/-- The ASCII identifier that a text begins with. -/
def asciiHead (text : String) : Option String :=
  match text.toList with
  | c :: rest =>
      if c.isAlpha || c = '_' then some (String.ofList (c :: rest.takeWhile isAsciiWord)) else none
  | [] => none

/-- The outermost segment of a path, as far as it is written in ASCII. A comment after a leading
`::` hides it. -/
def root? (path : UsePath) : Option String :=
  match path.lead with
  | .absoluteCommented => none
  | _ => asciiHead path.first.text

/-- The name that a path binds as a leaf. A path of one segment without `::` in front binds only
inside a group that has a path of its own, and only when it is a name. -/
def leafName (nested : Bool) (path : UsePath) : List String :=
  match path.rest.getLast?, path.first with
  | some last, _ => if last = "self" then [] else [last]
  | none, .name text =>
      if (nested || path.lead ≠ .relative) && text ≠ "self" then [text] else []
  | none, _ => []

mutual

/-- The outermost segments of a use tree. A group without a path has those of its members. -/
def treeRoots : UseTree → List String
  | .path path => (root? path).toList
  | .renamed path _ => (root? path).toList
  | .glob (some path) => (root? path).toList
  | .glob none => []
  | .group (some path) _ => (root? path).toList
  | .group none trees => treeRootsOf trees

/-- The outermost segments of several use trees. -/
def treeRootsOf : List UseTree → List String
  | [] => []
  | tree :: rest => treeRoots tree ++ treeRootsOf rest

end

mutual

/-- The names that a use tree binds; `nested` says that it stands in a group with a path. -/
def treeBindings (nested : Bool) : UseTree → List String
  | .path path => leafName nested path
  | .renamed _ name => if name = "_" then [] else [name]
  | .glob _ => []
  | .group path trees => treeBindingsOf (nested || path.isSome) trees

/-- The names that several use trees bind. -/
def treeBindingsOf (nested : Bool) : List UseTree → List String
  | [] => []
  | tree :: rest => treeBindings nested tree ++ treeBindingsOf nested rest

end

/-- The crate roots that an item names itself. -/
def itemRoots : Item → List String
  | .use tree => treeRoots tree
  | .externCrate name _ => [name]
  | _ => []

/-- The module that an item is. -/
def itemModules : Item → List String
  | .module name _ => [name]
  | _ => []

/-- The names that an item puts into scope itself. -/
def itemNames : Item → List String
  | .use tree => treeBindings false tree
  | .typeItem name _ => [name]
  | _ => []

/-- The item is an entry point. -/
def isMain : Item → Bool
  | .function name _ => name = "main"
  | _ => false

/-- The facts of a parsed script. Entry points count at the top level, everything else wherever it
stands. -/
def Facts.ofItems (items : List Item) : Facts where
  mainCount := items.countP isMain
  crateRoots := (Item.allOf items).flatMap itemRoots
  localModules := (Item.allOf items).flatMap itemModules
  localNames := (Item.allOf items).flatMap itemNames

end RustScript.Source
