import RustScript.Crate
import RustScript.Toml.Shown
import RustScript.Text.Sorted

/-!
# Manifests

The description of a project that is handed to cargo: its package, its binaries, its dependencies
and whatever else a script declares. `Manifest.toTable` is the document that is written, with its
parts in a fixed order and dependencies and further parts sorted by name.
-/

set_option autoImplicit false

namespace RustScript

open RustScript.Toml

/-- The package of a project. -/
structure Package where
  name : Value
  version : Value
  edition : Value

/-- A binary of a project and its main source file. -/
structure Binary where
  name : Value
  path : Value

/-- The description of a project. -/
structure Manifest where
  package : Package
  binaries : List Binary
  /-- The dependencies by name: a version or a table for each. -/
  dependencies : Table
  /-- Dependencies whose names are no texts that a document can hold. There is no way to write
  them. -/
  unnamed : List (Value × Value)
  /-- Further parts by name. -/
  extra : Table

/-- The package as a table. -/
def Package.toTable (package : Package) : Table :=
  [("name", package.name), ("version", package.version), ("edition", package.edition)]

/-- The binary as a table. -/
def Binary.toTable (binary : Binary) : Table := [("name", binary.name), ("path", binary.path)]

namespace Manifest

/-- The version of a package that does not say its own. -/
def defaultVersion : String := "0.0.1"

/-- The edition of a package that does not say its own. -/
def defaultEdition : String := "2021"

/-- The manifest of a package with one binary and no dependencies. -/
def basic (name path version edition : String) : Manifest where
  package := ⟨.string name, .string version, .string edition⟩
  binaries := [⟨.string name, .string path⟩]
  dependencies := []
  unnamed := []
  extra := []

/-- What the manifest says about the first dependency that is a spelling of the crate `name`. -/
def dependency? (manifest : Manifest) (name : String) : Option Value :=
  (manifest.dependencies.find? fun entry => Crate.equivalent entry.1 name).map (·.2)

/-- Every one of the crates can be looked up. Looking for one that the manifest does not mention
goes through all dependencies, and a name that is no text has no spelling to compare. -/
def canLookUp (manifest : Manifest) (names : List String) : Bool :=
  manifest.unnamed.all (fun entry => !isWhole entry.1) ||
    names.all fun name => (manifest.dependency? name).isSome

/-! ## Writing -/

/-- The entries of a table, sorted by name. -/
def sortedEntries (table : Table) : Table := table.mergeSort fun a b => decide (a.1 ≤ b.1)

/-- The parts of the document that say what is built. -/
def head (manifest : Manifest) : Table :=
  [("package", .table (manifest.package.toTable)),
    ("dependencies", .table (sortedEntries manifest.dependencies))]

/-- The parts of the document that keep the project apart from others and name its binaries. -/
def tail (manifest : Manifest) : Table :=
  [("workspace", .table []),
    ("bin", .array (manifest.binaries.map fun binary => .table (binary.toTable)))]

/-- The manifest as a document. A further part of the name of a fixed one comes in its place, but
gives way to those that come last. -/
def toTable (manifest : Manifest) : Table :=
  Entries.ofList (manifest.head ++ sortedEntries manifest.extra ++ manifest.tail)

/-- Why a manifest cannot be written. -/
inductive Unwritable
  /-- A dependency has a name that is no text. -/
  | badName (reason : String)
  /-- A number has too many digits to be written. -/
  | longNumber
  /-- There is a text of the manifest, but there are surrogates in it, so that it has no bytes. -/
  | noBytes (reason : String)
  deriving DecidableEq, Repr

/-- The reason in words. -/
def Unwritable.reason : Unwritable → String
  | .badName reason => reason
  | .longNumber => Integer.excessMessage none
  | .noBytes reason => reason

/-- What kind of value a name is that is no text. -/
def kindOfName : Value → String
  | .string _ => "str"
  | .broken _ => "str"
  | .boolean _ => "bool"
  | .integer _ => "int"
  | .float _ => "float"
  | .dateTime _ => "datetime"
  | .date _ => "date"
  | .time _ => "time"
  | .array _ => "list"
  | .table _ => "dict"

/-- Why a manifest with a dependency of such a name cannot be written: the name cannot be sorted
among names that are texts, nor written by itself. -/
def badName (manifest : Manifest) (name : Value) : Unwritable :=
  match manifest.dependencies.getLast? with
  | some _ => .badName s!"'<' not supported between instances of '{kindOfName name}' and 'str'"
  | none =>
      .badName <| s!"Invalid mapping key '{name.shown}' of type '{kindOfName name}'." ++
        " A string is required."

/-- The dependencies with surrogates in their names among all others, sorted by name. -/
def rawDependencies (manifest : Manifest) : List (RawText × Value) :=
  let proper := manifest.dependencies.map fun entry => (RawText.ofString entry.1, entry.2)
  let broken := manifest.unnamed.filterMap fun entry =>
    match entry.1 with
    | .broken name => some (name.val, entry.2)
    | _ => none
  (proper ++ broken).mergeSort fun a b =>
    !(b.1.map CodePoint.toNat).lex (a.1.map CodePoint.toNat) fun m n => decide (m < n)

/-- The text of the manifest with stand-ins for surrogates. -/
def textFilled (manifest : Manifest) (base : Nat) : String :=
  let dependencies := manifest.rawDependencies.map fun entry =>
    (entry.1.filled base, entry.2.filled base)
  let head := [("package", .table manifest.package.toTable), ("dependencies", .table dependencies)]
  Toml.write (filledEntries base
    (Entries.ofList (head ++ sortedEntries manifest.extra ++ manifest.tail)))

/-- The text of the manifest has no bytes. It is told by two forms of it with different stand-ins,
which differ where the surrogates are. -/
def noBytes (manifest : Manifest) : Unwritable :=
  .noBytes (RawText.complaint standIn (manifest.textFilled standIn) (manifest.textFilled 0x10000))

/-- The text of the manifest. -/
def write (manifest : Manifest) : Except Unwritable String :=
  match manifest.unnamed.find? fun entry => isWhole entry.1 with
  | some (name, _) => .error (manifest.badName name)
  | none =>
      let document := manifest.toTable
      if !(Value.table document).all isShort then .error .longNumber
      else if manifest.unnamed.isEmpty && (Value.table document).all isWhole then
        .ok (Toml.write document)
      else .error manifest.noBytes

/-! ## Sameness -/

/-- Two manifests mean the same. The order of entries in tables does not count, that of the
binaries does. -/
def same (a b : Manifest) : Bool :=
  a.package.name.same b.package.name && a.package.version.same b.package.version &&
    a.package.edition.same b.package.edition &&
    Value.same (.array (a.binaries.map fun binary => .table (binary.toTable)))
      (.array (b.binaries.map fun binary => .table (binary.toTable))) &&
    Value.same (.table a.dependencies) (.table b.dependencies) &&
    Value.same (.table a.extra) (.table b.extra)

end Manifest

end RustScript
