import RustScript.Manifest.Basic
import RustScript.Manifest.Fragment

/-!
# Reading manifests

`Manifest.read` reads the document of a project. The package must have a name; binaries without a
name or a path are passed over. Dependencies may also be given as a list of pairs: of arrays of two
values, of texts of two characters, or of tables of two entries, whose keys make up the pair.
-/

set_option autoImplicit false

namespace RustScript.Manifest

open RustScript.Toml

/-- Why a document is no manifest. -/
inductive ReadError
  | malformed (cause : Malformed)
  /-- The value of this part cannot be gone through. -/
  | notList (part : String)
  /-- An element of the dependencies cannot be a pair. -/
  | notPair
  /-- An element of the dependencies has a wrong number of parts. -/
  | wrongLength (length : Nat)
  /-- An array or a table stands for the name of a dependency. -/
  | badName
  deriving DecidableEq, Repr

/-- The parts of a value that can be gone through: the elements of an array, the characters of a
text, the keys of a table. -/
def parts? : Value → Option (List Value)
  | .array elements => some elements
  | .string text => some (text.toList.map fun c => .string (String.singleton c))
  | .table entries => some (entries.map fun entry => .string entry.1)
  | _ => none

/-- The name and the value that an element of a list of dependencies gives. -/
def pairOf (element : Value) : Except ReadError (Value × Value) :=
  match parts? element with
  | none => .error .notPair
  | some [.array _, _] => .error .badName
  | some [.table _, _] => .error .badName
  | some [name, value] => .ok (name, value)
  | some parts => .error (.wrongLength parts.length)

/-- Adds a dependency to those with a text for a name, or to the others. -/
def addPair (found : Table × List (Value × Value)) (pair : Value × Value) :
    Table × List (Value × Value) :=
  match pair with
  | (.string name, value) => (found.1.put name value, found.2)
  | (name, value) => (found.1, found.2.filter (fun other => !other.1.same name) ++ [(name, value)])

/-- The dependencies of a document, apart by whether their names are texts. -/
def readDependencies (table : Table) : Except ReadError (Table × List (Value × Value)) :=
  match table.get? "dependencies" with
  | none => .ok ([], [])
  | some (.table entries) => .ok (entries, [])
  | some value =>
      match parts? value with
      | none => .error (.notList "dependencies")
      | some elements => do
          let pairs ← elements.mapM pairOf
          return pairs.foldl addPair ([], [])

/-- The binary that an element of the list of binaries gives. -/
def binaryOf? (element : Value) : Option Binary := do
  let entries ← element.table?
  return ⟨← entries.get? "name", ← entries.get? "path"⟩

/-- The binaries of a document. -/
def readBinaries (table : Table) : Except ReadError (List Binary) :=
  match table.get? "bin" with
  | none => .ok []
  | some value =>
      match parts? value with
      | none => .error (.notList "bin")
      | some elements => .ok (elements.filterMap binaryOf?)

/-- The package of a document. -/
def readPackage (table : Table) : Except ReadError Package :=
  match table.get? "package" >>= Value.table? with
  | none => .error (.malformed .missingPackageName)
  | some entries =>
      match entries.get? "name" with
      | none => .error (.malformed .missingPackageName)
      | some name => .ok {
          name
          version := (entries.get? "version").getD (.string defaultVersion)
          edition := (entries.get? "edition").getD (.string defaultEdition) }

/-- The names of the parts that a manifest has a field of its own for. -/
def ownParts : List String := ["package", "dependencies", "bin", "workspace"]

/-- The parts of a document that a manifest has no field of its own for. -/
def extraParts (table : Table) : Table := table.filter fun entry => !ownParts.contains entry.1

/-- The manifest that a document describes. -/
def ofTable (table : Table) : Except ReadError Manifest := do
  let package ← readPackage table
  let binaries ← readBinaries table
  let (dependencies, unnamed) ← readDependencies table
  return { package, binaries, dependencies, unnamed, extra := extraParts table }

/-- The manifest that a text describes. -/
def read (text : String) : Except ReadError Manifest :=
  match document text with
  | .error cause => .error (.malformed cause)
  | .ok table => ofTable table

end RustScript.Manifest
