import RustScript.Manifest.Basic
import RustScript.Manifest.Reader
import RustScript.Registry.Basic
import RustScript.Source.Analysis

/-!
# The manifest of a script

What a script declares in its manifest fragment is joined with what it needs besides. A declared
dependency stands; the registry is asked only for needed crates that no declared dependency is a
spelling of, once for each crate, by the first of its spellings. All of them are asked for before
the first failure counts.
-/

set_option autoImplicit false

namespace RustScript.Manifest

open RustScript.Toml RustScript.Registry RustScript.Source

/-! ## Declared parts -/

/-- The warning for a dependency that is declared under a second spelling. -/
def duplicateWarning (name owner : String) : String :=
  s!"Embedded dependency '{name}' duplicates '{owner}'; keeping '{owner}'"

/-- The entry of a table that is a spelling of the crate `name`. -/
def spelling? (table : Table) (name : String) : Option String :=
  (table.find? fun entry => Crate.equivalent entry.1 name).map (·.1)

/-- Of dependencies with equivalent names the first ones, and warnings for the others. -/
def keepFirst (declared : Table) : Table × List String :=
  declared.foldl (fun (kept, warnings) (name, value) =>
    match spelling? kept name with
    | some owner => (kept, warnings ++ [duplicateWarning name owner])
    | none => (kept ++ [(name, value)], warnings)) ([], [])

/-- The package with the version and the edition that a fragment gives. -/
def Package.withDeclared (package : Package) (declared : Option Value) : Package :=
  match declared >>= Value.table? with
  | none => package
  | some entries =>
      { package with
        version := .string ((entries.get? "version").getD package.version).shown
        edition := .string ((entries.get? "edition").getD package.edition).shown }

/-- The version and the edition that the fragment gives can be shown. -/
def showsPackage (embedded : Option String) : Bool :=
  match embedded.map fragment with
  | some (.ok table) =>
      match table.get? "package" >>= Value.table? with
      | none => true
      | some entries => ["version", "edition"].all fun key =>
          ((entries.get? key).map (Value.all isShort)).getD true
  | _ => true

/-- The manifest of what a fragment declares, and the warnings about it. -/
def declare (manifest : Manifest) (embedded : Option String) :
    Except Malformed (Manifest × List String) :=
  match embedded with
  | none => .ok (manifest, [])
  | some text => do
      let table ← fragment text
      let (dependencies, warnings) := keepFirst (← declaredDependencies table)
      return ({ manifest with
        package := Package.withDeclared manifest.package (table.get? "package")
        dependencies
        extra := extraParts table }, warnings)

/-! ## Needed crates -/

/-- The crates that are needed and not declared, one spelling of each, in order. -/
def missing (inferred : List String) (declared : Table) : List String :=
  (Text.sortedNames inferred).foldl (fun names name =>
    if (spelling? declared name).isSome || names.any (Crate.equivalent name) then names
    else names ++ [name]) []

/-- Why there is no manifest of a script. -/
inductive MergeError
  | malformed (cause : Malformed)
  /-- The version or the edition of the package holds a number of too many digits to be shown. -/
  | longNumber
  | lookup (error : LookupError)
  /-- The registry's name for a crate is a list or an object. -/
  | badName (kind : String)
  deriving DecidableEq, Repr

/-- The error in words. -/
def MergeError.message : MergeError → String
  | .malformed cause =>
      if cause.isForeseen then s!"Malformed embedded manifest: {cause.message}" else cause.message
  | .longNumber => Integer.excessMessage none
  | .lookup error => error.message
  | .badName kind => s!"unhashable type: '{kind}'"

/-- The name of a release as the name of a dependency, which may not be a list or an object. -/
def dependencyName : Json → Except MergeError Value
  | .string text => .ok (.ofRaw text)
  | .integer value => .ok (.integer value)
  | .float value => .ok (.float value)
  | .bool value => .ok (.boolean value)
  | .null => .ok (.string "")
  | .array _ => .error (.badName "list")
  | .object _ => .error (.badName "dict")

/-- A name and a version of a dependency, or why there is none. -/
abbrev Answer := Except LookupError (Value × Value)

/-- The dependency that the answer to a look-up gives. An answer that cannot count as one for the
name that was asked for ends all look-ups. -/
def readAnswer : Except LookupError Release → Except MergeError Answer
  | .error error => if error.isAnswer then .ok (.error error) else .error (.lookup error)
  | .ok release => do return .ok (← dependencyName release.name, .ofRaw release.version)

/-- Asks for crates one after the other. -/
def lookUpAll {σ : Type} (resolver : Resolver σ) :
    List String → Act σ (Except MergeError (List Answer))
  | [] => pure (.ok [])
  | name :: rest => do
      match readAnswer (← resolver.resolve name) with
      | .error error => return .error error
      | .ok answer => return (← lookUpAll resolver rest).map (answer :: ·)

/-- The dependencies that answers give; the first failure among them counts. -/
def collect (answers : List Answer) : Except MergeError (List (Value × Value)) :=
  (answers.mapM id).mapError .lookup

/-- The manifest with further dependencies. -/
def addDependencies (manifest : Manifest) (found : List (Value × Value)) : Manifest :=
  let (dependencies, unnamed) := found.foldl addPair (manifest.dependencies, manifest.unnamed)
  { manifest with dependencies, unnamed }

/-- The manifest of a script under the name `stem` whose source is at `binary`. The warnings about
its fragment are added to what is known about the script, also when there is no manifest in the
end. -/
def merge {σ : Type} (resolver : Resolver σ) (version edition : String) (metadata : Metadata)
    (stem : String) (binary : Path) : Act σ (Metadata × Except MergeError Manifest) := do
  match declare (basic stem binary.toString version edition) metadata.embedded with
  | .error cause => return (metadata, .error (.malformed cause))
  | .ok (manifest, warnings) =>
      -- the warnings stay, whatever the registry says
      let metadata := { metadata with warnings := metadata.warnings ++ warnings }
      if !showsPackage metadata.embedded then return (metadata, .error .longNumber)
      let answers ← lookUpAll resolver (missing metadata.inferred manifest.dependencies)
      return (metadata, (answers >>= collect).map (addDependencies manifest))

end RustScript.Manifest
