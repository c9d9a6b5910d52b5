import RustScript.Toml.Reader

/-!
# Manifest fragments

The text between the fences of a script: a TOML document whose `dependencies`, if any, are a table.
-/

set_option autoImplicit false

namespace RustScript.Manifest

open RustScript.Toml

/-- Why a manifest text is refused. -/
inductive Malformed
  | notToml (error : SyntaxError)
  | dependenciesNotTable
  | missingPackageName
  /-- There is too much of something to go on reading, whatever the rest of the text is. -/
  | excessive (excess : Excess)
  deriving DecidableEq, Repr

/-- The reason in words. -/
def Malformed.message : Malformed → String
  | .notToml error => error.message
  | .dependenciesNotTable => "'dependencies' must be a table"
  | .missingPackageName => "missing [package] name"
  | .excessive excess => excess.message

/-- The reason is one that is foreseen, and is reported as such. -/
def Malformed.isForeseen : Malformed → Bool
  | .excessive _ => false
  | _ => true

/-- What an error of reading a document comes to. -/
def Malformed.ofToml (error : SyntaxError) : Malformed :=
  match error.excess? with
  | some excess => .excessive excess
  | none => .notToml error

/-- The document of a manifest text. -/
def document (text : String) : Except Malformed Table := (Toml.parse text).mapError .ofToml

/-- The dependencies that a document declares, which have to be a table. -/
def declaredDependencies (table : Table) : Except Malformed Table :=
  match table.get? "dependencies" with
  | none => .ok []
  | some (.table entries) => .ok entries
  | some _ => .error .dependenciesNotTable

/-- The document of a manifest fragment. -/
def fragment (text : String) : Except Malformed Table := do
  let table ← document text
  let _ ← declaredDependencies table
  return table

end RustScript.Manifest
