import RustScript.Manifest.Fragment
import RustScript.Rust.Grammar.Items
import RustScript.Source.Directive
import RustScript.Source.Fence
import RustScript.Source.Scan

/-!
# The analysis of a script

`analyze` collects everything that later steps need to know about a script: its manifest fragment,
its directives and description, and its facts. The facts come from the syntax tree, or from a scan
of the text where there is no tree. The fragment has to be sound for the analysis to succeed.

A script may begin with a line `#!…` that names its interpreter. `stripShebang` takes that line
away and leaves its line end, so that the lines behind it keep their numbers.
-/

set_option autoImplicit false

namespace RustScript.Source

open RustScript.Text

/-! ## The interpreter line -/

/-- The text begins with an interpreter line. `#![` opens an attribute of the program. -/
def hasShebang : List Char → Bool
  | '#' :: '!' :: '[' :: _ => false
  | '#' :: '!' :: _ => true
  | _ => false

/-- The text without its interpreter line, and that line. -/
def stripShebang (text : String) : String × Option String :=
  let cs := text.toList
  if hasShebang cs then
    (String.ofList (cs.dropWhile (· ≠ '\n')), some (String.ofList (cs.takeWhile (· ≠ '\n'))))
  else (text, none)

/-! ## The analysis -/

/-- How the facts of a script were found. -/
inductive Strategy
  | structural
  | textual
  deriving DecidableEq, Repr

/-- The name of a strategy. -/
def Strategy.name : Strategy → String
  | .structural => "structural"
  | .textual => "textual"

/-- What the analysis of a script found. -/
structure Metadata where
  /-- The script without its interpreter line. -/
  body : String
  /-- The directives, in the order in which their keys appear. -/
  directives : Entries String
  /-- The text of the description lines. -/
  description : Option String
  /-- The text of the first manifest block. -/
  embedded : Option String
  /-- The crates that the script needs from a registry. -/
  inferred : List String
  /-- The number of entry points. -/
  mainCount : Nat
  /-- How the facts were found. -/
  strategy : Strategy
  /-- What a person should know about the script. -/
  warnings : List String
  deriving Repr

/-- The directive that says what the script is for. -/
def Metadata.purpose (metadata : Metadata) : Option String := metadata.directives.get? "purpose"

/-- The script has an entry point. -/
def Metadata.isProgram (metadata : Metadata) : Bool := 1 ≤ metadata.mainCount

/-- What kind of script it is. -/
def Metadata.kind (metadata : Metadata) : String :=
  if metadata.isProgram then "program" else "snippet"

/-- The facts of a script and how they were found. With `structural` off there is no tree. -/
def findFacts (structural : Bool) (body : String) : Facts × Strategy :=
  match if structural then Rust.Item.parse? body else none with
  | some items => (Facts.ofItems items, .structural)
  | none => (Facts.scan body, .textual)

/-- The first line of a block that is not blank throughout. -/
def firstLine (block : String) : String :=
  String.ofList ((splitLines (strip block.toList)).headD [])

/-- The warning for a manifest block behind the first one. -/
def extraBlockWarning (block : String) : String :=
  s!"Ignoring additional {openFence} block (only the first is honored): {quoted (firstLine block)}"

/-- Analyzes the text of a script. -/
def analyze (structural : Bool) (text : String) : Except Manifest.Malformed Metadata := do
  let body := (stripShebang text).1
  let blocks := manifestBlocks body
  if let some block := blocks.head? then
    let _ ← Manifest.fragment block
  let (facts, strategy) := findFacts structural body
  return {
    body
    directives := directives body
    description := description body
    embedded := blocks.head?
    inferred := facts.externalCrates
    mainCount := facts.mainCount
    strategy
    warnings := blocks.tail.map extraBlockWarning }

end RustScript.Source
