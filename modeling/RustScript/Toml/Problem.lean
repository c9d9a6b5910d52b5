import RustScript.Number.Integer
import RustScript.Text.Quoted

/-!
# What can be wrong with a TOML document
-/

set_option autoImplicit false

namespace RustScript.Toml

/-- A key with its dotted parts. -/
abbrev Key := List String

/-- Why a document cannot be read although nothing is wrong with it. -/
inductive Excess
  /-- A decimal integer has more digits than integers are read with. -/
  | digits (count : Nat)
  /-- Values stand inside each other more deeply than calls may be nested. -/
  | depth
  deriving DecidableEq, Repr

/-- The complaint in words. -/
def Excess.message : Excess → String
  | .digits count => Integer.excessMessage (some count)
  | .depth => "maximum recursion depth exceeded"

/-- The cause for which a document is refused. -/
inductive Problem
  | invalidStatement
  | missingNewline
  | missingEquals
  | invalidKeyStart
  | invalidValue
  | invalidDate
  | declaredTwice (key : Key)
  | redefined (key : Key)
  | immutable (key : Key)
  | overwritten
  | duplicateInlineKey (key : String)
  | unclosedTableHeader
  | unclosedArrayHeader
  | unclosedArray
  | unclosedInlineTable
  | unterminatedString
  | missingQuote (quote : String)
  | illegalCharacter (c : Char)
  | invalidCharacter (c : Char)
  | unescapedBackslash
  | invalidHex
  | notScalar
  /-- There is too much of something, with which nothing is wrong. -/
  | excessive (excess : Excess)
  deriving DecidableEq, Repr

/-- A key as a parenthesized list of its quoted parts; a comma follows a single part. -/
def showKey (key : Key) : String :=
  match key with
  | [part] => s!"({Text.quoted part},)"
  | parts => "(" ++ String.intercalate ", " (parts.map Text.quoted) ++ ")"

/-- The cause in words. -/
def Problem.message : Problem → String
  | .invalidStatement => "Invalid statement"
  | .missingNewline => "Expected newline or end of document after a statement"
  | .missingEquals => "Expected '=' after a key in a key/value pair"
  | .invalidKeyStart => "Invalid initial character for a key part"
  | .invalidValue => "Invalid value"
  | .invalidDate => "Invalid date or datetime"
  | .declaredTwice key => s!"Cannot declare {showKey key} twice"
  | .redefined key => s!"Cannot redefine namespace {showKey key}"
  | .immutable key => s!"Cannot mutate immutable namespace {showKey key}"
  | .overwritten => "Cannot overwrite a value"
  | .duplicateInlineKey key => s!"Duplicate inline table key {Text.quoted key}"
  | .unclosedTableHeader => "Expected ']' at the end of a table declaration"
  | .unclosedArrayHeader => "Expected ']]' at the end of an array declaration"
  | .unclosedArray => "Unclosed array"
  | .unclosedInlineTable => "Unclosed inline table"
  | .unterminatedString => "Unterminated string"
  | .missingQuote quote => s!"Expected {Text.quoted quote}"
  | .illegalCharacter c => s!"Illegal character {Text.quoted (String.singleton c)}"
  | .invalidCharacter c => s!"Found invalid character {Text.quoted (String.singleton c)}"
  | .unescapedBackslash => "Unescaped '\\' in a string"
  | .invalidHex => "Invalid hex value"
  | .notScalar => "Escaped character is not a Unicode scalar value"
  | .excessive excess => excess.message

/-- A place in a document: a line and a column, both from 1, or its end. -/
inductive Position
  | at (line column : Nat)
  | finish
  deriving DecidableEq, Repr

/-- The place in words. -/
def Position.describe : Position → String
  | .at line column => s!"line {line}, column {column}"
  | .finish => "end of document"

/-- The place behind the characters `before`. -/
def Position.behind (before : List Char) : Position :=
  .at (before.count '\n' + 1) ((before.reverse.takeWhile (· ≠ '\n')).length + 1)

/-- Why and where a document is refused. -/
structure SyntaxError where
  problem : Problem
  position : Position
  deriving DecidableEq, Repr

/-- The error in words. -/
def SyntaxError.message (error : SyntaxError) : String :=
  s!"{error.problem.message} (at {error.position.describe})"

/-- What there is too much of, if the document is refused for that. The place is not told. -/
def SyntaxError.excess? (error : SyntaxError) : Option Excess :=
  match error.problem with
  | .excessive excess => some excess
  | _ => none

end RustScript.Toml
