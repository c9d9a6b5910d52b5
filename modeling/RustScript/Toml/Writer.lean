import RustScript.Number.Shortest
import RustScript.Toml.Lexeme

/-!
# Writing TOML

`Toml.write` writes a table as a document. Values that are neither tables nor arrays of tables come
first, one to a line; tables follow under headers. An array of tables is written inline when each
of its tables fits on a line.
-/

set_option autoImplicit false

namespace RustScript.Toml

/-! ## Strings and keys -/

/-- The escapes of one letter that strings are written with. -/
def writtenEscapes : List (Char × List Char) :=
  [('\x08', ['\\', 'b']), ('\n', ['\\', 'n']), ('\x0c', ['\\', 'f']), ('\r', ['\\', 'r']),
    ('"', ['\\', '"']), ('\\', ['\\', '\\'])]

/-- A character inside quotes. -/
def writeChar (c : Char) : List Char :=
  match writtenEscapes.find? (·.1 = c) with
  | some (_, image) => image
  | none => if isControl c then '\\' :: 'u' :: Text.hexDigits 4 c.toNat else [c]

/-- A string in quotes. -/
def writeString (text : String) : String :=
  String.ofList ('"' :: text.toList.flatMap writeChar ++ ['"'])

/-- A part of a key, in quotes where it needs them. -/
def writeKey (part : String) : String :=
  if !part.isEmpty && part.toList.all isBareKey then part else writeString part

/-! ## Dates and times -/

/-- A number with zeros in front up to a width. -/
def padded (width n : Nat) : String :=
  let digits := Nat.toDigits 10 n
  String.ofList (List.replicate (width - digits.length) '0' ++ digits)

/-- A date, year first. -/
def Date.write (date : Date) : String :=
  s!"{padded 4 date.year}-{padded 2 date.month}-{padded 2 date.day}"

/-- A time; the fraction has six digits and is left out when it is zero. -/
def Time.write (time : Time) : String :=
  let clock := s!"{padded 2 time.hour}:{padded 2 time.minute}:{padded 2 time.second}"
  if time.microsecond = 0 then clock else s!"{clock}.{padded 6 time.microsecond}"

/-- An offset from universal time. -/
def writeOffset (minutes : Int) : String :=
  let sign := if minutes < 0 then "-" else "+"
  s!"{sign}{padded 2 (minutes.natAbs / 60)}:{padded 2 (minutes.natAbs % 60)}"

/-- A date and a time with `separator` between them. -/
def DateTime.write (separator : String) (value : DateTime) : String :=
  value.date.write ++ separator ++ value.time.write ++ (value.offset.map writeOffset).getD ""

/-! ## Inline values -/

/-- The stand-in for the first surrogate where a text needs one. -/
def standIn : Nat := 0x10f800

/-- The blanks before an element nested `level` arrays deep. -/
def indent (level : Nat) : String := String.ofList (List.replicate (4 * level) ' ')

mutual

/-- A value behind an equals sign or in an array; `level` counts the arrays around it. -/
def writeInline (level : Nat) : Value → String
  | .string text => writeString text
  | .broken text => writeString (text.val.filled standIn)
  | .boolean value => if value then "true" else "false"
  | .integer value => toString value
  | .float value => value.shortest
  | .dateTime value => value.write " "
  | .date value => value.write
  | .time value => value.write
  | .array [] => "[]"
  | .array (first :: rest) =>
      "[\n" ++ writeInlineElements (level + 1) (first :: rest) ++ indent level ++ "]"
  | .table [] => "\x7b\x7d"
  | .table (first :: rest) =>
      "\x7b " ++ writeInlineEntry first ++ writeInlineEntries rest ++ " \x7d"

/-- The elements of an array, each on its own line with a comma. -/
def writeInlineElements (level : Nat) : List Value → String
  | [] => ""
  | element :: rest =>
      indent level ++ writeInline level element ++ ",\n" ++ writeInlineElements level rest

/-- An entry of an inline table. -/
def writeInlineEntry : String × Value → String
  | (key, value) => writeKey key ++ " = " ++ writeInline 0 value

/-- The further entries of an inline table, each after a comma. -/
def writeInlineEntries : List (String × Value) → String
  | [] => ""
  | entry :: rest => ", " ++ writeInlineEntry entry ++ writeInlineEntries rest

end

/-- The longest line of an array of tables that are written inline, with indentation and comma. -/
def lineLimit : Nat := 100

/-- The table fits on a line of an array. -/
def fitsOnLine (value : Value) : Bool :=
  let line := indent 1 ++ writeInline 0 value ++ ","
  line.length ≤ lineLimit && !line.toList.contains '\n'

/-! ## Documents -/

/-- The value is a table. -/
def isTable : Value → Bool
  | .table _ => true
  | _ => false

/-- An array of tables that is written under headers of its own, because a table in it does not
fit on a line. -/
def isHeaderArray : Value → Bool
  | .array elements =>
      !elements.isEmpty && elements.all isTable && !elements.all fitsOnLine
  | _ => false

/-- The entry stands on a line of its own, under the header of its table. -/
def isLineEntry (entry : String × Value) : Bool := !isTable entry.2 && !isHeaderArray entry.2

/-- The header of a table. -/
def header (isElement : Bool) (name : String) : String :=
  if isElement then s!"[[{name}]]\n" else s!"[{name}]\n"

/-- The name of a table inside the table `name`. -/
def nestedName (name key : String) : String :=
  if name.isEmpty then writeKey key else s!"{name}.{writeKey key}"

/-- The lines of the entries of a table that stand on lines of their own. -/
def entryLines (entries : List (String × Value)) : String :=
  String.join ((entries.filter isLineEntry).map fun (key, value) =>
    s!"{writeKey key} = {writeInline 0 value}\n")

/-- The header of a table and its entries on lines: the header is left out for the whole document,
and for a table that holds nothing but tables. -/
def ownLines (isElement : Bool) (name : String) (entries : List (String × Value)) : String :=
  -- the header of a table of tables goes without saying
  let named := isElement ||
    (!name.isEmpty && (entries.any isLineEntry || entries.all isLineEntry))
  (if named then header isElement name else "") ++ entryLines entries

/-- Blocks of lines with an empty line between them. -/
def joinBlocks (blocks : List String) : String :=
  String.intercalate "\n" (blocks.filter fun block => !block.isEmpty)

mutual

/-- The tables that an entry `name` holds: one for a table, one for each element of an array that is
written under headers. -/
def writeTables (name : String) : Value → List String
  | .table entries => [joinBlocks (ownLines false name entries :: writeNested name entries)]
  | .array elements =>
      if isHeaderArray (.array elements) then writeElements name elements else []
  | _ => []

/-- The tables among the entries of the table `name`, in order. -/
def writeNested (name : String) : List (String × Value) → List String
  | [] => []
  | (key, value) :: rest => writeTables (nestedName name key) value ++ writeNested name rest

/-- The tables of an array, each under a header of its own. -/
def writeElements (name : String) : List Value → List String
  | [] => []
  | element :: rest => writeElement name element :: writeElements name rest

/-- A table of an array under its header. -/
def writeElement (name : String) : Value → String
  | .table entries => joinBlocks (ownLines true name entries :: writeNested name entries)
  | _ => ""

end

/-- A table as a document. -/
def write (table : Table) : String := joinBlocks (ownLines false "" table :: writeNested "" table)

end RustScript.Toml
