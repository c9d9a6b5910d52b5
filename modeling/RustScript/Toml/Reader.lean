import RustScript.Toml.Document
import RustScript.Toml.Lexeme

/-!
# Reading TOML

`Toml.parse` reads a document into a table, or says what is wrong with it and where. A carriage
return before a line feed is dropped first; positions refer to the text without it.
-/

set_option autoImplicit false

namespace RustScript.Toml

/-! ## Values -/

/-- Turns a problem of building into one at a place of the text. -/
def located {α : Type} (rest : List Char) : Except Problem α → Except Failure α
  | .ok value => .ok value
  | .error problem => refuse problem rest

/-- A value that holds no other values. -/
def scalar (cs : List Char) : Except Failure (Value × List Char) :=
  match cs with
  | 't' :: 'r' :: 'u' :: 'e' :: rest => .ok (.boolean true, rest)
  | 'f' :: 'a' :: 'l' :: 's' :: 'e' :: rest => .ok (.boolean false, rest)
  | _ =>
      match anyString? cs with
      | some text => (fun (text, rest) => (Value.string text, rest)) <$> text
      | none =>
          match moment? cs with
          | some found => found
          | none =>
              match number? cs with
              | some found => found
              | none => refuse .invalidValue cs

/-- Enters a value into an inline table of which `frozen` are the closed keys. -/
def enterInline (frozen : List Key) (key : Key) (value : Value) (table : Table) :
    Except Problem Table := do
  if isFrozen frozen key then throw (.immutable key)
  let name := key.getLastD ""
  updateNest false (addEntry (.duplicateInlineKey name) name value) key.dropLast table

/-- The calls that fit inside each other while a value is read: as many as may be nested, less those in
which the program is when it comes to the value. -/
def callRoom : Nat := 970

/-- The room inside of a value that takes so many calls for each value in it. -/
def roomInside (calls room : Nat) (cs : List Char) : Except Failure Nat :=
  if room < calls then refuse (.excessive .depth) cs else .ok (room - calls)

/-- A key, an equals sign and the blanks after it. -/
def keyAndEquals (cs : List Char) : Except Failure (Key × List Char) := do
  let (parts, rest) ← key cs
  match rest with
  | '=' :: after => return (parts, skipBlanks after)
  | _ => refuse .missingEquals rest

mutual

/-- A value at the front; `fuel` bounds the values read, and `room` how deep they stand inside each
other. -/
def value : Nat → Nat → List Char → Except Failure (Value × List Char)
  | 0, _, cs => refuse .invalidValue cs
  | fuel + 1, room, cs =>
      match cs with
      | '[' :: rest => do
          let room ← roomInside 2 room cs
          let content ← skipFiller (rest.length + 1) rest
          match content with
          | ']' :: left => return (.array [], left)
          | _ => do
              let (elements, left) ← elements fuel room content
              return (.array elements, left)
      | '\x7b' :: rest => do
          let room ← roomInside 3 room cs
          match skipBlanks rest with
          | '\x7d' :: left => return (.table [], left)
          | content => do
              let (table, left) ← inlineEntries fuel room [] [] content
              return (.table table, left)
      | _ => scalar cs

/-- The elements of an array that is not empty, and its closing bracket. -/
def elements : Nat → Nat → List Char → Except Failure (List Value × List Char)
  | 0, _, cs => refuse .unclosedArray cs
  | fuel + 1, room, cs => do
      let (first, afterFirst) ← value fuel room cs
      let rest ← skipFiller (afterFirst.length + 1) afterFirst
      match rest with
      | ']' :: left => return ([first], left)
      | ',' :: more => do
          let content ← skipFiller (more.length + 1) more
          match content with
          | ']' :: left => return ([first], left)
          | _ => do
              let (others, left) ← elements fuel room content
              return (first :: others, left)
      | _ => refuse .unclosedArray rest

/-- The entries of an inline table that is not empty, after the entries `table`, and its closing
brace. -/
def inlineEntries : Nat → Nat → List Key → Table → List Char → Except Failure (Table × List Char)
  | 0, _, _, _, cs => refuse .unclosedInlineTable cs
  | fuel + 1, room, frozen, table, cs => do
      let (parts, content) ← keyAndEquals cs
      let (entry, afterEntry) ← value fuel room content
      -- a key that is in the way is reported behind the value
      let table ← located afterEntry (enterInline frozen parts entry table)
      match skipBlanks afterEntry with
      | '\x7d' :: left => return (table, left)
      | ',' :: more =>
          let frozen := if isComposite entry then parts :: frozen else frozen
          inlineEntries fuel room frozen table (skipBlanks more)
      | rest => refuse .unclosedInlineTable rest

end

/-- A value at the front. -/
def anyValue (cs : List Char) : Except Failure (Value × List Char) :=
  value (2 * cs.length + 2) callRoom cs

/-! ## Statements -/

/-- A header `[key]` or `[[key]]`; its first bracket has been read. -/
def headerStatement (document : Document) (cs : List Char) :
    Except Failure (Document × List Char) := do
  let document := document.close
  match cs with
  | '[' :: rest =>
      let (parts, after) ← key (skipBlanks rest)
      let document ← located after (document.openElement parts)
      match after with
      | ']' :: ']' :: left => return (document, left)
      | _ => refuse .unclosedArrayHeader after
  | _ =>
      let (parts, after) ← key (skipBlanks cs)
      let document ← located after (document.openTable parts)
      match after with
      | ']' :: left => return (document, left)
      | _ => refuse .unclosedTableHeader after

/-- An entry `key = value`. -/
def entryStatement (document : Document) (cs : List Char) :
    Except Failure (Document × List Char) := do
  let (parts, content) ← keyAndEquals cs
  let (entry, rest) ← anyValue content
  let document ← located rest (document.enter parts entry)
  return (document, rest)

/-- The statements of a document after the ones in `document`; `fuel` bounds their number. -/
def statements : Nat → Document → List Char → Except Failure Document
  | 0, document, _ => .ok document
  | fuel + 1, document, cs =>
      match skipBlanks cs with
      | [] => .ok document
      | '\n' :: rest => statements fuel document rest
      | c :: rest => do
          let (document, after) ←
            if isBareKey c || c = '"' || c = '\'' then entryStatement document (c :: rest)
            else if c = '[' then headerStatement document rest
            else if c = '#' then Except.ok (document, c :: rest)
            else refuse .invalidStatement (c :: rest)
          let ending ← skipComment (skipBlanks after)
          match ending with
          | [] => return document
          | '\n' :: left => statements fuel document left
          | _ => refuse .missingNewline ending

/-! ## Documents -/

/-- The text with the carriage returns before line feeds dropped. -/
def dropReturns : List Char → List Char
  | [] => []
  | '\r' :: '\n' :: rest => '\n' :: dropReturns rest
  | c :: rest => c :: dropReturns rest

/-- The place of a text within the text that it ends. -/
def positionOf (source rest : List Char) : Position :=
  if rest.isEmpty then .finish else .behind (source.take (source.length - rest.length))

/-- The table of a document. -/
def parse (text : String) : Except SyntaxError Table :=
  let source := dropReturns text.toList
  match statements (source.length + 1) .empty source with
  | .ok document => .ok document.table
  | .error failure => .error ⟨failure.problem, positionOf source failure.rest⟩

end RustScript.Toml
