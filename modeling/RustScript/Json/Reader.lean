import RustScript.Json.Basic
import RustScript.Number.Integer
import RustScript.Text.Utf8

/-!
# Reading JSON

A reader for JSON texts and for their bytes. Besides the standard it accepts `NaN`, `Infinity` and
`-Infinity` as numbers, and surrogates that stand alone, both in the bytes and as escapes; control
characters in strings and integers of too many digits are refused. Arrays and objects may be nested
only as deeply as there is room for.
-/

set_option autoImplicit false

namespace RustScript.Json

/-- Why a text is not read. -/
inductive Refusal
  | invalid
  /-- There is no room to enter this kind of value. -/
  | tooDeep (kind : String)
  deriving DecidableEq, Repr

/-- The text is invalid where nothing is found. -/
def found {α : Type} : Option α → Except Refusal α
  | some value => .ok value
  | none => .error .invalid

/-! ## Text -/

/-- The text without leading blanks. -/
def skipBlanks (cs : RawText) : RawText :=
  cs.dropWhile fun c => c = .char ' ' || c = .char '\t' || c = .char '\n' || c = .char '\r'

/-- The value of a hexadecimal digit. -/
def hexValue? : CodePoint → Option Nat
  | .char c =>
      if c.isDigit then some (c.toNat - '0'.toNat)
      else if 'a' ≤ c ∧ c ≤ 'f' then some (c.toNat - 'a'.toNat + 10)
      else if 'A' ≤ c ∧ c ≤ 'F' then some (c.toNat - 'A'.toNat + 10)
      else none
  | .surrogate _ => none

/-- The value of four hexadecimal digits and the text after them. -/
def hexUnit? : RawText → Option (Nat × RawText)
  | a :: b :: c :: d :: rest => do
      let value := (((← hexValue? a) * 16 + (← hexValue? b)) * 16 + (← hexValue? c)) * 16
        + (← hexValue? d)
      return (value, rest)
  | _ => none

/-- The character of which `high` and `low` are the halves. -/
def joined (high low : Nat) : Char :=
  Char.ofNat (0x10000 + (high - 0xd800) * 0x400 + (low - 0xdc00))

/-- The code point of an escape `\u`, after the `u`. Two escapes may name one character by its
halves. -/
def unicodeEscape? (cs : RawText) : Option (CodePoint × RawText) := do
  let (unit, rest) ← hexUnit? cs
  let alone ← CodePoint.ofNat? unit
  if 0xd800 ≤ unit ∧ unit ≤ 0xdbff then
    match rest with
    | .char '\\' :: .char 'u' :: more =>
        let (low, after) ← hexUnit? more
        if 0xdc00 ≤ low ∧ low ≤ 0xdfff then return (.char (joined unit low), after)
        else return (alone, rest)
    | _ => return (alone, rest)
  else return (alone, rest)

/-- The code points of a string up to its closing quote; `fuel` bounds their number. -/
def stringRest : Nat → RawText → Option (RawText × RawText)
  | 0, _ => none
  | _ + 1, [] => none
  | _ + 1, .char '"' :: rest => some ([], rest)
  | fuel + 1, .char '\\' :: .char escape :: rest => do
      let (c, after) ← match escape with
        | '"' => some (.char '"', rest)
        | '\\' => some (.char '\\', rest)
        | '/' => some (.char '/', rest)
        | 'b' => some (.char '\x08', rest)
        | 'f' => some (.char '\x0c', rest)
        | 'n' => some (.char '\n', rest)
        | 'r' => some (.char '\r', rest)
        | 't' => some (.char '\t', rest)
        | 'u' => unicodeEscape? rest
        | _ => none
      let (more, left) ← stringRest fuel after
      return (c :: more, left)
  | fuel + 1, c :: rest =>
      if c.toNat < 0x20 || c = .char '\\' then none
      else do
        let (more, left) ← stringRest fuel rest
        return (c :: more, left)

/-- A string, after its opening quote. -/
def string? (cs : RawText) : Option (RawText × RawText) := stringRest (cs.length + 1) cs

/-- The digits at the front and the text after them. -/
def digits : RawText → List Char × RawText
  | .char c :: rest =>
      if c.isDigit then
        let (more, left) := digits rest
        (c :: more, left)
      else ([], .char c :: rest)
  | cs => ([], cs)

/-- The digits of an exponent, when `e`, an optional sign and a digit stand at the front. -/
def exponentPart (cs : RawText) : List Char × RawText :=
  match cs with
  | .char e :: rest =>
      if e = 'e' || e = 'E' then
        let (sign, after) := match rest with
          | .char s :: more => if s = '+' || s = '-' then ([s], more) else ([], rest)
          | _ => ([], rest)
        match digits after with
        | ([], _) => ([], cs)
        | (power, left) => (e :: sign ++ power, left)
      else ([], cs)
  | _ => ([], cs)

/-- A number at the front, its minus sign already read. -/
def number? (negative : Bool) (cs : RawText) : Option (Json × RawText) :=
  let (whole, afterWhole) := match cs with
    | .char '0' :: rest => (['0'], rest)
    | _ => digits cs
  if whole.isEmpty then none
  else
    let (fraction, afterFraction) := match afterWhole with
      | .char '.' :: rest =>
          match digits rest with
          | ([], _) => ([], afterWhole)
          | (places, left) => ('.' :: places, left)
      | _ => ([], afterWhole)
    let (exponent, rest) := exponentPart afterFraction
    if fraction.isEmpty && exponent.isEmpty then
      if Integer.digitLimit < whole.length then none
      else some (.integer (Binary64.signed negative (Binary64.digitsValue whole)), rest)
    else
      (Binary64.readUnsigned? negative (whole ++ fraction ++ exponent)).map
        fun value => (.float value, rest)

/-- The words that are values. -/
def wordValues : List (RawText × Json) :=
  [("null", .null), ("true", .bool true), ("false", .bool false), ("NaN", .float .nan),
    ("Infinity", .float (.infinity false)), ("-Infinity", .float (.infinity true))]

/-- A number or a word at the front. -/
def scalar? (cs : RawText) : Option (Json × RawText) :=
  match wordValues.find? fun word => word.1.isPrefixOf cs with
  | some (word, value) => some (value, cs.drop word.length)
  | none =>
      match cs with
      | .char '-' :: rest => number? true rest
      | _ => number? false cs

mutual

/-- A value at the front; `fuel` bounds the values read, `room` the arrays and objects that can be
entered one inside another. -/
def value : Nat → Nat → RawText → Except Refusal (Json × RawText)
  | 0, _, _ => .error .invalid
  | fuel + 1, room, cs =>
      match cs with
      | .char '"' :: rest => do
          let (text, left) ← found (string? rest)
          return (.string text, left)
      | .char '[' :: rest =>
          match room with
          | 0 => .error (.tooDeep "array")
          | room + 1 =>
              match skipBlanks rest with
              | .char ']' :: left => return (.array [], left)
              | content => do
                  let (values, left) ← elements fuel room content
                  return (.array values, left)
      | .char '\x7b' :: rest =>
          match room with
          | 0 => .error (.tooDeep "object")
          | room + 1 =>
              match skipBlanks rest with
              | .char '\x7d' :: left => return (.object [], left)
              | content => do
                  let (members, left) ← members fuel room content
                  return (.object members, left)
      | _ => found (scalar? cs)

/-- The elements of an array that is not empty, and its closing bracket. -/
def elements : Nat → Nat → RawText → Except Refusal (List Json × RawText)
  | 0, _, _ => .error .invalid
  | fuel + 1, room, cs => do
      let (first, rest) ← value fuel room cs
      match skipBlanks rest with
      | .char ',' :: more =>
          let (others, left) ← elements fuel room (skipBlanks more)
          return (first :: others, left)
      | .char ']' :: left => return ([first], left)
      | _ => .error .invalid

/-- The fields of an object that is not empty, and its closing brace. -/
def members : Nat → Nat → RawText → Except Refusal (List (RawText × Json) × RawText)
  | 0, _, _ => .error .invalid
  | fuel + 1, room, cs =>
      match cs with
      | .char '"' :: rest => do
          let (name, afterName) ← found (string? rest)
          match skipBlanks afterName with
          | .char ':' :: afterColon =>
              let (content, afterValue) ← value fuel room (skipBlanks afterColon)
              match skipBlanks afterValue with
              | .char ',' :: more =>
                  let (others, left) ← members fuel room (skipBlanks more)
                  return ((name, content) :: others, left)
              | .char '\x7d' :: left => return ([(name, content)], left)
              | _ => .error .invalid
          | _ => .error .invalid
      | _ => .error .invalid

end

/-- The value of a JSON text. -/
def ofText (room : Nat) (cs : RawText) : Except Refusal Json := do
  let (content, rest) ← value (2 * cs.length + 2) room (skipBlanks cs)
  if (skipBlanks rest).isEmpty then return content else .error .invalid

/-! ## Bytes -/

/-- A surrogate in the form in which other code points have three bytes, and the bytes after it. -/
def surrogateBytes? : List UInt8 → Option (CodePoint × List UInt8)
  | 0xed :: high :: low :: rest =>
      if 0xa0 ≤ high ∧ high ≤ 0xbf ∧ 0x80 ≤ low ∧ low ≤ 0xbf then
        (CodePoint.ofNat? (0xd000 + (high.toNat - 0x80) * 64 + (low.toNat - 0x80))).map (·, rest)
      else none
  | _ => none

/-- Decodes at most `fuel` code points of UTF-8 in which surrogates may stand. -/
def utf8From? : Nat → List UInt8 → Option RawText
  | 0, _ => some []
  | _ + 1, [] => some []
  | fuel + 1, b :: rest =>
      match Utf8.piece b rest with
      | .char c size => (.char c :: ·) <$> utf8From? fuel ((b :: rest).drop size)
      | .invalid _ =>
          match surrogateBytes? (b :: rest) with
          | some (c, left) => (c :: ·) <$> utf8From? fuel left
          | none => none

/-- Text in bytes. -/
def utf8? (bytes : List UInt8) : Option RawText := utf8From? bytes.length bytes

/-- The code points of a sequence of 16-bit units. -/
def ofUnits : List Nat → Option RawText
  | [] => some []
  | unit :: rest =>
      if 0xd800 ≤ unit ∧ unit ≤ 0xdbff then
        match rest with
        | low :: more =>
            if 0xdc00 ≤ low ∧ low ≤ 0xdfff then do
              return .char (joined unit low) :: (← ofUnits more)
            else do return (← CodePoint.ofNat? unit) :: (← ofUnits (low :: more))
        | [] => do return [← CodePoint.ofNat? unit]
      else do return (← CodePoint.ofNat? unit) :: (← ofUnits rest)

/-- The numbers written by `width` bytes each, most significant byte first or last. -/
def units (width : Nat) (bigEndian : Bool) : Nat → List UInt8 → Option (List Nat)
  | _, [] => some []
  | 0, _ => none
  | fuel + 1, bytes =>
      if bytes.length < width then none
      else
        let unit := bytes.take width
        let ordered := if bigEndian then unit else unit.reverse
        (ordered.foldl (fun value b => value * 256 + b.toNat) 0 :: ·) <$>
          units width bigEndian fuel (bytes.drop width)

/-- Text in 16-bit units. -/
def utf16? (bigEndian : Bool) (bytes : List UInt8) : Option RawText :=
  units 2 bigEndian bytes.length bytes >>= ofUnits

/-- Text in 32-bit units. -/
def utf32? (bigEndian : Bool) (bytes : List UInt8) : Option RawText :=
  units 4 bigEndian bytes.length bytes >>= (·.mapM CodePoint.ofNat?)

/-- The text of a JSON document. Its encoding shows in a byte order mark or in where the zeros
among the first bytes are, since a JSON text begins with two ASCII characters. -/
def text? (bytes : List UInt8) : Option RawText :=
  match bytes with
  | 0 :: 0 :: 0xfe :: 0xff :: rest => utf32? true rest
  | 0xff :: 0xfe :: 0 :: 0 :: rest => utf32? false rest
  | 0xfe :: 0xff :: rest => utf16? true rest
  | 0xff :: 0xfe :: rest => utf16? false rest
  | 0xef :: 0xbb :: 0xbf :: rest => utf8? rest
  | 0 :: b :: _ :: _ :: _ => if b = 0 then utf32? true bytes else utf16? true bytes
  | _ :: 0 :: c :: d :: _ => if c = 0 && d = 0 then utf32? false bytes else utf16? false bytes
  | [0, _] => utf16? true bytes
  | [_, 0] => utf16? false bytes
  | _ => utf8? bytes

/-- The value of a JSON document given as bytes. -/
def ofBytes (room : Nat) (bytes : List UInt8) : Except Refusal Json :=
  found (text? bytes) >>= ofText room

end RustScript.Json
