import RustScript.Number.Decimal
import RustScript.Text.Utf8
import RustScript.Toml.Basic
import RustScript.Toml.Problem

/-!
# Strings, keys, numbers and dates of TOML

Readers of the parts of a document that hold no other values. A reader takes the text that is left
and gives what it read with the rest, or a problem with the text from the offending place on.
-/

set_option autoImplicit false

namespace RustScript.Toml

/-- A problem, and the text from the place of the problem on. -/
structure Failure where
  problem : Problem
  rest : List Char

/-- The text is refused here. -/
def refuse {α : Type} (problem : Problem) (rest : List Char) : Except Failure α :=
  .error ⟨problem, rest⟩

/-! ## Blanks and comments -/

/-- The text without leading spaces and tabs. -/
def skipBlanks (cs : List Char) : List Char := cs.dropWhile fun c => c = ' ' || c = '\t'

/-- The text without leading spaces, tabs and line feeds. -/
def skipBlankLines (cs : List Char) : List Char :=
  cs.dropWhile fun c => c = ' ' || c = '\t' || c = '\n'

/-- A control character other than the tab. -/
def isControl (c : Char) : Bool := (c.toNat < 0x20 && c ≠ '\t') || c.toNat = 0x7f

/-- A control character other than the tab and the line feed. -/
def isControlInLines (c : Char) : Bool := isControl c && c ≠ '\n'

/-- The text from the first `ending` on, and the text before it; an error at the first character
before it that `illegal` refuses. Without an ending the whole text is before it. -/
def untilEnding (illegal : Char → Bool) (before : List Char) (ending : Option (List Char)) :
    Except Failure (List Char × List Char) :=
  let after := ending.getD []
  match before.dropWhile fun c => !illegal c with
  | c :: more => refuse (.invalidCharacter c) (c :: more ++ after)
  | [] => .ok (before, after)

/-- The text after a comment, if one stands at the front. It ends before the line feed. -/
def skipComment (cs : List Char) : Except Failure (List Char) :=
  match cs with
  | '#' :: rest => (·.2) <$> untilEnding isControl (rest.takeWhile (· ≠ '\n'))
      (some (rest.dropWhile (· ≠ '\n')))
  | _ => .ok cs

/-- The text after blanks, line feeds and comments; `fuel` bounds the comments. -/
def skipFiller : Nat → List Char → Except Failure (List Char)
  | 0, cs => .ok cs
  | fuel + 1, cs => do
      let after ← skipComment (skipBlankLines cs)
      if after.length = cs.length then .ok cs else skipFiller fuel after

/-! ## Strings -/

/-- The parts of a text before and after the first occurrence of `mark`. -/
def splitAt? (mark : List Char) : List Char → Option (List Char × List Char)
  | [] => if mark.isEmpty then some ([], []) else none
  | c :: rest =>
      if mark.isPrefixOf (c :: rest) then some ([], (c :: rest).drop mark.length)
      else (splitAt? mark rest).map fun (before, after) => (c :: before, after)

/-- A string without escapes, up to the mark `quote`; its opening has been read. -/
def literalString (quote : List Char) (illegal : Char → Bool) (cs : List Char) :
    Except Failure (String × List Char) :=
  match splitAt? quote cs with
  | none => refuse (.missingQuote (String.ofList quote)) []
  | some (before, after) =>
      match before.dropWhile fun c => !illegal c with
      | c :: more => refuse (.invalidCharacter c) (c :: more ++ quote ++ after)
      | [] => .ok (String.ofList before, after)

/-- The characters with an escape of one letter. -/
def escapeLetters : List (Char × Char) :=
  [('b', '\x08'), ('t', '\t'), ('n', '\n'), ('f', '\x0c'), ('r', '\r'), ('"', '"'), ('\\', '\\')]

/-- A character given by `width` hexadecimal digits. -/
def hexCharacter (width : Nat) (cs : List Char) : Except Failure (List Char × List Char) :=
  let digits := cs.take width
  let isHex (c : Char) : Bool := c.isDigit || ('a' ≤ c && c ≤ 'f') || ('A' ≤ c && c ≤ 'F')
  let value (c : Char) : Nat :=
    if c.isDigit then c.toNat - '0'.toNat else c.toLower.toNat - 'a'.toNat + 10
  if digits.length ≠ width || !digits.all isHex then refuse .invalidHex cs
  else match Utf8.char? (digits.foldl (fun n c => n * 16 + value c) 0) with
    | some c => .ok ([c], cs.drop width)
    | none => refuse .notScalar (cs.drop width)

/-- What an escape stands for; the backslash has been read. In a string of several lines a
backslash at the end of a line hides the line end and the blanks after it. -/
def escaped (multiline : Bool) (cs : List Char) : Except Failure (List Char × List Char) :=
  match cs with
  | [] => refuse .unescapedBackslash []
  | c :: rest =>
      -- the end of a line is hidden, with blanks before it and blank lines behind it
      if multiline && c = '\n' then .ok ([], skipBlankLines rest)
      else if multiline && (c = ' ' || c = '\t') then
        match skipBlanks rest with
        | [] => .ok ([], [])
        | '\n' :: after => .ok ([], skipBlankLines after)
        | other => refuse .unescapedBackslash other
      else if c = 'u' then hexCharacter 4 rest
      else if c = 'U' then hexCharacter 8 rest
      else match escapeLetters.find? (·.1 = c) with
        | some (_, image) => .ok ([image], rest)
        | none => refuse .unescapedBackslash rest

/-- A string with escapes, up to its closing mark; `fuel` bounds the characters read. -/
def basicString (multiline : Bool) : Nat → List Char → Except Failure (List Char × List Char)
  | 0, cs => refuse .unterminatedString cs
  | _ + 1, [] => refuse .unterminatedString []
  | fuel + 1, c :: rest =>
      if c = '"' then
        if !multiline then .ok ([], rest)
        else match rest with
          | '"' :: '"' :: after => .ok ([], after)
          | _ => do
              let (more, left) ← basicString multiline fuel rest
              return ('"' :: more, left)
      else if c = '\\' then do
        let (image, after) ← escaped multiline rest
        let (more, left) ← basicString multiline fuel after
        return (image ++ more, left)
      else if isControl c && !(multiline && c = '\n') then refuse (.illegalCharacter c) (c :: rest)
      else do
        let (more, left) ← basicString multiline fuel rest
        return (c :: more, left)

/-- A string on one line; its quote has been read. -/
def oneLineString (cs : List Char) : Except Failure (String × List Char) := do
  let (text, rest) ← basicString false (cs.length + 1) cs
  return (String.ofList text, rest)

/-- A string of several lines; its three quotes `quote` have been read. A line feed at its start
does not belong to it, and up to two quotes before its closing mark do. -/
def multilineString (quote : Char) (cs : List Char) : Except Failure (String × List Char) := do
  let content := match cs with
    | '\n' :: rest => rest
    | _ => cs
  let (text, rest) ←
    if quote = '\'' then literalString ['\'', '\'', '\''] isControlInLines content
    else do
      let (text, rest) ← basicString true (content.length + 1) content
      Except.ok (String.ofList text, rest)
  let extra := ((rest.take 2).takeWhile (· = quote))
  return (text ++ String.ofList extra, rest.drop extra.length)

/-- A string of any form, when a quote stands at the front. -/
def anyString? (cs : List Char) : Option (Except Failure (String × List Char)) :=
  match cs with
  | '"' :: '"' :: '"' :: rest => some (multilineString '"' rest)
  | '"' :: rest => some (oneLineString rest)
  | '\'' :: '\'' :: '\'' :: rest => some (multilineString '\'' rest)
  | '\'' :: rest => some (literalString ['\''] isControl rest)
  | _ => none

/-! ## Keys -/

/-- A character of a key without quotes. -/
def isBareKey (c : Char) : Bool := c.isAlphanum || c = '-' || c = '_'

/-- One part of a key. -/
def keyPart (cs : List Char) : Except Failure (String × List Char) :=
  match cs with
  | '"' :: rest => oneLineString rest
  | '\'' :: rest => literalString ['\''] isControl rest
  | c :: rest =>
      if isBareKey c then
        .ok (String.ofList (c :: rest.takeWhile isBareKey), rest.dropWhile isBareKey)
      else refuse .invalidKeyStart cs
  | [] => refuse .invalidKeyStart []

/-- A key with its dotted parts and the blanks after it; `fuel` bounds the parts. -/
def keyParts : Nat → List Char → Except Failure (Key × List Char)
  | 0, cs => refuse .invalidKeyStart cs
  | fuel + 1, cs => do
      let (part, after) ← keyPart cs
      match skipBlanks after with
      | '.' :: rest =>
          let (parts, left) ← keyParts fuel (skipBlanks rest)
          return (part :: parts, left)
      | rest => return ([part], rest)

/-- A key with its dotted parts and the blanks after it. -/
def key (cs : List Char) : Except Failure (Key × List Char) := keyParts (cs.length + 1) cs

/-! ## Dates and times -/

/-- The value of exactly `width` digits at the front. -/
def digits? (width : Nat) (cs : List Char) : Option (Nat × List Char) :=
  let digits := cs.take width
  if digits.length = width && digits.all Char.isDigit then
    some (Binary64.digitsValue digits, cs.drop width)
  else none

/-- The text after the character `c`. -/
def after? (c : Char) : List Char → Option (List Char)
  | d :: rest => if d = c then some rest else none
  | [] => none

/-- The microseconds of a fraction of a second; digits beyond the sixth are dropped. -/
def fraction (cs : List Char) : Nat × List Char :=
  match cs with
  | '.' :: rest =>
      match rest.span Char.isDigit with
      | ([], _) => (0, cs)
      | (digits, left) =>
          let six := digits.take 6
          (Binary64.digitsValue six * Nat.pow 10 (6 - six.length), left)
  | _ => (0, cs)

/-- A time of the day at the front. -/
def time? (cs : List Char) : Option (Time × List Char) := do
  let (hour, afterHour) ← digits? 2 cs
  let (minute, afterMinute) ← after? ':' afterHour >>= digits? 2
  let (second, afterSecond) ← after? ':' afterMinute >>= digits? 2
  if hour < 24 ∧ minute < 60 ∧ second < 60 then
    let (microsecond, rest) := fraction afterSecond
    some (⟨hour, minute, second, microsecond⟩, rest)
  else none

/-- The offset of a time from universal time, in minutes, when one stands at the front. -/
def offset? (cs : List Char) : Option (Int × List Char) :=
  match cs with
  | c :: rest =>
      if c = 'Z' || c = 'z' then some (0, rest)
      else if c = '+' || c = '-' then do
        let (hour, afterHour) ← digits? 2 rest
        let (minute, left) ← after? ':' afterHour >>= digits? 2
        if hour < 24 ∧ minute < 60 then
          some (Binary64.signed (c = '-') (hour * 60 + minute), left)
        else none
      else none
  | [] => none

/-- A date of the right form at the front; the day need not exist. -/
def date? (cs : List Char) : Option (Date × List Char) := do
  let (year, afterYear) ← digits? 4 cs
  let (month, afterMonth) ← after? '-' afterYear >>= digits? 2
  let (day, rest) ← after? '-' afterMonth >>= digits? 2
  if 1 ≤ month ∧ month ≤ 12 ∧ 1 ≤ day ∧ day ≤ 31 then some (⟨year, month, day⟩, rest) else none

/-- The time that follows a date, after `T` or a blank. -/
def timeAfterDate? (cs : List Char) : Option (Time × List Char) :=
  match cs with
  | c :: rest => if c = 'T' || c = 't' || c = ' ' then time? rest else none
  | [] => none

/-- A date, a date with a time, or a time, when one stands at the front. -/
def moment? (cs : List Char) : Option (Except Failure (Value × List Char)) :=
  match date? cs with
  | some (date, rest) =>
      some <|
        if !date.isValid then refuse .invalidDate cs
        else match timeAfterDate? rest with
          | none => .ok (.date date, rest)
          | some (time, afterTime) =>
              match offset? afterTime with
              | some (offset, left) => .ok (.dateTime ⟨date, time, some offset⟩, left)
              | none => .ok (.dateTime ⟨date, time, none⟩, afterTime)
  | none => (time? cs).map fun (time, rest) => .ok (.time time, rest)

/-! ## Numbers -/

/-- The digits at the front, with single underscores between them; the underscores are dropped. -/
def groupedDigits (isDigit : Char → Bool) : List Char → List Char × List Char
  | [] => ([], [])
  | '_' :: c :: rest =>
      if isDigit c then
        let (more, left) := groupedDigits isDigit rest
        (c :: more, left)
      else ([], '_' :: c :: rest)
  | c :: rest =>
      if isDigit c then
        let (more, left) := groupedDigits isDigit rest
        (c :: more, left)
      else ([], c :: rest)

/-- Digits at the front that begin with a digit. -/
def grouped? (isDigit : Char → Bool) (cs : List Char) : Option (List Char × List Char) :=
  match cs with
  | c :: _ => if isDigit c then some (groupedDigits isDigit cs) else none
  | [] => none

/-- The value of digits in a base. -/
def baseValue (base : Nat) (digits : List Char) : Nat :=
  let value (c : Char) : Nat :=
    if c.isDigit then c.toNat - '0'.toNat else c.toLower.toNat - 'a'.toNat + 10
  digits.foldl (fun n c => n * base + value c) 0

/-- An integer with the mark of a base, without sign. -/
def based? (cs : List Char) : Option (Value × List Char) :=
  let read (base : Nat) (isDigit : Char → Bool) (rest : List Char) :=
    (grouped? isDigit rest).map fun (digits, left) =>
      (Value.integer (baseValue base digits), left)
  match cs with
  | '0' :: 'x' :: rest =>
      read 16 (fun c => c.isDigit || ('a' ≤ c && c ≤ 'f') || ('A' ≤ c && c ≤ 'F')) rest
  | '0' :: 'b' :: rest => read 2 (fun c => c = '0' || c = '1') rest
  | '0' :: 'o' :: rest => read 8 (fun c => '0' ≤ c && c ≤ '7') rest
  | _ => none

/-- The exponent at the front, its letter, sign and digits. -/
def exponent (cs : List Char) : List Char × List Char :=
  match cs with
  | e :: rest =>
      if e = 'e' || e = 'E' then
        let (sign, afterSign) := match rest with
          | s :: more => if s = '+' || s = '-' then ([s], more) else ([], rest)
          | [] => ([], rest)
        match grouped? Char.isDigit afterSign with
        | some (digits, left) => (e :: sign ++ digits, left)
        | none => ([], cs)
      else ([], cs)
  | [] => ([], cs)

/-- A decimal integer of these digits, of which there may not be too many. -/
def decimalInteger (negative : Bool) (digits rest : List Char) :
    Except Failure (Value × List Char) :=
  if Integer.digitLimit < digits.length then refuse (.excessive (.digits digits.length)) rest
  else .ok (.integer (Binary64.signed negative (Binary64.digitsValue digits)), rest)

/-- A decimal number after its sign. -/
def decimal? (negative : Bool) (cs : List Char) :
    Option (Except Failure (Value × List Char)) := do
  let (whole, afterWhole) ← match cs with
    | '0' :: rest => some (['0'], rest)
    | _ => grouped? Char.isDigit cs
  let (fractional, afterFraction) := match afterWhole with
    | '.' :: rest =>
        match grouped? Char.isDigit rest with
        | some (digits, left) => ('.' :: digits, left)
        | none => ([], afterWhole)
    | _ => ([], afterWhole)
  let (exponential, rest) := exponent afterFraction
  if fractional.isEmpty && exponential.isEmpty then
    some (decimalInteger negative whole rest)
  else
    let value ← Binary64.readUnsigned? negative (whole ++ fractional ++ exponential)
    some (.ok (.float value, rest))

/-- A number at the front, the names of infinity and NaN included. -/
def number? (cs : List Char) : Option (Except Failure (Value × List Char)) :=
  let (negative, unsigned) := Binary64.readSign cs
  match based? cs with
  | some found => some (.ok found)
  | none =>
      match decimal? negative unsigned with
      | some found => some found
      | none =>
          match unsigned with
          | 'i' :: 'n' :: 'f' :: rest => some (.ok (.float (.infinity negative), rest))
          | 'n' :: 'a' :: 'n' :: rest => some (.ok (.float .nan, rest))
          | _ => none

end RustScript.Toml
