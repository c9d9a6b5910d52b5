import RustScript.Number.Binary64
import RustScript.Text.Blank
import RustScript.Text.Digit

/-!
# Reading numbers

`Binary64.readUnsigned?` reads a decimal number in ASCII; `Binary64.readLoose?` reads what a person may
type for one: blanks around it and a sign, digits of any script, underscores between digits, and the
names of infinity and of the undefined number.
-/

set_option autoImplicit false

namespace RustScript.Binary64

open RustScript.Text

/-- The value of a sequence of ASCII digits. -/
def digitsValue (digits : List Char) : Nat :=
  digits.foldl (fun value d => value * 10 + (d.toNat - '0'.toNat)) 0

/-- A sign and the text after it. -/
def readSign : List Char → Bool × List Char
  | '-' :: rest => (true, rest)
  | '+' :: rest => (false, rest)
  | cs => (false, cs)

/-- The exponent at the end of a number: nothing, or `e`, an optional sign and digits up to the
end. -/
def readExponent? : List Char → Option Int
  | [] => some 0
  | c :: rest =>
      if c = 'e' || c = 'E' then
        let (negative, digits) := readSign rest
        if digits.isEmpty || !digits.all Char.isDigit then none
        else some (signed negative (digitsValue digits))
      else none

/-- An unsigned decimal number with at least one digit, a point and an exponent being optional. -/
def readUnsigned? (negative : Bool) (cs : List Char) : Option Binary64 := do
  let (whole, afterWhole) := cs.span Char.isDigit
  let (fraction, afterFraction) := match afterWhole with
    | '.' :: rest => rest.span Char.isDigit
    | _ => ([], afterWhole)
  if whole.isEmpty && fraction.isEmpty then none
  else
    let exponent ← readExponent? afterFraction
    some (ofDecimal negative (digitsValue (whole ++ fraction)) (exponent - fraction.length))

/-- White space that may stand around a number. The information separators may not. -/
def isMargin (c : Char) : Bool := isBlank c && !(0x1c ≤ c.toNat && c.toNat ≤ 0x1f)

/-- The text without the white space around it. -/
def trimmed (cs : List Char) : List Char :=
  ((cs.dropWhile isMargin).reverse.dropWhile isMargin).reverse

/-- The ASCII digit for a digit of any script; other characters stay. -/
def plainChar (c : Char) : Char :=
  match digitValue? c with
  | some value => Char.ofNat ('0'.toNat + value)
  | none => c

/-- The text without the underscores that stand between two digits; `none` when one stands
elsewhere. `before` says whether a digit precedes the text. -/
def dropUnderscores? (before : Bool) : List Char → Option (List Char)
  | [] => some []
  | '_' :: rest =>
      match rest with
      | d :: _ => if before && d.isDigit then dropUnderscores? false rest else none
      | [] => none
  | c :: rest => (c :: ·) <$> dropUnderscores? c.isDigit rest

/-- A number as a person may type it. -/
def readLoose? (text : String) : Option Binary64 := do
  let cs ← dropUnderscores? false ((trimmed text.toList).map plainChar)
  let (negative, rest) := readSign cs
  let name := String.ofList (rest.map Char.toLower)
  if name = "inf" || name = "infinity" then some (.infinity negative)
  else if name = "nan" then some .nan
  else readUnsigned? negative rest

end RustScript.Binary64
