import RustScript.Number.Decimal

/-!
# Whole numbers in decimal

A whole number as a person may write it: blanks around it, digits of any script, underscores
between digits. Documents hold decimal numbers of at most `digitLimit` digits.
-/

set_option autoImplicit false

namespace RustScript.Integer

open RustScript.Text RustScript.Binary64

/-- A whole number with an optional sign. -/
def readLoose? (text : String) : Option Int := do
  let cs ← dropUnderscores? false ((trimmed text.toList).map plainChar)
  let (negative, digits) := readSign cs
  if digits.isEmpty || !digits.all Char.isDigit then none
  else some (signed negative (digitsValue digits))

/-- The most digits of a decimal number in a document. -/
def digitLimit : Nat := 4300

/-- The number has too many digits to be written in decimal. -/
def isLong (value : Int) : Bool := Nat.pow 10 digitLimit ≤ value.natAbs

/-- The complaint about a number of too many digits, which are counted where the number is read. -/
def excessMessage (count : Option Nat) : String :=
  let counted := (count.map fun count => s!": value has {count} digits").getD ""
  s!"Exceeds the limit ({digitLimit} digits) for integer string conversion{counted}; " ++
    "use sys.set_int_max_str_digits() to increase the limit"

end RustScript.Integer
