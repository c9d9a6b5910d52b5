/-!
# White space

The characters that separate words, and stripping them from the ends of a text. `IsBlank` is the
class of white space of the Unicode standard together with the four information separators.
-/

set_option autoImplicit false

namespace RustScript.Text

/-- White space: the ASCII spaces, the information separators, and the spaces, line and paragraph
separators of the Unicode standard. -/
def isBlank (c : Char) : Bool :=
  let n := c.toNat
  (9 ≤ n && n ≤ 13) || (0x1c ≤ n && n ≤ 0x20) || n == 0x85 || n == 0xa0 || n == 0x1680 ||
    (0x2000 ≤ n && n ≤ 0x200a) || n == 0x2028 || n == 0x2029 || n == 0x202f || n == 0x205f ||
    n == 0x3000

/-- The text without leading white space. -/
def stripLeft (cs : List Char) : List Char := cs.dropWhile isBlank

/-- The text without trailing white space. -/
def stripRight (cs : List Char) : List Char := (cs.reverse.dropWhile isBlank).reverse

/-- The text without white space at either end. -/
def strip (cs : List Char) : List Char := stripRight (stripLeft cs)

/-- The text holds nothing but white space. -/
def allBlank (cs : List Char) : Bool := cs.all isBlank

/-- The string without white space at either end. -/
def stripString (s : String) : String := String.ofList (strip s.toList)

theorem stripLeft_eq_nil_iff {cs : List Char} : stripLeft cs = [] ↔ allBlank cs = true := by
  induction cs with
  | nil => simp [stripLeft, allBlank]
  | cons c rest ih =>
      by_cases h : isBlank c
      · simp only [stripLeft, allBlank] at ih
        simp [stripLeft, allBlank, h, ih]
      · simp [stripLeft, allBlank, h]

end RustScript.Text
