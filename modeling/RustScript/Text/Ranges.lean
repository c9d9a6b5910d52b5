/-!
# Sets of characters given by ranges

A character class of the Unicode standard is a table of disjoint ranges of code points in
ascending order; `Ranges.contains` is membership in it.
-/

set_option autoImplicit false

namespace RustScript.Text

/-- Ranges of code points, both ends included. -/
abbrev Ranges := Array (Nat × Nat)

/-- The code point of `c` lies in one of the ranges. -/
def Ranges.contains (table : Ranges) (c : Char) : Bool :=
  table.any fun range => range.1 ≤ c.toNat && c.toNat ≤ range.2

end RustScript.Text
