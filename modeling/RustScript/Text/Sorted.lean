/-!
# Sets of names as sorted lists

A set of names is shown as the list of its members, each once, by code point.
-/

set_option autoImplicit false

namespace RustScript.Text

/-- The members of a list, each once, in code point order. -/
def sortedNames (names : List String) : List String :=
  names.eraseDups.mergeSort fun a b => decide (a ≤ b)

theorem mem_sortedNames {name : String} {names : List String} :
    name ∈ sortedNames names ↔ name ∈ names := by
  simp [sortedNames]

end RustScript.Text
