/-!
# Ordered entries

Pairs of a key and a value in the order in which the keys were first given. A later value for a
key takes the place of the earlier one.
-/

set_option autoImplicit false

namespace RustScript

/-- Values by key, in the order in which the keys were first given. -/
abbrev Entries (α : Type) := List (String × α)

namespace Entries

variable {α : Type}

/-- The value of a key. -/
def get? (entries : Entries α) (key : String) : Option α :=
  (entries.find? (·.1 == key)).map (·.2)

/-- There is a value for the key. -/
def has (entries : Entries α) (key : String) : Bool := entries.any (·.1 == key)

/-- The entries with a value for the key: in the place of the old one, or at the end. -/
def put : Entries α → String → α → Entries α
  | [], key, value => [(key, value)]
  | (k, v) :: rest, key, value =>
      if k == key then (k, value) :: rest else (k, v) :: put rest key value

/-- The entries of a list in which keys may repeat: the last value of a key counts, in the place
of its first. -/
def ofList (pairs : List (String × α)) : Entries α :=
  pairs.foldl (fun entries pair => put entries pair.1 pair.2) []

/-- The keys, in order. -/
def keys (entries : Entries α) : List String := entries.map (·.1)

theorem get?_put (entries : Entries α) (key other : String) (value : α) :
    get? (put entries key value) other =
      if key = other then some value else get? entries other := by
  induction entries with
  | nil => by_cases h : key = other <;> simp [put, get?, h]
  | cons entry rest ih =>
      simp only [get?] at ih
      by_cases hk : entry.1 = key <;> by_cases h : key = other <;> by_cases he : entry.1 = other <;>
        simp_all [put, get?]

end Entries

end RustScript
