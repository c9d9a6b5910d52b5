import RustScript.Entries
import RustScript.Number.Integer
import RustScript.Text.CodePoint

/-!
# TOML documents

Values of the format TOML. A table lists its entries in the order in which they were written, with
distinct keys; what a table means does not depend on that order (`Value.same`).
-/

set_option autoImplicit false

namespace RustScript.Toml

/-! ## Dates and times -/

/-- A day of the calendar. -/
structure Date where
  year : Nat
  month : Nat
  day : Nat
  deriving DecidableEq, Repr

/-- A time of the day. -/
structure Time where
  hour : Nat
  minute : Nat
  second : Nat
  microsecond : Nat
  deriving DecidableEq, Repr

/-- A day and a time, with the offset from universal time in minutes where it is known. -/
structure DateTime where
  date : Date
  time : Time
  offset : Option Int
  deriving DecidableEq, Repr

/-- The year has a 29th of February. -/
def isLeapYear (year : Nat) : Bool := year % 4 = 0 && (year % 100 ≠ 0 || year % 400 = 0)

/-- The number of days of a month. -/
def daysInMonth (year month : Nat) : Nat :=
  if month = 2 then if isLeapYear year then 29 else 28
  else if month = 4 || month = 6 || month = 9 || month = 11 then 30
  else 31

/-- The day exists in the calendar, years counting from 1. -/
def Date.isValid (date : Date) : Bool :=
  1 ≤ date.year && 1 ≤ date.month && date.month ≤ 12 && 1 ≤ date.day &&
    date.day ≤ daysInMonth date.year date.month

/-! ## Values -/

/-- A TOML value. -/
inductive Value
  | string (text : String)
  /-- A text that no document can hold. -/
  | broken (text : BrokenText)
  | boolean (value : Bool)
  | integer (value : Int)
  | float (value : Binary64)
  | dateTime (value : DateTime)
  | date (value : Date)
  | time (value : Time)
  | array (elements : List Value)
  | table (entries : List (String × Value))
  deriving Inhabited

/-- The entries of a table. -/
abbrev Table := Entries Value

/-- A text from outside as a value. -/
def Value.ofRaw (text : RawText) : Value :=
  match h : text.toString? with
  | some text => .string text
  | none => .broken ⟨text, h⟩

/-- The entries of a table value. -/
def Value.table? : Value → Option Table
  | .table entries => some entries
  | _ => none

/-! ## Sameness -/

/-- Two numbers are equal as numbers: NaN is not equal to itself, and zeros are equal. -/
def sameFloat : Binary64 → Binary64 → Bool
  | .nan, _ => false
  | .finite _ 0 _, .finite _ 0 _ => true
  | x, y => x == y

mutual

/-- Two values mean the same: the order of the entries of a table does not count. -/
def Value.same : Value → Value → Bool
  | .string a, .string b => a == b
  | .broken a, .broken b => a == b
  | .boolean a, .boolean b => a == b
  | .integer a, .integer b => a == b
  | .float a, .float b => sameFloat a b
  | .dateTime a, .dateTime b => a == b
  | .date a, .date b => a == b
  | .time a, .time b => a == b
  | .array a, .array b => sameElements a b
  | .table a, .table b => a.length == b.length && sameEntries a b
  | _, _ => false

/-- Two arrays agree element by element. -/
def sameElements : List Value → List Value → Bool
  | [], [] => true
  | a :: as, b :: bs => a.same b && sameElements as bs
  | _, _ => false

/-- Every entry of the first table has its counterpart in the second. -/
def sameEntries : List (String × Value) → List (String × Value) → Bool
  | [], _ => true
  | (key, a) :: rest, others =>
      (match others.find? (·.1 == key) with
      | some (_, b) => a.same b
      | none => false) && sameEntries rest others

end

/-! ## Values inside values -/

mutual

/-- The test holds for each of the values in the value that hold no others. -/
def Value.all (test : Value → Bool) : Value → Bool
  | .array elements => allElements test elements
  | .table entries => allEntries test entries
  | value => test value

/-- The test holds in all elements. -/
def allElements (test : Value → Bool) : List Value → Bool
  | [] => true
  | element :: rest => element.all test && allElements test rest

/-- The test holds in all entries. -/
def allEntries (test : Value → Bool) : List (String × Value) → Bool
  | [] => true
  | (_, value) :: rest => value.all test && allEntries test rest

end

/-- The value is no number of too many digits to be written. -/
def isShort : Value → Bool
  | .integer value => !Integer.isLong value
  | _ => true

/-- The value is no text that no document can hold. -/
def isWhole : Value → Bool
  | .broken _ => false
  | _ => true

mutual

/-- The value with stand-ins for surrogates. -/
def Value.filled (base : Nat) : Value → Value
  | .broken text => .string (text.val.filled base)
  | .array elements => .array (filledElements base elements)
  | .table entries => .table (filledEntries base entries)
  | value => value

/-- The elements with stand-ins for surrogates. -/
def filledElements (base : Nat) : List Value → List Value
  | [] => []
  | element :: rest => element.filled base :: filledElements base rest

/-- The entries with stand-ins for surrogates. -/
def filledEntries (base : Nat) : List (String × Value) → List (String × Value)
  | [] => []
  | (key, value) :: rest => (key, value.filled base) :: filledEntries base rest

end

end RustScript.Toml
