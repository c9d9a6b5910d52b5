import RustScript.Number.Shortest
import RustScript.Toml.Writer

/-!
# Values inside texts

How a value that should have been a string is shown where a string is needed: `Value.shown` for the
value itself, `Value.listed` for one inside an array or table, where strings are quoted and dates
are spelled out field by field.
-/

set_option autoImplicit false

namespace RustScript.Toml

/-- Numbers with commas between them. -/
def commaNumbers (numbers : List Nat) : String :=
  String.intercalate ", " (numbers.map toString)

/-- The fields of a time that are listed: hour and minute, and the rest as far as it is not
zero. -/
def Time.fields (time : Time) : List Nat :=
  [time.hour, time.minute] ++
    (if time.microsecond ≠ 0 then [time.second, time.microsecond]
    else if time.second ≠ 0 then [time.second] else [])

/-- An offset from universal time as a span of days and seconds. -/
def listedOffset (minutes : Int) : String :=
  if minutes = 0 then "datetime.timezone.utc"
  else
    let span := if minutes < 0 then s!"days=-1, seconds={minutes * 60 + 86400}"
      else s!"seconds={minutes * 60}"
    s!"datetime.timezone(datetime.timedelta({span}))"

mutual

/-- A value inside an array or a table. -/
def Value.listed : Value → String
  | .string text => Text.quoted text
  | .broken text => Text.quoted (text.val.filled standIn)
  | .boolean value => if value then "True" else "False"
  | .integer value => toString value
  | .float value => value.shortest
  | .dateTime value =>
      let fields := [value.date.year, value.date.month, value.date.day] ++ value.time.fields
      let zone := (value.offset.map fun minutes => s!", tzinfo={listedOffset minutes}").getD ""
      s!"datetime.datetime({commaNumbers fields}{zone})"
  | .date value => s!"datetime.date({commaNumbers [value.year, value.month, value.day]})"
  | .time value => s!"datetime.time({commaNumbers value.fields})"
  | .array elements => "[" ++ String.intercalate ", " (listedElements elements) ++ "]"
  | .table entries => "\x7b" ++ String.intercalate ", " (listedEntries entries) ++ "\x7d"

/-- The elements of an array. -/
def listedElements : List Value → List String
  | [] => []
  | element :: rest => element.listed :: listedElements rest

/-- The entries of a table, each key quoted. -/
def listedEntries : List (String × Value) → List String
  | [] => []
  | (key, value) :: rest => (Text.quoted key ++ ": " ++ value.listed) :: listedEntries rest

end

/-- A value where a string is needed. -/
def Value.shown : Value → String
  | .string text => text
  | .broken text => text.val.filled standIn
  | .dateTime value => value.write " "
  | .date value => value.write
  | .time value => value.write
  | value => value.listed

end RustScript.Toml
