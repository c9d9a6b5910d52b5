import RustScript.Number.Binary64
import RustScript.Text.CodePoint

/-!
# JSON documents
-/

set_option autoImplicit false

namespace RustScript

/-- A JSON value. Numbers without fraction and exponent are integers of any size. -/
inductive Json
  | null
  | bool (value : Bool)
  | integer (value : Int)
  | float (value : Binary64)
  | string (value : RawText)
  | array (elements : List Json)
  /-- The fields in the order in which they are written; of fields with one name the last counts. -/
  | object (fields : List (RawText × Json))
  deriving Inhabited

namespace Json

/-- The value of a field of an object. -/
def field? (name : String) : Json → Option Json
  | .object fields => (fields.reverse.find? (·.1 == RawText.ofString name)).map (·.2)
  | _ => none

/-- The value counts as present: it is not null, false, zero or empty. -/
def isPresent : Json → Bool
  | .null => false
  | .bool value => value
  | .integer value => value ≠ 0
  | .float (.finite _ mantissa _) => mantissa ≠ 0
  | .float _ => true
  | .string value => !value.isEmpty
  | .array elements => !elements.isEmpty
  | .object fields => !fields.isEmpty

end Json

end RustScript
