import RustScript.Text.Lines
import RustScript.World

/-!
# Text files

A text file holds UTF-8. When it is read, every line end becomes a line feed.
-/

set_option autoImplicit false

namespace RustScript

/-- Why a text file cannot be read. -/
inductive TextError
  | system (error : SystemError)
  /-- The byte at this offset begins no character. -/
  | notUtf8 (offset : Nat)
  deriving DecidableEq, Repr

/-- The text in the bytes of a file. -/
def textOfBytes (content : List UInt8) : Except TextError String :=
  match Utf8.decode content with
  | .ok characters => .ok (String.ofList (Text.normalizeLineEnds characters))
  | .error offset => .error (.notUtf8 offset)

namespace Act

variable {σ : Type}

/-- The text in a file. -/
def readText (path : Path) : Act σ (Except TextError String) := do
  match ← files (FileAction.read path) with
  | .ok content => return textOfBytes content
  | .error error => return .error (.system error)

end Act

end RustScript
