import RustScript.Text.Blank
import RustScript.Text.Case

/-!
# Crate names

Registries compare crate names without regard to case, to surrounding blanks, and to whether `-`
or `_` joins their words. `normalize` gives the form in which equivalent names are equal.
-/

set_option autoImplicit false

namespace RustScript.Crate

open RustScript.Text

/-- The form of a crate name that all its equivalent spellings share. -/
def normalize (name : String) : String :=
  String.ofList ((lower (stripString name)).toList.map fun c => if c = '-' then '_' else c)

/-- Two names are spellings of one crate. -/
def equivalent (a b : String) : Bool := normalize a == normalize b

end RustScript.Crate
