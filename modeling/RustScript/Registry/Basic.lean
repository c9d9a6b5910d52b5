import RustScript.Json.Basic
import RustScript.World

/-!
# Registries

A registry answers the name of a crate with its release. A resolver is a way to ask one.
-/

set_option autoImplicit false

namespace RustScript.Registry

/-- A release of a crate: the name that the registry has for it, and the version. The name is what
the registry sent, which need not be a text. -/
structure Release where
  name : Json
  version : RawText

/-- Why a look-up gave no release. -/
inductive LookupError
  /-- The registry has no crate of that name. -/
  | notFound (name : String)
  /-- The registry gave an answer that cannot be used, or none. -/
  | unusable (name reason : String)
  /-- The connection had been closed before. -/
  | closed
  /-- The name cannot be part of an address. -/
  | invalidAddress
  /-- There was an answer, but the address does not say which server it is from. -/
  | relativeAddress
  /-- The command that asks the registry was called without what it needs. -/
  | incompleteCall
  /-- The answer holds this kind of value where there is no room to enter it. -/
  | tooDeep (kind : String)
  deriving DecidableEq, Repr

/-- The error is about the name that was asked for, so that other names can still be asked for. -/
def LookupError.isAnswer : LookupError → Bool
  | .notFound _ => true
  | .unusable _ _ => true
  | _ => false

/-- The reason in words. -/
def LookupError.reason : LookupError → String
  | .notFound _ => "no matching crate found in registry"
  | .unusable _ reason => reason
  | .closed => "Cannot send a request, as the client has been closed."
  | .invalidAddress => "Invalid non-printable ASCII character in URL"
  | .relativeAddress => "unknown url type"
  | .incompleteCall => Command.Fault.incomplete.message
  | .tooDeep kind =>
      s!"maximum recursion depth exceeded while decoding a JSON {kind} from a unicode string"

/-- The error in words. -/
def LookupError.message : LookupError → String
  | .notFound name => s!"{name}: {(LookupError.notFound name).reason}"
  | .unusable name reason => s!"{name}: {reason}"
  | error => error.reason

/-- A way to ask a registry. -/
structure Resolver (σ : Type) where
  /-- Asks for a crate. -/
  resolve : String → Act σ (Except LookupError Release)
  /-- Gives up the connection, if there is one. -/
  close : Act σ Unit

/-- The resolver beside something more that is kept outside. -/
def Resolver.beside {σ κ : Type} (resolver : Resolver σ) : Resolver (κ × σ) where
  resolve name := (resolver.resolve name).beside
  close := resolver.close.beside

end RustScript.Registry
