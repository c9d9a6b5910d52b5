import RustScript.Json.Reader
import RustScript.Registry.Address
import RustScript.Registry.Basic

/-!
# Asking a registry over the web

The address of a crate below the address of the registry answers with a JSON object whose `crate`
member describes the crate. Of the versions that it may give the stable one comes first.
-/

set_option autoImplicit false

namespace RustScript.Registry

/-- What a server sends back. -/
structure Reply where
  status : Int
  body : List UInt8
  deriving DecidableEq, Repr

/-- Why there is no reply. -/
inductive FetchError
  /-- The request failed, for a reason in words. -/
  | failed (reason : String)
  /-- The connection had been closed before. -/
  | closed
  deriving DecidableEq, Repr

/-- A way to fetch what stands at an address. -/
structure Client (σ : Type) where
  fetch : Address → Act σ (Except FetchError Reply)
  close : Act σ Unit
  /-- How many arrays and objects of an answer there is room for, one inside another. -/
  room : Nat

/-- The members of a crate's description that may hold its version, the best first. -/
def versionKeys : List String := ["max_stable_version", "newest_version", "max_version"]

/-- A text that is not empty. -/
def filledText? : Json → Option RawText
  | .string text => if text.isEmpty then none else some text
  | _ => none

/-- The version in the description of a crate. -/
def pickVersion? (description : Json) : Option RawText :=
  versionKeys.findSome? fun key => description.field? key >>= filledText?

/-- The name in the description of a crate; without one it is the name that was asked for. -/
def pickName (description : Json) (name : String) : Json :=
  let present (key : String) : Option Json :=
    (description.field? key).filter Json.isPresent
  ((present "name").or (present "id")).getD (.string name)

/-- The description of a crate in an answer. -/
def description? (answer : Json) : Option Json :=
  match answer.field? "crate" with
  | some (.object fields) => some (.object fields)
  | _ => none

/-- What an answer about the crate `name` says. -/
def interpretAnswer (name : String) (answer : Json) : Except LookupError Release :=
  match description? answer with
  | none => .error (.unusable name "response has no 'crate' object")
  | some description =>
      match pickVersion? description with
      | none => .error (.unusable name "response has no usable version")
      | some version => .ok ⟨pickName description name, version⟩

/-- What the outcome of a request for the crate `name` says. -/
def interpretReply (room : Nat) (name : String) :
    Except FetchError Reply → Except LookupError Release
  | .error .closed => .error .closed
  | .error (.failed reason) => .error (.unusable name s!"request failed: {reason}")
  | .ok reply =>
      if reply.status = 404 then .error (.notFound name)
      else if reply.status ≥ 400 then .error (.unusable name s!"HTTP {reply.status}")
      else match Json.ofBytes room reply.body with
        | .error .invalid => .error (.unusable name "response is not JSON")
        | .error (.tooDeep kind) => .error (.tooDeep kind)
        | .ok answer => interpretAnswer name answer

/-- The text without slashes at its end. -/
def dropSlashes (text : String) : String :=
  String.ofList (text.toList.reverse.dropWhile (· = '/')).reverse

/-- The name under which requests are made. -/
def userAgent : String := "rsrun/0.1 (single-file Rust script runner)"

/-- The address where registries are asked by default. -/
def defaultAddress : String := "https://crates.io/api/v1/crates"

/-- The resolver that asks the registry at the address `base`. -/
def browsing {σ : Type} (client : Client σ) (base : String) : Resolver σ where
  resolve name :=
    match Address.ofText? (dropSlashes base ++ "/" ++ name).toList with
    | none => pure (.error .invalidAddress)
    | some address => do
        match ← client.fetch address.requested with
        | .ok reply =>
            return if address.isAbsolute then interpretReply client.room name (.ok reply)
              else .error .relativeAddress
        | .error error => return interpretReply client.room name (.error error)
  close := client.close

end RustScript.Registry
