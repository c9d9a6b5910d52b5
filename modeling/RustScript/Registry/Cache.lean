import RustScript.Crate
import RustScript.Entries
import RustScript.Registry.Basic

/-!
# Remembering releases

A resolver that asks another one at most once for a crate, as long as the answers are good: a
failure is not kept, and the next look-up asks again. Spellings of one crate share their entry.
-/

set_option autoImplicit false

namespace RustScript.Registry

/-- The releases found so far, by normalized name. -/
abbrev Cache := Entries Release

/-- The resolver that remembers what `inner` found. -/
def remembering {σ : Type} (inner : Resolver σ) : Resolver (Cache × σ) where
  resolve name := do
    let key := Crate.normalize name
    match (← get).outside.1.get? key with
    | some release => return .ok release
    | none =>
        let answer ← (inner.resolve name).beside
        if let .ok release := answer then
          Act.outside fun kept => (kept.1.put key release, kept.2)
        return answer
  close := inner.close.beside

/-- Forgets what was found. -/
def forget {σ : Type} : Act (Cache × σ) Unit := Act.outside fun kept => ([], kept.2)

end RustScript.Registry
