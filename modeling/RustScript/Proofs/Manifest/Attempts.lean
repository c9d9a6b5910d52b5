import RustScript.Proofs.Manifest.Answered
import RustScript.Proofs.Manifest.Excess
import RustScript.Proofs.Registry.Transparent
import RustScript.Proofs.Source.Agree

/-!
# All missing crates are asked for

What a merge asks a registry for is settled before the first answer: the least spelling of every
needed crate that is not declared, in code point order (`Representatives`). If every look-up gives a
release or an error about the name, all of these names are asked for, and only then the answers are
looked at. One error is enough for the merge to fail, and the first one is reported; without one the
manifest holds whatever was found (`Attempted`).
-/

set_option autoImplicit false

namespace RustScript.Manifest

open RustScript.Toml RustScript.Registry RustScript.Source

/-! ## The names -/

/-- The names that stand for the needed crates that are not declared. -/
structure Representatives (inferred : List String) (declared : Table) (names : List String) :
    Prop where
  /-- The names are in code point order, and none of them repeats. -/
  ordered : names.Pairwise fun a b => a < b
  /-- A name is the least spelling of a needed crate that is not declared. -/
  least : ∀ name, name ∈ names ↔ name ∈ inferred ∧
    (∀ entry ∈ declared, Crate.equivalent entry.1 name = false) ∧
      ∀ other ∈ inferred, Crate.equivalent other name = true → name ≤ other
  /-- Every needed crate that is not declared has one name. -/
  single : ∀ name ∈ inferred, (∀ entry ∈ declared, Crate.equivalent entry.1 name = false) →
    ∃! found, found ∈ names ∧ Crate.equivalent found name = true

theorem Representatives.unique {inferred : List String} {declared : Table} {names others : List String}
    (h : Representatives inferred declared names) (h' : Representatives inferred declared others) :
    names = others := by
  have hnodup : ∀ {names : List String}, names.Pairwise (fun a b => a < b) → names.Nodup :=
    fun hordered => hordered.imp fun hlt => ne_of_lt hlt
  have hperm : names.Perm others :=
    (List.perm_ext_iff_of_nodup (hnodup h.ordered) (hnodup h'.ordered)).mpr fun name =>
      (h.least name).trans (h'.least name).symm
  exact hperm.eq_of_pairwise (fun a b _ _ hab hba => absurd hab (lt_asymm hba)) h.ordered h'.ordered

/-- Every release in the transcript has a text for a name. -/
def Named (calls : Transcript) : Prop :=
  ∀ call ∈ calls, ∀ release, call.2 = .ok release → ∃ text, release.name = .string text

/-- The last look-up that gave a release under this text gave this version. -/
def LastUnder (calls : Transcript) (text version : RawText) : Prop :=
  ∃ before name later, calls = before ++ (name, .ok ⟨.string text, version⟩) :: later ∧
    ∀ call ∈ later, ∀ other, call.2 ≠ .ok ⟨.string text, other⟩

/-- A later look-up that gave nothing under the text does not count. -/
theorem LastUnder.append {calls : Transcript} {text version : RawText}
    (h : LastUnder calls text version) {call : String × Except LookupError Release}
    (hother : ∀ other, call.2 ≠ .ok ⟨.string text, other⟩) :
    LastUnder (calls ++ [call]) text version := by
  obtain ⟨before, asked, later, hsplit, hlater⟩ := h
  refine ⟨before, asked, later ++ [call], ?_, ?_⟩
  · rw [hsplit, List.append_assoc, List.cons_append]
  · intro late hlate
    rcases List.mem_append.mp hlate with hlate | hlate
    · exact hlater late hlate
    · rw [List.mem_singleton.mp hlate]
      exact hother

section

variable {calls : Transcript} {answers : List Answer}
  (hreads : calls.map (fun call => readAnswer call.2) = answers.map .ok) {kept : Manifest}

include hreads

end

section

variable {σ : Type} {resolver : Resolver σ}

variable (hresolver : resolver.Answers)

include hresolver

end

end RustScript.Manifest
