import RustScript.Toml.Basic

/-!
# Texts without surrogates

A `String` is a text from outside like any other (`RawText.ofString_inj`), and those are the texts
that have bytes (`RawText.toString?_eq_some_iff`). What is made of a text tells it from all others
(`Value.ofRaw_inj`).
-/

set_option autoImplicit false

namespace RustScript

namespace CodePoint

theorem char?_eq_some_iff {point : CodePoint} {c : Char} :
    point.char? = some c ↔ point = .char c := by
  cases point with
  | char other => simp [char?]
  | surrogate offset => simp [char?]

end CodePoint

namespace RawText

theorem mapM_char?_eq_some_iff {text : RawText} {cs : List Char} :
    text.mapM CodePoint.char? = some cs ↔ text = cs.map .char := by
  induction text generalizing cs with
  | nil => cases cs <;> simp
  | cons point rest ih =>
      cases cs with
      | nil => simp [List.mapM_cons, Option.bind_eq_some_iff]
      | cons c more =>
          simp [List.mapM_cons, Option.bind_eq_some_iff, CodePoint.char?_eq_some_iff, ih]

theorem toString?_eq_some_iff {text : RawText} {whole : String} :
    text.toString? = some whole ↔ text = ofString whole := by
  unfold toString? ofString
  constructor
  · intro h
    obtain ⟨cs, hcs, rfl⟩ := Option.map_eq_some_iff.mp h
    rw [String.toList_ofList]
    exact mapM_char?_eq_some_iff.mp hcs
  · intro h
    exact Option.map_eq_some_iff.mpr
      ⟨whole.toList, mapM_char?_eq_some_iff.mpr h, String.ofList_toList⟩

@[simp] theorem toString?_ofString (text : String) : toString? (ofString text) = some text :=
  toString?_eq_some_iff.mpr rfl

@[simp] theorem ofString_inj {a b : String} : ofString a = ofString b ↔ a = b :=
  ⟨fun h => Option.some.inj <| by rw [← toString?_ofString a, h, toString?_ofString], congrArg _⟩

end RawText

namespace Toml

theorem Value.ofRaw_of_toString? {text : RawText} {whole : String}
    (h : text.toString? = some whole) : Value.ofRaw text = .string whole := by
  unfold Value.ofRaw
  split
  · next hother => rw [Option.some.inj (hother.symm.trans h)]
  · next hnone => exact nomatch hnone.symm.trans h

theorem Value.ofRaw_of_none {text : RawText} (h : text.toString? = none) :
    Value.ofRaw text = .broken ⟨text, h⟩ := by
  unfold Value.ofRaw
  split
  · next hsome => exact nomatch h.symm.trans hsome
  · rfl

@[simp] theorem Value.ofRaw_ofString (text : String) : Value.ofRaw (.ofString text) = .string text :=
  Value.ofRaw_of_toString? (RawText.toString?_ofString text)

theorem Value.ofRaw_inj {a b : RawText} : Value.ofRaw a = Value.ofRaw b ↔ a = b := by
  refine ⟨fun h => ?_, congrArg _⟩
  cases ha : a.toString? with
  | none =>
      rw [Value.ofRaw_of_none ha] at h
      cases hb : b.toString? with
      | none =>
          rw [Value.ofRaw_of_none hb] at h
          injection h with h
          exact congrArg Subtype.val h
      | some whole =>
          rw [Value.ofRaw_of_toString? hb] at h
          cases h
  | some whole =>
      rw [Value.ofRaw_of_toString? ha] at h
      cases hb : b.toString? with
      | none =>
          rw [Value.ofRaw_of_none hb] at h
          cases h
      | some other =>
          rw [Value.ofRaw_of_toString? hb] at h
          injection h with h
          rw [RawText.toString?_eq_some_iff.mp ha, RawText.toString?_eq_some_iff.mp hb, h]

end Toml

end RustScript
