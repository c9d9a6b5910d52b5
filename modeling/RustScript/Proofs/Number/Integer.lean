import RustScript.Number.Integer
import RustScript.Proofs.Text.Lines

/-!
# Whole numbers read back

A whole number is written with a sign, if it is negative, and with digits. Written on a line it is
read again, whatever its size (`Integer.readLoose?_toString`).
-/

set_option autoImplicit false

namespace RustScript

open RustScript.Text

namespace Binary64

/-! ## Digits -/

/-- A text without white space is found between the white space around it. -/
theorem trimmed_padded {lead core trail : List Char} (hlead : ∀ c ∈ lead, isMargin c = true)
    (hcore : ∀ c ∈ core, isMargin c = false) (htrail : ∀ c ∈ trail, isMargin c = true) :
    trimmed (lead ++ (core ++ trail)) = core := by
  have hstop : ∀ {cs : List Char}, (∀ c ∈ cs, isMargin c = false) → cs.dropWhile isMargin = cs := by
    intro cs hcs
    cases cs with
    | nil => rfl
    | cons c cs =>
        rw [List.dropWhile_cons_of_neg (Bool.eq_false_iff.mp (hcs c List.mem_cons_self))]
  unfold trimmed
  rw [List.dropWhile_append_of_pos hlead]
  cases core with
  | nil => rw [List.nil_append, List.dropWhile_eq_nil_iff.mpr htrail]; rfl
  | cons c core =>
      rw [List.cons_append,
        List.dropWhile_cons_of_neg (Bool.eq_false_iff.mp (hcore c List.mem_cons_self)),
        ← List.cons_append, List.reverse_append,
        List.dropWhile_append_of_pos fun d hd => htrail d (List.mem_reverse.mp hd),
        hstop fun d hd => hcore d (List.mem_reverse.mp hd), List.reverse_reverse]

/-- What holds of the ten ASCII digits holds of every one. -/
theorem forall_isDigit {P : Char → Prop} (h : ∀ k < 10, P (Char.ofNat (48 + k))) {c : Char}
    (hc : c.isDigit = true) : P c := by
  obtain ⟨hlow, hhigh⟩ : 48 ≤ c.toNat ∧ c.toNat ≤ 57 := Char.isDigit_iff_toNat.mp hc
  obtain ⟨k, hk⟩ := Nat.exists_eq_add_of_le hlow
  rw [← Char.ofNat_toNat c, hk]
  exact h k (by omega)

theorem plainChar_of_isDigit {c : Char} (h : c.isDigit = true) : plainChar c = c :=
  forall_isDigit (P := fun c => plainChar c = c) (by decide +kernel) h

theorem dropUnderscores?_of_not_mem {cs : List Char} (h : '_' ∉ cs) (before : Bool) :
    dropUnderscores? before cs = some cs := by
  induction cs generalizing before with
  | nil => rfl
  | cons c cs ih =>
      have hc : c ≠ '_' := Ne.symm (List.ne_of_not_mem_cons h)
      rw [dropUnderscores?, ih (List.not_mem_of_not_mem_cons h)]
      · rfl
      · exact hc

/-- The value of some digits is counted as the library counts it. -/
theorem digitsValue_eq (digits : List Char) : digitsValue digits = Nat.ofDigitChars 10 digits 0 := by
  have hfrom : ∀ (digits : List Char) (value : Nat),
      digits.foldl (fun value d => value * 10 + (d.toNat - '0'.toNat)) value =
        Nat.ofDigitChars 10 digits value := by
    intro digits
    induction digits with
    | nil => exact fun _ => rfl
    | cons d digits ih =>
        intro value
        rw [List.foldl_cons, ih, Nat.ofDigitChars_cons, Nat.mul_comm]
  exact hfrom digits 0

theorem digitsValue_toDigits (n : Nat) : digitsValue (Nat.toDigits 10 n) = n := by
  rw [digitsValue_eq, Nat.ofDigitChars_toDigits (by decide) (by decide)]

end Binary64

namespace Integer

open RustScript.Binary64

/-! ## Written numbers -/

/-- A number is written with a sign, if it is negative, and with digits. -/
theorem toList_toString (n : Int) :
    (toString n).toList = (if n < 0 then ['-'] else []) ++ Nat.toDigits 10 n.natAbs := by
  cases n with
  | ofNat n => simp [Int.toString_eq_repr, Int.repr]
  | negSucc n => simp [Int.toString_eq_repr, Int.repr, Int.negSucc_lt_zero]

theorem isDigit_of_mem_toDigits {n : Nat} {c : Char} (h : c ∈ Nat.toDigits 10 n) :
    c.isDigit = true :=
  Nat.isDigit_of_mem_toDigits (by decide) (by decide) h

theorem mem_toString {n : Int} {c : Char} (h : c ∈ (toString n).toList) :
    c = '-' ∨ c.isDigit = true := by
  rw [toList_toString] at h
  obtain hsign | hdigit := List.mem_append.mp h
  · split at hsign
    · exact .inl (List.mem_singleton.mp hsign)
    · cases hsign
  · exact .inr (isDigit_of_mem_toDigits hdigit)

theorem not_mem_toString {mark : Char} (hsign : mark ≠ '-') (hdigit : mark.isDigit = false)
    (n : Int) : mark ∉ (toString n).toList := by
  intro hmem
  obtain heq | hmark := mem_toString hmem
  · exact hsign heq
  · rw [hdigit] at hmark
    cases hmark

theorem not_isMargin_of_mem_toString {n : Int} {c : Char} (h : c ∈ (toString n).toList) :
    isMargin c = false := by
  obtain rfl | hdigit := mem_toString h
  · decide
  · have hblank : isBlank c = false :=
      Source.not_blank_of_isAsciiWord (by simp [Source.isAsciiWord, Char.isAlphanum, hdigit])
    rw [isMargin, hblank, Bool.false_and]

theorem readSign_toString (n : Int) :
    readSign (toString n).toList = (decide (n < 0), Nat.toDigits 10 n.natAbs) := by
  rw [toList_toString]
  split
  · next hneg =>
      rw [decide_eq_true hneg]
      rfl
  · next hpos =>
      -- a digit stands in front, which is no sign
      obtain ⟨d, digits, hdigits⟩ :=
        List.exists_cons_of_ne_nil (Nat.toDigits_ne_nil (n := n.natAbs) (b := 10))
      have hdigit : d.isDigit = true := isDigit_of_mem_toDigits (hdigits ▸ List.mem_cons_self)
      have hsign : ∀ mark rest, mark.isDigit = false → d :: digits = mark :: rest → False := by
        rintro mark rest hmark heq
        rw [← (List.cons.inj heq).1, hdigit] at hmark
        cases hmark
      rw [List.nil_append, hdigits, decide_eq_false hpos, readSign]
      · exact fun rest => hsign '-' rest rfl
      · exact fun rest => hsign '+' rest rfl

theorem signed_natAbs (n : Int) : signed (decide (n < 0)) n.natAbs = n := by
  unfold signed
  split
  · next hneg =>
      have := of_decide_eq_true hneg
      omega
  · next hpos =>
      have := of_decide_eq_false (Bool.eq_false_iff.mpr hpos)
      omega

/-- **A number that is written on a line is read again.** -/
theorem readLoose?_toString (n : Int) : readLoose? (toString n ++ "\n") = some n := by
  have hplain : (trimmed (toString n ++ "\n").toList).map plainChar = (toString n).toList := by
    rw [String.toList_append, ← List.nil_append (_ ++ _), trimmed_padded (List.forall_mem_nil _)
      (fun c hc => not_isMargin_of_mem_toString hc) (forall_mem_of_all (by decide))]
    refine (List.map_congr_left fun c hc => ?_).trans (List.map_id _)
    obtain rfl | hdigit := mem_toString hc
    · decide +kernel
    · exact plainChar_of_isDigit hdigit
  have hdigits : (Nat.toDigits 10 n.natAbs).all Char.isDigit = true :=
    List.all_eq_true.mpr fun _ => isDigit_of_mem_toDigits
  unfold readLoose?
  rw [hplain, dropUnderscores?_of_not_mem (not_mem_toString (by decide) (by decide) n)]
  rw [Option.bind_eq_bind, Option.bind_some, readSign_toString]
  dsimp only
  rw [List.isEmpty_eq_false_iff.mpr Nat.toDigits_ne_nil, hdigits, digitsValue_toDigits]
  exact congrArg some (signed_natAbs n)

end Integer

end RustScript
