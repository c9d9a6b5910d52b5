import Mathlib
import RustScript.Number.Binary64

/-!
# Numbers that round to zero

A decimal number is rounded to the nearest binary64 number. Half of the least positive one, `2 ^ -1075`,
and everything below it becomes zero, and everything above it stays positive
(`isPositive_ofDecimal_iff`).
-/

set_option autoImplicit false

namespace RustScript.Binary64

/-! ## Rounded quotients -/

/-- A quotient rounds to zero if it is a half or less. -/
theorem divideToEven_ne_zero_iff {num den : Nat} (hden : 0 < den) :
    divideToEven num den ≠ 0 ↔ den < 2 * num := by
  unfold divideToEven
  dsimp only
  -- below one the remainder is the numerator; from one on the quotient is never rounded away
  by_cases hsmall : num < den
  · rw [Nat.div_eq_of_lt hsmall, Nat.mod_eq_of_lt hsmall]
    simp
  · have hquotient : 1 ≤ num / den := (Nat.one_le_div_iff hden).mpr (Nat.le_of_not_lt hsmall)
    refine iff_of_true ?_ (by omega)
    split_ifs <;> omega

theorem isPositive_ofScaled {negative : Bool} {mantissa : Nat} {exponent : Int}
    (h : 971 < exponent → mantissa ≠ 0) :
    (ofScaled negative mantissa exponent).isPositive = true ↔ negative = false ∧ mantissa ≠ 0 := by
  unfold ofScaled
  dsimp only
  by_cases hcarried : mantissa = Nat.pow 2 53
  · have hne : mantissa ≠ 0 := by rw [hcarried]; decide
    rw [if_pos hcarried, if_pos hcarried]
    split_ifs <;> simp [isPositive, hne]
  · rw [if_neg hcarried, if_neg hcarried]
    split_ifs with hlarge
    · simp [isPositive, h hlarge]
    · simp [isPositive]

section

variable {num den : Nat}

/-- A quotient scaled by a power of two is more than a half. -/
theorem scaled_iff (hden : 0 < den) (e : Int) :
    den * Nat.pow 2 e.toNat < 2 * (num * Nat.pow 2 (-e).toNat) ↔
      (2 : ℚ) ^ (e - 1) < num / den := by
  have hcast : (den : ℚ) * 2 ^ e.toNat < 2 * (num * 2 ^ (-e).toNat) ↔
      den * Nat.pow 2 e.toNat < 2 * (num * Nat.pow 2 (-e).toNat) := by
    exact_mod_cast Iff.rfl
  have hden' : (0 : ℚ) < den := Nat.cast_pos.mpr hden
  -- whatever the sign of `e`, one of the two powers is 1
  have hpower : (2 : ℚ) ^ e * 2 ^ (-e).toNat = 2 ^ e.toNat := by
    rw [← zpow_natCast, ← zpow_natCast, ← zpow_add₀ two_ne_zero]
    congr 1
    omega
  have hpos : (0 : ℚ) < 2 ^ (-e).toNat := by positivity
  rw [← hcast, ← hpower, zpow_sub_one₀ two_ne_zero, lt_div_iff₀ hden']
  constructor
  · intro h
    have hscaled : (den : ℚ) * 2 ^ e < 2 * num := by
      refine lt_of_mul_lt_mul_right ?_ hpos.le
      linarith
    linarith
  · intro h
    have hscaled : (den : ℚ) * 2 ^ e * 2 ^ (-e).toNat < 2 * num * 2 ^ (-e).toNat :=
      mul_lt_mul_of_pos_right (by linarith) hpos
    linarith

/-- The exponent of the first guess is not too large. -/
theorem lt_of_guess (hnum : num ≠ 0) (hden : den ≠ 0) {e : Int}
    (h : e ≤ (num.log2 : Int) - den.log2) : (2 : ℚ) ^ (e - 1) < num / den := by
  have hden' : (0 : ℚ) < den := Nat.cast_pos.mpr (Nat.pos_of_ne_zero hden)
  have hlow : (2 : ℚ) ^ num.log2 ≤ num := by exact_mod_cast Nat.log2_self_le hnum
  have hhigh : (den : ℚ) < 2 ^ (den.log2 + 1) := by exact_mod_cast Nat.lt_log2_self
  rw [lt_div_iff₀ hden']
  calc (2 : ℚ) ^ (e - 1) * den
      < 2 ^ (e - 1) * 2 ^ (den.log2 + 1) := mul_lt_mul_of_pos_left hhigh (by positivity)
    _ = 2 ^ (e - 1 + (den.log2 + 1 : Nat)) := by rw [zpow_add₀ two_ne_zero, zpow_natCast]
    _ ≤ 2 ^ ((num.log2 : Nat) : Int) := zpow_le_zpow_right₀ one_le_two (by push_cast; omega)
    _ ≤ num := by rw [zpow_natCast]; exact hlow

theorem isPositive_scaled (hnum : num ≠ 0) (hden : den ≠ 0) (negative : Bool) {chosen : Int}
    (h : chosen ≤ (num.log2 : Int) - den.log2) :
    (ofScaled negative (divideToEven (num * Nat.pow 2 (-max chosen (-1074)).toNat)
        (den * Nat.pow 2 (max chosen (-1074)).toNat)) (max chosen (-1074))).isPositive = true ↔
      negative = false ∧ (2 : ℚ) ^ (-1075 : Int) < num / den := by
  have hscaled : 0 < den * Nat.pow 2 (max chosen (-1074)).toNat :=
    Nat.mul_pos (Nat.pos_of_ne_zero hden) (Nat.pow_pos (by decide))
  have hiff : divideToEven (num * Nat.pow 2 (-max chosen (-1074)).toNat)
      (den * Nat.pow 2 (max chosen (-1074)).toNat) ≠ 0 ↔
        (2 : ℚ) ^ (max chosen (-1074) - 1) < num / den :=
    (divideToEven_ne_zero_iff hscaled).trans (scaled_iff (Nat.pos_of_ne_zero hden) _)
  by_cases hleast : chosen ≤ -1074
  · -- the quotient is counted in the least positive numbers
    rw [max_eq_right hleast] at hiff ⊢
    rw [isPositive_ofScaled fun hlarge => absurd hlarge (by decide), hiff]
    rfl
  · -- the mantissa is not zero, as the first guess is no larger than the quotient
    rw [max_eq_left (by omega)] at hiff ⊢
    have hlarge := lt_of_guess hnum hden h
    have hleast : (2 : ℚ) ^ (-1075 : Int) < num / den :=
      lt_of_le_of_lt (zpow_le_zpow_right₀ one_le_two (by omega)) hlarge
    rw [isPositive_ofScaled fun _ => hiff.mpr hlarge, hiff, iff_true_intro hlarge,
      iff_true_intro hleast]

/-- **A quotient rounds to a positive number** exactly if it is above half of the least one. -/
theorem isPositive_ofRatio_iff (hnum : num ≠ 0) (hden : den ≠ 0) (negative : Bool) :
    (ofRatio negative num den).isPositive = true ↔
      negative = false ∧ (2 : ℚ) ^ (-1075 : Int) < num / den := by
  unfold ofRatio
  rw [if_neg (not_or.mpr ⟨hnum, hden⟩)]
  refine isPositive_scaled hnum hden negative ?_
  split_ifs <;> omega

end

/-! ## Rounded decimal numbers -/

/-- A number lies between the powers of ten that its number of digits says. -/
theorem bounds_of_digits {n : Nat} (h : n ≠ 0) :
    10 ^ ((Nat.toDigits 10 n).length - 1) ≤ n ∧ n < 10 ^ (Nat.toDigits 10 n).length := by
  constructor
  · by_cases hone : (Nat.toDigits 10 n).length - 1 = 0
    · rw [hone]
      exact Nat.pos_of_ne_zero h
    · refine Nat.le_of_not_lt fun hlt => ?_
      have := (Nat.length_toDigits_le_iff (by decide) (Nat.pos_of_ne_zero hone)).mpr hlt
      omega
  · exact (Nat.length_toDigits_le_iff (by decide) Nat.length_toDigits_pos).mp (Nat.le_refl _)

theorem tiny_le : (10 : ℚ) ^ (-401 : Int) ≤ 2 ^ (-1075 : Int) := by
  have hnat : 2 ^ 1075 ≤ 10 ^ 401 := by decide +kernel
  have hcast : (2 : ℚ) ^ 1075 ≤ 10 ^ 401 := by exact_mod_cast hnat
  rw [zpow_neg, zpow_neg]
  exact inv_anti₀ (by positivity) hcast

/-- **A decimal number rounds to a positive number** exactly if it is above half of the least one. -/
theorem isPositive_ofDecimal_iff (negative : Bool) (digits : Nat) (exponent : Int) :
    (ofDecimal negative digits exponent).isPositive = true ↔
      negative = false ∧ (2 : ℚ) ^ (-1075 : Int) < digits * 10 ^ exponent := by
  have htwo : (0 : ℚ) < 2 ^ (-1075 : Int) := by positivity
  unfold ofDecimal
  by_cases hzero : digits = 0
  · rw [if_pos (.inl hzero), hzero, Nat.cast_zero, zero_mul]
    exact iff_of_false (by simp [isPositive]) fun h => lt_asymm h.2 htwo
  have hlength := Nat.length_toDigits_pos (b := 10) (n := digits)
  obtain ⟨hlow, hhigh⟩ := bounds_of_digits hzero
  have hten : (0 : ℚ) < 10 ^ exponent := by positivity
  have hpower : ∀ k : Nat, ((10 ^ k : Nat) : ℚ) * 10 ^ exponent = 10 ^ (k + exponent) := fun k => by
    rw [zpow_add₀ (by norm_num), zpow_natCast, Nat.cast_pow]
    rfl
  -- beyond 400 places on either side the number is not computed
  by_cases hsmall : ((Nat.toDigits 10 digits).length : Int) + exponent < -400
  · rw [if_pos (.inr hsmall)]
    refine iff_of_false (by simp [isPositive]) fun h => lt_asymm h.2 ?_
    calc (digits : ℚ) * 10 ^ exponent
        < ((10 ^ (Nat.toDigits 10 digits).length : Nat) : ℚ) * 10 ^ exponent :=
          mul_lt_mul_of_pos_right (Nat.cast_lt.mpr hhigh) hten
      _ = 10 ^ ((Nat.toDigits 10 digits).length + exponent) := hpower _
      _ ≤ 10 ^ (-401 : Int) := zpow_le_zpow_right₀ (by norm_num) (by omega)
      _ ≤ 2 ^ (-1075 : Int) := tiny_le
  rw [if_neg (not_or.mpr ⟨hzero, hsmall⟩)]
  by_cases hlarge : ((Nat.toDigits 10 digits).length : Int) + exponent > 400
  · rw [if_pos hlarge]
    have habove : (2 : ℚ) ^ (-1075 : Int) < digits * 10 ^ exponent :=
      calc (2 : ℚ) ^ (-1075 : Int)
          < 2 ^ (0 : Int) := zpow_lt_zpow_right₀ one_lt_two (by decide)
        _ = 10 ^ (0 : Int) := by rw [zpow_zero, zpow_zero]
        _ ≤ 10 ^ (((Nat.toDigits 10 digits).length - 1 : Nat) + exponent) :=
          zpow_le_zpow_right₀ (by norm_num) (by omega)
        _ = ((10 ^ ((Nat.toDigits 10 digits).length - 1) : Nat) : ℚ) * 10 ^ exponent :=
          (hpower _).symm
        _ ≤ digits * 10 ^ exponent :=
          mul_le_mul_of_nonneg_right (Nat.cast_le.mpr hlow) hten.le
    rw [iff_true_intro habove, and_true]
    simp [isPositive]
  · rw [if_neg hlarge]
    have hnum : digits * Nat.pow 10 exponent.toNat ≠ 0 :=
      Nat.mul_ne_zero hzero (Nat.pow_pos (by decide)).ne'
    have hden : Nat.pow 10 (-exponent).toNat ≠ 0 := (Nat.pow_pos (by decide)).ne'
    have hquotient : ((digits * Nat.pow 10 exponent.toNat : Nat) : ℚ) /
        (Nat.pow 10 (-exponent).toNat : Nat) = digits * 10 ^ exponent := by
      have hsplit : (10 : ℚ) ^ exponent * 10 ^ (-exponent).toNat = 10 ^ exponent.toNat := by
        rw [← zpow_natCast, ← zpow_natCast, ← zpow_add₀ (by norm_num)]
        congr 1
        omega
      have hcast : ∀ k, ((Nat.pow 10 k : Nat) : ℚ) = 10 ^ k := fun k => by
        exact_mod_cast rfl
      rw [Nat.cast_mul, hcast, hcast, ← hsplit, ← mul_assoc, mul_div_assoc, div_self (by positivity),
        mul_one]
    rw [isPositive_ofRatio_iff hnum hden, hquotient]

end RustScript.Binary64
