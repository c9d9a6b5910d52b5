import RustScript.Proofs.Number.Integer
import RustScript.Proofs.Number.Rounding

/-!
# The texts of numbers

Which texts a person may type for a number, and which number each of them is. A text has blanks around
it, digits of any script with single underscores between them (`Grouped`), and apart from that it is
written as in ASCII (`Plain`). Those texts are read and no others (`readLoose?_eq_some_iff`).
-/

set_option autoImplicit false

namespace RustScript.Binary64

open RustScript.Text

/-! ## Numbers as they are written -/

/-- A number as it is written: infinity, the undefined one, or `± digits · 10 ^ exponent`. -/
inductive Numeral
  | infinity (negative : Bool)
  | undefined
  | decimal (negative : Bool) (digits : Nat) (exponent : Int)
  deriving DecidableEq, Repr

namespace Numeral

/-- The binary64 number that is nearest. -/
def nearest : Numeral → Binary64
  | .infinity negative => .infinity negative
  | .undefined => .nan
  | .decimal negative digits exponent => ofDecimal negative digits exponent

/-- The number is greater than zero and not so small that zero is as near as any other number. -/
def Positive : Numeral → Prop
  | .infinity negative => negative = false
  | .undefined => False
  | .decimal negative digits exponent =>
      negative = false ∧ (2 : ℚ) ^ (-1075 : Int) < digits * 10 ^ exponent

theorem isPositive_nearest_iff (n : Numeral) : n.nearest.isPositive = true ↔ n.Positive := by
  cases n with
  | infinity negative => simp [nearest, isPositive, Positive]
  | undefined => simp [nearest, isPositive, Positive]
  | decimal negative digits exponent => exact isPositive_ofDecimal_iff negative digits exponent

theorem ofRatio_ne_nan (negative : Bool) (num den : Nat) : ofRatio negative num den ≠ .nan := by
  have hscaled : ∀ (mantissa : Nat) (exponent : Int), ofScaled negative mantissa exponent ≠ .nan := by
    intro mantissa exponent
    unfold ofScaled
    dsimp only
    split_ifs <;> nofun
  unfold ofRatio
  split_ifs
  · nofun
  · exact hscaled _ _

theorem nearest_eq_nan_iff (n : Numeral) : n.nearest = .nan ↔ n = .undefined := by
  cases n with
  | infinity negative => simp [nearest]
  | undefined => simp [nearest]
  | decimal negative digits exponent =>
      refine iff_of_false (show ofDecimal negative digits exponent ≠ .nan from ?_) nofun
      unfold ofDecimal
      dsimp only
      split_ifs
      · nofun
      · nofun
      · exact ofRatio_ne_nan _ _ _

/-- A number that is refused as none above zero: neither the undefined one nor a positive one. -/
theorem isNonpositive_nearest_iff (n : Numeral) :
    n.nearest.isNonpositive = true ↔ n ≠ .undefined ∧ ¬ n.Positive := by
  rw [← n.isPositive_nearest_iff, Ne, ← n.nearest_eq_nan_iff]
  cases n.nearest <;> simp [isNonpositive]

end Numeral

/-! ## Texts in ASCII -/

/-- A sign or none. -/
inductive Sign : Bool → List Char → Prop
  | none : Sign false []
  | plus : Sign false ['+']
  | minus : Sign true ['-']

/-- The text consists of ASCII digits. -/
def Digits (cs : List Char) : Prop := ∀ c ∈ cs, c.isDigit = true

/-- The exponent at the end of a number, or nothing. -/
inductive Exponent : Int → List Char → Prop
  | none : Exponent 0 []
  | written {c : Char} {negative : Bool} {sign digits : List Char} : c = 'e' ∨ c = 'E' →
      Sign negative sign → digits ≠ [] → Digits digits →
      Exponent (signed negative (digitsValue digits)) (c :: (sign ++ digits))

/-- A number without its sign. -/
inductive Unsigned (negative : Bool) : Numeral → List Char → Prop
  | infinity {name : List Char} :
      name.map Char.toLower = "inf".toList ∨ name.map Char.toLower = "infinity".toList →
      Unsigned negative (.infinity negative) name
  | undefined {name : List Char} : name.map Char.toLower = "nan".toList →
      Unsigned negative .undefined name
  | whole {digits tail : List Char} {exponent : Int} : digits ≠ [] → Digits digits →
      Exponent exponent tail →
      Unsigned negative (.decimal negative (digitsValue digits) exponent) (digits ++ tail)
  | pointed {digits fraction tail : List Char} {exponent : Int} : Digits digits → Digits fraction →
      digits ++ fraction ≠ [] → Exponent exponent tail →
      Unsigned negative
        (.decimal negative (digitsValue (digits ++ fraction)) (exponent - fraction.length))
        (digits ++ '.' :: (fraction ++ tail))

/-- A number in ASCII. -/
inductive Plain : Numeral → List Char → Prop
  | signed {negative : Bool} {n : Numeral} {sign rest : List Char} : Sign negative sign →
      Unsigned negative n rest → Plain n (sign ++ rest)

/-- The text does not begin with a sign. -/
def Signless (cs : List Char) : Prop := ∀ rest, cs ≠ '-' :: rest ∧ cs ≠ '+' :: rest

theorem readSign_append {negative : Bool} {sign rest : List Char} (h : Sign negative sign)
    (hrest : Signless rest) : readSign (sign ++ rest) = (negative, rest) := by
  cases h with
  | none =>
      rw [List.nil_append, readSign]
      · exact fun more => (hrest more).1
      · exact fun more => (hrest more).2
  | plus => rfl
  | minus => rfl

theorem exists_of_readSign (cs : List Char) :
    ∃ sign, Sign (readSign cs).1 sign ∧ cs = sign ++ (readSign cs).2 := by
  fun_cases readSign cs with
  | case1 rest => exact ⟨['-'], .minus, rfl⟩
  | case2 rest => exact ⟨['+'], .plus, rfl⟩
  | case3 => exact ⟨[], .none, rfl⟩

theorem signless_of_digits {digits rest : List Char} (hne : digits ≠ []) (h : Digits digits) :
    Signless (digits ++ rest) := by
  cases digits with
  | nil => exact absurd rfl hne
  | cons d digits =>
      have hdigit := h d List.mem_cons_self
      refine fun more => ⟨fun heq => ?_, fun heq => ?_⟩
      all_goals
        rw [(List.cons.inj heq).1] at hdigit
        exact absurd hdigit (by decide)

theorem all_isDigit_iff {cs : List Char} : cs.all Char.isDigit = true ↔ Digits cs :=
  List.all_eq_true

/-- **Exponents are read.** -/
theorem readExponent?_eq_some_iff {cs : List Char} {exponent : Int} :
    readExponent? cs = some exponent ↔ Exponent exponent cs := by
  constructor
  · intro h
    cases cs with
    | nil =>
        rw [← Option.some.inj h]
        exact .none
    | cons c rest =>
        obtain ⟨sign, hsign, hrest⟩ := exists_of_readSign rest
        rw [readExponent?] at h
        generalize readSign rest = found at h hsign hrest
        obtain ⟨negative, digits⟩ := found
        dsimp only at h hsign hrest
        split_ifs at h with hc hdigits
        simp only [Bool.or_eq_true, Bool.not_eq_true', not_or, Bool.not_eq_false,
          decide_eq_true_eq] at hc hdigits
        rw [← Option.some.inj h, hrest]
        exact .written hc hsign (mt List.isEmpty_iff.mpr hdigits.1) (all_isDigit_iff.mp hdigits.2)
  · rintro (_ | @⟨c, negative, sign, digits, hc, hsign, hne, hdigits⟩)
    · rfl
    · have hsignless : Signless digits := by
        rw [← List.append_nil digits]
        exact signless_of_digits hne hdigits
      rw [readExponent?, if_pos (by simpa using hc), readSign_append hsign hsignless]
      dsimp only
      rw [if_neg]
      rw [List.isEmpty_eq_false_iff.mpr hne, all_isDigit_iff.mpr hdigits]
      decide

/-- The text does not begin with a digit. -/
def Digitless (cs : List Char) : Prop := ∀ d rest, cs = d :: rest → d.isDigit = false

theorem Exponent.digitless {exponent : Int} {cs : List Char} (h : Exponent exponent cs) :
    Digitless cs := by
  rintro d rest heq
  cases h with
  | none => cases heq
  | written hc =>
      rw [← (List.cons.inj heq).1]
      obtain rfl | rfl := hc <;> rfl

theorem Exponent.not_point {exponent : Int} {cs : List Char} (h : Exponent exponent cs)
    (rest : List Char) : cs ≠ '.' :: rest := by
  rintro rfl
  cases h with
  | written hc => exact absurd hc (by decide)

theorem span_digits {digits rest : List Char} (h : Digits digits) (hrest : Digitless rest) :
    (digits ++ rest).span Char.isDigit = (digits, rest) := by
  rw [List.span_eq_takeWhile_dropWhile, List.takeWhile_append_of_pos h,
    List.dropWhile_append_of_pos h]
  cases rest with
  | nil => rw [List.takeWhile_nil, List.dropWhile_nil, List.append_nil]
  | cons c rest =>
      have hc : ¬ c.isDigit = true := Bool.eq_false_iff.mp (hrest c rest rfl)
      rw [List.takeWhile_cons_of_neg hc, List.dropWhile_cons_of_neg hc, List.append_nil]

/-- The digits in front and the text behind them. -/
theorem exists_digits (cs : List Char) :
    ∃ digits rest, Digits digits ∧ Digitless rest ∧ cs = digits ++ rest := by
  refine ⟨cs.takeWhile Char.isDigit, cs.dropWhile Char.isDigit, fun _ => List.mem_takeWhile_imp, ?_,
    List.takeWhile_append_dropWhile.symm⟩
  intro d rest heq
  have hne : cs.dropWhile Char.isDigit ≠ [] := heq ▸ List.cons_ne_nil d rest
  have hhead := List.head_dropWhile_not Char.isDigit hne
  simpa only [heq, List.head_cons] using hhead

section

variable {negative : Bool} {digits fraction tail : List Char}

theorem readUnsigned?_whole (hdigits : Digits digits) (htail : Digitless tail)
    (hpoint : ∀ rest, tail ≠ '.' :: rest) : readUnsigned? negative (digits ++ tail) =
      if digits.isEmpty then none
      else (readExponent? tail).map fun exponent =>
        ofDecimal negative (digitsValue digits) exponent := by
  unfold readUnsigned?
  rw [span_digits hdigits htail]
  dsimp only
  split
  · exact absurd rfl (hpoint _)
  · rw [List.append_nil, List.isEmpty_nil, Bool.and_true]
    cases readExponent? tail <;> simp

theorem readUnsigned?_pointed (hdigits : Digits digits) (hfraction : Digits fraction)
    (htail : Digitless tail) : readUnsigned? negative (digits ++ '.' :: (fraction ++ tail)) =
      if (digits ++ fraction).isEmpty then none
      else (readExponent? tail).map fun exponent =>
        ofDecimal negative (digitsValue (digits ++ fraction)) (exponent - fraction.length) := by
  have hpoint : Digitless ('.' :: (fraction ++ tail)) := fun d rest heq => by
    rw [← (List.cons.inj heq).1]
    rfl
  unfold readUnsigned?
  rw [span_digits hdigits hpoint]
  simp only [span_digits hfraction htail]
  have hempty : (digits ++ fraction).isEmpty = (digits.isEmpty && fraction.isEmpty) := by
    cases digits <;> rfl
  rw [hempty]
  cases readExponent? tail <;> rfl

end

/-- A number without its sign that is neither infinity nor the undefined one. -/
def InDigits (negative : Bool) (n : Numeral) (cs : List Char) : Prop :=
  Unsigned negative n cs ∧ ∃ digits exponent, n = .decimal negative digits exponent

/-- **Decimal numbers are read.** -/
theorem readUnsigned?_eq_some_iff {negative : Bool} {cs : List Char} {x : Binary64} :
    readUnsigned? negative cs = some x ↔ ∃ n, InDigits negative n cs ∧ n.nearest = x := by
  constructor
  · intro h
    obtain ⟨digits, behind, hdigits, hbehind, rfl⟩ := exists_digits cs
    by_cases hpoint : ∃ rest, behind = '.' :: rest
    · obtain ⟨rest, rfl⟩ := hpoint
      obtain ⟨fraction, tail, hfraction, htail, rfl⟩ := exists_digits rest
      rw [readUnsigned?_pointed hdigits hfraction htail] at h
      split_ifs at h with hempty
      obtain ⟨exponent, hexponent, rfl⟩ := Option.map_eq_some_iff.mp h
      exact ⟨_, ⟨.pointed hdigits hfraction (mt List.isEmpty_iff.mpr hempty)
        (readExponent?_eq_some_iff.mp hexponent), _, _, rfl⟩, rfl⟩
    · rw [readUnsigned?_whole hdigits hbehind fun rest heq => hpoint ⟨rest, heq⟩] at h
      split_ifs at h with hempty
      obtain ⟨exponent, hexponent, rfl⟩ := Option.map_eq_some_iff.mp h
      exact ⟨_, ⟨.whole (mt List.isEmpty_iff.mpr hempty) hdigits
        (readExponent?_eq_some_iff.mp hexponent), _, _, rfl⟩, rfl⟩
  · rintro ⟨n, ⟨hcs, digits, exponent, hn⟩, rfl⟩
    cases hcs with
    | infinity => cases hn
    | undefined => cases hn
    | whole hne hdigits htail =>
        rw [readUnsigned?_whole hdigits htail.digitless htail.not_point, if_neg
          (mt List.isEmpty_iff.mp hne), readExponent?_eq_some_iff.mpr htail]
        rfl
    | pointed hdigits hfraction hne htail =>
        rw [readUnsigned?_pointed hdigits hfraction htail.digitless, if_neg
          (mt List.isEmpty_iff.mp hne), readExponent?_eq_some_iff.mpr htail]
        rfl

theorem InDigits.exists_head {negative : Bool} {n : Numeral} {cs : List Char}
    (h : InDigits negative n cs) : ∃ c rest, cs = c :: rest ∧ (c.isDigit = true ∨ c = '.') := by
  obtain ⟨hcs, digits, exponent, hn⟩ := h
  cases hcs with
  | infinity => cases hn
  | undefined => cases hn
  | @whole digits tail _ hne hdigits _ =>
      cases digits with
      | nil => exact absurd rfl hne
      | cons d digits => exact ⟨d, digits ++ tail, rfl, .inl (hdigits d List.mem_cons_self)⟩
  | @pointed digits fraction tail _ hdigits _ _ _ =>
      cases digits with
      | nil => exact ⟨'.', _, rfl, .inr rfl⟩
      | cons d digits => exact ⟨d, _, rfl, .inl (hdigits d List.mem_cons_self)⟩

/-- A name begins with a letter, and so it is no decimal number. -/
theorem InDigits.not_name {negative : Bool} {n : Numeral} {cs : List Char} (h : InDigits negative n cs)
    {name : List Char} (hname : name.head? = some 'i' ∨ name.head? = some 'n') :
    cs.map Char.toLower ≠ name := by
  rintro rfl
  obtain ⟨d, rest, rfl, hd⟩ := h.exists_head
  rw [List.map_cons, List.head?_cons, Option.some_inj, Option.some_inj] at hname
  obtain hdigit | rfl := hd
  · exact absurd hname (forall_isDigit (P := fun d => ¬ (d.toLower = 'i' ∨ d.toLower = 'n'))
      (by decide +kernel) hdigit)
  · exact absurd hname (by decide)

/-- The number behind a sign. -/
def readMagnitude? (negative : Bool) (cs : List Char) : Option Binary64 :=
  let name := String.ofList (cs.map Char.toLower)
  if name = "inf" || name = "infinity" then some (.infinity negative)
  else if name = "nan" then some .nan
  else readUnsigned? negative cs

theorem ofList_eq_iff {cs : List Char} {name : String} :
    String.ofList cs = name ↔ cs = name.toList := by
  rw [← String.toList_inj, String.toList_ofList]

/-- **Numbers without their sign are read.** -/
theorem readMagnitude?_eq_some_iff {negative : Bool} {cs : List Char} {x : Binary64} :
    readMagnitude? negative cs = some x ↔ ∃ n, Unsigned negative n cs ∧ n.nearest = x := by
  unfold readMagnitude?
  simp only [Bool.or_eq_true, decide_eq_true_eq, ofList_eq_iff]
  constructor
  · intro h
    split_ifs at h with hinfinity hundefined
    · exact ⟨.infinity negative, .infinity hinfinity, Option.some.inj h⟩
    · exact ⟨.undefined, .undefined hundefined, Option.some.inj h⟩
    · obtain ⟨n, ⟨hcs, -⟩, hn⟩ := readUnsigned?_eq_some_iff.mp h
      exact ⟨n, hcs, hn⟩
  · rintro ⟨n, hcs, rfl⟩
    have hdecimal : InDigits negative n cs → (if cs.map Char.toLower = "inf".toList ∨
        cs.map Char.toLower = "infinity".toList then some (.infinity negative)
        else if cs.map Char.toLower = "nan".toList then some .nan
        else readUnsigned? negative cs) = some n.nearest := fun h => by
      rw [if_neg (not_or.mpr ⟨h.not_name (by decide), h.not_name (by decide)⟩),
        if_neg (h.not_name (by decide))]
      exact readUnsigned?_eq_some_iff.mpr ⟨n, h, rfl⟩
    cases hcs with
    | infinity hname =>
        rw [if_pos hname]
        rfl
    | undefined hname =>
        rw [hname, if_neg (by decide), if_pos rfl]
        rfl
    | whole hne hdigits htail => exact hdecimal ⟨.whole hne hdigits htail, _, _, rfl⟩
    | pointed hdigits hfraction hne htail =>
        exact hdecimal ⟨.pointed hdigits hfraction hne htail, _, _, rfl⟩

/-! ## Digits of any script -/

/-- What holds of the ten digits of every script holds of every digit. -/
theorem forall_digitValue? {P : Char → Prop}
    (h : ∀ first ∈ digitZeros.toList, ∀ k < 10, P (Char.ofNat (first + k))) {c : Char} {value : Nat}
    (hc : digitValue? c = some value) : P c ∧ value < 10 := by
  obtain ⟨first, hfound, rfl⟩ := Option.map_eq_some_iff.mp hc
  have hrange := Array.find?_some hfound
  simp only [Bool.and_eq_true, decide_eq_true_eq] at hrange
  refine ⟨?_, by omega⟩
  rw [← Char.ofNat_toNat c, ← Nat.add_sub_of_le hrange.1]
  exact h first (Array.mem_toList_iff.mpr (Array.mem_of_find?_eq_some hfound)) _ (by omega)

theorem not_isBlank_of_isDigit {c : Char} (h : Text.isDigit c = true) : isBlank c = false := by
  obtain ⟨value, hvalue⟩ := Option.isSome_iff_exists.mp h
  exact (forall_digitValue? (P := fun c => isBlank c = false) (by decide +kernel) hvalue).1

theorem plainChar_eq (c : Char) : (plainChar c).isDigit = Text.isDigit c ∧
    (Text.isDigit c = false → plainChar c = c) := by
  have hplain : ∀ value < 10, (Char.ofNat ('0'.toNat + value)).isDigit = true := by decide
  unfold plainChar Text.isDigit
  cases hvalue : digitValue? c with
  | some value =>
      have hsmall := (forall_digitValue? (P := fun _ => True) (fun _ _ _ _ => trivial) hvalue).2
      exact ⟨hplain value hsmall, nofun⟩
  | none =>
      refine ⟨Bool.eq_false_iff.mpr fun hdigit => ?_, fun _ => rfl⟩
      have hsome := forall_isDigit (P := fun c => (digitValue? c).isSome = true)
        (by decide +kernel) hdigit
      rw [hvalue] at hsome
      cases hsome

/-- Every underscore stands between two digits; `before` says whether one stands in front of the
text. -/
def GroupedFrom (before : Bool) (cs : List Char) : Prop :=
  ∀ front back, cs = front ++ '_' :: back →
    front.getLast?.elim before Text.isDigit = true ∧ back.head?.any Text.isDigit = true

theorem groupedFrom_cons {before : Bool} {c : Char} {cs : List Char} :
    GroupedFrom before (c :: cs) ↔
      (c = '_' → before = true ∧ cs.head?.any Text.isDigit = true) ∧
        GroupedFrom (Text.isDigit c) cs := by
  have hlast : ∀ front : List Char, (c :: front).getLast?.elim before Text.isDigit =
      front.getLast?.elim (Text.isDigit c) Text.isDigit := fun front => by
    rw [List.getLast?_cons]
    cases front.getLast? <;> rfl
  constructor
  · intro h
    -- with the first character in front, a part of the rest is a part of the whole
    refine ⟨fun hc => h [] cs (by rw [hc]; rfl), fun front back hcs => ?_⟩
    have hboth := h (c :: front) back (by rw [hcs]; rfl)
    rwa [hlast] at hboth
  · rintro ⟨hfirst, hrest⟩ front back hcs
    cases front with
    | nil =>
        obtain ⟨rfl, rfl⟩ := List.cons.inj hcs
        exact hfirst rfl
    | cons d front =>
        obtain ⟨rfl, rfl⟩ := List.cons.inj hcs
        rw [hlast]
        exact hrest front back rfl

theorem plainChar_eq_underscore_iff {c : Char} : plainChar c = '_' ↔ c = '_' := by
  obtain ⟨hdigit, hother⟩ := plainChar_eq c
  constructor
  · intro h
    rw [h] at hdigit
    rw [← hother hdigit.symm, h]
  · rintro rfl
    exact hother (by decide +kernel)

/-- **Underscores between digits are dropped**, and others are refused. -/
theorem dropUnderscores?_eq_some_iff {before : Bool} {cs plain : List Char} :
    dropUnderscores? before (cs.map plainChar) = some plain ↔
      GroupedFrom before cs ∧ (cs.filter (· ≠ '_')).map plainChar = plain := by
  -- what the induction carries along is whether a digit stands in front
  induction cs generalizing before plain with
  | nil =>
      have hnil : GroupedFrom before [] := fun front back h => absurd h (by simp)
      simp [dropUnderscores?, hnil]
  | cons c cs ih =>
      rw [List.map_cons, groupedFrom_cons]
      by_cases hc : c = '_'
      · subst hc
        have hfilter : ('_' :: cs).filter (· ≠ '_') = cs.filter (· ≠ '_') := by simp
        have hdigit : Text.isDigit '_' = false := by decide +kernel
        rw [plainChar_eq_underscore_iff.mpr rfl, hfilter, hdigit, and_assoc, ← ih]
        cases cs with
        | nil => simp [dropUnderscores?]
        | cons d cs =>
            rw [List.map_cons, dropUnderscores?, (plainChar_eq d).1]
            split_ifs with hboth
            · exact (and_iff_right fun _ => Bool.and_eq_true_iff.mp hboth).symm
            · exact iff_of_false not_false fun h => hboth (Bool.and_eq_true_iff.mpr (h.1 rfl))
      · have hplain := mt plainChar_eq_underscore_iff.mp hc
        have hfilter : (c :: cs).filter (· ≠ '_') = c :: cs.filter (· ≠ '_') := by simp [hc]
        rw [hfilter, List.map_cons, dropUnderscores?, (plainChar_eq c).1]
        · refine Option.map_eq_some_iff.trans ⟨?_, ?_⟩
          · rintro ⟨rest, hrest, rfl⟩
            obtain ⟨hgrouped, rfl⟩ := ih.mp hrest
            exact ⟨⟨fun heq => absurd heq hc, hgrouped⟩, List.map_cons⟩
          · rintro ⟨⟨-, hgrouped⟩, rfl⟩
            exact ⟨_, ih.mpr ⟨hgrouped, rfl⟩, List.map_cons.symm⟩
        · exact hplain

/-! ## Texts of numbers -/

/-- The text spells the number: between blanks, in digits of any script, with underscores between
digits. -/
inductive Spells (n : Numeral) : List Char → Prop
  | padded {lead core trail : List Char} : (∀ c ∈ lead, isMargin c = true) →
      (∀ c ∈ trail, isMargin c = true) → GroupedFrom false core →
      Plain n ((core.filter (· ≠ '_')).map plainChar) → Spells n (lead ++ (core ++ trail))

theorem exists_trimmed (cs : List Char) : ∃ lead trail, (∀ c ∈ lead, isMargin c = true) ∧
    (∀ c ∈ trail, isMargin c = true) ∧ cs = lead ++ (trimmed cs ++ trail) := by
  refine ⟨cs.takeWhile isMargin, ((cs.dropWhile isMargin).reverse.takeWhile isMargin).reverse,
    fun _ => List.mem_takeWhile_imp, fun c hc => List.mem_takeWhile_imp (List.mem_reverse.mp hc), ?_⟩
  unfold trimmed
  rw [← List.reverse_append, List.takeWhile_append_dropWhile, List.reverse_reverse,
    List.takeWhile_append_dropWhile]

theorem toLower_of_isBlank {c : Char} (h : isBlank c = true) : c.toLower = c := by
  unfold Char.toLower
  split
  · next hupper =>
      -- no capital letter is blank
      have hrange : 65 ≤ c.toNat ∧ c.toNat ≤ 90 := hupper
      simp only [isBlank, Bool.or_eq_true, Bool.and_eq_true, decide_eq_true_eq, beq_iff_eq] at h
      omega
  · rfl

theorem not_isMargin_of_name {name letters : List Char} (hname : name.map Char.toLower = letters)
    (hletters : ∀ c ∈ letters, isMargin c = false) : ∀ c ∈ name, isMargin c = false := by
  intro c hc
  refine Bool.eq_false_iff.mpr fun hmargin => ?_
  have hlower := toLower_of_isBlank (Bool.and_eq_true_iff.mp hmargin).1
  have hmem : c.toLower ∈ letters := hname ▸ List.mem_map_of_mem hc
  rw [hlower] at hmem
  exact Bool.eq_false_iff.mp (hletters c hmem) hmargin

theorem Digits.not_isMargin {cs : List Char} (h : Digits cs) : ∀ c ∈ cs, isMargin c = false :=
  fun c hc => forall_isDigit (P := fun c => isMargin c = false) (by decide +kernel) (h c hc)

theorem Sign.not_isMargin {negative : Bool} {cs : List Char} (h : Sign negative cs) :
    ∀ c ∈ cs, isMargin c = false := by
  cases h with
  | none => nofun
  | plus | minus => exact forall_mem_of_all (by decide)

theorem Exponent.not_isMargin {exponent : Int} {cs : List Char} (h : Exponent exponent cs) :
    ∀ c ∈ cs, isMargin c = false := by
  cases h with
  | none => nofun
  | written hc hsign _ hdigits =>
      refine List.forall_mem_cons.mpr ⟨?_, List.forall_mem_append.mpr
        ⟨hsign.not_isMargin, hdigits.not_isMargin⟩⟩
      obtain rfl | rfl := hc <;> decide +kernel

/-- There is no white space in a number. -/
theorem Plain.not_isMargin {n : Numeral} {cs : List Char} (h : Plain n cs) :
    ∀ c ∈ cs, isMargin c = false := by
  obtain ⟨hsign, hrest⟩ := h
  refine List.forall_mem_append.mpr ⟨hsign.not_isMargin, ?_⟩
  cases hrest with
  | infinity hname =>
      obtain hname | hname := hname <;> exact not_isMargin_of_name hname (forall_mem_of_all (by decide))
  | undefined hname => exact not_isMargin_of_name hname (forall_mem_of_all (by decide))
  | whole _ hdigits htail =>
      exact List.forall_mem_append.mpr ⟨hdigits.not_isMargin, htail.not_isMargin⟩
  | pointed hdigits hfraction _ htail =>
      exact List.forall_mem_append.mpr ⟨hdigits.not_isMargin, List.forall_mem_cons.mpr
        ⟨by decide +kernel, List.forall_mem_append.mpr ⟨hfraction.not_isMargin, htail.not_isMargin⟩⟩⟩

theorem not_isMargin_of_plain {n : Numeral} {core : List Char}
    (h : Plain n ((core.filter (· ≠ '_')).map plainChar)) : ∀ c ∈ core, isMargin c = false := by
  intro c hc
  by_cases hdigit : Text.isDigit c = true
  · rw [isMargin, not_isBlank_of_isDigit hdigit, Bool.false_and]
  · by_cases hunderscore : c = '_'
    · rw [hunderscore]
      decide
    · have hplain := (plainChar_eq c).2 (Bool.eq_false_iff.mpr hdigit)
      have hmem : plainChar c ∈ (core.filter (· ≠ '_')).map plainChar :=
        List.mem_map_of_mem (List.mem_filter.mpr ⟨hc, decide_eq_true hunderscore⟩)
      rw [hplain] at hmem
      exact h.not_isMargin c hmem

theorem signless_of_name {name letters : List Char} (hname : name.map Char.toLower = letters)
    (hletters : letters.head? ≠ some '-' ∧ letters.head? ≠ some '+') : Signless name := by
  subst hname
  refine fun rest => ⟨?_, ?_⟩
  · rintro rfl
    exact hletters.1 rfl
  · rintro rfl
    exact hletters.2 rfl

theorem Unsigned.signless {negative : Bool} {n : Numeral} {cs : List Char}
    (h : Unsigned negative n cs) : Signless cs := by
  have hdecimal : InDigits negative n cs → Signless cs := by
    intro hcs rest
    obtain ⟨c, more, rfl, hc⟩ := hcs.exists_head
    refine ⟨fun heq => ?_, fun heq => ?_⟩
    all_goals
      rw [(List.cons.inj heq).1] at hc
      exact absurd hc (by decide)
  cases h with
  | infinity hname => obtain hname | hname := hname <;> exact signless_of_name hname (by decide)
  | undefined hname => exact signless_of_name hname (by decide)
  | whole hne hdigits htail => exact hdecimal ⟨.whole hne hdigits htail, _, _, rfl⟩
  | pointed hdigits hfraction hne htail =>
      exact hdecimal ⟨.pointed hdigits hfraction hne htail, _, _, rfl⟩

theorem readLoose?_eq (text : String) : readLoose? text =
    (dropUnderscores? false ((trimmed text.toList).map plainChar)).bind fun cs =>
      readMagnitude? (readSign cs).1 (readSign cs).2 := rfl

/-- **A text is read as a number** exactly if it spells one, and then as the nearest one there is. -/
theorem readLoose?_eq_some_iff {text : String} {x : Binary64} :
    readLoose? text = some x ↔ ∃ n, Spells n text.toList ∧ n.nearest = x := by
  rw [readLoose?_eq, Option.bind_eq_some_iff]
  constructor
  · rintro ⟨plain, hplain, hx⟩
    obtain ⟨hgrouped, rfl⟩ := dropUnderscores?_eq_some_iff.mp hplain
    obtain ⟨n, hn, hnearest⟩ := readMagnitude?_eq_some_iff.mp hx
    obtain ⟨sign, hsign, hsplit⟩ :=
      exists_of_readSign (((trimmed text.toList).filter (· ≠ '_')).map plainChar)
    obtain ⟨lead, trail, hlead, htrail, htext⟩ := exists_trimmed text.toList
    refine ⟨n, ?_, hnearest⟩
    rw [htext]
    refine .padded hlead htrail hgrouped ?_
    rw [hsplit]
    exact .signed hsign hn
  · rintro ⟨n, htext, rfl⟩
    generalize text.toList = cs at htext
    -- no character of a number is white space, so just the blanks around it are cut off
    obtain ⟨hlead, htrail, hgrouped, hplain⟩ := htext
    rw [trimmed_padded hlead (not_isMargin_of_plain hplain) htrail]
    refine ⟨_, dropUnderscores?_eq_some_iff.mpr ⟨hgrouped, rfl⟩, ?_⟩
    generalize (List.filter _ _).map plainChar = plain at hplain
    obtain ⟨hsign, hrest⟩ := hplain
    rw [readSign_append hsign hrest.signless]
    exact readMagnitude?_eq_some_iff.mpr ⟨n, hrest, rfl⟩

end RustScript.Binary64
