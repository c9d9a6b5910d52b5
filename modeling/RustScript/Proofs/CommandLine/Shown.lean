import Mathlib.Data.List.Basic
import RustScript.CommandLine.Basic

/-!
# What is to be seen of what is printed

On a terminal everything is to be seen. Elsewhere codes are left out, so that a text is to be seen as
it is exactly if there is no code in it (`withoutCodes_eq_self_iff`). A code does not go beyond its
line, so that lines are shown one by one (`shownOn_line`).
-/

set_option autoImplicit false

namespace RustScript.CommandLine

/-! ## Codes -/

/-- An escape character and a bracket, parameters, and a letter. -/
def IsCode (code : List Char) : Prop :=
  ∃ parameters letter, code = escape :: '[' :: (parameters ++ [letter]) ∧
    (∀ c ∈ parameters, isParameter c = true) ∧ letter.isAlpha = true

theorem not_isParameter_of_isAlpha {c : Char} (h : c.isAlpha = true) : ¬ isParameter c = true := by
  have hdigit : ¬ c.isDigit = true := by
    intro hdigit
    delta Char.isAlpha Char.isUpper Char.isLower at h
    delta Char.isDigit at hdigit
    simp only [Bool.or_eq_true, Bool.and_eq_true, decide_eq_true_eq, UInt32.le_iff_toNat_le,
      ge_iff_le] at h hdigit
    have hnine : '9'.val.toNat = 57 := rfl
    have hupper : 'A'.val.toNat = 65 := rfl
    have hlower : 'a'.val.toNat = 97 := rfl
    omega
  unfold isParameter
  rw [Bool.or_eq_true, Bool.or_eq_true, decide_eq_true_eq, decide_eq_true_eq]
  rintro ((rfl | rfl) | hparameter)
  · exact absurd h (by decide)
  · exact absurd h (by decide)
  · exact hdigit hparameter

theorem tailLength?_eq_some_iff {cs : List Char} {length : Nat} :
    tailLength? cs = some length ↔ ∃ parameters letter rest,
      cs = parameters ++ letter :: rest ∧ (∀ c ∈ parameters, isParameter c = true) ∧
        letter.isAlpha = true ∧ length = parameters.length + 1 := by
  induction cs generalizing length with
  | nil => simp [tailLength?]
  | cons c cs ih =>
      unfold tailLength?
      split
      · next hparameter =>
          rw [Option.map_eq_some_iff]
          constructor
          · rintro ⟨before, hbefore, rfl⟩
            obtain ⟨parameters, letter, rest, rfl, hparameters, hletter, rfl⟩ := ih.mp hbefore
            exact ⟨c :: parameters, letter, rest, rfl,
              List.forall_mem_cons.mpr ⟨hparameter, hparameters⟩, hletter, rfl⟩
          · rintro ⟨_ | ⟨_, parameters⟩, letter, rest, hcs, hparameters, hletter, rfl⟩
            · obtain ⟨rfl, -⟩ := List.cons.inj hcs
              exact absurd hparameter (not_isParameter_of_isAlpha hletter)
            · obtain ⟨rfl, rfl⟩ := List.cons.inj hcs
              exact ⟨_, ih.mpr ⟨parameters, letter, rest, rfl,
                (List.forall_mem_cons.mp hparameters).2, hletter, rfl⟩, rfl⟩
      · next hparameter =>
          constructor
          · intro h
            split at h
            · next hletter => exact ⟨[], c, cs, rfl, nofun, hletter, (Option.some.inj h).symm⟩
            · cases h
          · rintro ⟨_ | ⟨_, parameters⟩, letter, rest, hcs, hparameters, hletter, rfl⟩
            · obtain ⟨rfl, -⟩ := List.cons.inj hcs
              exact if_pos hletter
            · obtain ⟨rfl, -⟩ := List.cons.inj hcs
              exact absurd (hparameters _ List.mem_cons_self) hparameter

theorem codeLength?_eq_some_iff {cs : List Char} {length : Nat} :
    codeLength? cs = some length ↔
      ∃ code rest, cs = code ++ rest ∧ IsCode code ∧ length = code.length := by
  unfold codeLength?
  constructor
  · intro h
    split at h
    · split at h
      · next first second rest hstart =>
          obtain ⟨rfl, rfl⟩ := hstart
          obtain ⟨before, hbefore, rfl⟩ := Option.map_eq_some_iff.mp h
          obtain ⟨parameters, letter, after, rfl, hparameters, hletter, rfl⟩ :=
            tailLength?_eq_some_iff.mp hbefore
          refine ⟨escape :: '[' :: (parameters ++ [letter]), after, ?_,
            ⟨parameters, letter, rfl, hparameters, hletter⟩, ?_⟩ <;> simp
      · cases h
    · cases h
  · rintro ⟨code, rest, rfl, ⟨parameters, letter, rfl, hparameters, hletter⟩, rfl⟩
    have htail : tailLength? (parameters ++ [letter] ++ rest) = some (parameters.length + 1) :=
      tailLength?_eq_some_iff.mpr ⟨parameters, letter, rest, by simp, hparameters, hletter, rfl⟩
    show (if escape = escape ∧ '[' = '[' then
      (tailLength? (parameters ++ [letter] ++ rest)).map (· + 2) else none) = _
    rw [if_pos ⟨rfl, rfl⟩, htail]
    simp

/-- There is a code somewhere in the text. -/
def HasCode (cs : List Char) : Prop :=
  ∃ front code rest, cs = front ++ (code ++ rest) ∧ IsCode code

theorem hasCode_cons {c : Char} {cs : List Char} :
    HasCode (c :: cs) ↔ (codeLength? (c :: cs)).isSome ∨ HasCode cs := by
  rw [Option.isSome_iff_exists]
  constructor
  · rintro ⟨_ | ⟨_, front⟩, code, rest, hcs, hcode⟩
    · exact .inl ⟨_, codeLength?_eq_some_iff.mpr ⟨code, rest, hcs, hcode, rfl⟩⟩
    · obtain ⟨rfl, rfl⟩ := List.cons.inj hcs
      exact .inr ⟨front, code, rest, rfl, hcode⟩
  · rintro (⟨length, hlength⟩ | ⟨front, code, rest, rfl, hcode⟩)
    · obtain ⟨code, rest, hcs, hcode, -⟩ := codeLength?_eq_some_iff.mp hlength
      exact ⟨[], code, rest, hcs, hcode⟩
    · exact ⟨c :: front, code, rest, rfl, hcode⟩

theorem not_hasCode_of_not_mem {cs : List Char} (h : escape ∉ cs) : ¬ HasCode cs := by
  rintro ⟨front, code, rest, rfl, parameters, letter, rfl, -⟩
  exact h (List.mem_append_right _ List.mem_cons_self)

/-! ## Texts without codes -/

theorem withoutCodes_cons (c : Char) (cs : List Char) :
    withoutCodes 0 (c :: cs) =
      match codeLength? (c :: cs) with
      | some length => withoutCodes (length - 1) cs
      | none => c :: withoutCodes 0 cs := rfl

theorem length_withoutCodes_le (skip : Nat) (cs : List Char) :
    (withoutCodes skip cs).length ≤ cs.length := by
  fun_induction withoutCodes skip cs with
  | case1 => exact Nat.le_refl _
  | case2 skip c cs ih => exact Nat.le_succ_of_le ih
  | case3 c cs length hlength ih => exact Nat.le_succ_of_le ih
  | case4 c cs hnone ih => exact Nat.succ_le_succ ih

/-- **A text is to be seen as it is** exactly if there is no code in it. -/
theorem withoutCodes_eq_self_iff {cs : List Char} : withoutCodes 0 cs = cs ↔ ¬ HasCode cs := by
  induction cs with
  | nil => exact iff_of_true rfl (not_hasCode_of_not_mem List.not_mem_nil)
  | cons c cs ih =>
      rw [hasCode_cons, withoutCodes_cons]
      cases hcode : codeLength? (c :: cs) with
      | some length =>
          refine iff_of_false (fun h => ?_) fun h => h (.inl rfl)
          dsimp only at h
          have hle := length_withoutCodes_le (length - 1) cs
          rw [h] at hle
          exact absurd hle (Nat.not_succ_le_self _)
      | none =>
          dsimp only
          rw [List.cons.injEq, ih]
          simp

/-! ## Lines -/

theorem tailLength?_line (cs rest : List Char) :
    tailLength? (cs ++ '\n' :: rest) = tailLength? cs := by
  induction cs with
  | nil => rfl
  | cons c cs ih =>
      unfold tailLength?
      rw [List.cons_append]
      dsimp only
      rw [ih]

theorem codeLength?_line (cs rest : List Char) :
    codeLength? (cs ++ '\n' :: rest) = codeLength? cs := by
  match cs with
  | [] => cases rest <;> simp [codeLength?, escape]
  | [c] => simp [codeLength?]
  | first :: second :: cs =>
      show (if first = escape ∧ second = '[' then
        (tailLength? (cs ++ '\n' :: rest)).map (· + 2) else none) = _
      rw [tailLength?_line]
      rfl

theorem withoutCodes_line {skip : Nat} {cs : List Char} (h : skip ≤ cs.length) (rest : List Char) :
    withoutCodes skip (cs ++ '\n' :: rest) =
      withoutCodes skip cs ++ '\n' :: withoutCodes 0 rest := by
  induction cs generalizing skip with
  | nil =>
      obtain rfl := Nat.le_zero.mp h
      have hnone : codeLength? ('\n' :: rest) = none := codeLength?_line [] rest
      rw [List.nil_append, withoutCodes_cons, hnone]
      rfl
  | cons c cs ih =>
      cases skip with
      | succ skip => exact ih (Nat.le_of_succ_le_succ h)
      | zero =>
          have hline : codeLength? (c :: (cs ++ '\n' :: rest)) = codeLength? (c :: cs) :=
            codeLength?_line (c :: cs) rest
          rw [List.cons_append, withoutCodes_cons, withoutCodes_cons, hline]
          cases hcode : codeLength? (c :: cs) with
          | none => exact congrArg (c :: ·) (ih (Nat.zero_le _))
          | some length =>
              obtain ⟨code, after, hcs, -, rfl⟩ := codeLength?_eq_some_iff.mp hcode
              have hlength : cs.length + 1 = code.length + after.length := by
                rw [← List.length_append, ← hcs, List.length_cons]
              exact ih (by omega)

/-! ## Texts -/

/-- **What is to be seen** is the text as it is, if there is a terminal or no code in the text. -/
theorem shownOn_eq_self_iff {terminal : Bool} {text : String} :
    shownOn terminal text = text ↔ terminal = true ∨ ¬ HasCode text.toList := by
  cases terminal with
  | true => exact iff_of_true rfl (.inl rfl)
  | false =>
      have hshown : shownOn false text = text ↔ withoutCodes 0 text.toList = text.toList := by
        rw [String.ext_iff]
        show (String.ofList (withoutCodes 0 text.toList)).toList = text.toList ↔ _
        rw [String.toList_ofList]
      rw [hshown, withoutCodes_eq_self_iff]
      simp

/-- A line is shown whatever is behind it. -/
theorem shownOn_line (terminal : Bool) (line rest : String) :
    shownOn terminal (line ++ "\n" ++ rest) =
      shownOn terminal line ++ "\n" ++ shownOn terminal rest := by
  cases terminal with
  | true => rfl
  | false =>
      apply String.toList_injective
      have hline := withoutCodes_line (Nat.zero_le line.toList.length) rest.toList
      show (String.ofList (withoutCodes 0 (line ++ "\n" ++ rest).toList)).toList =
        (String.ofList (withoutCodes 0 line.toList) ++ "\n" ++
          String.ofList (withoutCodes 0 rest.toList)).toList
      simpa using hline

/-- The text consists of whole lines. -/
def EndsLine (text : String) : Prop := text = "" ∨ ∃ body, text = body ++ "\n"

/-- Whole lines are shown whatever is behind them. -/
theorem shownOn_append (terminal : Bool) {front : String} (h : EndsLine front) (rest : String) :
    shownOn terminal (front ++ rest) = shownOn terminal front ++ shownOn terminal rest := by
  have hempty : shownOn terminal "" = "" := by cases terminal <;> rfl
  obtain rfl | ⟨body, rfl⟩ := h
  · rw [hempty, String.empty_append, String.empty_append]
  · have hfront := shownOn_line terminal body ""
    rw [hempty, String.append_empty, String.append_empty] at hfront
    rw [shownOn_line, hfront]

end RustScript.CommandLine
