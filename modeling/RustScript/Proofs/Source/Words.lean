import Mathlib.Data.List.TakeWhile
import RustScript.Source.Scan

/-!
# Words and the blanks between them

How the readers of text meet a word: blanks in front of it are passed over, it is read as a whole
where no further character of a word follows, and it is taken for a keyword only if it is that
keyword. Everything about the reading of use trees and of declarations is built from these lemmas.
-/

set_option autoImplicit false

namespace RustScript.Text

/-! ## Blanks -/

/-- Blanks, and at least one of them. -/
structure Gap (cs : List Char) : Prop where
  blank : allBlank cs
  ne_nil : cs ≠ []

theorem allBlank_nil : allBlank [] := rfl

theorem allBlank_cons {c : Char} {cs : List Char} :
    allBlank (c :: cs) ↔ isBlank c ∧ allBlank cs := by
  simp [allBlank]

theorem allBlank_append {a b : List Char} : allBlank (a ++ b) ↔ allBlank a ∧ allBlank b := by
  simp [allBlank, List.all_append]

theorem isBlank_of_mem {c : Char} {cs : List Char} (h : allBlank cs) (hc : c ∈ cs) : isBlank c :=
  List.all_eq_true.mp h c hc

theorem not_mem_of_blank {mark : Char} (hmark : isBlank mark = false) {gap : List Char}
    (hgap : allBlank gap) : mark ∉ gap := fun hmem => by
  rw [isBlank_of_mem hgap hmem] at hmark
  cases hmark

theorem stripLeft_append_of_allBlank {a : List Char} (b : List Char) (h : allBlank a) :
    stripLeft (a ++ b) = stripLeft b :=
  List.dropWhile_append_of_pos fun _ hc => isBlank_of_mem h hc

theorem stripLeft_cons_of_not_blank {c : Char} (cs : List Char) (h : isBlank c = false) :
    stripLeft (c :: cs) = c :: cs :=
  List.dropWhile_cons_of_neg (by rw [h]; exact Bool.false_ne_true)

/-- A text splits into its leading blanks and what is left of it. -/
theorem exists_blanks_append (cs : List Char) :
    ∃ blanks, allBlank blanks ∧ cs = blanks ++ stripLeft cs :=
  ⟨cs.takeWhile isBlank, List.all_eq_true.mpr fun _ hc => List.mem_takeWhile_imp hc,
    List.takeWhile_append_dropWhile.symm⟩

theorem not_blank_of_stripLeft {c : Char} {cs rest : List Char} (h : stripLeft cs = c :: rest) :
    isBlank c = false := by
  have hne : cs.dropWhile isBlank ≠ [] := by
    rw [show cs.dropWhile isBlank = c :: rest from h]
    exact List.cons_ne_nil c rest
  have hhead := List.head_dropWhile_not isBlank hne
  simpa [show cs.dropWhile isBlank = c :: rest from h] using hhead

theorem stripLeft_append_of_not_allBlank {a : List Char} (b : List Char) (h : ¬ allBlank a) :
    stripLeft (a ++ b) = stripLeft a ++ b := by
  obtain ⟨blanks, hblanks, hsplit⟩ := exists_blanks_append a
  cases hleft : stripLeft a with
  | nil => exact absurd (stripLeft_eq_nil_iff.mp hleft) h
  | cons c rest =>
      rw [hleft] at hsplit
      rw [hsplit, List.append_assoc, stripLeft_append_of_allBlank _ hblanks, List.cons_append,
        stripLeft_cons_of_not_blank _ (not_blank_of_stripLeft hleft)]

theorem stripRight_append_of_allBlank (a : List Char) {b : List Char} (h : allBlank b) :
    stripRight (a ++ b) = stripRight a := by
  have hrev : ∀ c ∈ b.reverse, isBlank c := fun c hc =>
    isBlank_of_mem h (List.mem_reverse.mp hc)
  unfold stripRight
  rw [List.reverse_append, List.dropWhile_append_of_pos hrev]

theorem prefix_stripRight (cs : List Char) : stripRight cs <+: cs := by
  unfold stripRight
  rw [← List.reverse_suffix, List.reverse_reverse]
  exact List.dropWhile_suffix _

/-- Stripping stops at a character that is not blank. -/
theorem stripRight_append (front : List Char) {c : Char} (hc : isBlank c = false)
    (cs : List Char) : stripRight (front ++ [c] ++ cs) = front ++ [c] ++ stripRight cs := by
  have hstop : (c :: front.reverse).dropWhile isBlank = c :: front.reverse :=
    stripLeft_cons_of_not_blank front.reverse hc
  unfold stripRight
  rw [List.reverse_append, List.reverse_append, List.reverse_singleton, List.singleton_append,
    List.dropWhile_append]
  split
  · next hempty =>
      rw [hstop, List.isEmpty_iff.mp hempty, List.reverse_nil, List.append_nil, List.reverse_cons,
        List.reverse_reverse]
  · rw [List.reverse_append, List.reverse_cons, List.reverse_reverse]

theorem stripRight_of_allBlank {cs : List Char} (h : allBlank cs = true) : stripRight cs = [] := by
  have hnil := stripRight_append_of_allBlank [] h
  rwa [List.nil_append] at hnil

theorem strip_of_allBlank {cs : List Char} (h : allBlank cs = true) : strip cs = [] := by
  unfold strip
  rw [stripLeft_eq_nil_iff.mpr h]
  rfl

/-- Blanks around a text do not change what stripping leaves. -/
theorem strip_padded {before after : List Char} (cs : List Char) (hbefore : allBlank before)
    (hafter : allBlank after) : strip (before ++ cs ++ after) = strip cs := by
  unfold strip
  rw [List.append_assoc, stripLeft_append_of_allBlank _ hbefore]
  by_cases h : allBlank cs
  · rw [stripLeft_eq_nil_iff.mpr (allBlank_append.mpr ⟨h, hafter⟩), stripLeft_eq_nil_iff.mpr h]
  · rw [stripLeft_append_of_not_allBlank _ h, stripRight_append_of_allBlank _ hafter]

/-- The text has no blank at either end. -/
structure Trimmed (cs : List Char) : Prop where
  front : ∃ c rest, cs = c :: rest ∧ isBlank c = false
  back : ∃ rest c, cs = rest ++ [c] ∧ isBlank c = false

theorem Trimmed.append {a b : List Char} (between : List Char) (ha : Trimmed a) (hb : Trimmed b) :
    Trimmed (a ++ (between ++ b)) := by
  obtain ⟨c, rest, rfl, hc⟩ := ha.front
  obtain ⟨init, d, rfl, hd⟩ := hb.back
  refine ⟨⟨c, rest ++ (between ++ (init ++ [d])), rfl, hc⟩,
    ⟨c :: rest ++ (between ++ init), d, ?_, hd⟩⟩
  rw [List.append_assoc, List.append_assoc]

theorem Trimmed.singleton {c : Char} (h : isBlank c = false) : Trimmed [c] :=
  ⟨⟨c, [], rfl, h⟩, ⟨[], c, rfl, h⟩⟩

theorem Trimmed.not_allBlank {cs : List Char} (h : Trimmed cs) : ¬ allBlank cs := by
  obtain ⟨c, rest, rfl, hc⟩ := h.front
  intro hall
  rw [(allBlank_cons.mp hall).1] at hc
  cases hc

theorem Trimmed.stripLeft_append {a : List Char} (h : Trimmed a) (b : List Char) :
    stripLeft (a ++ b) = a ++ b := by
  obtain ⟨c, rest, rfl, hc⟩ := h.front
  exact stripLeft_cons_of_not_blank (rest ++ b) hc

theorem Trimmed.strip {cs : List Char} (h : Trimmed cs) : Text.strip cs = cs := by
  obtain ⟨init, d, hsnoc, hd⟩ := h.back
  have hleft := h.stripLeft_append []
  rw [List.append_nil] at hleft
  unfold Text.strip
  rw [hleft]
  unfold stripRight
  rw [hsnoc, List.reverse_append, List.reverse_singleton, List.singleton_append,
    List.dropWhile_cons_of_neg (by rw [hd]; exact Bool.false_ne_true), List.reverse_cons,
    List.reverse_reverse]

/-- Stripping takes away exactly the blanks around a text that has none at its ends. -/
theorem Trimmed.strip_padded {before cs after : List Char} (h : Trimmed cs)
    (hbefore : allBlank before) (hafter : allBlank after) :
    Text.strip (before ++ cs ++ after) = cs := by
  rw [Text.strip_padded cs hbefore hafter, h.strip]

theorem Trimmed.strip_append {blanks cs : List Char} (h : Trimmed cs) (hblanks : allBlank blanks) :
    Text.strip (blanks ++ cs) = cs := by
  rw [← List.append_nil (blanks ++ cs)]
  exact h.strip_padded hblanks allBlank_nil

end RustScript.Text

namespace RustScript.Source

open RustScript.Text

/-! ## Words -/

/-- A character of a word is not blank. -/
theorem not_blank_of_isAsciiWord {c : Char} (h : isAsciiWord c) : isBlank c = false := by
  have hrange : (65 ≤ c.toNat ∧ c.toNat ≤ 90) ∨ (97 ≤ c.toNat ∧ c.toNat ≤ 122) ∨
      (48 ≤ c.toNat ∧ c.toNat ≤ 57) ∨ c.toNat = 95 := by
    delta isAsciiWord Char.isAlphanum Char.isAlpha Char.isUpper Char.isLower Char.isDigit at h
    simp only [Bool.or_eq_true, Bool.and_eq_true, decide_eq_true_eq, UInt32.le_iff_toNat_le,
      ge_iff_le] at h
    change (((65 ≤ c.toNat ∧ c.toNat ≤ 90) ∨ (97 ≤ c.toNat ∧ c.toNat ≤ 122)) ∨
      (48 ≤ c.toNat ∧ c.toNat ≤ 57)) ∨ c = '_' at h
    rcases h with ((h | h) | h) | rfl
    · exact Or.inl h
    · exact Or.inr (Or.inl h)
    · exact Or.inr (Or.inr (Or.inl h))
    · exact Or.inr (Or.inr (Or.inr rfl))
  -- the numbers of the blanks are in none of these ranges
  cases hblank : isBlank c with
  | false => rfl
  | true =>
      simp only [isBlank, Bool.or_eq_true, Bool.and_eq_true, decide_eq_true_eq,
        beq_iff_eq] at hblank
      omega

theorem isAsciiWord_of_isBlank {c : Char} (h : isBlank c) : isAsciiWord c = false := by
  cases hword : isAsciiWord c with
  | false => rfl
  | true => exact absurd h (by rw [not_blank_of_isAsciiWord hword]; exact Bool.false_ne_true)

/-- A word in front of the text ends where the text begins. -/
def Breaks : List Char → Prop
  | [] => True
  | c :: _ => isAsciiWord c = false

/-- Characters of a word, and at least one of them. -/
structure IsWord (cs : List Char) : Prop where
  word : ∀ c ∈ cs, isAsciiWord c
  ne_nil : cs ≠ []

theorem Breaks.gap_append {gap : List Char} (h : Gap gap) (cs : List Char) :
    Breaks (gap ++ cs) := by
  cases gap with
  | nil => exact absurd rfl h.ne_nil
  | cons c rest => exact isAsciiWord_of_isBlank (allBlank_cons.mp h.blank).1

theorem Breaks.blank_append {blanks cs : List Char} (h : allBlank blanks) (hcs : Breaks cs) :
    Breaks (blanks ++ cs) := by
  cases blanks with
  | nil => exact hcs
  | cons c rest => exact isAsciiWord_of_isBlank (allBlank_cons.mp h).1

theorem takeWhile_word {w cs : List Char} (hw : ∀ c ∈ w, isAsciiWord c) (hcs : Breaks cs) :
    (w ++ cs).takeWhile isAsciiWord = w := by
  rw [List.takeWhile_append_of_pos hw]
  cases cs with
  | nil => exact List.append_nil w
  | cons c rest =>
      rw [List.takeWhile_cons_of_neg (by rw [show isAsciiWord c = false from hcs]; decide),
        List.append_nil]

theorem dropWhile_word {w cs : List Char} (hw : ∀ c ∈ w, isAsciiWord c) (hcs : Breaks cs) :
    (w ++ cs).dropWhile isAsciiWord = cs := by
  rw [List.dropWhile_append_of_pos hw]
  cases cs with
  | nil => rfl
  | cons c rest =>
      exact List.dropWhile_cons_of_neg (by rw [show isAsciiWord c = false from hcs]; decide)

/-- The first word of a text is determined. -/
theorem word_unique {w k cs cs' : List Char} (hw : IsWord w) (hk : IsWord k) (hcs : Breaks cs)
    (hcs' : Breaks cs') (h : w ++ cs = k ++ cs') : w = k :=
  calc w = (w ++ cs).takeWhile isAsciiWord := (takeWhile_word hw.word hcs).symm
    _ = (k ++ cs').takeWhile isAsciiWord := by rw [h]
    _ = k := takeWhile_word hk.word hcs'

/-- A word with a blank or the end of the text around it is not blank at its ends. -/
theorem IsWord.trimmed {w : List Char} (h : IsWord w) : Trimmed w := by
  refine ⟨?_, ?_⟩
  · obtain ⟨c, rest, rfl⟩ := List.exists_cons_of_ne_nil h.ne_nil
    exact ⟨c, rest, rfl, not_blank_of_isAsciiWord (h.word c List.mem_cons_self)⟩
  · exact ⟨w.dropLast, w.getLast h.ne_nil, (List.dropLast_concat_getLast h.ne_nil).symm,
      not_blank_of_isAsciiWord (h.word _ (List.getLast_mem h.ne_nil))⟩

/-! ## Up to a mark -/

section

variable {mark : Char} {front : List Char}

theorem dropWhile_mark (h : mark ∉ front) (rest : List Char) :
    (front ++ mark :: rest).dropWhile (· ≠ mark) = mark :: rest := by
  rw [List.dropWhile_append_of_pos]
  · exact List.dropWhile_cons_of_neg (by simp)
  · intro c hc
    exact decide_eq_true fun heq => h (heq ▸ hc)

theorem takeWhile_mark (h : mark ∉ front) (rest : List Char) :
    (front ++ mark :: rest).takeWhile (· ≠ mark) = front := by
  rw [List.takeWhile_append_of_pos, List.takeWhile_cons_of_neg (by simp), List.append_nil]
  intro c hc
  exact decide_eq_true fun heq => h (heq ▸ hc)

theorem exists_of_dropWhile {cs rest : List Char} {c : Char}
    (h : cs.dropWhile (· ≠ mark) = c :: rest) :
    ∃ front, mark ∉ front ∧ cs = front ++ mark :: rest := by
  have hne : cs.dropWhile (· ≠ mark) ≠ [] := by
    rw [h]
    exact List.cons_ne_nil c rest
  have hhead := List.head_dropWhile_not (· ≠ mark) hne
  simp only [h, List.head_cons, decide_eq_false_iff_not, not_not] at hhead
  refine ⟨cs.takeWhile (· ≠ mark), fun hmem => ?_, ?_⟩
  · have hmark := List.mem_takeWhile_imp hmem
    exact of_decide_eq_true hmark rfl
  · rw [← hhead, ← h, hhead, List.takeWhile_append_dropWhile]

end

/-! ## Keywords -/

theorem afterPrefix_append (word cs : List Char) : afterPrefix word (word ++ cs) = some cs := by
  induction word with
  | nil => rfl
  | cons w rest ih => simp only [List.cons_append, afterPrefix, if_true, ih]

theorem eq_append_of_afterPrefix {word cs rest : List Char}
    (h : afterPrefix word cs = some rest) : cs = word ++ rest := by
  fun_induction afterPrefix word cs with
  | case1 cs => exact Option.some.inj h
  | case2 => cases h
  | case3 w word cs ih => rw [List.cons_append, ih h]
  | case4 => cases h

theorem afterBlanks_append {gap : List Char} (cs : List Char) (h : Gap gap) :
    afterBlanks (gap ++ cs) = some (stripLeft cs) := by
  cases gap with
  | nil => exact absurd rfl h.ne_nil
  | cons c rest =>
      obtain ⟨hc, hrest⟩ := allBlank_cons.mp h.blank
      rw [List.cons_append, afterBlanks, if_pos hc, stripLeft_append_of_allBlank cs hrest]

theorem exists_of_afterBlanks {cs rest : List Char} (h : afterBlanks cs = some rest) :
    ∃ gap, Gap gap ∧ cs = gap ++ rest := by
  cases cs with
  | nil => cases h
  | cons c more =>
      simp only [afterBlanks] at h
      split at h
      · next hc =>
          obtain ⟨blanks, hall, hsplit⟩ := exists_blanks_append more
          refine ⟨c :: blanks, ⟨allBlank_cons.mpr ⟨hc, hall⟩, List.cons_ne_nil c blanks⟩, ?_⟩
          rw [← Option.some.inj h, List.cons_append, ← hsplit]
      · cases h

/-- A keyword and the blanks behind it are passed over. -/
theorem keyword_append (word : String) {gap : List Char} (cs : List Char) (h : Gap gap) :
    keyword word (word.toList ++ (gap ++ cs)) = some (stripLeft cs) := by
  unfold keyword
  rw [afterPrefix_append]
  exact afterBlanks_append cs h

/-- A keyword is read only where it stands with blanks behind it. -/
theorem exists_of_keyword {word : String} {cs rest : List Char} (h : keyword word cs = some rest) :
    ∃ gap, Gap gap ∧ cs = word.toList ++ (gap ++ rest) := by
  obtain ⟨after, hafter, hblanks⟩ := Option.bind_eq_some_iff.mp h
  obtain ⟨gap, hgap, rfl⟩ := exists_of_afterBlanks hblanks
  exact ⟨gap, hgap, eq_append_of_afterPrefix hafter⟩

/-- Another word is not taken for a keyword. -/
theorem keyword_of_ne {word : String} {w cs : List Char} (hword : IsWord word.toList)
    (hw : IsWord w) (hcs : Breaks cs) (hne : w ≠ word.toList) : keyword word (w ++ cs) = none := by
  cases h : keyword word (w ++ cs) with
  | none => rfl
  | some rest =>
      obtain ⟨gap, hgap, hsplit⟩ := exists_of_keyword h
      exact absurd (word_unique hw hword hcs (Breaks.gap_append hgap rest) hsplit) hne

/-- Where no word begins there is no keyword. -/
theorem keyword_of_not_word {word : String} {c : Char} (cs : List Char)
    (hword : IsWord word.toList) (hc : isAsciiWord c = false) : keyword word (c :: cs) = none := by
  cases h : keyword word (c :: cs) with
  | none => rfl
  | some rest =>
      -- the keyword would begin with the same character
      obtain ⟨gap, -, hsplit⟩ := exists_of_keyword h
      obtain ⟨k, more, hk⟩ := List.exists_cons_of_ne_nil hword.ne_nil
      rw [hk, List.cons_append] at hsplit
      have hck : c = k := (List.cons.inj hsplit).1
      rw [hck, hword.word k (by rw [hk]; exact List.mem_cons_self)] at hc
      cases hc

/-! ## Names -/

/-- An identifier in ASCII: a letter or an underscore, then characters of a word. -/
def isIdentifier : List Char → Bool
  | [] => false
  | c :: rest => (c.isAlpha || c = '_') && rest.all isAsciiWord

theorem isWord_of_isIdentifier {cs : List Char} (h : isIdentifier cs) : IsWord cs := by
  cases cs with
  | nil => cases h
  | cons c rest =>
      obtain ⟨hc, hrest⟩ := Bool.and_eq_true_iff.mp h
      refine ⟨List.forall_mem_cons.mpr ⟨?_, List.all_eq_true.mp hrest⟩, List.cons_ne_nil c rest⟩
      rcases Bool.or_eq_true_iff.mp hc with halpha | hline
      · simp [isAsciiWord, Char.isAlphanum, halpha]
      · simp [isAsciiWord, of_decide_eq_true hline]

/-- A name is read as a whole. -/
theorem identifier_append {w cs : List Char} (hw : isIdentifier w) (hcs : Breaks cs) :
    identifier (w ++ cs) = some (String.ofList w, cs) := by
  cases w with
  | nil => cases hw
  | cons c rest =>
      obtain ⟨hc, hrest⟩ := Bool.and_eq_true_iff.mp hw
      have hall : ∀ d ∈ rest, isAsciiWord d := List.all_eq_true.mp hrest
      show (if c.isAlpha || c = '_' then some (String.ofList (c :: (rest ++ cs).takeWhile
        isAsciiWord), (rest ++ cs).dropWhile isAsciiWord) else none) = _
      rw [if_pos hc, takeWhile_word hall hcs, dropWhile_word hall hcs]

theorem identifier_of_not_word {c : Char} (cs : List Char) (hc : isAsciiWord c = false) :
    identifier (c :: cs) = none := by
  have hstart : ¬ (c.isAlpha || decide (c = '_')) = true := by
    intro h
    have hword : isAsciiWord c := by
      rcases Bool.or_eq_true_iff.mp h with halpha | hline
      · simp [isAsciiWord, Char.isAlphanum, halpha]
      · simp [isAsciiWord, of_decide_eq_true hline]
    rw [hword] at hc
    cases hc
  exact if_neg hstart

/-- What is read as a name is one, and it ends there. -/
theorem exists_of_identifier {cs rest : List Char} {name : String}
    (h : identifier cs = some (name, rest)) :
    isIdentifier name.toList ∧ Breaks rest ∧ cs = name.toList ++ rest := by
  cases cs with
  | nil => cases h
  | cons c more =>
      simp only [identifier] at h
      split at h
      · next hc =>
          obtain ⟨rfl, rfl⟩ := Prod.mk.inj (Option.some.inj h)
          have htake : (more.takeWhile isAsciiWord).all isAsciiWord :=
            List.all_eq_true.mpr fun _ hd => List.mem_takeWhile_imp hd
          refine ⟨?_, ?_, ?_⟩
          · rw [String.toList_ofList]
            exact Bool.and_eq_true_iff.mpr ⟨hc, htake⟩
          · cases hdrop : more.dropWhile isAsciiWord with
            | nil => trivial
            | cons d after =>
                have hne : more.dropWhile isAsciiWord ≠ [] := by
                  rw [hdrop]
                  exact List.cons_ne_nil d after
                have hhead := List.head_dropWhile_not isAsciiWord hne
                simp only [hdrop, List.head_cons] at hhead
                exact hhead
          · rw [String.toList_ofList, List.cons_append, List.takeWhile_append_dropWhile]
      · cases h

end RustScript.Source
