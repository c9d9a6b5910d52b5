import RustScript.Proofs.Source.Words
import RustScript.Rust.Lexer
import Mathlib.Data.List.TakeDrop
import Mathlib.Tactic.SplitIfs
import Mathlib.Tactic.Tauto

/-!
# Words of Rust and the names taken of them

The lexer cuts words out of a text that are identifiers, with or without the mark of a raw one.
The name that is taken of a word is the word itself, unless the word goes on behind its letters of
ASCII or is raw. Conversely, where a name of ASCII stands and no word of ASCII goes on behind it,
the lexer reads a word that the name is taken of, if the name is not the front of a literal.
-/

set_option autoImplicit false

namespace RustScript.Source

open RustScript.Rust RustScript.Text

/-! ## Identifiers -/

/-- An identifier of Rust: a character that starts one, and characters that continue it. -/
def IsRustIdentifier : List Char → Prop
  | [] => False
  | c :: rest => isIdentifierStart c ∧ ∀ d ∈ rest, isIdentifierContinue d

/-- A word of Rust: an identifier, or one with the mark of a raw identifier. -/
inductive IsRustWord : List Char → Prop
  | plain {w : List Char} (h : IsRustIdentifier w) : IsRustWord w
  | raw {w : List Char} (h : IsRustIdentifier w) : IsRustWord ('r' :: '#' :: w)

theorem continues_of_starts {c : Char} (h : isIdentifierStart c) : isIdentifierContinue c := by
  simp [isIdentifierContinue, h]

theorem continues_of_isAsciiWord {c : Char} (h : isAsciiWord c) : isIdentifierContinue c := by
  simp only [isAsciiWord, Char.isAlphanum, Bool.or_eq_true] at h
  simp only [isIdentifierContinue, isIdentifierStart, Bool.or_eq_true]
  tauto

theorem starts_of_letter {c : Char} (h : (c.isAlpha || decide (c = '_')) = true) :
    isIdentifierStart c := by
  simp [isIdentifierStart, h]

theorem isRustIdentifier_of_isIdentifier {w : List Char} (h : isIdentifier w) :
    IsRustIdentifier w := by
  cases w with
  | nil => cases h
  | cons c rest =>
      obtain ⟨hc, hrest⟩ := Bool.and_eq_true_iff.mp h
      exact ⟨starts_of_letter hc,
        fun d hd => continues_of_isAsciiWord (List.all_eq_true.mp hrest d hd)⟩

/-! ## One token -/

/-- What a token that has been read off the front of a text looks like: a word is one of Rust, a
macro variable begins with its mark. -/
def Reads (cs : List Char) : TokenKind × List Char → Prop
  | (.word, after) => ∃ w, IsRustWord w ∧ cs = w ++ after
  | (.metavariable, after) => ∃ w, cs = '$' :: w ++ after
  | _ => True

theorem exists_identifier {c : Char} (rest : List Char) (hc : isIdentifierStart c) :
    ∃ w, IsRustIdentifier w ∧ c :: rest = w ++ (c :: rest).dropWhile isIdentifierContinue := by
  refine ⟨c :: rest.takeWhile isIdentifierContinue, ⟨hc, fun _ hd => List.mem_takeWhile_imp hd⟩, ?_⟩
  rw [List.dropWhile_cons_of_pos (continues_of_starts hc), List.cons_append,
    List.takeWhile_append_dropWhile]

theorem reads_run {c : Char} (rest : List Char) (hc : isIdentifierStart c) :
    Reads (c :: rest) (.word, (c :: rest).dropWhile isIdentifierContinue) :=
  have ⟨w, hw, hsplit⟩ := exists_identifier rest hc
  ⟨w, .plain hw, hsplit⟩

theorem reads_literal (cs : List Char) (rest : Option (List Char)) :
    ∀ found ∈ rest.map fun after => (TokenKind.literal, after), Reads cs found := by
  intro found hfound
  obtain ⟨after, -, rfl⟩ := Option.map_eq_some_iff.1 hfound
  trivial

theorem reads_readToken (afterDot : Bool) (cs : List Char) :
    ∀ found ∈ readToken afterDot cs, Reads cs found := by
  intro found h
  unfold readToken at h
  dsimp only at h
  split at h
  · cases h
  · exact reads_literal _ _ found h
  · exact reads_literal _ _ found h
  · exact reads_literal _ _ found h
  · split at h
    · exact reads_literal _ _ found h
    · cases h
      exact reads_run _ (by decide)
  · split at h
    · exact reads_literal _ _ found h
    · cases h
      exact reads_run _ (by decide)
  · split at h
    · exact reads_literal _ _ found h
    · cases h
      exact reads_run _ (by decide)
  · split at h
    · exact reads_literal _ _ found h
    · split at h
      next c more _ =>
        split_ifs at h with hc
        · cases h
          obtain ⟨w, hw, hsplit⟩ := exists_identifier more hc
          exact ⟨'r' :: '#' :: w, .raw hw, by rw [List.cons_append, List.cons_append, ← hsplit]⟩
        · cases h
          exact reads_run _ (by decide)
      · cases h
        exact reads_run _ (by decide)
  · split at h <;> cases h
    · trivial
    · exact reads_run _ (by decide)
  · split at h <;> cases h <;> trivial
  · split_ifs at h <;> cases h
    next c rest _ =>
      refine ⟨c :: rest.takeWhile isIdentifierContinue, ?_⟩
      rw [List.cons_append, List.cons_append, List.takeWhile_append_dropWhile]
    · trivial
  · split at h
    · split at h <;> cases h <;> trivial
    · split_ifs at h with hstart <;> cases h
      · exact reads_run _ hstart
      · trivial

/-! ## The tokens of a text -/

/-- What a token looks like. -/
def Token.Looks (t : Token) : Prop :=
  (t.kind = .word → IsRustWord t.text.toList) ∧
    (t.kind = .metavariable → t.text.toList.head? = some '$')

theorem looks_of_reads (cs : List Char) {after : List Char} {kind : TokenKind}
    (glued commented : Bool) (h : Reads cs (kind, after)) :
    Token.Looks ⟨kind, String.ofList (cs.take (cs.length - after.length)), glued, commented⟩ := by
  have htake (w : List Char) (hw : cs = w ++ after) : cs.take (cs.length - after.length) = w := by
    rw [hw, List.length_append, Nat.add_sub_cancel, List.take_left]
  constructor
  · rintro rfl
    obtain ⟨w, hw, hsplit⟩ := h
    rw [String.toList_ofList, htake w hsplit]
    exact hw
  · rintro rfl
    obtain ⟨w, hsplit⟩ := h
    rw [String.toList_ofList, htake ('$' :: w) hsplit]
    rfl

theorem looks_lexFrom {fuel : Nat} {state : LexState} {cs : List Char} {tokens : List Token}
    (h : lexFrom fuel state cs = some tokens) : ∀ t ∈ tokens, Token.Looks t := by
  fun_induction lexFrom fuel state cs generalizing tokens with
  | case1 | case2 =>
      cases h
      exact fun _ ht => nomatch ht
  | case3 _ _ _ ih | case5 _ _ _ _ _ _ _ ih | case6 _ _ _ _ _ _ _ _ _ ih => exact ih h
  | case4 _ _ _ ih =>
      obtain ⟨after, -, h⟩ := Option.bind_eq_some_iff.1 h
      exact ih after h
  | case7 _ state c rest _ _ _ _ ih =>
      obtain ⟨⟨kind, after⟩, hread, h⟩ := Option.bind_eq_some_iff.1 h
      obtain ⟨more, hmore, rfl⟩ := Option.map_eq_some_iff.1 h
      exact List.forall_mem_cons.2 ⟨looks_of_reads (c :: rest) state.glued state.commented
        (reads_readToken state.afterDot (c :: rest) _ hread), ih after hmore⟩

theorem looks_lex {source : String} {tokens : List Token} (h : Token.lex source = some tokens) :
    ∀ t ∈ tokens, Token.Looks t :=
  looks_lexFrom h

/-! ## What is taken of a word -/

/-- **What becomes of a word.** A name is the whole word, unless the word is a raw identifier or
goes on behind its letters of ASCII. -/
inductive Taken (name : List Char) : List Char → Prop
  | whole (h : IsRustIdentifier name) : Taken name name
  | cut {c : Char} {rest : List Char} (continues : isIdentifierContinue c)
      (foreign : isAsciiWord c = false) : Taken name (name ++ c :: rest)
  | mark {rest : List Char} (h : name = ['r']) : Taken name ('r' :: '#' :: rest)
  | raw {rest : List Char} (h : name = 'r' :: '#' :: rest) : Taken name ('r' :: '#' :: rest)

theorem taken_of_eq {word : List Char} (h : IsRustWord word) : Taken word word := by
  cases h with
  | plain h => exact .whole h
  | raw h => exact .raw rfl

theorem taken_of_asciiHead {word name : String} (h : IsRustWord word.toList)
    (hname : asciiHead word = some name) : Taken name.toList word.toList := by
  unfold asciiHead at hname
  generalize word.toList = w at h hname
  cases h with
  | raw h =>
      cases hname
      exact .mark (String.toList_ofList)
  | plain h =>
      cases w with
      | nil => cases h
      | cons c rest =>
          dsimp only at hname
          split_ifs at hname with hc
          cases hname
          have hsplit := List.takeWhile_append_dropWhile (p := isAsciiWord) (l := rest)
          rw [String.toList_ofList]
          cases hdrop : rest.dropWhile isAsciiWord with
          | nil =>
              rw [hdrop, List.append_nil] at hsplit
              rw [hsplit]
              exact .whole h
          | cons d more =>
              have hd : d ∈ rest := (List.dropWhile_sublist _).subset (hdrop ▸ List.mem_cons_self)
              have hforeign : isAsciiWord d = false := by
                have hhead := List.head_dropWhile_not isAsciiWord (l := rest) (by simp [hdrop])
                simpa [hdrop] using hhead
              have hcut : Taken (c :: rest.takeWhile isAsciiWord)
                  (c :: rest.takeWhile isAsciiWord ++ d :: more) := .cut (h.2 d hd) hforeign
              rwa [List.cons_append, ← hdrop, hsplit] at hcut

/-! ## Reading a name off a text -/

/-- What stands before the opening quote of a literal, and the mark of a raw identifier. -/
def literalFronts : List (List Char) := [['r'], ['b'], ['c'], ['b', 'r'], ['c', 'r']]

/-- What stands behind it. -/
def literalMarks : List Char := ['"', '\'', '#']

/-- The name is the front of a literal, or the mark of a raw identifier. -/
def BeginsLiteral (name after : List Char) : Prop :=
  name ∈ literalFronts ∧ ∃ mark ∈ literalMarks, ∃ rest, after = mark :: rest

theorem isAsciiWord_of_literalFronts :
    ∀ front ∈ literalFronts, ∀ c ∈ front, isAsciiWord c = true := by
  have hall : (literalFronts.all fun front => front.all isAsciiWord) = true := by decide
  simpa only [List.all_eq_true] using hall

theorem isAsciiWord_of_literalMarks : ∀ mark ∈ literalMarks, isAsciiWord mark = false := by
  have hall : (literalMarks.all fun mark => !isAsciiWord mark) = true := by decide
  simpa only [List.all_eq_true, Bool.not_eq_true'] using hall

theorem exists_of_rawStringOpening {cs : List Char} {opening : Nat × List Char}
    (h : rawStringOpening cs = some opening) :
    ∃ mark ∈ literalMarks, ∃ rest, cs = mark :: rest := by
  cases cs with
  | nil => cases h
  | cons c rest =>
      refine ⟨c, ?_, rest, rfl⟩
      by_cases hc : c = '#'
      · exact hc ▸ by decide
      · unfold rawStringOpening at h
        rw [List.span_eq_takeWhile_dropWhile, List.takeWhile_cons_of_neg (by simpa using hc),
          List.dropWhile_cons_of_neg (by simpa using hc)] at h
        split at h
        next heq =>
          cases heq
          decide
        · cases h

theorem not_digit_of_letter {c : Char} (h : (c.isAlpha || decide (c = '_')) = true) :
    c.isDigit = false := by
  rcases Bool.or_eq_true_iff.1 h with h | h
  · delta Char.isAlpha Char.isUpper Char.isLower at h
    delta Char.isDigit
    simp only [Bool.or_eq_true, Bool.and_eq_true, decide_eq_true_eq, UInt32.le_iff_toNat_le,
      ge_iff_le] at h
    simp only [Bool.and_eq_false_iff, decide_eq_false_iff_not, UInt32.le_iff_toNat_le, ge_iff_le]
    change (65 ≤ c.toNat ∧ c.toNat ≤ 90) ∨ (97 ≤ c.toNat ∧ c.toNat ≤ 122) at h
    change ¬ 48 ≤ c.toNat ∨ ¬ c.toNat ≤ 57
    omega
  · rw [of_decide_eq_true h]
    rfl

section

variable {name after : List Char} (hname : isIdentifier name)
include hname

theorem letter_of_append {c : Char} {rest : List Char} (h : name ++ after = c :: rest) :
    (c.isAlpha || decide (c = '_')) = true := by
  cases name with
  | nil => cases hname
  | cons d more =>
      cases h
      exact (Bool.and_eq_true_iff.1 hname).1

/-- What no word goes on with stands behind the name. -/
theorem behind_of_append {word rest : List Char} {q : Char} (hword : ∀ c ∈ word, isAsciiWord c)
    (hq : isAsciiWord q = false) (hbreaks : Breaks after) (h : name ++ after = word ++ q :: rest) :
    name = word ∧ after = q :: rest := by
  have htake := takeWhile_word (isWord_of_isIdentifier hname).word hbreaks
  have hdrop := dropWhile_word (isWord_of_isIdentifier hname).word hbreaks
  rw [h] at htake hdrop
  exact ⟨htake.symm.trans (takeWhile_word hword hq), hdrop.symm.trans (dropWhile_word hword hq)⟩

theorem readToken_name (hbreaks : Breaks after) (hliteral : ¬ BeginsLiteral name after) :
    readToken false (name ++ after) = some (.word, after.dropWhile isIdentifierContinue) := by
  have hrun : (name ++ after).dropWhile isIdentifierContinue =
      after.dropWhile isIdentifierContinue :=
    List.dropWhile_append_of_pos fun c hc =>
      continues_of_isAsciiWord ((isWord_of_isIdentifier hname).word c hc)
  -- a mark behind the front of a literal would stand behind the name
  have hmark (front : List Char) (mark : Char) (hfront : front ∈ literalFronts)
      (hquote : mark ∈ literalMarks) (rest : List Char) : name ++ after ≠ front ++ mark :: rest := by
    intro h
    obtain ⟨rfl, rfl⟩ := behind_of_append hname (isAsciiWord_of_literalFronts _ hfront)
      (isAsciiWord_of_literalMarks _ hquote) hbreaks h
    exact hliteral ⟨hfront, mark, hquote, rest, rfl⟩
  have hraw (front rest : List Char) (hfront : front ∈ literalFronts)
      (h : name ++ after = front ++ rest) : rawStringOpening rest = none := by
    cases hopen : rawStringOpening rest with
    | none => rfl
    | some opening =>
        obtain ⟨mark, hquote, more, rfl⟩ := exists_of_rawStringOpening hopen
        exact absurd h (hmark front mark hfront hquote more)
  have hletter {c : Char} {rest : List Char} (h : name ++ after = c :: rest) :=
    letter_of_append hname h
  have hne : name ++ after ≠ [] := by
    simp [(isWord_of_isIdentifier hname).ne_nil]
  rw [← hrun]
  generalize name ++ after = cs at hmark hraw hletter hne
  unfold readToken
  dsimp only
  split
  · exact absurd rfl hne
  · exact absurd (hletter rfl) (by decide)
  · exact absurd rfl (hmark ['b'] '"' (by decide) (by decide) _)
  · exact absurd rfl (hmark ['c'] '"' (by decide) (by decide) _)
  · exact absurd rfl (hmark ['r'] '"' (by decide) (by decide) _)
  next rest => rw [hraw ['b', 'r'] rest (by decide) rfl]
  next rest => rw [hraw ['c', 'r'] rest (by decide) rfl]
  · exact absurd rfl (hmark ['r'] '#' (by decide) (by decide) _)
  · exact absurd rfl (hmark ['b'] '\'' (by decide) (by decide) _)
  · exact absurd (hletter rfl) (by decide)
  · exact absurd (hletter rfl) (by decide)
  · have hc := hletter rfl
    rw [if_neg (by rw [not_digit_of_letter hc]; decide), if_pos (starts_of_letter hc)]

end

end RustScript.Source
