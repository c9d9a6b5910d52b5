import Mathlib.Data.List.Forall2
import RustScript.Proofs.Source.Readers

/-!
# Texts that differ in their blanks

Two texts are alike if they differ only in which blanks stand where blanks stand, and line feeds are
among them in both or in neither: in how lines are indented, in what blank lines hold, in carriage
returns before line feeds, and in how far words are apart. The readers of declarations do not see the
difference. Each of them finds alike things at the front of alike texts (`Preserves`), so
that a scan finds the same in both (`Finder.starts_alike`).
-/

set_option autoImplicit false

namespace RustScript.Text

/-- The texts differ only in blanks, and have line feeds in the same places. -/
inductive Alike : List Char → List Char → Prop
  | nil : Alike [] []
  | same (c : Char) {cs cs' : List Char} : Alike cs cs' → Alike (c :: cs) (c :: cs')
  | gap {gap gap' cs cs' : List Char} : Gap gap → Gap gap' →
      ('\n' ∈ gap ↔ '\n' ∈ gap') → Alike cs cs' → Alike (gap ++ cs) (gap' ++ cs')

namespace Alike

variable {cs cs' : List Char}

/-- Around line feeds any blanks may stand. -/
theorem feed {gap gap' : List Char} (hgap : allBlank gap) (hgap' : allBlank gap')
    (hfeed : '\n' ∈ gap) (hfeed' : '\n' ∈ gap') (h : Alike cs cs') :
    Alike (gap ++ cs) (gap' ++ cs') :=
  .gap ⟨hgap, List.ne_nil_of_mem hfeed⟩ ⟨hgap', List.ne_nil_of_mem hfeed'⟩
    (iff_of_true hfeed hfeed') h

theorem refl (cs : List Char) : Alike cs cs := by
  induction cs with
  | nil => exact .nil
  | cons c cs ih => exact .same c ih

theorem symm (h : Alike cs cs') : Alike cs' cs := by
  induction h with
  | nil => exact .nil
  | same c _ ih => exact .same c ih
  | gap hgap hgap' hsame _ ih => exact .gap hgap' hgap hsame.symm ih

theorem append (h : Alike cs cs') {ds ds' : List Char} (hds : Alike ds ds') :
    Alike (cs ++ ds) (cs' ++ ds') := by
  induction h with
  | nil => exact hds
  | same c _ ih => exact .same c ih
  | gap hgap hgap' hsame _ ih =>
      rw [List.append_assoc, List.append_assoc]
      exact .gap hgap hgap' hsame ih

theorem reverse (h : Alike cs cs') : Alike cs.reverse cs'.reverse := by
  induction h with
  | nil => exact .nil
  | same c _ ih =>
      rw [List.reverse_cons, List.reverse_cons]
      exact ih.append (.same c .nil)
  | @gap gap gap' _ _ hgap hgap' hsame _ ih =>
      have hback : ∀ {gap : List Char}, Gap gap → Gap gap.reverse := fun h =>
        ⟨List.all_eq_true.mpr fun c hc => isBlank_of_mem h.blank (List.mem_reverse.mp hc),
          fun hnil => h.ne_nil (List.reverse_eq_nil_iff.mp hnil)⟩
      have hends : Alike gap.reverse gap'.reverse := by
        rw [← List.append_nil gap.reverse, ← List.append_nil gap'.reverse]
        exact .gap (hback hgap) (hback hgap') (by simpa using hsame) .nil
      rw [List.reverse_append, List.reverse_append]
      exact ih.append hends

/-! ## Alike texts from their fronts -/

theorem eq_nil (h : Alike [] cs') : cs' = [] := by
  generalize hnil : ([] : List Char) = cs at h
  cases h with
  | nil => rfl
  | same => cases hnil
  | gap hgap _ _ _ => exact absurd (List.append_eq_nil_iff.mp hnil.symm).1 hgap.ne_nil

/-- Alike texts have the same first character unless it is blank. -/
theorem of_cons {c : Char} (hc : isBlank c = false) (h : Alike (c :: cs) cs') :
    ∃ rest', cs' = c :: rest' ∧ Alike cs rest' := by
  generalize hcons : c :: cs = text at h
  cases h with
  | nil => cases hcons
  | @same d _ rest' h =>
      obtain ⟨rfl, rfl⟩ := List.cons.inj hcons
      exact ⟨rest', rfl, h⟩
  | @gap gap _ _ _ hgap _ _ _ =>
      cases gap with
      | nil => exact absurd rfl hgap.ne_nil
      | cons d gap =>
          rw [(List.cons.inj hcons).1, (allBlank_cons.mp hgap.blank).1] at hc
          cases hc

theorem of_append {word : List Char} (hword : ∀ c ∈ word, isBlank c = false)
    (h : Alike (word ++ cs) cs') : ∃ rest', cs' = word ++ rest' ∧ Alike cs rest' := by
  induction word generalizing cs' with
  | nil => exact ⟨cs', rfl, h⟩
  | cons c word ih =>
      obtain ⟨rest, rfl, hrest⟩ := of_cons (hword c List.mem_cons_self) h
      obtain ⟨rest', rfl, hrest'⟩ := ih (fun d hd => hword d (List.mem_cons_of_mem c hd)) hrest
      exact ⟨rest', rfl, hrest'⟩

/-- What stands around a mark in one text stands around it in the other. -/
theorem of_mark {mark : Char} (hmark : isBlank mark = false) {front rest : List Char}
    (h : Alike (front ++ mark :: rest) cs') :
    ∃ front' rest', cs' = front' ++ mark :: rest' ∧ Alike front front' ∧ Alike rest rest' := by
  generalize htext : front ++ mark :: rest = text at h
  induction h generalizing front with
  | nil => exact absurd htext (by simp)
  | @same c cs cs' h ih =>
      cases front with
      | nil =>
          obtain ⟨rfl, rfl⟩ := List.cons.inj htext
          exact ⟨[], cs', rfl, .nil, h⟩
      | cons d front =>
          obtain ⟨rfl, htail⟩ := List.cons.inj htext
          obtain ⟨front', rest', rfl, hfront, hrest⟩ := ih htail
          exact ⟨d :: front', rest', rfl, .same d hfront, hrest⟩
  | @gap gap gap' cs cs' hgap hgap' hsame h ih =>
      rcases List.append_eq_append_iff.mp htext with ⟨gap₂, hsplit, hrest⟩ | ⟨front₂, rfl, hrest⟩
      · cases gap₂ with
        | nil =>
            rw [List.append_nil] at hsplit
            obtain ⟨front', rest', rfl, hfront, hrest'⟩ := ih (show [] ++ mark :: rest = cs from hrest)
            refine ⟨gap' ++ front', rest', (List.append_assoc _ _ _).symm, ?_, hrest'⟩
            rw [← hsplit, ← List.append_nil gap]
            exact .gap hgap hgap' hsame hfront
        | cons c gap₂ =>
            -- the mark is not blank
            have hblank := hgap.blank
            rw [hsplit] at hblank
            have hmem : mark ∈ front ++ c :: gap₂ := by
              rw [(List.cons.inj hrest).1]
              exact List.mem_append_right front List.mem_cons_self
            exact absurd hmem (not_mem_of_blank hmark hblank)
      · obtain ⟨front', rest', rfl, hfront, hrest'⟩ := ih hrest.symm
        exact ⟨gap' ++ front', rest', (List.append_assoc _ _ _).symm,
          .gap hgap hgap' hsame hfront, hrest'⟩

theorem mem_of_mem {c : Char} (hc : isBlank c = false) (h : Alike cs cs') (hmem : c ∈ cs) :
    c ∈ cs' := by
  obtain ⟨front, rest, rfl⟩ := List.append_of_mem hmem
  obtain ⟨front', rest', rfl, -, -⟩ := of_mark hc h
  exact List.mem_append_right front' List.mem_cons_self

/-! ## Blanks -/

theorem stripLeft (h : Alike cs cs') : Alike (Text.stripLeft cs) (Text.stripLeft cs') := by
  induction h with
  | nil => exact .nil
  | @same c cs cs' h ih =>
      by_cases hc : isBlank c = true
      · have hcons : ∀ rest, Text.stripLeft (c :: rest) = Text.stripLeft rest := fun rest =>
          List.dropWhile_cons_of_pos hc
        rw [hcons, hcons]
        exact ih
      · rw [Bool.not_eq_true] at hc
        rw [stripLeft_cons_of_not_blank _ hc, stripLeft_cons_of_not_blank _ hc]
        exact .same c h
  | gap hgap hgap' _ _ ih =>
      rw [stripLeft_append_of_allBlank _ hgap.blank, stripLeft_append_of_allBlank _ hgap'.blank]
      exact ih

theorem strip (h : Alike cs cs') : Alike (Text.strip cs) (Text.strip cs') :=
  h.stripLeft.reverse.stripLeft.reverse

theorem allBlank_iff (h : Alike cs cs') : allBlank cs ↔ allBlank cs' := by
  have hleft : ∀ {cs cs' : List Char}, Alike cs cs' → Text.stripLeft cs = [] →
      Text.stripLeft cs' = [] := fun h hnil => (hnil ▸ h.stripLeft).eq_nil
  rw [← stripLeft_eq_nil_iff, ← stripLeft_eq_nil_iff]
  exact ⟨hleft h, hleft h.symm⟩

end Alike

end RustScript.Text

namespace RustScript.Source

open RustScript.Text

/-! ## Functions that do not see the difference -/

/-- Of alike texts the function gives results that are related. -/
def Preserves {α : Type} (rel : α → α → Prop) (read : List Char → Option α) : Prop :=
  ∀ cs cs', Alike cs cs' → ∀ x, read cs = some x → ∃ x', read cs' = some x' ∧ rel x x'

section

variable {α β : Type} {rel : α → α → Prop} {read : List Char → Option α}

theorem Preserves.eq_none (h : Preserves rel read) {cs cs' : List Char} (halike : Alike cs cs')
    (hnone : read cs = none) : read cs' = none := by
  cases hread : read cs' with
  | none => rfl
  | some x =>
      obtain ⟨_, hother, -⟩ := h cs' cs halike.symm x hread
      rw [hnone] at hother
      cases hother

theorem Preserves.bind {rest : List Char → Option (List Char)} (hrest : Preserves Alike rest)
    (h : Preserves rel read) : Preserves rel fun cs => rest cs >>= read := by
  intro cs cs' halike x hx
  obtain ⟨behind, hbehind, hread⟩ := Option.bind_eq_some_iff.mp hx
  obtain ⟨behind', hbehind', halike'⟩ := hrest cs cs' halike behind hbehind
  obtain ⟨x', hx', hrel⟩ := h behind behind' halike' x hread
  exact ⟨x', Option.bind_eq_some_iff.mpr ⟨behind', hbehind', hx'⟩, hrel⟩

theorem Preserves.map {read : List Char → Option (List Char)} {change : List Char → List Char}
    (h : Preserves Alike read) (hchange : ∀ {cs cs'}, Alike cs cs' → Alike (change cs) (change cs')) :
    Preserves Alike fun cs => (read cs).map change := by
  intro cs cs' halike x hx
  obtain ⟨rest, hrest, rfl⟩ := Option.map_eq_some_iff.mp hx
  obtain ⟨rest', hrest', halike'⟩ := h cs cs' halike rest hrest
  exact ⟨change rest', Option.map_eq_some_iff.mpr ⟨rest', hrest', rfl⟩, hchange halike'⟩

/-- The rest of a text behind something optional. -/
theorem Preserves.getD {read : List Char → Option (List Char)} (h : Preserves Alike read)
    {cs cs' : List Char} (halike : Alike cs cs') :
    Alike ((read cs).getD cs) ((read cs').getD cs') := by
  cases hread : read cs with
  | none =>
      rw [h.eq_none halike hread]
      exact halike
  | some rest =>
      obtain ⟨rest', hread', hrest⟩ := h cs cs' halike rest hread
      rw [hread']
      exact hrest

end

/-- What is found is related, and what is left is alike. -/
def Finds {α : Type} (rel : α → α → Prop) (found found' : α × List Char) : Prop :=
  rel found.1 found'.1 ∧ Alike found.2 found'.2

theorem preserves_afterPrefix {word : List Char} (hword : ∀ c ∈ word, isBlank c = false) :
    Preserves Alike (afterPrefix word) := by
  intro cs cs' halike rest hrest
  rw [eq_append_of_afterPrefix hrest] at halike
  obtain ⟨rest', rfl, hrest'⟩ := halike.of_append hword
  exact ⟨rest', afterPrefix_append word rest', hrest'⟩

theorem preserves_afterBlanks : Preserves Alike afterBlanks := by
  intro cs cs' halike rest hrest
  cases halike with
  | nil => cases hrest
  | @same c cs cs' h =>
      by_cases hc : isBlank c = true
      · rw [afterBlanks, if_pos hc] at hrest
        rw [afterBlanks, if_pos hc, ← Option.some.inj hrest]
        exact ⟨_, rfl, h.stripLeft⟩
      · rw [afterBlanks, if_neg hc] at hrest
        cases hrest
  | gap hgap hgap' _ h =>
      rw [afterBlanks_append _ hgap] at hrest
      rw [afterBlanks_append _ hgap', ← Option.some.inj hrest]
      exact ⟨_, rfl, h.stripLeft⟩

theorem preserves_word {word : String} (hword : IsWord word.toList) :
    Preserves Alike (afterPrefix word.toList) :=
  preserves_afterPrefix fun c hc => not_blank_of_isAsciiWord (hword.word c hc)

theorem preserves_colons : Preserves Alike (afterPrefix [':', ':']) :=
  preserves_afterPrefix (List.forall_mem_cons.mpr ⟨rfl, List.forall_mem_singleton.mpr rfl⟩)

theorem preserves_keyword {word : String} (hword : IsWord word.toList) :
    Preserves Alike (keyword word) :=
  (preserves_word hword).bind preserves_afterBlanks

theorem preserves_identifier : Preserves (Finds Eq) identifier := by
  intro cs cs' halike found hfound
  obtain ⟨name, rest⟩ := found
  obtain ⟨hname, hbreaks, rfl⟩ := exists_of_identifier hfound
  have hword := isWord_of_isIdentifier hname
  obtain ⟨rest', rfl, hrest⟩ :=
    halike.of_append fun c hc => not_blank_of_isAsciiWord (hword.word c hc)
  have hbreaks' : Breaks rest' := by
    cases rest' with
    | nil => exact trivial
    | cons c rest' =>
        cases hc : isAsciiWord c with
        | false => exact hc
        | true =>
            -- a further character of the word would stand in both texts
            obtain ⟨more, rfl, -⟩ := hrest.symm.of_cons (not_blank_of_isAsciiWord hc)
            rw [show isAsciiWord c = false from hbreaks] at hc
            cases hc
  refine ⟨(name, rest'), ?_, rfl, hrest⟩
  rw [identifier_append hname hbreaks', String.ofList_toList]

/-! ## Up to a mark -/

theorem takeWhile_of_not_mem {mark : Char} {cs : List Char} (h : mark ∉ cs) :
    cs.takeWhile (· ≠ mark) = cs :=
  List.takeWhile_eq_self_iff.mpr fun _ hc => decide_eq_true fun heq => h (heq ▸ hc)

theorem dropWhile_of_not_mem {mark : Char} {cs : List Char} (h : mark ∉ cs) :
    cs.dropWhile (· ≠ mark) = [] :=
  List.dropWhile_eq_nil_iff.mpr fun _ hc => decide_eq_true fun heq => h (heq ▸ hc)

/-- A mark stands in both texts or in none of them, with alike texts on either side. -/
theorem alike_mark {mark : Char} (hmark : isBlank mark = false) {cs cs' : List Char}
    (h : Alike cs cs') : Alike (cs.takeWhile (· ≠ mark)) (cs'.takeWhile (· ≠ mark)) ∧
      ((cs.dropWhile (· ≠ mark) = [] ∧ cs'.dropWhile (· ≠ mark) = []) ∨
        ∃ after after', cs.dropWhile (· ≠ mark) = mark :: after ∧
          cs'.dropWhile (· ≠ mark) = mark :: after' ∧ Alike after after') := by
  by_cases hmem : mark ∈ cs
  · obtain ⟨front, rest, rfl, hfree⟩ := List.eq_append_cons_of_mem hmem
    obtain ⟨front', rest', rfl, hfront, hrest⟩ := h.of_mark hmark
    have hfree' : mark ∉ front' := fun hin => hfree (hfront.symm.mem_of_mem hmark hin)
    rw [takeWhile_mark hfree, takeWhile_mark hfree']
    exact ⟨hfront, .inr ⟨rest, rest', dropWhile_mark hfree rest, dropWhile_mark hfree' rest', hrest⟩⟩
  · have hmem' : mark ∉ cs' := fun hin => hmem (h.symm.mem_of_mem hmark hin)
    rw [takeWhile_of_not_mem hmem, takeWhile_of_not_mem hmem']
    exact ⟨h, .inl ⟨dropWhile_of_not_mem hmem, dropWhile_of_not_mem hmem'⟩⟩

/-! ## The readers -/

theorem preserves_treeText : Preserves (Finds Alike) treeText := by
  intro cs cs' halike found hfound
  obtain ⟨htake, ⟨hnone, -⟩ | ⟨after, after', hsome, hsome', hafter⟩⟩ :=
    alike_mark (show isBlank ';' = false by decide) halike
  all_goals unfold treeText at hfound ⊢
  · rw [hnone] at hfound
    cases hfound
  · rw [hsome] at hfound
    rw [hsome', ← Option.some.inj hfound]
    exact ⟨_, rfl, htake, hafter⟩

/-- The text behind what stands in parentheses, if there is a closing one. -/
def behindScope (rest : List Char) : List Char :=
  match rest with
  | '(' :: inner =>
      match inner.dropWhile (· ≠ ')') with
      | _ :: after => after
      | [] => rest
  | _ => rest

theorem alike_behindScope {cs cs' : List Char} (h : Alike cs cs') :
    Alike (behindScope cs) (behindScope cs') := by
  cases h with
  | nil => exact .nil
  | @same c rest rest' h =>
      by_cases hc : c = '('
      · subst hc
        unfold behindScope
        obtain ⟨-, ⟨hnone, hnone'⟩ | ⟨after, after', hsome, hsome', hafter⟩⟩ :=
          alike_mark (show isBlank ')' = false by decide) h
        · simp only [hnone, hnone']
          exact .same '(' h
        · simp only [hsome, hsome']
          exact hafter
      · have hother : ∀ rest, behindScope (c :: rest) = c :: rest := fun rest => by
          unfold behindScope
          split
          · next heq => exact absurd (List.cons.inj heq).1 hc
          · rfl
        rw [hother, hother]
        exact .same c h
  | gap hgap hgap' hsame h =>
      have hother : ∀ {gap : List Char} (rest : List Char), Gap gap →
          behindScope (gap ++ rest) = gap ++ rest := by
        intro gap rest hgap
        cases gap with
        | nil => exact absurd rfl hgap.ne_nil
        | cons c gap =>
            unfold behindScope
            split
            · next heq =>
                have hc := (allBlank_cons.mp hgap.blank).1
                rw [(List.cons.inj heq).1] at hc
                cases hc
            · rfl
      rw [hother _ hgap, hother _ hgap']
      exact .gap hgap hgap' hsame h

theorem alike_optionalKeyword {word : String} (hword : IsWord word.toList) {cs cs' : List Char}
    (h : Alike cs cs') : Alike (optionalKeyword word cs) (optionalKeyword word cs') :=
  (preserves_keyword hword).getD h

theorem alike_optionalVisibility {cs cs' : List Char} (h : Alike cs cs') :
    Alike (optionalVisibility cs) (optionalVisibility cs') := by
  have hpub : Preserves Alike (afterPrefix ['p', 'u', 'b']) :=
    preserves_word (isWord_written (w := "pub") (by decide))
  exact ((hpub.map alike_behindScope).bind preserves_afterBlanks).getD h

theorem not_attribute {cs : List Char} (h : ∀ rest, cs ≠ '#' :: '[' :: rest) (fuel : Nat) :
    skipAttributes fuel cs = cs := by
  cases fuel with
  | zero => rfl
  | succ fuel =>
      unfold skipAttributes
      split
      · next rest => exact absurd rfl (h rest)
      · rfl

theorem alike_skipAttributes {fuel fuel' : Nat} {cs cs' : List Char} (h : Alike cs cs')
    (hfuel : cs.length ≤ fuel) (hfuel' : cs'.length ≤ fuel') :
    Alike (skipAttributes fuel cs) (skipAttributes fuel' cs') := by
  induction fuel generalizing fuel' cs cs' with
  | zero =>
      obtain rfl := List.eq_nil_of_length_eq_zero (Nat.le_zero.mp hfuel)
      obtain rfl := h.eq_nil
      have hnil : ∀ fuel, skipAttributes fuel [] = [] := fun fuel => by cases fuel <;> rfl
      rw [hnil, hnil]
      exact .nil
  | succ fuel ih =>
      by_cases hopen : ∃ rest, cs = '#' :: '[' :: rest
      · obtain ⟨rest, rfl⟩ := hopen
        obtain ⟨_, rfl, hbracket⟩ := h.of_cons (by decide)
        obtain ⟨rest', rfl, hrest⟩ := hbracket.of_cons (by decide)
        obtain ⟨fuel', rfl⟩ : ∃ n, fuel' = n + 1 :=
          ⟨fuel' - 1, by simp only [List.length_cons] at hfuel'; omega⟩
        unfold skipAttributes
        obtain ⟨-, ⟨hnone, hnone'⟩ | ⟨after, after', hsome, hsome', hafter⟩⟩ :=
          alike_mark (show isBlank ']' = false by decide) hrest
        · simp only [hnone, hnone']
          exact h
        · have hshort : ∀ {rest after : List Char}, rest.dropWhile (· ≠ ']') = ']' :: after →
              (stripLeft after).length ≤ rest.length := by
            intro rest after hbehind
            have hdrop := (List.dropWhile_suffix (· ≠ ']') (l := rest)).length_le
            have hstrip := (List.dropWhile_suffix isBlank (l := after)).length_le
            rw [hbehind, List.length_cons] at hdrop
            unfold stripLeft
            omega
          simp only [hsome, hsome']
          have hlength := hshort hsome
          have hlength' := hshort hsome'
          simp only [List.length_cons] at hfuel hfuel'
          exact ih hafter.stripLeft (by omega) (by omega)
      · have hopen' : ¬ ∃ rest, cs' = '#' :: '[' :: rest := by
          rintro ⟨rest, rfl⟩
          obtain ⟨_, rfl, hbracket⟩ := h.symm.of_cons (by decide)
          obtain ⟨rest', rfl, -⟩ := hbracket.of_cons (by decide)
          exact hopen ⟨rest', rfl⟩
        rw [not_attribute fun rest heq => hopen ⟨rest, heq⟩,
          not_attribute fun rest heq => hopen' ⟨rest, heq⟩]
        exact h

/-! ## What is left of a text -/

theorem stripLeft_suffix (cs : List Char) : stripLeft cs <:+ cs := List.dropWhile_suffix isBlank

theorem stripLeft_stripLeft (cs : List Char) : stripLeft (stripLeft cs) = stripLeft cs := by
  cases h : stripLeft cs with
  | nil => rfl
  | cons c rest => exact stripLeft_cons_of_not_blank rest (not_blank_of_stripLeft h)

theorem suffix_of_keyword {word : String} {cs rest : List Char} (h : keyword word cs = some rest) :
    rest <:+ cs := by
  obtain ⟨gap, -, rfl⟩ := exists_of_keyword h
  exact ⟨word.toList ++ gap, List.append_assoc _ _ _⟩

theorem suffix_of_identifier {cs rest : List Char} {name : String}
    (h : identifier cs = some (name, rest)) : rest <:+ cs := by
  obtain ⟨-, -, rfl⟩ := exists_of_identifier h
  exact List.suffix_append _ _

theorem suffix_of_treeText {cs text rest : List Char} (h : treeText cs = some (text, rest)) :
    rest <:+ cs := by
  unfold treeText at h
  split at h
  · next hbehind =>
      obtain ⟨-, rfl⟩ := Prod.mk.inj (Option.some.inj h)
      exact (List.suffix_cons _ _).trans (hbehind ▸ List.dropWhile_suffix _)
  · cases h

theorem optionalKeyword_suffix (word : String) (cs : List Char) :
    optionalKeyword word cs <:+ cs := by
  unfold optionalKeyword
  cases h : keyword word cs with
  | none => exact List.suffix_rfl
  | some rest => exact suffix_of_keyword h

theorem optionalVisibility_suffix (cs : List Char) : optionalVisibility cs <:+ cs := by
  obtain ⟨vis, -, hsplit⟩ := exists_optionalVisibility cs
  exact ⟨vis, hsplit.symm⟩

theorem skipAttributes_suffix (fuel : Nat) (cs : List Char) : skipAttributes fuel cs <:+ cs := by
  induction fuel generalizing cs with
  | zero => exact List.suffix_rfl
  | succ fuel ih =>
      unfold skipAttributes
      split
      · next rest =>
          split
          · next after hbehind =>
              have hafter : after <:+ rest :=
                (List.suffix_cons _ _).trans (hbehind ▸ List.dropWhile_suffix _)
              exact (ih _).trans ((stripLeft_suffix after).trans
                (hafter.trans ((List.suffix_cons _ _).trans (List.suffix_cons _ _))))
          · exact List.suffix_rfl
      · exact List.suffix_rfl

/-! ## Declarations at the starts of lines -/

/-- A function that finds something at the start of a line. -/
structure Finder {α : Type} (rel : α → α → Prop) (read : List Char → Option (α × List Char)) :
    Prop where
  nil : read [] = none
  /-- Blanks at the front are passed over. -/
  strip : ∀ cs, read (stripLeft cs) = read cs
  preserves : Preserves (Finds rel) read
  suffix : ∀ cs found rest, read cs = some (found, rest) → rest <:+ cs

/-- A function that reads behind blanks and something optional. -/
theorem Finder.of_change {α : Type} {rel : α → α → Prop}
    {read inner : List Char → Option (α × List Char)} (change : List Char → List Char)
    (h : ∀ cs, read cs = inner (change (stripLeft cs))) (hnil : read [] = none)
    (halike : ∀ {cs cs'}, Alike cs cs' → Alike (change cs) (change cs'))
    (hchange : ∀ cs, change cs <:+ cs) (hinner : Preserves (Finds rel) inner)
    (hsuffix : ∀ cs found rest, inner cs = some (found, rest) → rest <:+ cs) :
    Finder rel read where
  nil := hnil
  strip cs := by rw [h, h, stripLeft_stripLeft]
  preserves cs cs' hcs found hfound := by
    rw [h] at hfound ⊢
    exact hinner _ _ (halike hcs.stripLeft) found hfound
  suffix cs found rest hfound := by
    rw [h] at hfound
    exact (hsuffix _ found rest hfound).trans ((hchange _).trans (stripLeft_suffix cs))

theorem finder_useDeclaration : Finder Alike useDeclaration := by
  refine .of_change optionalVisibility (fun cs => behind_useDeclaration cs) rfl alike_optionalVisibility
    optionalVisibility_suffix
    ((preserves_keyword (isWord_written (w := "use") (by decide))).bind preserves_treeText) ?_
  intro cs text rest h
  obtain ⟨behind, hkeyword, htext⟩ := Option.bind_eq_some_iff.mp h
  exact (suffix_of_treeText htext).trans (suffix_of_keyword hkeyword)

theorem finder_moduleDeclaration : Finder Eq moduleDeclaration := by
  refine .of_change optionalVisibility (fun cs => behind_moduleDeclaration cs) rfl alike_optionalVisibility
    optionalVisibility_suffix
    ((preserves_keyword (isWord_written (w := "mod") (by decide))).bind preserves_identifier) ?_
  intro cs name rest h
  obtain ⟨behind, hkeyword, hname⟩ := Option.bind_eq_some_iff.mp h
  exact (suffix_of_identifier hname).trans (suffix_of_keyword hkeyword)

theorem preserves_behindTypeKeyword : Preserves Alike behindTypeKeyword := by
  have hkinds : ∀ kinds : List String, (∀ kind ∈ kinds, IsWord kind.toList) →
      Preserves Alike fun cs => kinds.findSome? (keyword · cs) := by
    intro kinds hwords
    induction kinds with
    | nil => exact fun _ _ _ x hx => nomatch hx
    | cons kind more ih =>
        have hmore := ih fun k hk => hwords k (List.mem_cons_of_mem kind hk)
        have hkind := preserves_keyword (hwords kind List.mem_cons_self)
        intro cs cs' halike rest hrest
        simp only [List.findSome?_cons] at hrest ⊢
        cases hread : keyword kind cs with
        | some behind =>
            obtain ⟨behind', hread', hbehind⟩ := hkind cs cs' halike behind hread
            rw [hread] at hrest
            rw [hread', ← Option.some.inj hrest]
            exact ⟨behind', rfl, hbehind⟩
        | none =>
            rw [hread] at hrest
            rw [hkind.eq_none halike hread]
            exact hmore cs cs' halike rest hrest
  exact fun _ _ halike => hkinds typeKeywords (fun _ hk => isWord_typeKeyword hk) _ _
    (alike_optionalKeyword isWord_unsafe halike)

theorem finder_typeDeclaration : Finder Eq typeDeclaration := by
  refine .of_change optionalVisibility (fun cs => behind_typeDeclaration cs) rfl alike_optionalVisibility
    optionalVisibility_suffix (preserves_behindTypeKeyword.bind preserves_identifier) ?_
  intro cs name rest h
  obtain ⟨behind, hkeyword, hname⟩ := Option.bind_eq_some_iff.mp h
  obtain ⟨safety, kind, gap, -, -, -, rfl⟩ := exists_of_behindTypeKeyword hkeyword
  refine (suffix_of_identifier hname).trans ⟨safety ++ (kind.toList ++ gap), ?_⟩
  simp only [List.append_assoc]

/-- The words that external crates and entry points are written with. -/
theorem isWord_of_mem {w : String}
    (h : w ∈ ["extern", "crate", "pub", "async", "fn", "main"]) : IsWord w.toList := by
  have hall : ∀ w ∈ ["extern", "crate", "pub", "async", "fn", "main"], isIdentifier w.toList := by
    decide +kernel
  exact isWord_of_isIdentifier (hall w h)

theorem finder_externCrate : Finder Eq externCrate := by
  have hcrate : Preserves (Finds Eq) fun cs => keyword "crate" cs >>= identifier :=
    (preserves_keyword (isWord_of_mem (by decide))).bind preserves_identifier
  refine .of_change (fun cs => skipAttributes cs.length cs) (fun cs => rfl) rfl
    (fun h => alike_skipAttributes h (Nat.le_refl _) (Nat.le_refl _))
    (fun cs => skipAttributes_suffix cs.length cs)
    ((preserves_keyword (isWord_of_mem (w := "extern") (by decide))).bind hcrate) ?_
  intro cs name rest h
  obtain ⟨behind, hextern, h⟩ := Option.bind_eq_some_iff.mp h
  obtain ⟨after, hcrate, hname⟩ := Option.bind_eq_some_iff.mp h
  exact (suffix_of_identifier hname).trans
    ((suffix_of_keyword hcrate).trans (suffix_of_keyword hextern))

/-- The text behind an opening parenthesis and the blanks in front of it. -/
def behindParenthesis (cs : List Char) : Option (Unit × List Char) :=
  match stripLeft cs with
  | '(' :: left => some ((), left)
  | _ => none

theorem behindParenthesis_eq_some {cs : List Char} {found : Unit × List Char}
    (h : behindParenthesis cs = some found) : stripLeft cs = '(' :: found.2 := by
  unfold behindParenthesis at h
  split at h
  · next left hleft =>
      rw [← Option.some.inj h]
      exact hleft
  · cases h

/-- The text behind `main` and its parenthesis. -/
def behindMain (cs : List Char) : Option (Unit × List Char) :=
  (keyword "fn" cs >>= afterPrefix "main".toList) >>= behindParenthesis

theorem mainFunction_eq (cs : List Char) : mainFunction cs =
    behindMain (optionalKeyword "async" (optionalKeyword "pub" (stripLeft cs))) := by
  unfold behindMain
  rw [bind_assoc]
  rfl

theorem preserves_behindParenthesis : Preserves (Finds Eq) behindParenthesis := by
  intro cs cs' halike found hfound
  have hopen := halike.stripLeft
  rw [behindParenthesis_eq_some hfound] at hopen
  obtain ⟨left, hleft, hrest⟩ := hopen.of_cons (by decide)
  refine ⟨((), left), ?_, rfl, hrest⟩
  unfold behindParenthesis
  rw [hleft]
  rfl

theorem finder_mainFunction : Finder Eq mainFunction := by
  have hfn : Preserves Alike fun cs => keyword "fn" cs >>= afterPrefix "main".toList :=
    (preserves_keyword (isWord_of_mem (by decide))).bind
      (preserves_word (isWord_of_mem (by decide)))
  refine .of_change (fun cs => optionalKeyword "async" (optionalKeyword "pub" cs)) mainFunction_eq
    (by decide) (fun h => alike_optionalKeyword (isWord_of_mem (by decide))
      (alike_optionalKeyword (isWord_of_mem (by decide)) h))
    (fun cs => (optionalKeyword_suffix _ _).trans (optionalKeyword_suffix _ cs))
    (hfn.bind preserves_behindParenthesis) ?_
  intro cs found rest h
  obtain ⟨after, hafter, hopen⟩ := Option.bind_eq_some_iff.mp h
  obtain ⟨behind, hkeyword, hmain⟩ := Option.bind_eq_some_iff.mp hafter
  have hleft : rest <:+ stripLeft after := by
    rw [behindParenthesis_eq_some hopen]
    exact List.suffix_cons _ _
  have hname : after <:+ behind := ⟨_, (eq_append_of_afterPrefix hmain).symm⟩
  exact hleft.trans ((stripLeft_suffix after).trans (hname.trans (suffix_of_keyword hkeyword)))

end RustScript.Source
