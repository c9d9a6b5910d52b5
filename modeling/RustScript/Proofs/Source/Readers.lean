import RustScript.Proofs.Source.Scanning

/-!
# The readers of the three kinds of declarations

Use declarations, modules and types are read in the same way up to their keywords: behind blanks
and a visibility. So `Reader.of_keyword` gives what the three have in common. Each of them reads its
own declarations, and nothing where no declaration is opened.
-/

set_option autoImplicit false

namespace RustScript.Source

open RustScript.Rust RustScript.Text

/-! ## The visibility -/

theorem Visibility.mono {P Q : List Char → Prop} {vis : List Char}
    (h : ∀ inner, P inner → Q inner) (hvis : Visibility P vis) : Visibility Q vis := by
  cases hvis with
  | inherited => exact .inherited
  | everywhere hgap => exact .everywhere hgap
  | restricted hinner hgap => exact .restricted (h _ hinner) hgap

/-- The parentheses of a visibility hold no other closing one. -/
theorem Scope.not_mem_close {inner : List Char} (h : Scope inner) : ')' ∉ inner := by
  have hplain : Plain inner := by
    cases h with
    | path hbefore hpath hafter =>
        exact plain_append.mpr ⟨.of_blank hbefore, plain_append.mpr ⟨hpath.renders.plain, .of_blank hafter⟩⟩
    | within hbefore hgap hpath hafter =>
        refine plain_append.mpr ⟨.of_blank hbefore, plain_append.mpr ⟨?_, ?_⟩⟩
        · exact Plain.of_word (isWord_written (w := "in") (by decide))
        · exact plain_append.mpr ⟨.of_blank hgap.blank,
            plain_append.mpr ⟨hpath.renders.plain, .of_blank hafter⟩⟩
  exact fun hmem => hplain ')' hmem (by decide)

/-- Another word is no visibility. -/
theorem optionalVisibility_word {w cs : List Char} (hw : IsWord w) (hpub : w ≠ "pub".toList)
    (hcs : Breaks cs) : optionalVisibility (w ++ cs) = w ++ cs := by
  unfold optionalVisibility
  cases hprefix : afterPrefix ['p', 'u', 'b'] (w ++ cs) with
  | none => rfl
  | some rest =>
      -- a word that begins with `pub` goes on behind it
      have hsplit := eq_append_of_afterPrefix hprefix
      have hword : ¬ Breaks rest := fun hbreaks =>
        hpub (word_unique hw (isWord_written (w := "pub") (by decide)) hcs hbreaks hsplit)
      cases rest with
      | nil => exact absurd trivial hword
      | cons c rest =>
          have hc : isAsciiWord c := (Bool.not_eq_false _).mp hword
          have hparen : c ≠ '(' := by
            rintro rfl
            cases hc
          simp only [Option.map_some]
          split
          · next heq => exact absurd (List.cons.inj heq).1 hparen
          · simp [afterBlanks, not_blank_of_isAsciiWord hc]

theorem optionalVisibility_of_not_word {c : Char} (cs : List Char) (hc : isAsciiWord c = false) :
    optionalVisibility (c :: cs) = c :: cs := by
  have hne : ¬ 'p' = c := by
    rintro rfl
    cases hc
  unfold optionalVisibility
  rw [afterPrefix, if_neg hne]
  rfl

/-- A visibility is passed over, with the blanks behind it. -/
theorem optionalVisibility_append {vis w cs : List Char} (hvis : Visibility (')' ∉ ·) vis)
    (hw : IsWord w) (hpub : w ≠ "pub".toList) (hcs : Breaks cs) :
    optionalVisibility (vis ++ (w ++ cs)) = w ++ cs := by
  have hblanks : ∀ {gap : List Char}, Gap gap →
      afterBlanks (gap ++ (w ++ cs)) = some (w ++ cs) := by
    intro gap hgap
    rw [afterBlanks_append _ hgap, hw.trimmed.stripLeft_append]
  have hprefix : ∀ rest, afterPrefix ['p', 'u', 'b'] ("pub".toList ++ rest) = some rest :=
    afterPrefix_append "pub".toList
  cases hvis with
  | inherited =>
      rw [List.nil_append]
      exact optionalVisibility_word hw hpub hcs
  | @everywhere gap hgap =>
      unfold optionalVisibility
      rw [List.append_assoc, hprefix]
      simp only [Option.map_some]
      split
      · next inner heq =>
          obtain ⟨c, rest, rfl⟩ := List.exists_cons_of_ne_nil hgap.ne_nil
          have hc := (allBlank_cons.mp hgap.blank).1
          rw [(List.cons.inj heq).1] at hc
          cases hc
      · show (afterBlanks (gap ++ (w ++ cs))).getD _ = _
        rw [hblanks hgap, Option.getD_some]
  | @restricted inner gap hinner hgap =>
      have hdrop := dropWhile_mark hinner (gap ++ (w ++ cs))
      unfold optionalVisibility
      rw [List.append_assoc, hprefix]
      simp only [Option.map_some, List.append_assoc, List.cons_append, hdrop]
      show (afterBlanks (gap ++ (w ++ cs))).getD _ = _
      rw [hblanks hgap, Option.getD_some]

/-- What is passed over is nothing or a visibility with blanks behind it. -/
theorem exists_optionalVisibility (cs : List Char) :
    ∃ vis, Visibility (')' ∉ ·) vis ∧ cs = vis ++ optionalVisibility cs := by
  unfold optionalVisibility
  cases hprefix : afterPrefix ['p', 'u', 'b'] cs with
  | none => exact ⟨[], .inherited, rfl⟩
  | some rest =>
      -- without a closing parenthesis the reading falls back on `pub` with blanks behind it
      have hsplit : cs = "pub".toList ++ rest := eq_append_of_afterPrefix hprefix
      have hplain : ∃ vis, Visibility (')' ∉ ·) vis ∧ cs = vis ++ (afterBlanks rest).getD cs := by
        cases hblanks : afterBlanks rest with
        | none => exact ⟨[], .inherited, rfl⟩
        | some left =>
            obtain ⟨gap, hgap, rfl⟩ := exists_of_afterBlanks hblanks
            exact ⟨_, .everywhere hgap, by rw [hsplit, List.append_assoc, Option.getD_some]⟩
      simp only [Option.map_some]
      split
      · next inner =>
          cases hdrop : inner.dropWhile (· ≠ ')') with
          | nil => exact hplain
          | cons c after =>
              obtain ⟨front, hfront, rfl⟩ := exists_of_dropWhile hdrop
              show ∃ vis, Visibility (')' ∉ ·) vis ∧ cs = vis ++ (afterBlanks after).getD cs
              cases hblanks : afterBlanks after with
              | none => exact ⟨[], .inherited, rfl⟩
              | some left =>
                  obtain ⟨gap, hgap, rfl⟩ := exists_of_afterBlanks hblanks
                  refine ⟨_, .restricted hfront hgap, ?_⟩
                  simp only [hsplit, List.append_assoc, List.cons_append, Option.getD_some]
      · exact hplain

/-! ## Behind the visibility -/

section

variable {α : Type} {read inner : List Char → Option (α × List Char)} {hot : List String}
  {spurious : α → Prop}

/-- The reader looks at the text behind blanks and a visibility. -/
def BehindVisibility (read inner : List Char → Option (α × List Char)) : Prop :=
  ∀ cs, read cs = inner (optionalVisibility (stripLeft cs))

theorem BehindVisibility.word (h : BehindVisibility read inner) {w cs : List Char} (hw : IsWord w)
    (hpub : w ≠ "pub".toList) (hcs : Breaks cs) : read (w ++ cs) = inner (w ++ cs) := by
  rw [h, hw.trimmed.stripLeft_append, optionalVisibility_word hw hpub hcs]

theorem BehindVisibility.visible (h : BehindVisibility read inner) {lead vis w cs : List Char}
    (hlead : allBlank lead) (hvis : Visibility (')' ∉ ·) vis) (hw : IsWord w)
    (hpub : w ≠ "pub".toList) (hcs : Breaks cs) :
    read (lead ++ (vis ++ (w ++ cs))) = inner (w ++ cs) := by
  have hleft : stripLeft (vis ++ (w ++ cs)) = vis ++ (w ++ cs) := by
    cases hvis with
    | inherited =>
        rw [List.nil_append]
        exact hw.trimmed.stripLeft_append cs
    | everywhere _ => exact stripLeft_cons_of_not_blank _ (by decide)
    | restricted _ _ => exact stripLeft_cons_of_not_blank _ (by decide)
  rw [h, stripLeft_append_of_allBlank _ hlead, hleft, optionalVisibility_append hvis hw hpub hcs]

theorem toList_ne {v w : String} (h : v ≠ w) : v.toList ≠ w.toList :=
  fun heq => h (String.toList_inj.mp heq)

/-- A function that looks behind the visibility for hot words is a reader. -/
theorem Reader.of_keyword (h : BehindVisibility read inner) (hwatched : Watched hot)
    (hpub : "pub" ∈ hot) (hnil : inner [] = none)
    (hmark : ∀ c cs, isAsciiWord c = false → inner (c :: cs) = none)
    (hword : ∀ (w : String) cs, IsWord w.toList → w ∉ hot → Breaks cs →
      inner (w.toList ++ cs) = none)
    (hunion : "union" ∈ hot → ∀ text after, Follows after text →
      Passes inner spurious after ("union".toList ++ text)) :
    Reader read hot spurious where
  watched := hwatched
  pub := hpub
  nil := by
    rw [h]
    exact hnil
  blank c cs hc := by
    have hleft : stripLeft (c :: cs) = stripLeft cs :=
      stripLeft_append_of_allBlank (a := [c]) cs (allBlank_cons.mpr ⟨hc, allBlank_nil⟩)
    rw [h, h, hleft]
  mark c cs hblank hc := by
    rw [h, stripLeft_cons_of_not_blank cs hblank, optionalVisibility_of_not_word cs hc,
      hmark c cs hc]
  word w cs hw hfree hcs := by
    have hne : w ≠ "pub" := fun heq => hfree (heq ▸ hpub)
    rw [h.word hw (toList_ne hne) hcs, hword w cs hw hfree hcs]
  union hmem text after hfollows := by
    have hbreaks : Breaks (text ++ after) := by
      cases hfollows with
      | mark hblanks _ hc =>
          rw [List.append_assoc]
          exact Breaks.blank_append hblanks hc
      | renamed hgap _ =>
          rw [List.append_assoc]
          exact Breaks.gap_append hgap _
    have hread : read ("union".toList ++ text ++ after) =
        inner ("union".toList ++ text ++ after) := by
      rw [List.append_assoc]
      exact h.word (isWord_written (by decide)) (by decide) hbreaks
    unfold Passes
    rw [hread]
    exact hunion hmem text after hfollows
  visible vis w cs hvis hw hne hcs := by
    have hvis' := hvis.mono fun _ => Scope.not_mem_close
    have hread := h.visible allBlank_nil hvis' hw (toList_ne hne) hcs
    rw [List.nil_append] at hread
    rw [hread, h.word hw (toList_ne hne) hcs]

end

/-! ## The three readers -/

/-- The text up to the semicolon and the text behind it. -/
def treeText (cs : List Char) : Option (List Char × List Char) :=
  match cs.dropWhile (· ≠ ';') with
  | _ :: after => some (cs.takeWhile (· ≠ ';'), after)
  | [] => none

theorem behind_useDeclaration :
    BehindVisibility useDeclaration fun cs => keyword "use" cs >>= treeText := fun _ => rfl

theorem behind_moduleDeclaration :
    BehindVisibility moduleDeclaration fun cs => keyword "mod" cs >>= identifier := fun _ => rfl

/-- The text behind a keyword of types. -/
def behindTypeKeyword (cs : List Char) : Option (List Char) :=
  typeKeywords.findSome? (keyword · (optionalKeyword "unsafe" cs))

/-- The name behind a keyword of types. -/
def typeName (cs : List Char) : Option (String × List Char) := behindTypeKeyword cs >>= identifier

theorem behind_typeDeclaration : BehindVisibility typeDeclaration typeName := fun _ => rfl

/-- The words that a scan for types waits for. -/
def typeHot : List String := "pub" :: "unsafe" :: typeKeywords

instance (hot : List String) : Decidable (Watched hot) :=
  inferInstanceAs (Decidable (∀ w ∈ hot, w ∈ declaringWords ∨ w = "union"))

/-- A function that looks for one keyword behind the visibility is a reader. -/
theorem Reader.of_one {α : Type} {read next : List Char → Option (α × List Char)} {word : String}
    (h : BehindVisibility read fun cs => keyword word cs >>= next) (hword : IsWord word.toList)
    (hwatched : Watched ["pub", word]) (hunion : "union" ∉ ["pub", word]) :
    Reader read ["pub", word] fun _ => False := by
  refine Reader.of_keyword h hwatched List.mem_cons_self ?_ ?_ ?_ fun hmem => absurd hmem hunion
  · have hnil : keyword word [] = none := by
      obtain ⟨c, rest, hc⟩ := List.exists_cons_of_ne_nil hword.ne_nil
      rw [keyword, hc]
      rfl
    simp only [hnil]
    rfl
  · intro c cs hc
    simp only [keyword_of_not_word cs hword hc]
    rfl
  · intro w cs hw hfree hcs
    have hne : w ≠ word := fun heq => hfree (heq ▸ List.mem_cons_of_mem _ List.mem_cons_self)
    simp only [keyword_of_ne hword hw hcs (toList_ne hne)]
    rfl

theorem reader_useDeclaration : Reader useDeclaration ["pub", "use"] fun _ => False :=
  .of_one behind_useDeclaration (isWord_written (by decide)) (by decide) (by decide)

theorem reader_moduleDeclaration : Reader moduleDeclaration ["pub", "mod"] fun _ => False :=
  .of_one behind_moduleDeclaration (isWord_written (by decide)) (by decide) (by decide)

/-- Of several keywords the one that stands there is read. -/
theorem findSome?_keyword {kinds : List String} (hkinds : ∀ k ∈ kinds, IsWord k.toList)
    {w : String} (hw : IsWord w.toList) {cs : List Char} (hcs : Breaks cs) :
    kinds.findSome? (keyword · (w.toList ++ cs)) =
      if w ∈ kinds then keyword w (w.toList ++ cs) else none := by
  induction kinds with
  | nil => rfl
  | cons k more ih =>
      have hmore := ih fun k' hk' => hkinds k' (List.mem_cons_of_mem k hk')
      rw [List.findSome?_cons, hmore]
      by_cases heq : w = k
      · subst heq
        rw [if_pos List.mem_cons_self]
        cases hread : keyword w (w.toList ++ cs) with
        | some rest => rfl
        | none => simp
      · rw [keyword_of_ne (hkinds k List.mem_cons_self) hw hcs (toList_ne heq)]
        simp [heq]

theorem isWord_unsafe : IsWord "unsafe".toList := isWord_written (by decide)

theorem optionalKeyword_of_ne {word w : String} {cs : List Char} (hword : IsWord word.toList)
    (hw : IsWord w.toList) (hcs : Breaks cs) (hne : w ≠ word) :
    optionalKeyword word (w.toList ++ cs) = w.toList ++ cs := by
  unfold optionalKeyword
  rw [keyword_of_ne hword hw hcs (toList_ne hne), Option.getD_none]

/-- Behind `unsafe` or not, one of the keywords is read. -/
theorem behindTypeKeyword_word {w : String} {cs : List Char} (hw : IsWord w.toList)
    (hcs : Breaks cs) (hne : w ≠ "unsafe") :
    behindTypeKeyword (w.toList ++ cs) =
      if w ∈ typeKeywords then keyword w (w.toList ++ cs) else none := by
  unfold behindTypeKeyword
  rw [optionalKeyword_of_ne isWord_unsafe hw hcs hne]
  exact findSome?_keyword (fun _ hk => isWord_typeKeyword hk) hw hcs

theorem behindTypeKeyword_safety {safety : List Char} {w : String} {cs : List Char}
    (hsafety : Safety safety) (hw : IsWord w.toList) (hcs : Breaks cs) (hne : w ≠ "unsafe") :
    behindTypeKeyword (safety ++ (w.toList ++ cs)) = behindTypeKeyword (w.toList ++ cs) := by
  cases hsafety with
  | safe => rfl
  | marked hgap =>
      unfold behindTypeKeyword
      rw [optionalKeyword_of_ne isWord_unsafe hw hcs hne, optionalKeyword, List.append_assoc,
        keyword_append "unsafe" _ hgap, hw.trimmed.stripLeft_append, Option.getD_some]

/-- What is passed over in front of a keyword of types is `unsafe` or nothing. -/
theorem exists_of_behindTypeKeyword {cs rest : List Char} (h : behindTypeKeyword cs = some rest) :
    ∃ safety kind gap, Safety safety ∧ kind ∈ typeKeywords ∧ Gap gap ∧
      cs = safety ++ (kind.toList ++ (gap ++ rest)) := by
  have hsafety : ∃ safety, Safety safety ∧ cs = safety ++ optionalKeyword "unsafe" cs := by
    unfold optionalKeyword
    cases hkeyword : keyword "unsafe" cs with
    | none => exact ⟨[], .safe, rfl⟩
    | some behind =>
        obtain ⟨gap, hgap, rfl⟩ := exists_of_keyword hkeyword
        exact ⟨_, .marked hgap, by rw [List.append_assoc, Option.getD_some]⟩
  obtain ⟨safety, hsafe, hsplit⟩ := hsafety
  obtain ⟨kind, hkind, hkeyword⟩ := List.exists_of_findSome?_eq_some h
  obtain ⟨gap, hgap, hbehind⟩ := exists_of_keyword hkeyword
  exact ⟨safety, kind, gap, hsafe, hkind, hgap, by rw [← hbehind, ← hsplit]⟩

/-- A cast behind the word `union` is taken for its name. -/
theorem passes_union (text after : List Char) (h : Follows after text) :
    Passes typeName (· = "as") after ("union".toList ++ text) := by
  have hunion : ∀ rest, Breaks rest →
      behindTypeKeyword ("union".toList ++ rest) = keyword "union" ("union".toList ++ rest) := by
    intro rest hrest
    rw [behindTypeKeyword_word (isWord_written (by decide)) hrest (by decide), if_pos (by decide)]
  unfold Passes typeName
  cases h with
  | @mark blanks c text hblanks hblank hword =>
      have hbreaks : Breaks (c :: (text ++ after)) := hword
      refine Or.inl ?_
      rw [List.append_assoc, List.append_assoc, List.cons_append,
        hunion _ (Breaks.blank_append hblanks hbreaks)]
      cases blanks with
      | nil =>
          have hnone : keyword "union" ("union".toList ++ ([] ++ c :: (text ++ after))) = none := by
            unfold keyword
            rw [afterPrefix_append]
            exact if_neg (by rw [hblank]; exact Bool.false_ne_true)
          rw [hnone]
          rfl
      | cons d blanks =>
          rw [keyword_append "union" _ ⟨hblanks, List.cons_ne_nil d blanks⟩,
            stripLeft_cons_of_not_blank _ hblank]
          exact identifier_of_not_word _ hword
  | @renamed gap text hgap hbreaks =>
      refine Or.inr ⟨"as", text, rfl, ⟨"union".toList ++ (gap ++ "as".toList), ?_⟩, ?_⟩
      · simp only [List.append_assoc]
      · simp only [List.append_assoc]
        rw [hunion _ (Breaks.gap_append hgap _), keyword_append "union" _ hgap]
        exact identifier_append (w := "as".toList) (by decide) hbreaks

theorem reader_typeDeclaration : Reader typeDeclaration typeHot (· = "as") := by
  refine Reader.of_keyword behind_typeDeclaration (by decide) (by decide) rfl ?_ ?_
    fun _ => passes_union
  · intro c cs hc
    have hsame : optionalKeyword "unsafe" (c :: cs) = c :: cs := by
      unfold optionalKeyword
      rw [keyword_of_not_word cs isWord_unsafe hc, Option.getD_none]
    have hnone : behindTypeKeyword (c :: cs) = none := by
      unfold behindTypeKeyword
      rw [hsame]
      exact List.findSome?_eq_none_iff.mpr fun k hk =>
        keyword_of_not_word cs (isWord_typeKeyword hk) hc
    simp only [typeName, hnone]
    rfl
  · intro w cs hw hfree hcs
    have hne : w ≠ "unsafe" := fun heq => hfree (heq ▸ by decide)
    have hkind : w ∉ typeKeywords := fun hmem =>
      hfree (List.mem_cons_of_mem _ (List.mem_cons_of_mem _ hmem))
    simp only [typeName, behindTypeKeyword_word hw hcs hne, if_neg hkind]
    rfl

end RustScript.Source
