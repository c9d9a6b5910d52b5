import RustScript.Proofs.Source.Layout

/-!
# Texts in which nothing opens a declaration

A scan looks at every start of a line, also inside a declaration that takes several lines. Nothing
is found there since the words of the text are none that the scan waits for: the text is calm. The
one exception is `union`, which is a word like any other unless a name stands behind it. In a use
tree only `as` can.
-/

set_option autoImplicit false

namespace RustScript.Source

open RustScript.Rust RustScript.Text

/-! ## Calm texts -/

/-- Behind a name stands a mark or the word `as`; `after` stands behind the text. -/
inductive Follows (after : List Char) : List Char → Prop
  | mark {blanks : List Char} {c : Char} {text : List Char} :
      allBlank blanks → isBlank c = false → isAsciiWord c = false →
      Follows after (blanks ++ c :: text)
  | renamed {gap text : List Char} :
      Gap gap → Breaks (text ++ after) → Follows after (gap ++ ("as".toList ++ text))

/-- The text is made of marks, blanks and words that are not `hot`, and ends with a mark or a word;
`after` stands behind it. -/
inductive Calm (hot : List String) (after : List Char) : List Char → Prop
  | stop {c : Char} : isBlank c = false → isAsciiWord c = false → Calm hot after [c]
  | last {w : String} : IsWord w.toList → w ∉ hot → Breaks after → Calm hot after w.toList
  | mark {c : Char} {text : List Char} :
      isAsciiWord c = false → Calm hot after text → Calm hot after (c :: text)
  | word {w : String} {text : List Char} :
      IsWord w.toList → w ∉ hot → Breaks text → Calm hot after text →
      Calm hot after (w.toList ++ text)
  | union {text : List Char} :
      Follows after text → Breaks text → Calm hot after text →
      Calm hot after ("union".toList ++ text)

theorem Follows.blank_append {blanks text after : List Char} (h : allBlank blanks)
    (hf : Follows after text) : Follows after (blanks ++ text) := by
  cases hf with
  | mark hblanks hblank hword =>
      rw [← List.append_assoc]
      exact .mark (allBlank_append.mpr ⟨h, hblanks⟩) hblank hword
  | renamed hgap hbreaks =>
      rw [← List.append_assoc]
      refine .renamed ⟨allBlank_append.mpr ⟨h, hgap.blank⟩, ?_⟩ hbreaks
      intro hnil
      exact hgap.ne_nil (List.append_eq_nil_iff.mp hnil).2

section

variable {hot : List String} {after : List Char}

theorem Calm.ne_nil {text : List Char} (h : Calm hot after text) : text ≠ [] := by
  cases h with
  | stop => exact List.cons_ne_nil _ _
  | last hword => exact hword.ne_nil
  | mark => exact List.cons_ne_nil _ _
  | word hword => exact fun hnil => hword.ne_nil (List.append_eq_nil_iff.mp hnil).1
  | union => exact List.cons_ne_nil _ _

theorem Calm.blank_append {blanks text : List Char} (h : allBlank blanks)
    (hc : Calm hot after text) : Calm hot after (blanks ++ text) := by
  induction blanks with
  | nil => exact hc
  | cons c rest ih =>
      obtain ⟨hc, hrest⟩ := allBlank_cons.mp h
      exact .mark (isAsciiWord_of_isBlank hc) (ih hrest)

/-- A calm text is not empty, so what stands behind it does not matter at its front. -/
theorem Calm.breaks_append {text behind : List Char} (h : Calm hot after text)
    (hbreaks : Breaks text) : Breaks (text ++ behind) := by
  cases text with
  | nil => exact absurd rfl h.ne_nil
  | cons c rest => exact hbreaks

/-- A line feed is no character of a word, so it stands behind a word that the text begins with. -/
theorem split_behind_word {w text front rest : List Char} (hw : ∀ c ∈ w, isAsciiWord c)
    (h : w ++ text = front ++ '\n' :: rest) :
    ∃ front', front = w ++ front' ∧ text = front' ++ '\n' :: rest := by
  rcases List.append_eq_append_iff.mp h with ⟨front', hfront, htext⟩ | ⟨w', hw', hrest⟩
  · exact ⟨front', hfront, htext⟩
  · cases w' with
    | nil =>
        rw [List.append_nil] at hw'
        exact ⟨[], by rw [hw', List.append_nil], hrest.symm⟩
    | cons c w' =>
        have hc : c = '\n' := (List.cons.inj hrest).1.symm
        have hmem : c ∈ w := by
          rw [hw']
          exact List.mem_append_right front List.mem_cons_self
        have hword : isAsciiWord '\n' := hc ▸ hw c hmem
        cases hword

/-- What stands behind a line feed in a calm text is calm. -/
theorem Calm.behind {front rest : List Char} (h : Calm hot after (front ++ '\n' :: rest)) :
    Calm hot after rest := by
  -- the line feed is a mark of the text, as no word holds it and no text ends with it
  generalize htext : front ++ '\n' :: rest = text at h
  induction h generalizing front with
  | @stop c hblank _ =>
      cases front with
      | nil =>
          have hc : '\n' = c := (List.cons.inj htext).1
          rw [← hc] at hblank
          cases hblank
      | cons d front => cases front with
        | nil => cases (List.cons.inj htext).2
        | cons => cases (List.cons.inj htext).2
  | last hword _ _ =>
      have hmem : '\n' ∈ front ++ '\n' :: rest := List.mem_append_right _ List.mem_cons_self
      rw [htext] at hmem
      cases hword.word '\n' hmem
  | @mark c text _ hcalm ih =>
      cases front with
      | nil =>
          rw [(List.cons.inj htext).2]
          exact hcalm
      | cons d front => exact ih (List.cons.inj htext).2
  | word hword _ _ _ ih =>
      obtain ⟨front', -, hsplit⟩ := split_behind_word hword.word htext.symm
      exact ih hsplit.symm
  | union _ _ _ ih =>
      have hword : ∀ c ∈ "union".toList, isAsciiWord c :=
        (isWord_written (by decide)).word
      obtain ⟨front', -, hsplit⟩ := split_behind_word hword htext.symm
      exact ih hsplit.symm

/-! ## Behind a name -/

/-- A calm text that may stand behind a name. -/
structure Tail (hot : List String) (after text : List Char) : Prop where
  breaks : Breaks text
  follows : Follows after text
  calm : Calm hot after text

theorem Tail.mark {c : Char} {text : List Char} (hblank : isBlank c = false)
    (hword : isAsciiWord c = false) (h : Calm hot after text) : Tail hot after (c :: text) :=
  ⟨hword, .mark allBlank_nil hblank hword, .mark hword h⟩

theorem Tail.stop {c : Char} (hblank : isBlank c = false) (hword : isAsciiWord c = false) :
    Tail hot after [c] :=
  ⟨hword, .mark allBlank_nil hblank hword, .stop hblank hword⟩

/-- Behind the name of a module stands a semicolon or the body. -/
theorem Tail.behindModule {c : Char} (h : c = '\x7b' ∨ c = ';') : Tail hot after [c] := by
  rcases h with rfl | rfl
  · exact Tail.stop (by decide) (by decide)
  · exact Tail.stop (by decide) (by decide)

theorem Tail.blank_append {blanks text : List Char} (hb : allBlank blanks)
    (h : Tail hot after text) : Tail hot after (blanks ++ text) :=
  ⟨Breaks.blank_append hb h.breaks, h.follows.blank_append hb, h.calm.blank_append hb⟩

/-- The words that a scan waits for are those that begin a declaration, and `union`. -/
def Watched (hot : List String) : Prop := ∀ w ∈ hot, w ∈ declaringWords ∨ w = "union"

theorem Watched.not_mem {hot : List String} {w : String} (hhot : Watched hot)
    (hw : w ∉ "union" :: declaringWords) : w ∉ hot := by
  intro hmem
  rcases hhot w hmem with hdeclaring | heq
  · exact hw (List.mem_cons_of_mem _ hdeclaring)
  · exact hw (heq ▸ List.mem_cons_self)

theorem Watched.name_not_mem {name : String} (hhot : Watched hot) (hname : IsName name)
    (hunion : name ≠ "union") : name ∉ hot := by
  refine hhot.not_mem fun hmem => ?_
  rcases List.mem_cons.mp hmem with heq | hdeclaring
  · exact hunion heq
  · exact hname.free (List.mem_cons_of_mem _ hdeclaring)

theorem Tail.name {name : String} {text : List Char} (hhot : Watched hot) (hname : IsName name)
    (h : Tail hot after text) : Calm hot after (name.toList ++ text) := by
  by_cases hunion : name = "union"
  · rw [hunion]
    exact .union h.follows h.breaks h.calm
  · exact .word hname.isWord (hhot.name_not_mem hname hunion) h.breaks h.calm

theorem Tail.colons {before behind text : List Char} (hbefore : allBlank before)
    (hbehind : allBlank behind) (h : Calm hot after text) :
    Tail hot after (before ++ ':' :: ':' :: (behind ++ text)) := by
  have hcalm : Calm hot after (':' :: (behind ++ text)) :=
    .mark (by decide) (h.blank_append hbehind)
  exact (Tail.mark (by decide) (by decide) hcalm).blank_append hbefore

/-! ## Use trees are calm -/

theorem SpellsLead.calm {lead : PathLead} {front text : List Char} (h : SpellsLead lead front)
    (htext : Calm hot after text) : Calm hot after (front ++ text) := by
  cases h with
  | relative => exact htext
  | absolute hblank => exact .mark (by decide) (.mark (by decide) (htext.blank_append hblank))

variable (hhot : Watched hot)
include hhot

theorem SpellsRest.tail {names : List String} {text tail : List Char} (h : SpellsRest names text)
    (htail : Tail hot after tail) : Tail hot after (text ++ tail) := by
  induction h with
  | nil => exact htail
  | cons hbefore hbehind hname _ ih =>
      have hnext := Tail.colons hbefore hbehind (Tail.name hhot hname ih)
      simpa only [List.append_assoc, List.cons_append] using hnext

theorem SpellsPath.calm {path : UsePath} {text tail : List Char} (h : SpellsPath path text)
    (htail : Tail hot after tail) : Calm hot after (text ++ tail) := by
  cases h with
  | segments hlead hfirst hrest =>
      have hcalm := hlead.calm (Tail.name hhot hfirst (hrest.tail hhot htail))
      simpa only [List.append_assoc] using hcalm

omit hhot in
/-- Calm pieces joined by commas are calm. -/
theorem Calm.intercalate {pieces : List (List Char)}
    (h : ∀ piece ∈ pieces, ∀ tail, Tail hot after tail → Calm hot after (piece ++ tail))
    {tail : List Char} (htail : Tail hot after tail) :
    Calm hot after ([','].intercalate pieces ++ tail) := by
  induction pieces with
  | nil => exact htail.calm
  | cons first others ih =>
      cases others with
      | nil =>
          rw [List.intercalate_singleton]
          exact h first List.mem_cons_self tail htail
      | cons second more =>
          rw [List.intercalate_cons_cons, List.append_assoc, List.append_assoc]
          refine h first List.mem_cons_self _ (Tail.mark (by decide) (by decide) ?_)
          exact ih fun piece hp => h piece (List.mem_cons_of_mem first hp)

omit hhot in
theorem groupText_calm {members : List Member} {last : Option (List Char)}
    (hpadded : ∀ m ∈ members, m.Padded) (hlast : ∀ blanks ∈ last, allBlank blanks)
    (h : ∀ m ∈ members, ∀ tail, Tail hot after tail → Calm hot after (m.core ++ tail))
    {tail : List Char} (htail : Tail hot after tail) :
    Tail hot after (groupText members last ++ tail) := by
  unfold groupText
  rw [List.cons_append, List.append_assoc]
  refine Tail.mark (by decide) (by decide) (Calm.intercalate ?_ ?_)
  · intro piece hpiece tail htail
    rcases List.mem_append.mp hpiece with hmember | htrailing
    · obtain ⟨m, hm, rfl⟩ := List.mem_map.mp hmember
      have hcore := h m hm _ (htail.blank_append (hpadded m hm).2)
      simpa only [Member.text, List.append_assoc] using hcore.blank_append (hpadded m hm).1
    · exact htail.calm.blank_append (hlast piece (Option.mem_toList.mp htrailing))
  · exact Tail.mark (by decide) (by decide) htail.calm

/-- A use tree with something behind it that may stand behind a name is calm. -/
theorem Spells.calm {tree : UseTree} {text tail : List Char} (h : Spells tree text)
    (htail : Tail hot after tail) : Calm hot after (text ++ tail) := by
  induction h generalizing tail with
  | path hpath => exact hpath.calm hhot htail
  | @renamed path text gap gap' name hpath hgap hgap' hname =>
      have hname' := (Tail.name hhot hname htail).blank_append hgap'.blank
      have hbreaks : Breaks (gap' ++ (name.toList ++ tail)) := Breaks.gap_append hgap' _
      have hbehind : Breaks (gap' ++ (name.toList ++ tail) ++ after) := hname'.breaks_append hbreaks
      have hword : Calm hot after ("as".toList ++ (gap' ++ (name.toList ++ tail))) :=
        .word (isWord_written (by decide)) (hhot.not_mem (by decide)) hbreaks hname'
      have hcalm := hpath.calm hhot ⟨Breaks.gap_append hgap _, .renamed hgap hbehind,
        hword.blank_append hgap.blank⟩
      simpa only [List.append_assoc] using hcalm
  | globOf hpath hgap hgap' =>
      have hstar : Calm hot after ('*' :: tail) := .mark (by decide) htail.calm
      have hcalm := hpath.calm hhot (Tail.colons hgap hgap' hstar)
      simpa only [List.append_assoc, List.cons_append, List.nil_append] using hcalm
  | glob hlead =>
      have hstar : Calm hot after ('*' :: tail) := .mark (by decide) htail.calm
      simpa only [List.append_assoc, List.singleton_append] using hlead.calm hstar
  | groupOf hpath hgap hgap' hpadded hlast _ ih =>
      have hgroup := groupText_calm hpadded hlast (fun m hm tail => ih m hm) htail
      have hcalm := hpath.calm hhot (Tail.colons hgap hgap' hgroup.calm)
      simpa only [List.append_assoc, List.cons_append] using hcalm
  | group hlead hpadded hlast _ ih =>
      have hgroup := groupText_calm hpadded hlast (fun m hm tail => ih m hm) htail
      simpa only [List.append_assoc] using hlead.calm hgroup.calm

/-! ## Declarations are calm behind their first word -/

theorem Scope.calm {inner tail : List Char} (h : Scope inner) (htail : Tail hot after tail) :
    Calm hot after (inner ++ tail) := by
  cases h with
  | path hbefore hpath hbehind =>
      have hcalm := (hpath.calm hhot (htail.blank_append hbehind)).blank_append hbefore
      simpa only [List.append_assoc] using hcalm
  | within hbefore hgap hpath hbehind =>
      have hpath' := (hpath.calm hhot (htail.blank_append hbehind)).blank_append hgap.blank
      have hin := Calm.word (w := "in") (isWord_written (by decide)) (hhot.not_mem (by decide))
        (Breaks.gap_append hgap _) hpath'
      simpa only [List.append_assoc] using hin.blank_append hbefore

/-- Behind a line feed in a visibility or behind it there is a calm text. -/
theorem Visibility.behind {vis body front rest : List Char} (h : Visibility Scope vis)
    (hbody : Calm hot after body) (hsplit : vis ++ body = front ++ '\n' :: rest) :
    Calm hot after rest := by
  have hpub : ∀ c ∈ "pub".toList, isAsciiWord c := (isWord_written (by decide)).word
  cases h with
  | inherited =>
      rw [List.nil_append] at hsplit
      exact (hsplit ▸ hbody).behind
  | everywhere hgap =>
      rw [List.append_assoc] at hsplit
      obtain ⟨front', -, hsplit'⟩ := split_behind_word hpub hsplit
      exact (hsplit' ▸ hbody.blank_append hgap.blank).behind
  | restricted hscope hgap =>
      rw [List.append_assoc] at hsplit
      obtain ⟨front', -, hsplit'⟩ := split_behind_word hpub hsplit
      have hclose := Tail.mark (c := ')') (by decide) (by decide) (hbody.blank_append hgap.blank)
      have hcalm := Calm.mark (c := '(') (by decide) (hscope.calm hhot hclose)
      simp only [List.cons_append, List.append_assoc] at hsplit'
      exact (hsplit' ▸ hcalm).behind

omit hhot in
theorem isWord_typeKeyword {kind : String} (h : kind ∈ typeKeywords) : IsWord kind.toList := by
  have hall : ∀ k ∈ typeKeywords, k ∈ writtenWords := by decide
  exact isWord_written (hall kind h)

omit hhot in
/-- A declaration begins with one of its keywords. -/
theorem Body.front {d : Declaration} {body : List Char} (h : Body d body after) :
    ∃ (w : String) (rest : List Char), body = w.toList ++ rest ∧ w ∈ d.keywords ∧
      IsWord w.toList ∧ ∀ behind, Breaks (rest ++ behind) := by
  have hbreaks : ∀ {gap : List Char} (_ : Gap gap) (rest behind : List Char),
      Breaks ((gap ++ rest) ++ behind) := by
    intro gap hgap rest behind
    rw [List.append_assoc]
    exact Breaks.gap_append hgap _
  cases h with
  | use hgap _ _ =>
      exact ⟨"use", _, rfl, List.mem_cons_self, isWord_written (by decide), hbreaks hgap _⟩
  | module hgap _ _ _ =>
      exact ⟨"mod", _, rfl, List.mem_cons_self, isWord_written (by decide), hbreaks hgap _⟩
  | @type kind _ _ _ _ hsafety hkind hgap _ _ =>
      cases hsafety with
      | safe =>
          exact ⟨kind, _, rfl, List.mem_cons_of_mem _ hkind, isWord_typeKeyword hkind,
            hbreaks hgap _⟩
      | marked hgap' =>
          exact ⟨"unsafe", _, List.append_assoc _ _ _, List.mem_cons_self,
            isWord_written (by decide), hbreaks hgap' _⟩

/-- A declaration is calm for a scan that waits for none of its keywords. -/
theorem Body.calm {d : Declaration} {body : List Char} (h : Body d body after)
    (hforeign : ∀ w ∈ d.keywords, w ∉ hot) : Calm hot after body := by
  cases h with
  | use hgap hspells hback =>
      have hstop : Tail hot after [';'] := Tail.stop (by decide) (by decide)
      have htree := (hspells.calm hhot (hstop.blank_append hback)).blank_append hgap.blank
      exact .word (w := "use") (isWord_written (by decide)) (hforeign _ List.mem_cons_self)
        (Breaks.gap_append hgap _) htree
  | @module name gap back _ stop hgap hname hback hstop =>
      have hmark : Tail hot after [stop] := Tail.behindModule hstop
      have hname' := (Tail.name hhot hname (hmark.blank_append hback)).blank_append hgap.blank
      exact .word (w := "mod") (isWord_written (by decide)) (hforeign _ List.mem_cons_self)
        (Breaks.gap_append hgap _) hname'
  | @type kind name safety gap _ hsafety hkind hgap hname hbreaks =>
      -- the name may be `union`, which is a keyword of types and so not hot either
      have hkind' : kind ∉ hot := hforeign _ (List.mem_cons_of_mem _ hkind)
      have hunion : "union" ∉ hot := hforeign _ (List.mem_cons_of_mem _ (by decide))
      have hfree : name ∉ hot := by
        by_cases heq : name = "union"
        · rw [heq]
          exact hunion
        · exact hhot.name_not_mem hname heq
      have hlast := (Calm.last hname.isWord hfree hbreaks).blank_append hgap.blank
      have hcalm := Calm.word (isWord_typeKeyword hkind) hkind' (Breaks.gap_append hgap _) hlast
      cases hsafety with
      | safe => exact hcalm
      | marked hgap' =>
          rw [List.append_assoc]
          exact .word (w := "unsafe") (isWord_written (by decide)) (hforeign _ List.mem_cons_self)
            (Breaks.gap_append hgap' _) (hcalm.blank_append hgap'.blank)

end

end RustScript.Source
