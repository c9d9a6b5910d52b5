import RustScript.Proofs.Project.Stem
import RustScript.Proofs.Source.Sections

/-!
# Scripts with one item on each line

What is read at the start of a line does not depend on the lines that follow, as long as the item
that begins on it is written on it as far as the readers look. So a scan of the lines finds what is
found on each of them (`Finder.starts_lines`), and this is the item that the line writes.
-/

set_option autoImplicit false

namespace RustScript.Source

open RustScript.Rust RustScript.Text

/-! ## What a line gives -/

/-- Nothing more stands on the line. -/
def LineEnd : List Char → Prop
  | [] => True
  | c :: _ => c = '\n'

/-- Whatever lines follow, what is read at the start of the line is `found`, as `shown` shows it. -/
inductive Gives {α β : Type} (read : List Char → Option (α × List Char)) (shown : α → β)
    (line : List Char) : List β → Prop
  | nothing : (∀ after, LineEnd after → read (line ++ after) = none) → Gives read shown line []
  | one {y : β} :
      (∀ after, LineEnd after →
        ∃ x rest, shown x = y ∧ read (line ++ after) = some (x, rest ++ after)) →
      Gives read shown line [y]
  | passed : (∀ after, LineEnd after → read (line ++ after) = read after) →
      Gives read shown line []

theorem lineEnd_lineText (lines : List (List Char)) : LineEnd (lineText lines) := by
  rcases lineText_eq lines with hnil | ⟨cs, hcons⟩
  · rw [hnil]
    exact trivial
  · rw [hcons]
    exact rfl

theorem LineEnd.breaks {after : List Char} (h : LineEnd after) : Breaks after := by
  cases after with
  | nil => exact trivial
  | cons c after =>
      obtain rfl : c = '\n' := h
      exact (rfl : isAsciiWord '\n' = false)

section

variable {α β : Type} {rel : α → α → Prop} {read : List Char → Option (α × List Char)}
  {shown : α → β} (hread : Finder rel read)

include hread

theorem Finder.starts_afterLine {after : List Char} (h : LineEnd after) :
    atLineStarts read (afterLine after) = atLineStarts read after := by
  cases after with
  | nil => rfl
  | cons c after =>
      obtain rfl : c = '\n' := h
      exact (hread.starts_feed after).symm

/-- **A scan finds what is found on each of the lines.** -/
theorem Finder.starts_lines {lines : List (List Char)} {founds : List (List β)}
    (hfeed : ∀ line ∈ lines, '\n' ∉ line) (h : List.Forall₂ (Gives read shown) lines founds) :
    (atLineStarts read (lineText lines)).map shown = founds.flatten := by
  induction h with
  | nil =>
      show (atLineStarts read []).map shown = []
      rw [atLineStarts_nil hread.nil, List.map_nil]
  | @cons line found lines founds hgives _ ih =>
      have hline := hfeed line List.mem_cons_self
      have hmore := ih fun l hl => hfeed l (List.mem_cons_of_mem _ hl)
      have hend := lineEnd_lineText lines
      rw [lineText_cons, hread.starts_feed, List.flatten_cons, ← hmore]
      cases hgives with
      | nothing hnone =>
          rw [hread.starts_of_none (hnone _ hend), afterLine_append _ hline,
            hread.starts_afterLine hend, List.nil_append]
      | one hsome =>
          obtain ⟨x, rest, rfl, hx⟩ := hsome _ hend
          have hrest : '\n' ∉ rest := by
            obtain ⟨front, hfront⟩ := hread.suffix _ _ _ hx
            rw [← List.append_assoc] at hfront
            have hsplit := List.append_cancel_right hfront
            exact fun hmem => hline (hsplit ▸ List.mem_append_right front hmem)
          rw [hread.starts_of_some hx, afterLine_append _ hrest, hread.starts_afterLine hend]
          rfl
      | passed hsame =>
          have hread' := hsame _ hend
          cases hbehind : read (lineText lines) with
          | none =>
              rw [hbehind] at hread'
              rw [hread.starts_of_none hread', afterLine_append _ hline,
                hread.starts_afterLine hend, List.nil_append]
          | some x =>
              rw [hbehind] at hread'
              rw [hread.starts_of_some hread', hread.starts_of_some hbehind, List.nil_append]

end

/-! ## Lines that write items -/

/-- The word `extern` in front of `fn`, and the convention that it may name. -/
inductive Convention : List Char → Prop
  | native : Convention []
  | foreign {gap : List Char} : Gap gap → Convention ("extern".toList ++ gap)
  | named {before name after : List Char} :
      allBlank before → '"' ∉ name → allBlank after →
      Convention ("extern".toList ++ (before ++ '"' :: (name ++ '"' :: after)))

/-- The words in front of `fn`. -/
inductive Qualifiers : List Char → Prop
  | plain {convention : List Char} : Convention convention → Qualifiers convention
  | marked {gap convention : List Char} :
      Gap gap → Convention convention → Qualifiers ("unsafe".toList ++ (gap ++ convention))
  | word {w : String} {gap rest : List Char} :
      w ∈ ["const", "async", "default", "gen"] → Gap gap → Qualifiers rest →
      Qualifiers (w.toList ++ (gap ++ rest))

/-- The words that an item other than a function may begin with. -/
def openingWords : List String := ["pub", "use", "mod", "extern", "unsafe"] ++ typeKeywords

/-- No item begins on the line: it is blank, it is an attribute, or it begins with a mark or with a
word that no item begins with. -/
inductive Idle : List Char → Prop
  | blank {line : List Char} : allBlank line → Idle line
  | annotated {lead inner after : List Char} :
      allBlank lead → ']' ∉ inner → allBlank after →
      Idle (lead ++ '#' :: '[' :: (inner ++ ']' :: after))
  | mark {c : Char} {lead rest : List Char} :
      allBlank lead → isBlank c = false → isAsciiWord c = false →
      (∀ inner, c :: rest ≠ '#' :: '[' :: inner) → Idle (lead ++ c :: rest)
  | word {w : String} {lead vis rest : List Char} :
      allBlank lead → Visibility Scope vis → IsWord w.toList → w ∉ openingWords → Breaks rest →
      Idle (lead ++ (vis ++ (w.toList ++ rest)))

/-- The line begins with the item. An external crate has no visibility. What it holds may stand on
further lines. -/
inductive LineOf : Item → List Char → Prop
  | declared {item : Item} {d : Declaration} {chunk rest : List Char} :
      declaration? item = some d → Writes d chunk rest → LineOf item (chunk ++ rest)
  | external {name : String} {renamed : Option String} {lead gap gap' rest : List Char} :
      allBlank lead → Gap gap → Gap gap' → IsName name → Breaks rest →
      LineOf (.externCrate name renamed)
        (lead ++ ("extern".toList ++ (gap ++ ("crate".toList ++ (gap' ++ (name.toList ++ rest))))))
  | function {name : String} {inner : List Item} {lead vis qualifiers gap rest : List Char} :
      allBlank lead → Visibility Scope vis → Qualifiers qualifiers → Gap gap → IsName name →
      Breaks rest →
      LineOf (.function name inner)
        (lead ++ (vis ++ (qualifiers ++ ("fn".toList ++ (gap ++ (name.toList ++ rest))))))

/-- Each item that declares something begins a line, in their order, and the other lines are
idle. -/
inductive Placed : List Item → List (List Char) → Prop
  | nil : Placed [] []
  | other {inner items : List Item} {lines : List (List Char)} :
      Placed items lines → Placed (.other inner :: items) lines
  | idle {items : List Item} {line : List Char} {lines : List (List Char)} :
      Idle line → Placed items lines → Placed items (line :: lines)
  | item {item : Item} {items : List Item} {line : List Char} {lines : List (List Char)} :
      LineOf item line → Placed items lines → Placed (item :: items) (line :: lines)

/-! ## Lines of other declarations -/

theorem Breaks.lineEnd {rest after : List Char} (h : Breaks rest) (hafter : LineEnd after) :
    Breaks (rest ++ after) := by
  cases rest with
  | nil => exact hafter.breaks
  | cons c rest => exact h

section

variable {α β : Type} {read : List Char → Option (α × List Char)} {hot : List String}
  {spurious : α → Prop} (hread : Reader read hot spurious)

include hread

/-- A line whose first word, the visibility apart, is not hot gives nothing. -/
theorem Reader.none_of_word {lead vis cs : List Char} {w : String} (hlead : allBlank lead)
    (hvis : Visibility Scope vis) (hw : IsWord w.toList) (hfree : w ∉ hot) (hcs : Breaks cs) :
    read (lead ++ (vis ++ (w.toList ++ cs))) = none := by
  have hpub : w ≠ "pub" := fun heq => hfree (heq ▸ hread.pub)
  rw [hread.blank_append hlead, hread.visible vis w cs hvis hw hpub hcs, hread.word w cs hw hfree hcs]

/-- A declaration of another kind gives nothing. -/
theorem Reader.gives_foreign {shown : α → β} {d : Declaration} {chunk rest : List Char}
    (h : Writes d chunk rest) (hforeign : ∀ w ∈ d.keywords, w ∉ hot) :
    Gives read shown (chunk ++ rest) [] := by
  refine .nothing fun after _ => ?_
  cases h with
  | front hlead hvis hbody =>
      obtain ⟨w, behind, rfl, hkeyword, hword, hbreaks⟩ := hbody.front
      have hnone := hread.none_of_word hlead hvis hword (hforeign w hkeyword)
        (hbreaks (rest ++ after))
      simpa only [List.append_assoc] using hnone

end

/-! ## Idle lines -/

section

variable {α β : Type} {read : List Char → Option (α × List Char)} {hot : List String}
  {spurious : α → Prop}

theorem Reader.gives_idle {shown : α → β} (hread : Reader read hot spurious)
    (hhot : ∀ w ∈ hot, w ∈ openingWords) {line : List Char} (h : Idle line) :
    Gives read shown line [] := by
  cases h with
  | blank hblank => exact .passed fun after _ => hread.blank_append hblank after
  | annotated hlead _ _ =>
      refine .nothing fun after _ => ?_
      rw [List.append_assoc, hread.blank_append hlead]
      exact hread.mark '#' _ rfl rfl
  | mark hlead hblank hword _ =>
      refine .nothing fun after _ => ?_
      rw [List.append_assoc, hread.blank_append hlead]
      exact hread.mark _ _ hblank hword
  | word hlead hvis hw hfree hrest =>
      refine .nothing fun after hafter => ?_
      have hnone := hread.none_of_word hlead hvis hw (fun hmem => hfree (hhot _ hmem))
        (hrest.lineEnd hafter)
      simpa only [List.append_assoc] using hnone

end

/-! ## External crates -/

/-- Attributes are skipped to their end if the fuel is as long as the text. -/
theorem skipAttributes_congr {fuel fuel' : Nat} {cs : List Char} (h : cs.length ≤ fuel)
    (h' : cs.length ≤ fuel') : skipAttributes fuel cs = skipAttributes fuel' cs := by
  induction fuel generalizing fuel' cs with
  | zero =>
      obtain rfl := List.eq_nil_of_length_eq_zero (Nat.le_zero.mp h)
      cases fuel' <;> rfl
  | succ fuel ih =>
      by_cases hopen : ∃ rest, cs = '#' :: '[' :: rest
      · obtain ⟨rest, rfl⟩ := hopen
        simp only [List.length_cons] at h h'
        obtain ⟨fuel', rfl⟩ := Nat.exists_eq_add_of_lt (Nat.lt_of_lt_of_le (Nat.succ_pos _) h')
        simp only [Nat.zero_add] at h' ⊢
        unfold skipAttributes
        cases hbehind : rest.dropWhile (· ≠ ']') with
        | nil => simp only [hbehind]
        | cons c after =>
            have hdrop := (List.dropWhile_suffix (· ≠ ']') (l := rest)).length_le
            have hstrip := (stripLeft_suffix after).length_le
            rw [hbehind, List.length_cons] at hdrop
            simp only [hbehind]
            exact ih (by omega) (by omega)
      · rw [not_attribute fun rest heq => hopen ⟨rest, heq⟩,
          not_attribute fun rest heq => hopen ⟨rest, heq⟩]

theorem externCrate_blank_append {lead : List Char} (h : allBlank lead) (cs : List Char) :
    externCrate (lead ++ cs) = externCrate cs := by
  rw [← finder_externCrate.strip, stripLeft_append_of_allBlank _ h, finder_externCrate.strip]

/-- An attribute is passed over. -/
theorem externCrate_attribute {inner : List Char} (h : ']' ∉ inner) (cs : List Char) :
    externCrate ('#' :: '[' :: (inner ++ ']' :: cs)) = externCrate cs := by
  have hstrip : stripLeft ('#' :: '[' :: (inner ++ ']' :: cs)) =
      '#' :: '[' :: (inner ++ ']' :: cs) := stripLeft_cons_of_not_blank _ rfl
  have hskip : ∀ fuel, skipAttributes (fuel + 1) ('#' :: '[' :: (inner ++ ']' :: cs)) =
      skipAttributes fuel (stripLeft cs) := by
    intro fuel
    have hdrop := dropWhile_mark h cs
    conv_lhs => unfold skipAttributes
    simp only [hdrop]
  have hshort : (stripLeft cs).length ≤ ('[' :: (inner ++ ']' :: cs)).length := by
    have hstrip := (stripLeft_suffix cs).length_le
    simp only [List.length_cons, List.length_append]
    omega
  unfold externCrate
  dsimp only
  rw [hstrip, List.length_cons, hskip, skipAttributes_congr hshort (Nat.le_refl _)]

theorem externCrate_mark {c : Char} {cs : List Char} (hblank : isBlank c = false)
    (hword : isAsciiWord c = false) (hopen : ∀ inner, c :: cs ≠ '#' :: '[' :: inner) :
    externCrate (c :: cs) = none := by
  unfold externCrate
  dsimp only
  rw [stripLeft_cons_of_not_blank _ hblank, not_attribute hopen,
    keyword_of_not_word _ (isWord_of_mem (by decide)) hword]
  rfl

theorem externCrate_word {lead cs : List Char} {w : String} (hlead : allBlank lead)
    (hw : IsWord w.toList) : externCrate (lead ++ (w.toList ++ cs)) =
      keyword "extern" (w.toList ++ cs) >>= fun rest => keyword "crate" rest >>= identifier := by
  have hstrip : stripLeft (lead ++ (w.toList ++ cs)) = w.toList ++ cs := by
    rw [stripLeft_append_of_allBlank _ hlead, hw.trimmed.stripLeft_append]
  have hattributes : ∀ fuel, skipAttributes fuel (w.toList ++ cs) = w.toList ++ cs := by
    refine not_attribute fun rest heq => ?_
    -- a word does not begin with a number sign
    obtain ⟨c, more, hc⟩ := List.exists_cons_of_ne_nil hw.ne_nil
    rw [hc, List.cons_append] at heq
    have hword := hw.word c (hc ▸ List.mem_cons_self)
    rw [(List.cons.inj heq).1] at hword
    cases hword
  unfold externCrate
  dsimp only
  rw [hstrip, hattributes]

theorem externCrate_of_ne {lead cs : List Char} {w : String} (hlead : allBlank lead)
    (hw : IsWord w.toList) (hne : w ≠ "extern") (hcs : Breaks cs) :
    externCrate (lead ++ (w.toList ++ cs)) = none := by
  rw [externCrate_word hlead hw, keyword_of_ne (isWord_of_mem (by decide)) hw hcs (toList_ne hne)]
  rfl

/-- A visibility hides what stands behind it. -/
theorem externCrate_visible {lead vis cs : List Char} (hlead : allBlank lead)
    (hvis : Visibility Scope vis) (hne : vis ≠ []) : externCrate (lead ++ (vis ++ cs)) = none := by
  have hpub : IsWord "pub".toList := isWord_of_mem (by decide)
  cases hvis with
  | inherited => exact absurd rfl hne
  | everywhere hgap =>
      rw [List.append_assoc]
      exact externCrate_of_ne hlead hpub (by decide) (Breaks.gap_append hgap cs)
  | restricted _ _ =>
      rw [List.append_assoc]
      exact externCrate_of_ne hlead hpub (by decide) (rfl : isAsciiWord '(' = false)

theorem externCrate_of_word {lead vis cs : List Char} {w : String} (hlead : allBlank lead)
    (hvis : Visibility Scope vis) (hw : IsWord w.toList) (hne : w ≠ "extern") (hcs : Breaks cs) :
    externCrate (lead ++ (vis ++ (w.toList ++ cs))) = none := by
  by_cases hnil : vis = []
  · rw [hnil]
    exact externCrate_of_ne hlead hw hne hcs
  · exact externCrate_visible hlead hvis hnil

theorem Idle.crates {line : List Char} (h : Idle line) : Gives externCrate id line [] := by
  cases h with
  | blank hblank => exact .passed fun after _ => externCrate_blank_append hblank after
  | annotated hlead hinner hafter =>
      refine .passed fun after _ => ?_
      rw [List.append_assoc, externCrate_blank_append hlead, List.cons_append, List.cons_append,
        List.append_assoc, List.cons_append, externCrate_attribute hinner,
        externCrate_blank_append hafter]
  | @mark c lead rest hlead hblank hword hopen =>
      refine .nothing fun after hafter => ?_
      rw [List.append_assoc, externCrate_blank_append hlead, List.cons_append]
      refine externCrate_mark hblank hword fun inner heq => ?_
      obtain ⟨rfl, hrest⟩ := List.cons.inj heq
      cases rest with
      | nil =>
          -- a line ends behind the mark
          have hend : LineEnd ('[' :: inner) := hrest ▸ hafter
          exact absurd (show '[' = '\n' from hend) (by decide)
      | cons d rest =>
          obtain ⟨rfl, -⟩ := List.cons.inj hrest
          exact hopen rest rfl
  | @word w _ _ _ hlead hvis hw hfree hrest =>
      refine .nothing fun after hafter => ?_
      have hne : w ≠ "extern" := fun heq => hfree (heq ▸ by decide)
      have hnone := externCrate_of_word hlead hvis hw hne (hrest.lineEnd hafter)
      simpa only [List.append_assoc] using hnone

theorem gives_externCrate {name : String} {lead gap gap' rest : List Char}
    (hlead : allBlank lead) (hgap : Gap gap) (hgap' : Gap gap') (hname : IsName name)
    (hrest : Breaks rest) : Gives externCrate id
      (lead ++ ("extern".toList ++ (gap ++ ("crate".toList ++ (gap' ++ (name.toList ++ rest))))))
      [name] := by
  refine .one fun after hafter => ⟨name, rest, rfl, ?_⟩
  have hextern : IsWord "extern".toList := isWord_of_mem (by decide)
  have hcrate : IsWord "crate".toList := isWord_of_mem (by decide)
  have hread : identifier (name.toList ++ (rest ++ after)) = some (name, rest ++ after) := by
    rw [identifier_append hname.identifier (hrest.lineEnd hafter), String.ofList_toList]
  simp only [List.append_assoc]
  rw [externCrate_word hlead hextern, keyword_append "extern" _ hgap,
    hcrate.trimmed.stripLeft_append]
  show keyword "crate" _ >>= identifier = _
  rw [keyword_append "crate" _ hgap', hname.isWord.trimmed.stripLeft_append]
  exact hread

/-! ## Functions -/

/-- The words that a function may begin with. -/
def functionWords : List String := ["fn", "extern", "unsafe", "const", "async", "default", "gen"]

theorem isWord_functionWord {w : String} (h : w ∈ functionWords) : IsWord w.toList := by
  have hall : ∀ w ∈ functionWords, isIdentifier w.toList := by decide +kernel
  exact isWord_of_isIdentifier (hall w h)

theorem Convention.front {convention : List Char} (h : Convention convention) {cs : List Char}
    (hcs : Breaks cs) : ∃ w rest, convention ++ ("fn".toList ++ cs) = w.toList ++ rest ∧
      w ∈ ["fn", "extern"] ∧ Breaks rest := by
  cases h with
  | native => exact ⟨"fn", cs, rfl, by decide, hcs⟩
  | foreign hgap =>
      exact ⟨"extern", _, List.append_assoc _ _ _, by decide, Breaks.gap_append hgap _⟩
  | named hbefore _ _ =>
      refine ⟨"extern", _, List.append_assoc _ _ _, by decide, ?_⟩
      rw [List.append_assoc]
      exact Breaks.blank_append hbefore (rfl : isAsciiWord '"' = false)

theorem Qualifiers.front {qualifiers : List Char} (h : Qualifiers qualifiers) {cs : List Char}
    (hcs : Breaks cs) : ∃ w rest, qualifiers ++ ("fn".toList ++ cs) = w.toList ++ rest ∧
      w ∈ functionWords ∧ Breaks rest := by
  cases h with
  | plain hconvention =>
      obtain ⟨w, rest, hsplit, hw, hrest⟩ := hconvention.front hcs
      exact ⟨w, rest, hsplit, List.mem_append_left _ hw, hrest⟩
  | marked hgap _ =>
      refine ⟨"unsafe", _, List.append_assoc _ _ _, by decide, ?_⟩
      rw [List.append_assoc]
      exact Breaks.gap_append hgap _
  | @word w gap rest hw hgap _ =>
      refine ⟨w, _, List.append_assoc _ _ _, List.mem_append_right ["fn", "extern", "unsafe"] hw, ?_⟩
      rw [List.append_assoc]
      exact Breaks.gap_append hgap _

section

variable {α β : Type} {read : List Char → Option (α × List Char)} {hot : List String}
  {spurious : α → Prop} (hread : Reader read hot spurious)

include hread

/-- An external crate gives nothing to a reader that waits for none of its words. -/
theorem Reader.gives_external {shown : α → β} (hfree : "extern" ∉ hot)
    {lead gap rest : List Char} (hlead : allBlank lead) (hgap : Gap gap) :
    Gives read shown (lead ++ ("extern".toList ++ (gap ++ rest))) [] := by
  refine .nothing fun after _ => ?_
  have hnone := hread.none_of_word hlead .inherited (isWord_functionWord (by decide)) hfree
    (Breaks.gap_append hgap (rest ++ after))
  rw [List.nil_append] at hnone
  simpa only [List.append_assoc] using hnone

/-- A function gives nothing to a reader that waits for none of its words. -/
theorem Reader.gives_function {shown : α → β} (hcold : ∀ w ∈ functionWords, w ∉ hot)
    {lead vis qualifiers gap rest : List Char} (hlead : allBlank lead)
    (hvis : Visibility Scope vis) (h : Qualifiers qualifiers) (hgap : Gap gap) :
    Gives read shown (lead ++ (vis ++ (qualifiers ++ ("fn".toList ++ (gap ++ rest))))) [] := by
  refine .nothing fun after _ => ?_
  obtain ⟨w, behind, hsplit, hw, hbreaks⟩ := h.front (Breaks.gap_append hgap (rest ++ after))
  have hnone := hread.none_of_word hlead hvis (isWord_functionWord hw) (hcold w hw) hbreaks
  rw [← hsplit] at hnone
  simpa only [List.append_assoc] using hnone

end

theorem typeDeclaration_function {lead vis qualifiers cs : List Char} (hlead : allBlank lead)
    (hvis : Visibility Scope vis) (h : Qualifiers qualifiers) (hcs : Breaks cs) :
    typeDeclaration (lead ++ (vis ++ (qualifiers ++ ("fn".toList ++ cs)))) = none := by
  have hfree : ∀ w ∈ ["fn", "extern"], w ≠ "unsafe" ∧ w ∉ typeKeywords := by decide
  cases h with
  | plain hconvention =>
      obtain ⟨w, rest, hsplit, hw, hrest⟩ := hconvention.front hcs
      have hcold : ∀ w ∈ ["fn", "extern"], w ∉ typeHot := by decide
      rw [hsplit]
      exact reader_typeDeclaration.none_of_word hlead hvis
        (isWord_functionWord (List.mem_append_left _ hw)) (hcold w hw) hrest
  | @marked gap convention hgap hconvention =>
      -- `unsafe` stands in front of types as well, so it depends on the word behind it
      obtain ⟨w, rest, hsplit, hw, hrest⟩ := hconvention.front hcs
      obtain ⟨hne, hkind⟩ := hfree w hw
      have hword := isWord_functionWord (List.mem_append_left _ hw)
      have hvis' := hvis.mono fun _ => Scope.not_mem_close
      have hbehind : behindTypeKeyword ("unsafe".toList ++ gap ++ (w.toList ++ rest)) = none := by
        rw [behindTypeKeyword_safety (.marked hgap) hword hrest hne,
          behindTypeKeyword_word hword hrest hne, if_neg hkind]
      simp only [List.append_assoc] at hbehind ⊢
      rw [hsplit, behind_typeDeclaration.visible hlead hvis' isWord_unsafe
        (toList_ne (by decide)) (Breaks.gap_append hgap _), typeName, hbehind]
      rfl
  | @word w gap rest hw hgap _ =>
      have hcold : ∀ w ∈ ["const", "async", "default", "gen"], w ∉ typeHot := by decide
      simp only [List.append_assoc]
      exact reader_typeDeclaration.none_of_word hlead hvis
        (isWord_functionWord (List.mem_append_right ["fn", "extern", "unsafe"] hw)) (hcold w hw)
        (Breaks.gap_append hgap _)

theorem externCrate_convention {lead convention cs : List Char} (hlead : allBlank lead)
    (h : Convention convention) (hcs : Breaks cs) :
    externCrate (lead ++ (convention ++ ("fn".toList ++ cs))) = none := by
  have hfn : IsWord "fn".toList := isWord_of_mem (by decide)
  have hextern : IsWord "extern".toList := isWord_of_mem (by decide)
  have hcrate : IsWord "crate".toList := isWord_of_mem (by decide)
  cases h with
  | native => exact externCrate_of_ne hlead hfn (by decide) hcs
  | foreign hgap =>
      rw [List.append_assoc, externCrate_word hlead hextern, keyword_append "extern" _ hgap,
        hfn.trimmed.stripLeft_append]
      show keyword "crate" ("fn".toList ++ cs) >>= identifier = none
      rw [keyword_of_ne hcrate hfn hcs (toList_ne (by decide))]
      rfl
  | @named before name after hbefore _ _ =>
      rw [List.append_assoc, externCrate_word hlead hextern, List.append_assoc, List.cons_append]
      generalize name ++ '"' :: after ++ ("fn".toList ++ cs) = rest
      by_cases hnil : before = []
      · subst hnil
        rfl
      · have hquote : keyword "crate" ('"' :: rest) = none := keyword_of_not_word rest hcrate rfl
        rw [keyword_append "extern" _ ⟨hbefore, hnil⟩, stripLeft_cons_of_not_blank rest rfl]
        show keyword "crate" ('"' :: rest) >>= identifier = none
        rw [hquote]
        rfl

theorem externCrate_function {lead vis qualifiers cs : List Char} (hlead : allBlank lead)
    (hvis : Visibility Scope vis) (h : Qualifiers qualifiers) (hcs : Breaks cs) :
    externCrate (lead ++ (vis ++ (qualifiers ++ ("fn".toList ++ cs)))) = none := by
  by_cases hnil : vis = []
  · rw [hnil, List.nil_append]
    cases h with
    | plain hconvention => exact externCrate_convention hlead hconvention hcs
    | marked hgap _ =>
        simp only [List.append_assoc]
        exact externCrate_of_ne hlead isWord_unsafe (by decide) (Breaks.gap_append hgap _)
    | @word w gap rest hw hgap _ =>
        have hne : ∀ w ∈ ["const", "async", "default", "gen"], w ≠ "extern" := by decide
        simp only [List.append_assoc]
        exact externCrate_of_ne hlead
          (isWord_functionWord (List.mem_append_right ["fn", "extern", "unsafe"] hw)) (hne w hw)
          (Breaks.gap_append hgap _)
  · exact externCrate_visible hlead hvis hnil

/-! ## What the line of an item gives -/

/-- The names of the use declaration that an item is. -/
def itemUses : Item → List UseNames
  | .use tree => [textNames false tree]
  | _ => []

/-- The external crate that an item names. -/
def itemCrates : Item → List String
  | .externCrate name _ => [name]
  | _ => []

/-- The type that an item is. -/
def itemTypes : Item → List String
  | .typeItem name _ => [name]
  | _ => []

/-- Whatever lines follow, the text writes the declaration. -/
theorem Writes.lineEnd {d : Declaration} {chunk rest after : List Char} (h : Writes d chunk rest)
    (hafter : LineEnd after) : Writes d chunk (rest ++ after) := by
  cases h with
  | front hlead hvis hbody =>
      refine .front hlead hvis ?_
      cases hbody with
      | use hgap hspells hback => exact .use hgap hspells hback
      | module hgap hname hback hstop => exact .module hgap hname hback hstop
      | type hsafety hkind hgap hname hbreaks =>
          exact .type hsafety hkind hgap hname (hbreaks.lineEnd hafter)

section

variable {item : Item} {line : List Char} (h : LineOf item line)

include h

theorem LineOf.uses : Gives useDeclaration (useNames false) line (itemUses item) := by
  cases h with
  | @declared item d chunk rest hdeclares hwrites =>
      cases item with
      | use tree =>
          obtain rfl := Option.some.inj hdeclares
          refine .one fun after hafter => ?_
          obtain ⟨text, hread, hnames⟩ := useDeclaration_writes (hwrites.lineEnd hafter)
          exact ⟨text, rest, hnames, by rw [List.append_assoc, hread]⟩
      | module name inner =>
          obtain rfl := Option.some.inj hdeclares
          exact reader_useDeclaration.gives_foreign hwrites
            (show ∀ w ∈ ["mod"], w ∉ ["pub", "use"] by decide)
      | typeItem name inner =>
          obtain rfl := Option.some.inj hdeclares
          exact reader_useDeclaration.gives_foreign hwrites
            (show ∀ w ∈ "unsafe" :: typeKeywords, w ∉ ["pub", "use"] by decide)
      | externCrate _ _ => cases hdeclares
      | function _ _ => cases hdeclares
      | other _ => cases hdeclares
  | external hlead hgap _ _ _ => exact reader_useDeclaration.gives_external (by decide) hlead hgap
  | function hlead hvis hqualifiers hgap _ _ =>
      exact reader_useDeclaration.gives_function (by decide) hlead hvis hqualifiers hgap

theorem LineOf.crates : Gives externCrate id line (itemCrates item) := by
  cases h with
  | @declared item d chunk rest hdeclares hwrites =>
      have hnone : Gives externCrate id (chunk ++ rest) [] := by
        have hother : "extern" ∉ d.keywords := by
          cases d with
          | use _ => exact show "extern" ∉ ["use"] by decide
          | module _ => exact show "extern" ∉ ["mod"] by decide
          | type _ => exact show "extern" ∉ "unsafe" :: typeKeywords by decide
        refine .nothing fun after _ => ?_
        cases hwrites with
        | front hlead hvis hbody =>
            obtain ⟨w, behind, rfl, hkeyword, hword, hbreaks⟩ := hbody.front
            have hread := externCrate_of_word hlead hvis hword
              (fun heq => hother (heq ▸ hkeyword)) (hbreaks (rest ++ after))
            simpa only [List.append_assoc] using hread
      cases item with
      | externCrate _ _ => cases hdeclares
      | use _ => exact hnone
      | module _ _ => exact hnone
      | typeItem _ _ => exact hnone
      | function _ _ => exact hnone
      | other _ => exact hnone
  | external hlead hgap hgap' hname hrest =>
      exact gives_externCrate hlead hgap hgap' hname hrest
  | @function name _ _ _ _ _ rest hlead hvis hqualifiers hgap _ _ =>
      refine .nothing fun after _ => ?_
      have hnone := externCrate_function hlead hvis hqualifiers
        (Breaks.gap_append hgap (name.toList ++ (rest ++ after)))
      simpa only [List.append_assoc] using hnone

theorem LineOf.modules : Gives moduleDeclaration id line (itemModules item) := by
  cases h with
  | @declared item d chunk rest hdeclares hwrites =>
      cases item with
      | use tree =>
          obtain rfl := Option.some.inj hdeclares
          exact reader_moduleDeclaration.gives_foreign hwrites
            (show ∀ w ∈ ["use"], w ∉ ["pub", "mod"] by decide)
      | module name inner =>
          obtain rfl := Option.some.inj hdeclares
          refine .one fun after hafter => ?_
          obtain ⟨behind, hread, -⟩ := moduleDeclaration_writes (hwrites.lineEnd hafter)
          exact ⟨name, behind ++ rest, rfl, by rw [List.append_assoc, hread, List.append_assoc]⟩
      | typeItem name inner =>
          obtain rfl := Option.some.inj hdeclares
          exact reader_moduleDeclaration.gives_foreign hwrites
            (show ∀ w ∈ "unsafe" :: typeKeywords, w ∉ ["pub", "mod"] by decide)
      | externCrate _ _ => cases hdeclares
      | function _ _ => cases hdeclares
      | other _ => cases hdeclares
  | external hlead hgap _ _ _ => exact reader_moduleDeclaration.gives_external (by decide) hlead hgap
  | function hlead hvis hqualifiers hgap _ _ =>
      exact reader_moduleDeclaration.gives_function (by decide) hlead hvis hqualifiers hgap

theorem LineOf.types : Gives typeDeclaration id line (itemTypes item) := by
  cases h with
  | @declared item d chunk rest hdeclares hwrites =>
      cases item with
      | use tree =>
          obtain rfl := Option.some.inj hdeclares
          exact reader_typeDeclaration.gives_foreign hwrites
            (show ∀ w ∈ ["use"], w ∉ typeHot by decide)
      | module name inner =>
          obtain rfl := Option.some.inj hdeclares
          exact reader_typeDeclaration.gives_foreign hwrites
            (show ∀ w ∈ ["mod"], w ∉ typeHot by decide)
      | typeItem name inner =>
          obtain rfl := Option.some.inj hdeclares
          refine .one fun after hafter => ⟨name, rest, rfl, ?_⟩
          rw [List.append_assoc, typeDeclaration_writes (hwrites.lineEnd hafter)]
      | externCrate _ _ => cases hdeclares
      | function _ _ => cases hdeclares
      | other _ => cases hdeclares
  | external hlead hgap _ _ _ => exact reader_typeDeclaration.gives_external (by decide) hlead hgap
  | @function name _ _ _ _ _ rest hlead hvis hqualifiers hgap _ _ =>
      refine .nothing fun after _ => ?_
      have hnone := typeDeclaration_function hlead hvis hqualifiers
        (Breaks.gap_append hgap (name.toList ++ (rest ++ after)))
      simpa only [List.append_assoc] using hnone

end

/-! ## What is found in all the lines -/

theorem lineText_cutLines (cs : List Char) : lineText (cutLines cs) = '\n' :: cs := by
  induction cs with
  | nil => rfl
  | cons c rest ih =>
      unfold cutLines at ih ⊢
      by_cases hc : c = '\n'
      · rw [cutAt, if_pos hc, lineText_cons, ih, hc]
        rfl
      · rw [cutAt, if_neg hc]
        cases hpieces : cutAt '\n' rest with
        | nil =>
            rw [hpieces] at ih
            cases ih
        | cons line lines =>
            rw [hpieces, lineText_cons] at ih
            rw [← (List.cons.inj ih).2]
            exact lineText_cons (c :: line) lines

section

variable {α β : Type} {read : List Char → Option (α × List Char)} {shown : α → β}
  {own : Item → List β}

theorem Placed.gives (hidle : ∀ line, Idle line → Gives read shown line [])
    (hline : ∀ item line, LineOf item line → Gives read shown line (own item))
    (hother : ∀ inner, own (.other inner) = []) {items : List Item} {lines : List (List Char)}
    (h : Placed items lines) :
    ∃ founds, List.Forall₂ (Gives read shown) lines founds ∧
      founds.flatten = items.flatMap own := by
  induction h with
  | nil => exact ⟨[], .nil, rfl⟩
  | other _ ih =>
      obtain ⟨founds, hgives, hfounds⟩ := ih
      exact ⟨founds, hgives, by rw [hfounds, List.flatMap_cons, hother, List.nil_append]⟩
  | idle hnone _ ih =>
      obtain ⟨founds, hgives, hfounds⟩ := ih
      exact ⟨[] :: founds, .cons (hidle _ hnone) hgives, hfounds⟩
  | item hof _ ih =>
      obtain ⟨founds, hgives, hfounds⟩ := ih
      exact ⟨own _ :: founds, .cons (hline _ _ hof) hgives, by
        rw [List.flatten_cons, List.flatMap_cons, hfounds]⟩

/-- **In a text with one item on each line a scan finds what the items declare.** -/
theorem Placed.starts {rel : α → α → Prop} (hread : Finder rel read)
    (hidle : ∀ line, Idle line → Gives read shown line [])
    (hline : ∀ item line, LineOf item line → Gives read shown line (own item))
    (hother : ∀ inner, own (.other inner) = []) {items : List Item} {cs : List Char}
    (h : Placed items (cutLines cs)) :
    (atLineStarts read cs).map shown = items.flatMap own := by
  obtain ⟨founds, hgives, hfounds⟩ := h.gives hidle hline hother
  have hfeed : ∀ line ∈ cutLines cs, '\n' ∉ line := fun _ => not_mem_of_mem_cutAt
  have hstarts := hread.starts_lines hfeed hgives
  rw [lineText_cutLines, hread.starts_feed] at hstarts
  exact hstarts.trans hfounds

end

section

variable {items : List Item} {cs : List Char} (h : Placed items (cutLines cs))

include h

theorem Placed.uses :
    (atLineStarts useDeclaration cs).map (useNames false) = items.flatMap itemUses :=
  h.starts finder_useDeclaration (fun _ => reader_useDeclaration.gives_idle (by decide))
    (fun _ _ hof => hof.uses) fun _ => rfl

theorem Placed.crates : atLineStarts externCrate cs = items.flatMap itemCrates := by
  rw [← List.map_id (atLineStarts externCrate cs)]
  exact h.starts finder_externCrate (fun _ => Idle.crates) (fun _ _ hof => hof.crates) fun _ => rfl

theorem Placed.modules : atLineStarts moduleDeclaration cs = items.flatMap itemModules := by
  rw [← List.map_id (atLineStarts moduleDeclaration cs)]
  exact h.starts finder_moduleDeclaration
    (fun _ => reader_moduleDeclaration.gives_idle (by decide)) (fun _ _ hof => hof.modules)
    fun _ => rfl

theorem Placed.types : atLineStarts typeDeclaration cs = items.flatMap itemTypes := by
  rw [← List.map_id (atLineStarts typeDeclaration cs)]
  exact h.starts finder_typeDeclaration (fun _ => reader_typeDeclaration.gives_idle (by decide))
    (fun _ _ hof => hof.types) fun _ => rfl

end

end RustScript.Source
