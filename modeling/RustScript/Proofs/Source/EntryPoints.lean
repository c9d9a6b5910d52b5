import RustScript.Pipeline.Stages
import RustScript.Proofs.Rust.Levels
import RustScript.Proofs.Source.Analyzed
import RustScript.Proofs.Source.Lines

/-!
# Entry points

A script is a program if it has a function `main` at the top level, and otherwise a snippet, which
is wrapped into one. The syntax tree counts just these functions. A scan of the text counts the
lines on which a function `main` begins, however deep it is nested, and it takes no words in front
but `pub` and `async` and nothing but the parameters behind the name (`FunctionLine`). So the two
agree if and only if as many such functions are nested as others stand at the top level
(`entries_analyze`).
-/

set_option autoImplicit false

namespace RustScript.Source

open RustScript.Rust RustScript.Text

/-! ## The head of a function -/

/-- The words in front of a function, its visibility apart, are none or `async`. -/
def PlainQualifiers (qualifiers : List Char) : Prop :=
  qualifiers = [] ∨ ∃ gap, Gap gap ∧ qualifiers = "async".toList ++ gap

theorem isWord_fn : IsWord "fn".toList := isWord_of_mem (by decide)

theorem isWord_async : IsWord "async".toList := isWord_of_mem (by decide)

theorem behindMain_of_ne {w : String} {cs : List Char} (hw : IsWord w.toList) (hcs : Breaks cs)
    (hne : w ≠ "fn") : behindMain (w.toList ++ cs) = none := by
  unfold behindMain
  rw [keyword_of_ne isWord_fn hw hcs (toList_ne hne)]
  rfl

/-- Behind the name of a function stand blanks and then a mark. -/
theorem behindMain_fn {name : String} {gap blanks rest : List Char} {c : Char} (hgap : Gap gap)
    (hname : IsName name) (hblanks : allBlank blanks) (hc : isBlank c = false)
    (hmark : isAsciiWord c = false) :
    behindMain ("fn".toList ++ (gap ++ (name.toList ++ (blanks ++ c :: rest)))) =
      if name = "main" ∧ c = '(' then some ((), rest) else none := by
  have hbreaks : Breaks (blanks ++ c :: rest) := Breaks.blank_append hblanks hmark
  unfold behindMain
  rw [keyword_append "fn" _ hgap, hname.isWord.trimmed.stripLeft_append]
  show afterPrefix "main".toList (name.toList ++ (blanks ++ c :: rest)) >>= behindParenthesis = _
  by_cases hmain : name = "main"
  · subst hmain
    rw [afterPrefix_append]
    show behindParenthesis (blanks ++ c :: rest) = _
    unfold behindParenthesis
    rw [stripLeft_append_of_allBlank _ hblanks, stripLeft_cons_of_not_blank _ hc]
    by_cases hopen : c = '('
    · rw [if_pos ⟨rfl, hopen⟩, hopen]
      rfl
    · rw [if_neg fun h => hopen h.2]
      split
      · next left heq => exact absurd (List.cons.inj heq).1 hopen
      · rfl
  · rw [if_neg fun h => hmain h.1]
    cases hafter : afterPrefix "main".toList (name.toList ++ (blanks ++ c :: rest)) with
    | none => rfl
    | some after =>
        -- the name is longer, so that a word goes on behind `main`
        have hsplit := eq_append_of_afterPrefix hafter
        have hword : ∃ d more, after = d :: more ∧ isAsciiWord d = true := by
          by_contra hnone
          have hend : Breaks after := by
            cases after with
            | nil => trivial
            | cons d more => exact Bool.eq_false_iff.mpr fun hd => hnone ⟨d, more, rfl, hd⟩
          exact toList_ne hmain (word_unique hname.isWord (isWord_of_mem (by decide)) hbreaks hend
            hsplit)
        obtain ⟨d, more, rfl, hd⟩ := hword
        show behindParenthesis (d :: more) = none
        unfold behindParenthesis
        rw [stripLeft_cons_of_not_blank _ (not_blank_of_isAsciiWord hd)]
        split
        · next left heq =>
            rw [(List.cons.inj heq).1] at hd
            cases hd
        · rfl

/-- In front of `fn` stands nothing, or `async` and more, or a word that is neither. -/
theorem Qualifiers.cases_front {qualifiers : List Char} (h : Qualifiers qualifiers)
    (cs : List Char) :
    qualifiers = [] ∨
    (∃ gap more, Gap gap ∧ Qualifiers more ∧ qualifiers = "async".toList ++ (gap ++ more)) ∨
    ∃ w rest, qualifiers ++ ("fn".toList ++ cs) = w.toList ++ rest ∧
      w ∈ ["extern", "unsafe", "const", "default", "gen"] ∧ Breaks rest := by
  cases h with
  | plain hconvention =>
      cases hconvention with
      | native => exact .inl rfl
      | foreign hgap =>
          exact .inr (.inr ⟨"extern", _, List.append_assoc _ _ _, by decide,
            Breaks.gap_append hgap _⟩)
      | named hbefore _ _ =>
          refine .inr (.inr ⟨"extern", _, List.append_assoc _ _ _, by decide, ?_⟩)
          rw [List.append_assoc]
          exact Breaks.blank_append hbefore (rfl : isAsciiWord '"' = false)
  | marked hgap _ =>
      refine .inr (.inr ⟨"unsafe", _, List.append_assoc _ _ _, by decide, ?_⟩)
      rw [List.append_assoc]
      exact Breaks.gap_append hgap _
  | @word w gap more hw hgap hmore =>
      by_cases hasync : w = "async"
      · subst hasync
        exact .inr (.inl ⟨gap, more, hgap, hmore, rfl⟩)
      · refine .inr (.inr ⟨w, _, List.append_assoc _ _ _, ?_, ?_⟩)
        · have hall : ∀ w ∈ ["const", "async", "default", "gen"], w ≠ "async" →
              w ∈ ["extern", "unsafe", "const", "default", "gen"] := by decide
          exact hall w hw hasync
        · rw [List.append_assoc]
          exact Breaks.gap_append hgap _

/-- A word of another kind hides what stands behind it. -/
theorem behindAsync_of_mem {w : String} {cs : List Char}
    (h : w ∈ ["extern", "unsafe", "const", "default", "gen"]) (hcs : Breaks cs) :
    behindMain (optionalKeyword "async" (w.toList ++ cs)) = none := by
  have hall : ∀ w ∈ ["extern", "unsafe", "const", "default", "gen"],
      w ∈ functionWords ∧ w ≠ "fn" ∧ w ≠ "async" := by decide
  obtain ⟨hfunction, hfn, hasync⟩ := hall w h
  rw [optionalKeyword_of_ne isWord_async (isWord_functionWord hfunction) hcs hasync]
  exact behindMain_of_ne (isWord_functionWord hfunction) hcs hfn

theorem not_plainQualifiers {qualifiers cs rest : List Char} {w : String}
    (h : w ∈ ["extern", "unsafe", "const", "default", "gen"]) (hrest : Breaks rest)
    (hsplit : qualifiers ++ ("fn".toList ++ cs) = w.toList ++ rest) (hcs : Breaks cs) :
    ¬ PlainQualifiers qualifiers := by
  have hall : ∀ w ∈ ["extern", "unsafe", "const", "default", "gen"],
      w ∈ functionWords ∧ w ≠ "fn" ∧ w ≠ "async" := by decide
  obtain ⟨hfunction, hfn, hasync⟩ := hall w h
  have hword := isWord_functionWord hfunction
  rintro (rfl | ⟨gap, hgap, rfl⟩)
  · exact toList_ne hfn (word_unique hword isWord_fn hrest hcs hsplit.symm)
  · rw [List.append_assoc] at hsplit
    exact toList_ne hasync
      (word_unique hword isWord_async hrest (Breaks.gap_append hgap _) hsplit.symm)

/-- A function has plain qualifiers, or a scan for `main` does not get behind them. -/
theorem Qualifiers.behindMain_or {qualifiers cs : List Char} (h : Qualifiers qualifiers)
    (hcs : Breaks cs) :
    (PlainQualifiers qualifiers ∧
      behindMain (optionalKeyword "async" (qualifiers ++ ("fn".toList ++ cs))) =
        behindMain ("fn".toList ++ cs)) ∨
    (¬ PlainQualifiers qualifiers ∧
      behindMain (optionalKeyword "async" (qualifiers ++ ("fn".toList ++ cs))) = none) := by
  rcases h.cases_front cs with rfl | ⟨gap, more, hgap, hmore, rfl⟩ | ⟨w, rest, hsplit, hw, hrest⟩
  · refine .inl ⟨.inl rfl, ?_⟩
    rw [List.nil_append, optionalKeyword_of_ne isWord_async isWord_fn hcs (by decide)]
  · have hread : ∀ {w : String} {rest : List Char}, IsWord w.toList →
        more ++ ("fn".toList ++ cs) = w.toList ++ rest →
        optionalKeyword "async" ("async".toList ++ (gap ++ more) ++ ("fn".toList ++ cs)) =
          more ++ ("fn".toList ++ cs) := by
      intro w rest hw hsplit
      unfold optionalKeyword
      rw [List.append_assoc, List.append_assoc, keyword_append "async" _ hgap, hsplit,
        hw.trimmed.stripLeft_append]
      rfl
    by_cases hnil : more = []
    · subst hnil
      refine .inl ⟨.inr ⟨gap, hgap, by rw [List.append_nil]⟩, ?_⟩
      rw [hread isWord_fn (List.nil_append _), List.nil_append]
    · obtain ⟨w, rest, hsplit, hw, hrest, hfn⟩ : ∃ w rest, more ++ ("fn".toList ++ cs) =
          String.toList w ++ rest ∧ w ∈ functionWords ∧ Breaks rest ∧ w ≠ "fn" := by
        rcases hmore.cases_front cs with hmore | ⟨gap', _, hgap', -, rfl⟩ |
          ⟨w, rest, hsplit, hw, hrest⟩
        · exact absurd hmore hnil
        · refine ⟨"async", _, List.append_assoc _ _ _, by decide, ?_, by decide⟩
          rw [List.append_assoc]
          exact Breaks.gap_append hgap' _
        · have hall : ∀ w ∈ ["extern", "unsafe", "const", "default", "gen"],
              w ∈ functionWords ∧ w ≠ "fn" := by decide
          exact ⟨w, rest, hsplit, (hall w hw).1, hrest, (hall w hw).2⟩
      have hword := isWord_functionWord hw
      refine .inr ⟨?_, ?_⟩
      · rintro (hplain | ⟨gap', hgap', hplain⟩)
        · exact absurd hplain (by simp)
        · -- only blanks stand behind `async`, but a word begins there
          have hblank := hgap'.blank
          rw [← List.append_cancel_left hplain, allBlank_append] at hblank
          obtain ⟨c, tail, rfl⟩ := List.exists_cons_of_ne_nil hnil
          obtain ⟨d, tail', hd⟩ := List.exists_cons_of_ne_nil hword.ne_nil
          rw [hd, List.cons_append, List.cons_append] at hsplit
          have hc := (allBlank_cons.mp hblank.2).1
          rw [(List.cons.inj hsplit).1,
            not_blank_of_isAsciiWord (hword.word d (hd ▸ List.mem_cons_self))] at hc
          cases hc
      · rw [hread hword hsplit, hsplit]
        exact behindMain_of_ne hword hrest hfn
  · refine .inr ⟨not_plainQualifiers hw hrest hsplit hcs, ?_⟩
    rw [hsplit]
    exact behindAsync_of_mem hw hrest

/-- A visibility with parentheses hides what stands behind it. -/
theorem mainFunction_visible {lead vis cs : List Char} {w : String} (hlead : allBlank lead)
    (hvis : Visibility Scope vis) (hw : IsWord w.toList) (hpub : w ≠ "pub") (hcs : Breaks cs) :
    mainFunction (lead ++ (vis ++ (w.toList ++ cs))) =
      if '(' ∈ vis then none else behindMain (optionalKeyword "async" (w.toList ++ cs)) := by
  have hword : IsWord "pub".toList := isWord_of_mem (by decide)
  rw [mainFunction_eq, stripLeft_append_of_allBlank _ hlead]
  cases hvis with
  | inherited =>
      rw [if_neg List.not_mem_nil, List.nil_append, hw.trimmed.stripLeft_append,
        optionalKeyword_of_ne hword hw hcs hpub]
  | @everywhere gap hgap =>
      have hopen : '(' ∉ "pub".toList ++ gap := by
        intro hmem
        rcases List.mem_append.mp hmem with hmem | hmem
        · exact absurd hmem (by decide)
        · exact absurd (isBlank_of_mem hgap.blank hmem) (by decide)
      rw [if_neg hopen, List.append_assoc, hword.trimmed.stripLeft_append]
      unfold optionalKeyword
      rw [keyword_append "pub" _ hgap, hw.trimmed.stripLeft_append]
      rfl
  | @restricted inner gap _ _ =>
      have hopen : '(' ∈ "pub".toList ++ '(' :: (inner ++ ')' :: gap) :=
        List.mem_append_right _ List.mem_cons_self
      have hbreaks : Breaks ('(' :: (inner ++ ')' :: gap) ++ (w.toList ++ cs)) :=
        (rfl : isAsciiWord '(' = false)
      have hnone : keyword "pub" ("pub".toList ++
          ('(' :: (inner ++ ')' :: gap) ++ (w.toList ++ cs))) = none := by
        unfold keyword
        rw [afterPrefix_append]
        rfl
      rw [if_pos hopen, List.append_assoc, hword.trimmed.stripLeft_append]
      unfold optionalKeyword
      rw [hnone, Option.getD_none, keyword_of_ne isWord_async hword hbreaks (by decide),
        Option.getD_none]
      exact behindMain_of_ne hword hbreaks (by decide)

/-- A word that is not one of a function gives no entry point. -/
theorem mainFunction_word {lead vis cs : List Char} {w : String} (hlead : allBlank lead)
    (hvis : Visibility Scope vis) (hw : IsWord w.toList) (hother : w ∉ ["pub", "async", "fn"])
    (hcs : Breaks cs) : mainFunction (lead ++ (vis ++ (w.toList ++ cs))) = none := by
  have hne : w ≠ "pub" ∧ w ≠ "async" ∧ w ≠ "fn" := by simpa using hother
  rw [mainFunction_visible hlead hvis hw hne.1 hcs,
    optionalKeyword_of_ne isWord_async hw hcs hne.2.1, behindMain_of_ne hw hcs hne.2.2]
  exact ite_self none

theorem mainFunction_mark {c : Char} (cs : List Char) (hblank : isBlank c = false)
    (hword : isAsciiWord c = false) : mainFunction (c :: cs) = none := by
  rw [mainFunction_eq, stripLeft_cons_of_not_blank _ hblank]
  unfold optionalKeyword
  rw [keyword_of_not_word cs (isWord_of_mem (by decide)) hword, Option.getD_none,
    keyword_of_not_word cs isWord_async hword, Option.getD_none]
  unfold behindMain
  rw [keyword_of_not_word cs isWord_fn hword]
  rfl

theorem mainFunction_blank_append {lead : List Char} (h : allBlank lead) (cs : List Char) :
    mainFunction (lead ++ cs) = mainFunction cs := by
  rw [← finder_mainFunction.strip, stripLeft_append_of_allBlank _ h, finder_mainFunction.strip]

/-! ## Lines of functions -/

/-- The attributes in front of an item on its line. -/
inductive Attributes : List Char → Prop
  | nil : Attributes []
  | cons {inner gap more : List Char} :
      ']' ∉ inner → allBlank gap → Attributes more →
      Attributes ('#' :: '[' :: (inner ++ ']' :: (gap ++ more)))

/-- The scan knows the head of the function: it has no attributes, its visibility has no
parentheses, no words but `async` stand behind it, and the mark behind its name opens the
parameters. -/
structure PlainHead (attributes vis qualifiers : List Char) (mark : Char) : Prop where
  bare : attributes = []
  unscoped : '(' ∉ vis
  qualified : PlainQualifiers qualifiers
  opened : mark = '('

/-- The line begins with a function, at least up to the mark behind its name; `plain` says that the
scan knows its head. -/
inductive FunctionLine (name : String) (plain : Bool) : List Char → Prop
  | function {lead attributes vis qualifiers gap blanks rest : List Char} {mark : Char} :
      allBlank lead → Attributes attributes → Visibility Scope vis → Qualifiers qualifiers →
      Gap gap → IsName name → allBlank blanks → isBlank mark = false → isAsciiWord mark = false →
      (plain = true ↔ PlainHead attributes vis qualifiers mark) →
      FunctionLine name plain (lead ++ (attributes ++ (vis ++ (qualifiers ++
        ("fn".toList ++ (gap ++ (name.toList ++ (blanks ++ mark :: rest))))))))

/-- The scan does not read over attributes. -/
theorem Attributes.mainFunction {lead attributes cs : List Char} (h : Attributes attributes)
    (hne : attributes ≠ []) (hlead : allBlank lead) :
    mainFunction (lead ++ (attributes ++ cs)) = none := by
  cases h with
  | nil => exact absurd rfl hne
  | cons _ _ _ =>
      rw [mainFunction_blank_append hlead]
      exact mainFunction_mark _ rfl rfl

/-- **The line of a function gives an entry point** if and only if the function is a `main` whose
head the scan knows. -/
theorem FunctionLine.gives {name : String} {plain : Bool} {line : List Char}
    (h : FunctionLine name plain line) :
    Gives mainFunction id line (if plain ∧ name = "main" then [()] else []) := by
  cases h with
  | @function lead attributes vis qualifiers gap blanks rest mark hlead hattributes hvis hqualifiers
      hgap hname hblanks hmark hword hplain =>
      have hread : ∀ after, mainFunction (lead ++ (attributes ++ (vis ++ (qualifiers ++
          ("fn".toList ++ (gap ++ (name.toList ++ (blanks ++ mark :: (rest ++ after))))))))) =
            if plain ∧ name = "main" then some ((), rest ++ after) else none := by
        intro after
        have hbreaks := Breaks.gap_append hgap (name.toList ++ (blanks ++ mark :: (rest ++ after)))
        obtain ⟨w, behind, hsplit, hw, hbehind⟩ := hqualifiers.front hbreaks
        have hpub : w ≠ "pub" := by
          rintro rfl
          exact absurd hw (by decide)
        have hfn : behindMain ("fn".toList ++ (gap ++ (name.toList ++ (blanks ++ mark ::
            (rest ++ after))))) = if name = "main" ∧ mark = '(' then some ((), rest ++ after) else
            none := behindMain_fn hgap hname hblanks hmark hword
        have hqualified := hqualifiers.behindMain_or hbreaks
        by_cases hbare : attributes = []
        · subst hbare
          rw [hsplit] at hqualified
          rw [List.nil_append, hsplit,
            mainFunction_visible hlead hvis (isWord_functionWord hw) hpub hbehind]
          by_cases hopen : '(' ∈ vis
          · rw [if_pos hopen, if_neg]
            rintro ⟨hknown, -⟩
            exact (hplain.mp hknown).unscoped hopen
          · rw [if_neg hopen]
            rcases hqualified with ⟨hqualified, hrun⟩ | ⟨hqualified, hrun⟩
            · have hiff : name = "main" ∧ mark = '(' ↔ plain = true ∧ name = "main" := by
                rw [hplain]
                exact ⟨fun hmain => ⟨⟨rfl, hopen, hqualified, hmain.2⟩, hmain.1⟩,
                  fun hmain => ⟨hmain.2, hmain.1.opened⟩⟩
              rw [hrun, hfn]
              exact if_congr hiff rfl rfl
            · rw [hrun, if_neg]
              rintro ⟨hknown, -⟩
              exact hqualified (hplain.mp hknown).qualified
        · rw [hattributes.mainFunction hbare hlead, if_neg]
          rintro ⟨hknown, -⟩
          exact hbare (hplain.mp hknown).bare
      have happend : ∀ after : List Char, lead ++ (attributes ++ (vis ++ (qualifiers ++
          ("fn".toList ++ (gap ++ (name.toList ++ (blanks ++ mark :: rest))))))) ++ after =
          lead ++ (attributes ++ (vis ++ (qualifiers ++ ("fn".toList ++ (gap ++
            (name.toList ++ (blanks ++ mark :: (rest ++ after)))))))) := by
        intro after
        simp only [List.append_assoc, List.cons_append]
      by_cases hmain : plain ∧ name = "main"
      · rw [if_pos hmain]
        refine .one fun after _ => ⟨(), rest, rfl, ?_⟩
        rw [happend, hread, if_pos hmain]
      · rw [if_neg hmain]
        refine .nothing fun after _ => ?_
        rw [happend, hread, if_neg hmain]

/-! ## Lines of other items -/

theorem Writes.gives_noMain {d : Declaration} {chunk rest : List Char} (h : Writes d chunk rest) :
    Gives mainFunction id (chunk ++ rest) [] := by
  have hother : ∀ w ∈ d.keywords, w ∉ ["pub", "async", "fn"] := by
    cases d with
    | use _ => exact show ∀ w ∈ ["use"], w ∉ ["pub", "async", "fn"] by decide
    | module _ => exact show ∀ w ∈ ["mod"], w ∉ ["pub", "async", "fn"] by decide
    | type _ => exact show ∀ w ∈ "unsafe" :: typeKeywords, w ∉ ["pub", "async", "fn"] by decide
  refine .nothing fun after _ => ?_
  cases h with
  | front hlead hvis hbody =>
      obtain ⟨w, behind, rfl, hkeyword, hword, hbreaks⟩ := hbody.front
      have hnone := mainFunction_word hlead hvis hword (hother w hkeyword) (hbreaks (rest ++ after))
      simpa only [List.append_assoc] using hnone

/-- The line of an item that is no function gives no entry point. -/
theorem LineOf.gives_noMain {item : Item} {line : List Char} (h : LineOf item line)
    (hitem : ∀ name inner, item ≠ .function name inner) : Gives mainFunction id line [] := by
  cases h with
  | declared _ hwrites => exact hwrites.gives_noMain
  | @external name _ lead gap gap' rest hlead hgap _ _ _ =>
      refine .nothing fun after _ => ?_
      have hextern : IsWord "extern".toList := isWord_of_mem (by decide)
      have hother : "extern" ∉ ["pub", "async", "fn"] := by decide
      have hnone := mainFunction_word hlead .inherited hextern hother
        (Breaks.gap_append hgap ("crate".toList ++ (gap' ++ (name.toList ++ (rest ++ after)))))
      rw [List.nil_append] at hnone
      simpa only [List.append_assoc] using hnone
  | function _ _ _ _ _ _ => exact absurd rfl (hitem _ _)

/-- The first word of the line, its visibility apart, is `fn` or `async`. -/
def OpensFunction (line : List Char) : Prop :=
  ∃ lead vis w rest, allBlank lead ∧ Visibility Scope vis ∧ w ∈ ["async", "fn"] ∧ Breaks rest ∧
    line = lead ++ (vis ++ (String.toList w ++ rest))

theorem OpensFunction.letter {line : List Char} (h : OpensFunction line) :
    (stripLeft line).head? ∈ [some 'p', some 'a', some 'f'] := by
  obtain ⟨lead, vis, w, rest, hlead, hvis, hw, -, rfl⟩ := h
  rw [stripLeft_append_of_allBlank _ hlead]
  cases hvis with
  | inherited =>
      rcases List.mem_cons.mp hw with rfl | hw
      · exact .tail _ (.head _)
      · obtain rfl := List.mem_singleton.mp hw
        exact .tail _ (.tail _ (.head _))
  | everywhere _ => exact .head _
  | restricted _ _ => exact .head _

theorem Idle.gives_noMain {line : List Char} (h : Idle line) (hopens : ¬ OpensFunction line) :
    Gives mainFunction id line [] := by
  cases h with
  | blank hblank => exact .passed fun after _ => mainFunction_blank_append hblank after
  | annotated hlead _ _ =>
      refine .nothing fun after _ => ?_
      rw [List.append_assoc, mainFunction_blank_append hlead]
      exact mainFunction_mark _ rfl rfl
  | mark hlead hblank hword _ =>
      refine .nothing fun after _ => ?_
      rw [List.append_assoc, mainFunction_blank_append hlead]
      exact mainFunction_mark _ hblank hword
  | @word w lead vis rest hlead hvis hw hfree hrest =>
      refine .nothing fun after hafter => ?_
      have hother : w ∉ ["pub", "async", "fn"] := by
        intro hmem
        rcases List.mem_cons.mp hmem with rfl | hmem
        · exact hfree (by decide)
        · exact hopens ⟨lead, vis, w, rest, hlead, hvis, hmem, hrest, rfl⟩
      have hnone := mainFunction_word hlead hvis hw hother (hrest.lineEnd hafter)
      simpa only [List.append_assoc] using hnone

/-! ## Scripts with the head of each item on a line -/

/-- An item of a script: its depth, and whether the scan knows its head if it is a function. -/
structure Head where
  depth : Nat
  item : Item
  plain : Bool

/-- The item is an entry point: a function `main` at the top level. -/
def isEntry (level : Nat × Item) : Bool := level.1 = 0 && isMain level.2

/-- The item is an entry point of its script. -/
def Head.isEntry (head : Head) : Bool := Source.isEntry (head.depth, head.item)

/-- The item is a function `main` whose head the scan knows. -/
def Head.isKnown (head : Head) : Bool := head.plain && isMain head.item

/-- The item is an entry point that the scan passes over. -/
def Head.isHidden (head : Head) : Bool := head.isEntry && !head.isKnown

/-- The item is a function `main` that the scan knows but that is nested in another item. -/
def Head.isNested (head : Head) : Bool := head.isKnown && !head.isEntry

/-- As many are counted as there are, if as many are counted wrongly as are passed over. -/
theorem countP_isKnown_iff (heads : List Head) :
    heads.countP Head.isKnown = heads.countP Head.isEntry ↔
      heads.countP Head.isNested = heads.countP Head.isHidden := by
  have hsplit : heads.countP Head.isKnown + heads.countP Head.isHidden =
      heads.countP Head.isEntry + heads.countP Head.isNested := by
    induction heads with
    | nil => rfl
    | cons head heads ih =>
        simp only [List.countP_cons, Head.isHidden, Head.isNested]
        by_cases hknown : head.isKnown <;> by_cases hentry : head.isEntry <;>
          simp only [hknown, hentry, Bool.and_true, Bool.and_false, Bool.not_true, Bool.not_false,
            if_true, Bool.false_eq_true, if_false] <;> omega
  omega

/-- The head of each item that declares something begins a line, in their order, and on the other
lines no item and no function begins. -/
inductive Headed : List Head → List (List Char) → Prop
  | nil : Headed [] []
  | other {depth : Nat} {inner : List Item} {heads : List Head} {lines : List (List Char)} :
      Headed heads lines → Headed (⟨depth, .other inner, false⟩ :: heads) lines
  | idle {heads : List Head} {line : List Char} {lines : List (List Char)} :
      Idle line → ¬ OpensFunction line → Headed heads lines → Headed heads (line :: lines)
  | function {depth : Nat} {name : String} {inner : List Item} {plain : Bool} {heads : List Head}
      {line : List Char} {lines : List (List Char)} :
      FunctionLine name plain line → Headed heads lines →
      Headed (⟨depth, .function name inner, plain⟩ :: heads) (line :: lines)
  | item {depth : Nat} {item : Item} {heads : List Head} {line : List Char}
      {lines : List (List Char)} :
      LineOf item line → (∀ name inner, item ≠ .function name inner) → Headed heads lines →
      Headed (⟨depth, item, false⟩ :: heads) (line :: lines)

/-- The text `cs`, which has no comments, writes the items with the heads, one on each line. -/
structure Layout (items : List Item) (heads : List Head) (cs : List Char) : Prop where
  levels : heads.map (fun head => (head.depth, head.item)) = Item.leveledOf 0 items
  lines : Headed heads (cutLines cs)

theorem Headed.gives {heads : List Head} {lines : List (List Char)} (h : Headed heads lines) :
    ∃ founds, List.Forall₂ (Gives mainFunction id) lines founds ∧
      founds.flatten.length = heads.countP Head.isKnown := by
  induction h with
  | nil => exact ⟨[], .nil, rfl⟩
  | other _ ih =>
      obtain ⟨founds, hgives, hlength⟩ := ih
      exact ⟨founds, hgives, by rw [hlength, List.countP_cons_of_neg (by simp [Head.isKnown])]⟩
  | idle hidle hopens _ ih =>
      obtain ⟨founds, hgives, hlength⟩ := ih
      exact ⟨[] :: founds, .cons (hidle.gives_noMain hopens) hgives, hlength⟩
  | @function depth name inner plain heads line lines hline _ ih =>
      obtain ⟨founds, hgives, hlength⟩ := ih
      refine ⟨_ :: founds, .cons hline.gives hgives, ?_⟩
      rw [List.flatten_cons, List.length_append, hlength, List.countP_cons]
      have hknown : (Head.mk depth (.function name inner) plain).isKnown = true ↔
          plain = true ∧ name = "main" := by simp [Head.isKnown, isMain]
      by_cases hmain : plain = true ∧ name = "main"
      · rw [if_pos hmain, if_pos (hknown.mpr hmain), List.length_singleton, Nat.add_comm]
      · rw [if_neg hmain, if_neg fun hmem => hmain (hknown.mp hmem), List.length_nil, Nat.zero_add,
          Nat.add_zero]
  | item hline hitem _ ih =>
      obtain ⟨founds, hgives, hlength⟩ := ih
      refine ⟨[] :: founds, .cons (hline.gives_noMain hitem) hgives, ?_⟩
      rw [List.countP_cons_of_neg (by simp [Head.isKnown])]
      exact hlength

section

variable {items : List Item} {heads : List Head} {source : String}
  (h : Layout items heads (removeComments source.toList))

include h

theorem Layout.entries : (Item.leveledOf 0 items).countP isEntry = heads.countP Head.isEntry := by
  rw [← h.levels, List.countP_map]
  rfl

/-- **The scan counts the functions `main` whose heads it knows**, at every depth. -/
theorem Layout.scan : (Facts.scan source).mainCount = heads.countP Head.isKnown := by
  obtain ⟨founds, hgives, hlength⟩ := h.lines.gives
  have hfeed : ∀ line ∈ cutLines (removeComments source.toList), '\n' ∉ line :=
    fun _ => not_mem_of_mem_cutAt
  have hstarts := finder_mainFunction.starts_lines hfeed hgives
  rw [lineText_cutLines, finder_mainFunction.starts_feed, List.map_id] at hstarts
  show (atLineStarts mainFunction (removeComments source.toList)).length = _
  rw [hstarts, hlength]

end

/-! ## Programs and snippets -/

/-- The syntax tree counts the entry points. -/
theorem mainCount_ofItems (items : List Item) :
    (Facts.ofItems items).mainCount = (Item.leveledOf 0 items).countP isEntry :=
  (Item.countP_leveledOf 0 items isMain).symm

/-- The analysis counts what the syntax tree has, or what the scan finds where there is none. -/
theorem mainCount_analyze {structural : Bool} {text : String} {metadata : Metadata}
    (h : analyze structural text = .ok metadata) :
    (∃ items, metadata.strategy = .structural ∧ Item.parse? metadata.body = some items ∧
      metadata.mainCount = (Facts.ofItems items).mainCount) ∨
    (metadata.strategy = .textual ∧
      metadata.mainCount = (Facts.scan metadata.body).mainCount) := by
  obtain ⟨-, rfl⟩ := analyze_eq_ok_iff.mp h
  unfold findings
  dsimp only
  cases structural with
  | false => exact .inr ⟨rfl, rfl⟩
  | true =>
      unfold findFacts
      rw [if_pos rfl]
      cases hparse : Item.parse? (stripShebang text).1 with
      | none => exact .inr ⟨rfl, rfl⟩
      | some items => exact .inl ⟨items, rfl, rfl, rfl⟩

/-- **What makes a script a program.** Where it has a syntax tree, its entry points are counted: the
functions `main` at the top level. Where it has none, and each of its items begins a line, the
functions `main` with a head that the scan knows are counted; they are as many as the entry points
if and only if as many of them are nested as other entry points are passed over. A script with a
count is a program and is built as it is, and every other script is wrapped. -/
theorem entries_analyze {structural : Bool} {text : String} {metadata : Metadata}
    (h : analyze structural text = .ok metadata) :
    (metadata.strategy = .structural → ∃ items, Item.parse? metadata.body = some items ∧
      metadata.mainCount = (Item.leveledOf 0 items).countP isEntry) ∧
    (metadata.strategy = .textual →
      ∀ items heads, Layout items heads (removeComments metadata.body.toList) →
        metadata.mainCount = heads.countP Head.isKnown ∧
        (metadata.mainCount = (Item.leveledOf 0 items).countP isEntry ↔
          heads.countP Head.isNested = heads.countP Head.isHidden)) ∧
    (metadata.isProgram = true ↔ 1 ≤ metadata.mainCount) ∧
    Pipeline.generatedSource metadata =
      if 1 ≤ metadata.mainCount then metadata.body else Snippet.wrap metadata.body := by
  have hprogram : metadata.isProgram = true ↔ 1 ≤ metadata.mainCount := decide_eq_true_iff
  refine ⟨fun hstructural => ?_, fun htextual items heads hlayout => ?_, hprogram,
    if_congr hprogram rfl rfl⟩
  · rcases mainCount_analyze h with ⟨items, -, hparse, hcount⟩ | ⟨htextual, -⟩
    · exact ⟨items, hparse, hcount.trans (mainCount_ofItems items)⟩
    · rw [hstructural] at htextual
      cases htextual
  · rcases mainCount_analyze h with ⟨items, hstructural, -⟩ | ⟨-, hcount⟩
    · rw [htextual] at hstructural
      cases hstructural
    · rw [hcount, hlayout.scan, hlayout.entries]
      exact ⟨rfl, countP_isKnown_iff heads⟩

/-! ## Three scripts -/

theorem functionLine_main {lead vis qualifiers rest : List Char} {plain : Bool}
    (hlead : allBlank lead) (hvis : Visibility Scope vis) (hqualifiers : Qualifiers qualifiers)
    (hplain : plain = true ↔ PlainHead [] vis qualifiers '(') :
    FunctionLine "main" plain (lead ++ ([] ++ (vis ++ (qualifiers ++
      ("fn".toList ++ ([' '] ++ ("main".toList ++ ([] ++ '(' :: rest)))))))) :=
  .function hlead .nil hvis hqualifiers ⟨by decide, List.cons_ne_nil _ _⟩
    ⟨by decide, by decide⟩ allBlank_nil rfl rfl hplain

theorem plainHead_main : true = true ↔ PlainHead [] [] [] '(' :=
  ⟨fun _ => ⟨rfl, List.not_mem_nil, .inl rfl, rfl⟩, fun _ => rfl⟩

/-- The line of an expression and the end of the text. -/
theorem headed_one : Headed [] [['1'], []] := by
  have hword : IsWord "1".toList := by
    refine ⟨fun c hc => ?_, List.cons_ne_nil _ _⟩
    obtain rfl : c = '1' := List.mem_singleton.mp hc
    rfl
  have hone : Idle ([] ++ ([] ++ ("1".toList ++ []))) :=
    .word allBlank_nil .inherited hword (by decide) trivial
  exact .idle hone (fun h => absurd h.letter (by decide))
    (.idle (.blank allBlank_nil) (fun h => absurd h.letter (by decide)) .nil)

/-- What an analysis of a text without interpreter line and manifest gives. -/
def readsAs (text : String) (count : Nat) : Except Manifest.Malformed Metadata → Bool
  | .ok metadata =>
      metadata.body = text && metadata.strategy = .textual && metadata.mainCount = count
  | .error _ => false

theorem analyze_of_readsAs {text : String} {count : Nat}
    (h : readsAs text count (analyze true text) = true) :
    ∃ metadata, analyze true text = .ok metadata ∧ metadata.body = text ∧
      metadata.strategy = .textual ∧ metadata.mainCount = count := by
  cases hanalyze : analyze true text with
  | error error =>
      rw [hanalyze] at h
      cases h
  | ok metadata =>
      rw [hanalyze] at h
      have hfields : (metadata.body = text ∧ metadata.strategy = .textual) ∧
          metadata.mainCount = count := by simpa [readsAs] using h
      exact ⟨metadata, rfl, hfields.1.1, hfields.1.2, hfields.2⟩

/-- A program that ends in an expression, so that it has no syntax tree. -/
def trailing : String := "fn main() \x7b\x7d\n1\n"

theorem layout_trailing :
    Layout [.function "main" []] [⟨0, .function "main" [], true⟩]
      (removeComments trailing.toList) := by
  have hmain : FunctionLine "main" true ([] ++ ([] ++ ([] ++ ([] ++ ("fn".toList ++ ([' '] ++
      ("main".toList ++ ([] ++ '(' :: ") \x7b\x7d".toList)))))))) :=
    functionLine_main allBlank_nil .inherited (.plain .native) plainHead_main
  refine ⟨rfl, ?_⟩
  rw [removeComments_of_not_mem (by decide)]
  exact .function hmain headed_one

/-- The program is known as one without its syntax tree. -/
theorem entries_analyze_trailing :
    ∃ metadata, analyze true trailing = .ok metadata ∧ metadata.strategy = .textual ∧
      metadata.mainCount = (Item.leveledOf 0 [.function "main" []]).countP isEntry ∧
      Pipeline.generatedSource metadata = trailing := by
  obtain ⟨metadata, hanalyze, hbody, hstrategy, hcount⟩ :=
    analyze_of_readsAs (show readsAs trailing 1 (analyze true trailing) = true by decide +kernel)
  obtain ⟨-, htextual, -, hsource⟩ := entries_analyze hanalyze
  have hlayout : Layout _ _ (removeComments metadata.body.toList) := hbody.symm ▸ layout_trailing
  refine ⟨metadata, hanalyze, hstrategy, (htextual hstrategy _ _ hlayout).2.mpr rfl, ?_⟩
  rw [hsource, hcount, hbody]
  exact if_pos (Nat.le_refl 1)

/-- A snippet with a module that has a function `main`. -/
def nesting : String := "mod inner \x7b\n    fn main() \x7b\x7d\n\x7d\n1\n"

theorem layout_nesting :
    Layout [.module "inner" [.function "main" []]]
      [⟨0, .module "inner" [.function "main" []], false⟩, ⟨1, .function "main" [], true⟩]
      (removeComments nesting.toList) := by
  have hbody : Body (.module "inner") ("mod".toList ++ ([' '] ++ ("inner".toList ++
      ([' '] ++ ['\x7b'])))) [] :=
    .module ⟨by decide, List.cons_ne_nil _ _⟩ ⟨by decide, by decide⟩ (by decide) (.inl rfl)
  have hmodule : LineOf (.module "inner" [.function "main" []]) _ :=
    .declared rfl (.front allBlank_nil .inherited hbody)
  have hmain : FunctionLine "main" true ("    ".toList ++ ([] ++ ([] ++ ([] ++ ("fn".toList ++
      ([' '] ++ ("main".toList ++ ([] ++ '(' :: ") \x7b\x7d".toList)))))))) :=
    functionLine_main (by decide) .inherited (.plain .native) plainHead_main
  have hclose : Idle ([] ++ ['\x7d']) := .mark allBlank_nil rfl rfl nofun
  refine ⟨rfl, ?_⟩
  rw [removeComments_of_not_mem (by decide)]
  exact .item hmodule nofun (.function hmain
    (.idle hclose (fun h => absurd h.letter (by decide)) headed_one))

/-- A program with an entry point that is called with care, which ends in an expression. -/
def careful : String := "unsafe fn main() \x7b\x7d\n1\n"

theorem layout_careful :
    Layout [.function "main" []] [⟨0, .function "main" [], false⟩]
      (removeComments careful.toList) := by
  have hgap : Gap [' '] := ⟨by decide, List.cons_ne_nil _ _⟩
  have hplain : ¬ PlainHead [] [] ("unsafe".toList ++ ([' '] ++ [])) '(' := by
    rintro ⟨-, -, hnil | ⟨gap, hgap, hasync⟩, -⟩
    · cases hnil
    · exact absurd (List.cons.inj hasync).1 (by decide)
  have hmain : FunctionLine "main" false ([] ++ ([] ++ ([] ++ (("unsafe".toList ++ ([' '] ++ [])) ++
      ("fn".toList ++ ([' '] ++ ("main".toList ++ ([] ++ '(' :: ") \x7b\x7d".toList)))))))) :=
    functionLine_main allBlank_nil .inherited (.marked hgap .native)
      ⟨fun hfalse => absurd hfalse (by decide), fun hknown => absurd hknown hplain⟩
  refine ⟨rfl, ?_⟩
  rw [removeComments_of_not_mem (by decide)]
  exact .function hmain headed_one

/-- **A scan takes a snippet for a program, and a program for a snippet.** The first script has no
entry point, but a function `main` in a module, and it is built as it is. The second has an entry
point that is marked as unsafe, and it is wrapped. -/
theorem snippet_taken_for_program :
    (∃ items heads metadata, analyze true nesting = .ok metadata ∧
      Layout items heads (removeComments nesting.toList) ∧
      (Item.leveledOf 0 items).countP isEntry = 0 ∧ metadata.mainCount = 1 ∧
      Pipeline.generatedSource metadata = nesting) ∧
    (∃ items heads metadata, analyze true careful = .ok metadata ∧
      Layout items heads (removeComments careful.toList) ∧
      (Item.leveledOf 0 items).countP isEntry = 1 ∧ metadata.mainCount = 0 ∧
      Pipeline.generatedSource metadata = Snippet.wrap careful) := by
  have hsource : ∀ metadata : Metadata, Pipeline.generatedSource metadata =
      if 1 ≤ metadata.mainCount then metadata.body else Snippet.wrap metadata.body :=
    fun metadata => if_congr decide_eq_true_iff rfl rfl
  constructor
  · obtain ⟨metadata, hanalyze, hbody, -, hcount⟩ :=
      analyze_of_readsAs (show readsAs nesting 1 (analyze true nesting) = true by decide +kernel)
    refine ⟨_, _, metadata, hanalyze, layout_nesting, rfl, hcount, ?_⟩
    rw [hsource, hcount, hbody]
    exact if_pos (Nat.le_refl 1)
  · obtain ⟨metadata, hanalyze, hbody, -, hcount⟩ :=
      analyze_of_readsAs (show readsAs careful 0 (analyze true careful) = true by decide +kernel)
    refine ⟨_, _, metadata, hanalyze, layout_careful, rfl, hcount, ?_⟩
    rw [hsource, hcount, hbody]
    exact if_neg (Nat.not_succ_le_zero 0)

end RustScript.Source
