import Mathlib.Algebra.Order.BigOperators.Group.List
import Mathlib.Algebra.Order.Group.Nat
import RustScript.Proofs.Snippet.Value

/-!
# What goes in front of the entry point

The parts of a snippet are imports, inner attributes and statements, each on lines of its own. Wrapping
divides the lines as it goes, remembering only whether a declaration goes on. The imports and the
attributes go in front, whole and in their order, and the statements into `fn main`, exactly if
wrapping knows each of the declarations by its first line (`wrap_parts`): nothing stands in front
of the keywords, a blank stands behind each of them on that line, and an attribute has only one line.
-/

set_option autoImplicit false

namespace RustScript.Snippet

open RustScript.Source RustScript.Text

/-! ## Parts of a snippet -/

/-- The words that begin an import: `use`, or `extern` and `crate` with blanks between them. -/
inductive ImportWords : List Char → Prop
  | use : ImportWords "use".toList
  | externCrate {gap : List Char} : Gap gap →
      ImportWords ("extern".toList ++ (gap ++ "crate".toList))

/-- What may stand in front of these words: nothing, outer attributes, or a visibility. -/
inductive ImportFront : List Char → Prop
  | nothing : ImportFront []
  | outer {gap rest : List Char} : allBlank gap → ImportFront ('#' :: (gap ++ '[' :: rest))
  | visibility (rest : List Char) : ImportFront ("pub".toList ++ rest)

/-- A use declaration or the declaration of an external crate, without its semicolon. -/
structure Import where
  front : List Char
  words : List Char
  /-- The use tree, or the name of the crate, with the blanks around it. -/
  content : List Char
  isFront : ImportFront front
  isWords : ImportWords words
  /-- Neither a use tree nor a name has such marks in it. -/
  plain : ∀ c ∈ content, c ≠ ';' ∧ c ≠ '!'

/-- The text of an import. -/
def Import.text (i : Import) : List Char := i.front ++ (i.words ++ (i.content ++ [';']))

/-- Nothing stands in front of the words of the import, and on the line on which it begins a blank
stands behind each of them. -/
structure Import.IsPlain (i : Import) : Prop where
  front : i.front = []
  words : '\n' ∉ i.words
  content : ∃ c rest, i.content = c :: rest ∧ isBlank c = true ∧ c ≠ '\n'

/-- An inner attribute: its marks with blanks between them, and the rest of it. -/
structure InnerAttribute where
  gap : List Char
  gap' : List Char
  content : List Char
  blank : allBlank gap
  blank' : allBlank gap'

/-- The text of an inner attribute. -/
def InnerAttribute.text (a : InnerAttribute) : List Char :=
  '#' :: (a.gap ++ '!' :: (a.gap' ++ '[' :: a.content))

/-- The marks stand together, and the attribute has only one line. -/
structure InnerAttribute.IsPlain (a : InnerAttribute) : Prop where
  gap : a.gap = []
  gap' : a.gap' = []
  content : '\n' ∉ a.content

/-- A part of a snippet. A statement may have any text, and blank lines count as one. -/
inductive Part
  | ofImport (i : Import)
  | ofAttribute (a : InnerAttribute)
  | statement

namespace Part

/-- The part belongs in front of the entry point. -/
def goesFront : Part → Bool
  | .ofImport _ => true
  | .ofAttribute _ => true
  | .statement => false

/-- The part is known by its first line. -/
def IsPlain : Part → Prop
  | .ofImport i => i.IsPlain
  | .ofAttribute a => a.IsPlain
  | .statement => True

/-- The part stands on these lines and nothing else does. No line of a statement begins like a
declaration, and no further line of an attribute does. -/
inductive Fills : Part → List Line → Prop
  | ofImport {i : Import} {lead trail : List Char} {lines : List Line} :
      allBlank lead → '\n' ∉ lead → '\n' ∉ trail →
      joinLines lines = lead ++ (i.text ++ trail) → Fills (.ofImport i) lines
  | ofAttribute {a : InnerAttribute} {lead : List Char} {first : Line} {more : List Line} :
      allBlank lead → '\n' ∉ lead → joinLines (first :: more) = lead ++ a.text →
      (∀ line ∈ more, isHoisted line = false) → Fills (.ofAttribute a) (first :: more)
  | statement {lines : List Line} : (∀ line ∈ lines, isHoisted line = false) →
      Fills .statement lines

end Part

/-- The lines of the parts that belong in front, or of the other ones. -/
def partLines (front : Bool) (parts : List (Part × List Line)) : List Line :=
  (parts.filter fun part => part.1.goesFront == front).flatMap Prod.snd

/-! ## From one line to the next -/

/-- A declaration goes on behind a line. -/
def nextInside (inside : Bool) (line : Line) : Bool := (inside || isHoisted line) && goesOn line

theorem placed_cons (inside : Bool) (line : Line) (rest : List Line) :
    placed inside (line :: rest) =
      (inside || isHoisted line, line) :: placed (nextInside inside line) rest := by
  rw [placed, nextInside]
  by_cases h : (inside || isHoisted line) = true
  · rw [if_pos h, h, Bool.true_and]
  · rw [if_neg h, Bool.eq_false_iff.mpr h, Bool.false_and]

theorem placed_append (inside : Bool) (lines rest : List Line) :
    placed inside (lines ++ rest) =
      placed inside lines ++ placed (lines.foldl nextInside inside) rest := by
  induction lines generalizing inside with
  | nil => rfl
  | cons line lines ih =>
      rw [List.cons_append, placed_cons, ih, placed_cons, List.foldl_cons, List.cons_append]

/-- Lines that do not begin like declarations stay where they are. -/
theorem placed_of_not_hoisted {lines : List Line} (h : ∀ line ∈ lines, isHoisted line = false) :
    placed false lines = lines.map (Prod.mk false) ∧ lines.foldl nextInside false = false := by
  induction lines with
  | nil => exact ⟨rfl, rfl⟩
  | cons line lines ih =>
      obtain ⟨hline, hlines⟩ := List.forall_mem_cons.mp h
      have hnext : nextInside false line = false := by rw [nextInside, hline]; rfl
      rw [placed_cons, List.foldl_cons, hnext, hline, (ih hlines).1, (ih hlines).2]
      exact ⟨rfl, rfl⟩

/-- A declaration takes the lines along up to the first behind which it does not go on. -/
theorem placed_of_goesOn {lines : List Line} (h : ∀ line ∈ lines, goesOn line = true)
    (last : Line) : placed true (lines ++ [last]) = (lines ++ [last]).map (Prod.mk true) := by
  induction lines with
  | nil => rfl
  | cons line lines ih =>
      obtain ⟨hline, hlines⟩ := List.forall_mem_cons.mp h
      have hnext : nextInside true line = true := hline
      rw [List.cons_append, placed_cons, hnext, ih hlines]
      rfl

theorem goesOn_eq_false_of_mem {line : Line} (h : ';' ∈ line) : goesOn line = false := by
  rw [goesOn, List.contains_iff_mem.mpr h, Bool.not_true, Bool.and_false]

theorem goesOn_of_plain {line : Line} (h : ∀ c ∈ line, c ≠ ';' ∧ c ≠ '!') : goesOn line = true := by
  have hmarks : startsWith "#![" (stripLeft line) = false := by
    refine Bool.eq_false_iff.mpr fun hstarts => ?_
    obtain ⟨rest, hrest⟩ := startsWith_iff.mp hstarts
    have hmem : '!' ∈ stripLeft line := hrest ▸ by simp
    exact (h '!' ((stripLeft_suffix line).subset hmem)).2 rfl
  have hsemicolon : line.contains ';' = false :=
    Bool.eq_false_iff.mpr fun hmem => (h ';' (List.contains_iff_mem.mp hmem)).1 rfl
  rw [goesOn, hmarks, hsemicolon]
  rfl

/-! ## How a declaration begins -/

/-- The first line of a text. -/
def firstLine (cs : List Char) : Line := cs.takeWhile (· ≠ '\n')

theorem firstLine_append {front : List Char} (h : '\n' ∉ front) (cs : List Char) :
    firstLine (front ++ cs) = front ++ firstLine cs :=
  List.takeWhile_append_of_pos fun _ hc => decide_eq_true fun heq => h (heq ▸ hc)

theorem firstLine_cons {c : Char} (h : c ≠ '\n') (cs : List Char) :
    firstLine (c :: cs) = c :: firstLine cs :=
  List.takeWhile_cons_of_pos (decide_eq_true h)

/-- What a line begins with is seen behind its blanks. -/
theorem isHoisted_append {lead : List Char} (h : allBlank lead) (line : Line) :
    isHoisted (lead ++ line) = isHoisted line := by
  unfold isHoisted
  rw [stripLeft_append_of_allBlank line h]

theorem keyword_isSome_iff {word : String} {cs : List Char} :
    (keyword word (word.toList ++ cs)).isSome ↔ ∃ c rest, cs = c :: rest ∧ isBlank c = true := by
  unfold keyword
  rw [afterPrefix_append]
  show (afterBlanks cs).isSome ↔ _
  cases cs with
  | nil => simp [afterBlanks]
  | cons c rest =>
      rw [afterBlanks]
      split
      · next hc => exact iff_of_true rfl ⟨c, rest, rfl, hc⟩
      · next hc =>
          refine iff_of_false Bool.false_ne_true ?_
          rintro ⟨d, more, hsplit, hd⟩
          exact hc ((List.cons.inj hsplit).1 ▸ hd)

theorem exists_blank_firstLine_iff {cs : List Char} :
    (∃ c rest, firstLine cs = c :: rest ∧ isBlank c = true) ↔
      ∃ c rest, cs = c :: rest ∧ isBlank c = true ∧ c ≠ '\n' := by
  cases cs with
  | nil => simp [firstLine]
  | cons d more =>
      by_cases hd : d = '\n'
      · subst hd
        simp [firstLine]
      · simp [firstLine_cons hd, hd]

section

variable {cs gap : List Char}

theorem isHoisted_use_iff :
    isHoisted (firstLine ("use".toList ++ cs)) = true ↔
      ∃ c rest, cs = c :: rest ∧ isBlank c = true ∧ c ≠ '\n' := by
  rw [firstLine_append (by decide), ← exists_blank_firstLine_iff, ← keyword_isSome_iff]
  unfold isHoisted
  show (_ || _ || false) = true ↔ _
  rw [Bool.or_false, Bool.or_eq_true]
  exact or_iff_left Bool.false_ne_true

theorem isHoisted_externCrate_iff (hgap : Gap gap) :
    isHoisted (firstLine ("extern".toList ++ (gap ++ ("crate".toList ++ cs)))) = true ↔
      '\n' ∉ gap ∧ ∃ c rest, cs = c :: rest ∧ isBlank c = true ∧ c ≠ '\n' := by
  have hextern : ∀ rest, isHoisted ("extern".toList ++ rest) =
      Option.isSome (afterBlanks rest >>= keyword "crate") := by
    intro rest
    show (false || Option.isSome _ || false) = _
    rw [Bool.or_false, Bool.false_or]
    rfl
  rw [firstLine_append (by decide), hextern]
  by_cases hfeed : '\n' ∈ gap
  · -- then there are only blanks behind the first word
    obtain ⟨blanks, more, rfl, hfree⟩ := List.eq_append_cons_of_mem hfeed
    have hblanks : afterBlanks blanks >>= keyword "crate" = none := by
      cases blanks with
      | nil => rfl
      | cons c blanks =>
          have hall := (allBlank_append.mp hgap.blank).1
          have hgap' : Gap (c :: blanks) := ⟨hall, List.cons_ne_nil c blanks⟩
          have hafter := afterBlanks_append [] hgap'
          rw [List.append_nil] at hafter
          rw [hafter]
          rfl
    have hline : firstLine (blanks ++ '\n' :: more ++ ("crate".toList ++ cs)) = blanks := by
      rw [List.append_assoc, List.cons_append]
      exact takeWhile_mark hfree _
    rw [hline, hblanks]
    exact iff_of_false Bool.false_ne_true fun h => h.1 hfeed
  · have hword : stripLeft ("crate".toList ++ firstLine cs) = "crate".toList ++ firstLine cs := rfl
    rw [firstLine_append hfeed, firstLine_append (by decide), afterBlanks_append _ hgap, hword,
      and_iff_right hfeed, ← exists_blank_firstLine_iff, ← @keyword_isSome_iff "crate"]
    exact Iff.rfl

theorem isHoisted_mark_iff :
    isHoisted (firstLine ('#' :: cs)) = true ↔ ∃ rest, cs = '!' :: '[' :: rest := by
  have hmark : ∀ rest, isHoisted ('#' :: rest) = startsWith "#![" ('#' :: rest) := fun _ => rfl
  rw [firstLine_cons (by decide), hmark, startsWith_iff]
  constructor
  · intro hstarts
    obtain ⟨rest, hrest⟩ := (List.prefix_cons_inj '#').mp hstarts
    have hline : firstLine cs <+: cs := List.takeWhile_prefix _
    rw [← hrest] at hline
    obtain ⟨more, hmore⟩ := hline
    exact ⟨rest ++ more, hmore.symm⟩
  · rintro ⟨rest, rfl⟩
    rw [firstLine_cons (by decide), firstLine_cons (by decide)]
    exact ⟨firstLine rest, rfl⟩

theorem isHoisted_visibility : isHoisted (firstLine ("pub".toList ++ cs)) = false := by
  rw [firstLine_append (by decide)]
  rfl

end

/-- Wrapping knows an import by its first line exactly if it is plain. -/
theorem Import.isHoisted_iff (i : Import) (trail : List Char) :
    isHoisted (firstLine (i.text ++ trail)) = true ↔ i.IsPlain := by
  obtain ⟨front, words, content, hfront, hwords, hmarks⟩ := i
  have hcontent : (∃ c rest, content ++ ';' :: trail = c :: rest ∧ isBlank c = true ∧ c ≠ '\n') ↔
      ∃ c rest, content = c :: rest ∧ isBlank c = true ∧ c ≠ '\n' := by
    cases content with
    | nil =>
        refine iff_of_false ?_ nofun
        rintro ⟨c, rest, hsplit, hblank, -⟩
        rw [← (List.cons.inj hsplit).1] at hblank
        exact absurd hblank (by decide)
    | cons d more => simp
  have hplain : Import.IsPlain ⟨front, words, content, hfront, hwords, hmarks⟩ ↔
      front = [] ∧ '\n' ∉ words ∧
        ∃ c rest, content = c :: rest ∧ isBlank c = true ∧ c ≠ '\n' :=
    ⟨fun h => ⟨h.front, h.words, h.content⟩, fun h => ⟨h.1, h.2.1, h.2.2⟩⟩
  have htext : Import.text ⟨front, words, content, hfront, hwords, hmarks⟩ ++ trail =
      front ++ (words ++ (content ++ ';' :: trail)) := by
    simp [Import.text]
  rw [hplain, ← hcontent, htext]
  generalize content ++ ';' :: trail = behind
  cases hfront with
  | nothing =>
      rw [List.nil_append, eq_self_iff_true, true_and]
      cases hwords with
      | use => rw [isHoisted_use_iff, and_iff_right (by decide)]
      | @externCrate gap hgap =>
          have hfeed : '\n' ∉ "extern".toList ++ (gap ++ "crate".toList) ↔ '\n' ∉ gap := by
            simp
          rw [hfeed, List.append_assoc, List.append_assoc, isHoisted_externCrate_iff hgap]
  | @outer gap rest hgap =>
      refine iff_of_false (fun hoisted => ?_) fun h => List.cons_ne_nil _ _ h.1
      rw [List.cons_append, isHoisted_mark_iff, List.append_assoc] at hoisted
      obtain ⟨more, hmore⟩ := hoisted
      cases gap with
      | nil => exact absurd (List.cons.inj hmore).1 (by decide)
      | cons c gap =>
          rw [(List.cons.inj hmore).1] at hgap
          exact absurd (allBlank_cons.mp hgap).1 (by decide)
  | visibility rest =>
      refine iff_of_false (fun hoisted => ?_) fun h => ?_
      · rw [List.append_assoc, isHoisted_visibility] at hoisted
        cases hoisted
      · exact absurd (List.append_eq_nil_iff.mp h.1).1 (by decide)

/-- Wrapping knows the marks of an inner attribute where they stand together. -/
theorem InnerAttribute.isHoisted_iff (a : InnerAttribute) :
    isHoisted (firstLine a.text) = true ↔ a.gap = [] ∧ a.gap' = [] := by
  have hfirst : ∀ {gap rest more : List Char} {mark first : Char}, allBlank gap →
      isBlank first = false → gap ++ mark :: rest = first :: more →
      gap = [] ∧ mark = first ∧ rest = more := by
    intro gap rest more mark first hgap hmark hsplit
    cases gap with
    | nil => exact ⟨rfl, List.cons.inj hsplit⟩
    | cons c gap =>
        rw [(List.cons.inj hsplit).1] at hgap
        rw [(allBlank_cons.mp hgap).1] at hmark
        cases hmark
  unfold InnerAttribute.text
  rw [isHoisted_mark_iff]
  constructor
  · rintro ⟨rest, hrest⟩
    obtain ⟨hgap, -, hbehind⟩ := hfirst a.blank (by decide) hrest
    exact ⟨hgap, (hfirst a.blank' (by decide) hbehind).1⟩
  · rintro ⟨hgap, hgap'⟩
    exact ⟨a.content, by rw [hgap, hgap']; rfl⟩

/-! ## The lines of a part -/

theorem marks_not_blank {c : Char} (h : isBlank c = true) : c ≠ ';' ∧ c ≠ '!' := by
  constructor
  all_goals
    rintro rfl
    exact absurd h (by decide)

theorem ImportWords.plain {words : List Char} (h : ImportWords words) :
    ∀ c ∈ words, c ≠ ';' ∧ c ≠ '!' := by
  cases h with
  | use => exact forall_mem_of_all (by decide)
  | externCrate hgap =>
      rw [List.forall_mem_append, List.forall_mem_append]
      exact ⟨forall_mem_of_all (by decide),
        fun c hc => marks_not_blank (isBlank_of_mem hgap.blank hc), forall_mem_of_all (by decide)⟩

/-- Where the first line begins a declaration, it makes no difference whether one goes on. -/
theorem placed_of_hoisted {line : Line} (h : isHoisted line = true) (rest : List Line) :
    placed false (line :: rest) = placed true (line :: rest) := by
  rw [placed_cons, placed_cons, nextInside, nextInside, h]
  rfl

namespace Part

variable {i : Import} {lead trail : List Char} {lines : List Line}

/-- The semicolon of an import stands on its last line. -/
theorem exists_last_of_import (hlead : allBlank lead) (htrail : '\n' ∉ trail)
    (hjoin : joinLines lines = lead ++ (i.text ++ trail)) : ∃ above last,
      lines = above ++ [last] ∧ ';' ∈ last ∧
        (i.front = [] → ∀ line ∈ above, goesOn line = true) := by
  obtain rfl | ⟨above, last, rfl⟩ := List.eq_nil_or_concat lines
  · have hempty : lead ++ (i.text ++ trail) = [] := hjoin.symm
    simp [Import.text] at hempty
  rw [List.concat_eq_append] at hjoin ⊢
  have htext : lead ++ (i.text ++ trail) =
      lead ++ (i.front ++ (i.words ++ i.content)) ++ ';' :: trail := by
    simp [Import.text]
  rw [htext] at hjoin
  have hback : '\n' ∉ ';' :: trail :=
    fun hfeed => (List.mem_cons.mp hfeed).elim (by decide) htrail
  obtain ⟨start, rfl, habove⟩ := exists_of_joinLines_concat hback hjoin
  refine ⟨above, _, rfl, List.mem_append_right _ List.mem_cons_self, fun hfront line hline => ?_⟩
  -- the lines above have only characters that stand in front of the semicolon
  refine goesOn_of_plain fun c hc => ?_
  have hmem : c ∈ lead ++ (i.front ++ (i.words ++ i.content)) := by
    rw [habove]
    exact List.mem_append_left _ (List.mem_flatMap.mpr ⟨line, hline, List.mem_append_left _ hc⟩)
  rw [hfront, List.nil_append] at hmem
  obtain hblank | hmem := List.mem_append.mp hmem
  · exact marks_not_blank (isBlank_of_mem hlead hblank)
  · exact (List.mem_append.mp hmem).elim (i.isWords.plain c) (i.plain c)

theorem eq_firstLine {first : Line} {more : List Line} {text : List Char} (hsame : '\n' ∉ lead)
    (hfirst : '\n' ∉ first) (hjoin : joinLines (first :: more) = lead ++ text) :
    first = lead ++ firstLine text := by
  rw [← firstLine_append hsame, ← hjoin]
  exact (takeWhile_joinLines hfirst more).symm

theorem placed_import (hlead : allBlank lead) (hsame : '\n' ∉ lead) (htrail : '\n' ∉ trail)
    (hjoin : joinLines lines = lead ++ (i.text ++ trail)) (hfeeds : ∀ line ∈ lines, '\n' ∉ line) :
    (placed false lines = lines.map (Prod.mk true) ↔ i.IsPlain) ∧
      lines.foldl nextInside false = false := by
  obtain ⟨above, last, hsplit, hsemicolon, hgoes⟩ := exists_last_of_import hlead htrail hjoin
  obtain ⟨first, more, hfirst⟩ : ∃ first more, lines = first :: more :=
    List.exists_cons_of_ne_nil (by rw [hsplit]; simp)
  rw [hfirst] at hjoin hfeeds
  have hknown : isHoisted first = true ↔ i.IsPlain := by
    rw [eq_firstLine hsame (hfeeds first List.mem_cons_self) hjoin, isHoisted_append hlead,
      i.isHoisted_iff trail]
  refine ⟨⟨fun hplaced => ?_, fun hplain => ?_⟩, ?_⟩
  · rw [hfirst, placed_cons, List.map_cons] at hplaced
    exact hknown.mp (Prod.mk.inj (List.cons.inj hplaced).1).1
  · rw [hfirst, placed_of_hoisted (hknown.mpr hplain), ← hfirst, hsplit]
    exact placed_of_goesOn (hgoes hplain.front) last
  · rw [hsplit, List.foldl_append, List.foldl_cons, List.foldl_nil, nextInside,
      goesOn_eq_false_of_mem hsemicolon, Bool.and_false]

theorem placed_attribute {a : InnerAttribute} {first : Line} {more : List Line}
    (hlead : allBlank lead) (hsame : '\n' ∉ lead)
    (hjoin : joinLines (first :: more) = lead ++ a.text)
    (hmore : ∀ line ∈ more, isHoisted line = false) (hfirst : '\n' ∉ first) :
    (placed false (first :: more) = (first :: more).map (Prod.mk true) ↔ a.IsPlain) ∧
      (first :: more).foldl nextInside false = false := by
  have hline := eq_firstLine hsame hfirst hjoin
  -- an attribute never goes on: wrapping knows it by the marks behind which it stops
  have hnext : nextInside false first = false := by
    have hleft : ∃ rest, stripLeft first = '#' :: rest := by
      rw [hline, stripLeft_append_of_allBlank _ hlead, InnerAttribute.text,
        firstLine_cons (by decide)]
      exact ⟨_, stripLeft_cons_of_not_blank _ (by decide)⟩
    obtain ⟨rest, hleft⟩ := hleft
    unfold nextInside isHoisted goesOn
    rw [hleft]
    show (startsWith "#![" ('#' :: rest) && (!startsWith "#![" ('#' :: rest) && _)) = false
    cases startsWith "#![" ('#' :: rest) <;> rfl
  have hplain : a.IsPlain ↔ (a.gap = [] ∧ a.gap' = []) ∧ more = [] := by
    have hone : '\n' ∉ a.text ↔ more = [] := by
      rw [← not_iff_not, not_not, ← ne_eq, ← feed_mem_joinLines_iff hfirst, hjoin]
      simp [hsame]
    rw [← hone]
    constructor
    · rintro ⟨hgap, hgap', hcontent⟩
      refine ⟨⟨hgap, hgap'⟩, ?_⟩
      simp [InnerAttribute.text, hgap, hgap', hcontent]
    · rintro ⟨⟨hgap, hgap'⟩, htext⟩
      refine ⟨hgap, hgap', fun hfeed => htext ?_⟩
      simp [InnerAttribute.text, hfeed]
  obtain ⟨hplaced, hafter⟩ := placed_of_not_hoisted hmore
  refine ⟨?_, by rw [List.foldl_cons, hnext, hafter]⟩
  have hknown : isHoisted first = true ↔ a.gap = [] ∧ a.gap' = [] := by
    rw [hline, isHoisted_append hlead, a.isHoisted_iff]
  rw [placed_cons, hnext, hplaced, hplain, ← hknown]
  cases more <;> simp

/-- A part goes where it belongs exactly if it is plain, and no declaration goes on behind it. -/
theorem Fills.placed_iff {part : Part} (h : part.Fills lines)
    (hfeeds : ∀ line ∈ lines, '\n' ∉ line) :
    (placed false lines = lines.map (Prod.mk part.goesFront) ↔ part.IsPlain) ∧
      lines.foldl nextInside false = false := by
  cases h with
  | ofImport hlead hsame htrail hjoin => exact placed_import hlead hsame htrail hjoin hfeeds
  | ofAttribute hlead hsame hjoin hmore =>
      exact placed_attribute hlead hsame hjoin hmore (hfeeds _ List.mem_cons_self)
  | statement hlines =>
      obtain ⟨hplaced, hafter⟩ := placed_of_not_hoisted hlines
      exact ⟨iff_of_true hplaced trivial, hafter⟩

end Part

/-! ## The law -/

variable {parts : List (Part × List Line)}

theorem placed_parts (h : ∀ part ∈ parts, part.2.foldl nextInside false = false) :
    placed false (parts.flatMap Prod.snd) = parts.flatMap fun part => placed false part.2 := by
  induction parts with
  | nil => rfl
  | cons part parts ih =>
      obtain ⟨hpart, hparts⟩ := List.forall_mem_cons.mp h
      rw [List.flatMap_cons, placed_append, hpart, ih hparts, List.flatMap_cons]

theorem linesAt_flatMap (front : Bool) (found : Part × List Line → List (Bool × Line)) :
    linesAt front (parts.flatMap found) = parts.flatMap fun part => linesAt front (found part) := by
  unfold linesAt
  rw [List.filter_flatMap, List.map_flatMap]

theorem linesAt_map_mk (front place : Bool) (lines : List Line) :
    linesAt front (lines.map (Prod.mk place)) = if place == front then lines else [] := by
  unfold linesAt
  rw [List.filter_map, List.map_map]
  cases h : place == front <;> simp [Function.comp_def, h]

theorem partLines_eq (front : Bool) : partLines front parts =
    parts.flatMap fun part => if part.1.goesFront == front then part.2 else [] := by
  unfold partLines
  induction parts with
  | nil => rfl
  | cons part parts ih =>
      rw [List.filter_cons, List.flatMap_cons]
      split
      · rw [List.flatMap_cons, ih]
      · rw [ih, List.nil_append]

/-- Wrapping puts no lines of a part in front that do not belong there, and all that do only if the
part is plain. -/
theorem length_linesAt {part : Part} {lines : List Line}
    (h : placed false lines = lines.map (Prod.mk part.goesFront) ↔ part.IsPlain) :
    (linesAt true (placed false lines)).length ≤
        (if part.goesFront == true then lines else []).length ∧
      ((linesAt true (placed false lines)).length =
        (if part.goesFront == true then lines else []).length → part.IsPlain) := by
  cases hfront : part.goesFront with
  | false =>
      have hplain : part.IsPlain := by
        cases part with
        | statement => trivial
        | ofImport | ofAttribute => cases hfront
      rw [h.mpr hplain, hfront, linesAt_map_mk]
      exact ⟨le_rfl, fun _ => hplain⟩
  | true =>
      have hlength : (placed false lines).length = lines.length := by
        rw [← List.length_map, map_placed]
      unfold linesAt
      rw [List.length_map, if_pos (beq_self_eq_true true), ← hlength]
      refine ⟨List.length_filter_le _ _, fun hall => h.mp ?_⟩
      -- each line goes in front
      rw [hfront]
      conv_rhs => rw [← map_placed false lines, List.map_map]
      have hsame : ∀ line ∈ placed false lines, (true, line.2) = line := fun line hline =>
        Prod.ext (beq_iff_eq.mp (List.length_filter_eq_length_iff.mp hall line hline)).symm rfl
      exact (List.map_id _).symm.trans (List.map_congr_left fun line hline => (hsame line hline).symm)

theorem linesAt_parts
    (h : ∀ part ∈ parts, placed false part.2 = part.2.map (Prod.mk part.1.goesFront)) (front : Bool) :
    (parts.flatMap fun part => linesAt front (placed false part.2)) = partLines front parts := by
  rw [partLines_eq]
  refine List.flatMap_congr fun part hmem => ?_
  rw [h part hmem, linesAt_map_mk]

/-- If the lines in front are those that belong there, no declaration is missing among them. -/
theorem isPlain_of_linesAt_eq
    (h : ∀ part ∈ parts,
      placed false part.2 = part.2.map (Prod.mk part.1.goesFront) ↔ part.1.IsPlain)
    (hfront : (parts.flatMap fun part => linesAt true (placed false part.2)) =
      partLines true parts) :
    ∀ part ∈ parts, part.1.IsPlain := by
  intro part hmem
  by_contra hnot
  -- then there are too few lines in front
  have hfewer := List.sum_lt_sum (l := parts) _ _
    (fun other hother => (length_linesAt (h other hother)).1)
    ⟨part, hmem, lt_of_le_of_ne (length_linesAt (h part hmem)).1 fun hsame =>
      hnot ((length_linesAt (h part hmem)).2 hsame)⟩
  have hlengths := congrArg List.length hfront
  rw [partLines_eq, List.length_flatMap, List.length_flatMap] at hlengths
  omega

/-- **Declarations go in front, and nothing else does**, exactly if each declaration is known by its
first line. -/
theorem wrap_parts {body : String} (hlines : splitLines body.toList = parts.flatMap Prod.snd)
    (hfills : ∀ part ∈ parts, part.1.Fills part.2) :
    (wrapParts body = (partLines true parts, partLines false parts) ↔
        ∀ part ∈ parts, part.1.IsPlain) ∧
      ((∀ part ∈ parts, part.1.IsPlain) →
        wrap body = program (!endsInStatement (partLines false parts)) (partLines true parts)
          (partLines false parts)) := by
  have hpart : ∀ part ∈ parts,
      (placed false part.2 = part.2.map (Prod.mk part.1.goesFront) ↔ part.1.IsPlain) ∧
        part.2.foldl nextInside false = false := by
    intro part hmem
    refine (hfills part hmem).placed_iff fun line hline =>
      @feed_not_mem_of_mem_splitLines body.toList line ?_
    rw [hlines]
    exact List.mem_flatMap.mpr ⟨part, hmem, hline⟩
  have hplaced : placed false (splitLines body.toList) =
      parts.flatMap fun part => placed false part.2 := by
    rw [hlines, placed_parts fun part hmem => (hpart part hmem).2]
  have hparts : wrapParts body = (parts.flatMap fun part => linesAt true (placed false part.2),
      parts.flatMap fun part => linesAt false (placed false part.2)) := by
    rw [wrapParts, hoist_eq, hplaced, linesAt_flatMap, linesAt_flatMap]
  have hwhole : wrapParts body = (partLines true parts, partLines false parts) ↔
      ∀ part ∈ parts, part.1.IsPlain := by
    rw [hparts]
    constructor
    · intro heq
      exact isPlain_of_linesAt_eq (fun part hmem => (hpart part hmem).1) (Prod.mk.inj heq).1
    · intro hplain
      have hsame := linesAt_parts fun part hmem => (hpart part hmem).1.mpr (hplain part hmem)
      rw [hsame, hsame]
  refine ⟨hwhole, fun hplain => ?_⟩
  rw [wrap_eq, hwhole.mpr hplain]

/-- A snippet with declarations of every kind between its statements. -/
def declaredSnippet : String :=
  "use std::\x7b\n    fs,\n\x7d;\nlet x = 1;\n#![allow(unused)]\nextern crate rand;\nx\n"

/-- A group of imports. -/
def filesImport : Import where
  front := []
  words := "use".toList
  content := " std::\x7b\n    fs,\n\x7d".toList
  isFront := .nothing
  isWords := .use
  plain := forall_mem_of_all (by decide)

/-- An external crate. -/
def randImport : Import where
  front := []
  words := "extern crate".toList
  content := " rand".toList
  isFront := .nothing
  isWords := @ImportWords.externCrate [' '] ⟨rfl, List.cons_ne_nil _ _⟩
  plain := forall_mem_of_all (by decide)

/-- An inner attribute without blanks between its marks. -/
def innerAttribute (content : String) : InnerAttribute := ⟨[], [], content.toList, rfl, rfl⟩

/-- The parts of the snippet with their lines. -/
def declaredParts : List (Part × List Line) :=
  [(.ofImport filesImport, ["use std::\x7b".toList, "    fs,".toList, "\x7d;".toList]),
    (.statement, ["let x = 1;".toList]),
    (.ofAttribute (innerAttribute "allow(unused)]"), ["#![allow(unused)]".toList]),
    (.ofImport randImport, ["extern crate rand;".toList]),
    (.statement, ["x".toList])]

/-- The declarations go in front, and the program prints the value. -/
theorem wrap_declaredParts :
    (splitLines declaredSnippet.toList = declaredParts.flatMap Prod.snd ∧
        (∀ part ∈ declaredParts, part.1.Fills part.2) ∧ ∀ part ∈ declaredParts, part.1.IsPlain) ∧
      wrap declaredSnippet =
        program true (partLines true declaredParts) (partLines false declaredParts) := by
  have hlines : splitLines declaredSnippet.toList = declaredParts.flatMap Prod.snd := by
    decide +kernel
  have hfills : ∀ part ∈ declaredParts, part.1.Fills part.2 := by
    have hempty : '\n' ∉ ([] : List Char) := List.not_mem_nil
    simp only [declaredParts, List.forall_mem_cons, List.not_mem_nil, false_imp_iff,
      implies_true, and_true]
    exact ⟨@Part.Fills.ofImport _ [] [] _ rfl hempty hempty rfl,
      .statement (by decide), @Part.Fills.ofAttribute _ [] _ _ rfl hempty rfl nofun,
      @Part.Fills.ofImport _ [] [] _ rfl hempty hempty rfl, .statement (by decide)⟩
  have hplain : ∀ part ∈ declaredParts, part.1.IsPlain := by
    simp only [declaredParts, List.forall_mem_cons, List.not_mem_nil, false_imp_iff,
      implies_true, and_true]
    exact ⟨⟨rfl, by decide, _, _, rfl, rfl, by decide⟩, trivial, ⟨rfl, rfl, by decide⟩,
      ⟨rfl, by decide, _, _, rfl, rfl, by decide⟩, trivial⟩
  have hvalue : endsInStatement (partLines false declaredParts) = false := by decide +kernel
  refine ⟨⟨hlines, hfills, hplain⟩, ?_⟩
  have hwrap := (wrap_parts hlines hfills).2 hplain
  rwa [hvalue] at hwrap

/-- A snippet with an attribute of several lines. -/
def lintSnippet : String := "#![allow(\n    unused,\n)]\n1\n"

/-- The parts of the snippet with their lines. -/
def lintParts : List (Part × List Line) :=
  [(.ofAttribute (innerAttribute "allow(\n    unused,\n)]"),
      ["#![allow(".toList, "    unused,".toList, ")]".toList]),
    (.statement, ["1".toList])]

/-- The attribute is torn apart: its first line goes in front, and the other ones do not. -/
theorem attribute_is_torn :
    (splitLines lintSnippet.toList = lintParts.flatMap Prod.snd ∧
        ∀ part ∈ lintParts, part.1.Fills part.2) ∧
      wrapParts lintSnippet =
        (["#![allow(".toList], ["    unused,".toList, ")]".toList, "1".toList]) ∧
      wrapParts lintSnippet ≠ (partLines true lintParts, partLines false lintParts) := by
  have hlines : splitLines lintSnippet.toList = lintParts.flatMap Prod.snd := by decide +kernel
  have hfills : ∀ part ∈ lintParts, part.1.Fills part.2 := by
    simp only [lintParts, List.forall_mem_cons, List.not_mem_nil, false_imp_iff, implies_true,
      and_true]
    exact ⟨@Part.Fills.ofAttribute _ [] _ _ rfl List.not_mem_nil rfl (by decide),
      .statement (by decide)⟩
  exact ⟨⟨hlines, hfills⟩, by decide +kernel, by decide +kernel⟩

end RustScript.Snippet
