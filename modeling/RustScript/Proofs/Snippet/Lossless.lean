import RustScript.Proofs.Snippet.Hoisted
import RustScript.Proofs.Snippet.Kept

/-!
# No line of a snippet is lost

Wrapping divides the lines of a snippet between the front and `fn main`. Each line goes to one of
them, the lines at one place keep their order, and around them stand only the program's own lines,
and an empty one in `fn main` if there is nothing else (`wrap_divides`). What is remembered of the
lines above is one bit, and the text of the lines tells it: whether a declaration begins on one of
them and has not ended since (`foldl_nextInside_iff`).
-/

set_option autoImplicit false

namespace RustScript.Snippet

open RustScript.Source RustScript.Text

/-! ## Where a line belongs -/

/-- The line begins an import, the declaration of an external crate, or an inner attribute. -/
inductive BeginsDeclaration : Line → Prop
  | use {lead rest : Line} {c : Char} : allBlank lead → isBlank c = true →
      BeginsDeclaration (lead ++ ("use".toList ++ c :: rest))
  | externCrate {lead gap rest : Line} {c : Char} : allBlank lead → Gap gap → isBlank c = true →
      BeginsDeclaration (lead ++ ("extern".toList ++ (gap ++ ("crate".toList ++ c :: rest))))
  | marks {lead rest : Line} : allBlank lead →
      BeginsDeclaration (lead ++ ("#![".toList ++ rest))

/-- No declaration goes on behind the line: there is a semicolon on it, or it begins with the marks
of an inner attribute. -/
def EndsDeclaration (line : Line) : Prop := ';' ∈ line ∨ "#![".toList <+: stripLeft line

/-- A declaration begins on one of the lines, and ends neither there nor below. -/
def Unfinished (lines : List Line) : Prop :=
  ∃ above first below, lines = above ++ first :: below ∧ BeginsDeclaration first ∧
    ∀ line ∈ first :: below, ¬ EndsDeclaration line

/-- A declaration begins on the line at this place, or goes on there. -/
def InDeclaration (lines : List Line) (i : Nat) : Prop :=
  ∃ line, lines[i]? = some line ∧ (BeginsDeclaration line ∨ Unfinished (lines.take i))

/-! ## The lines of the program -/

/-- The text of lines that all have a line end. -/
def closedText (lines : List Line) : String := String.ofList (lines.flatMap (· ++ ['\n']))

/-- The lines of a program with these lines in front and those in `fn main`. -/
def programLines (value : Bool) (front inner : List Line) : List Line :=
  (if front.isEmpty then [] else front ++ [[]]) ++ (opening value ++ (inner ++ closing value))

/-- What stands in `fn main` for the lines of a snippet: the lines, indented, or one empty line. -/
def innerLines (lines : List Line) : List Line :=
  if lines.isEmpty then [[]] else lines.map indented

/-! ## The bit that is carried along -/

variable {line : Line}

/-- Where a keyword is read, it stands with a blank behind it. -/
theorem exists_of_keyword_isSome {word : String} {cs : List Char}
    (h : (keyword word cs).isSome = true) :
    ∃ c rest, cs = word.toList ++ c :: rest ∧ isBlank c = true := by
  obtain ⟨behind, hbehind⟩ := Option.isSome_iff_exists.mp h
  obtain ⟨gap, -, rfl⟩ := exists_of_keyword hbehind
  obtain ⟨c, rest, hsplit, hc⟩ := keyword_isSome_iff.mp h
  exact ⟨c, rest, by rw [hsplit], hc⟩

theorem beginsDeclaration_of_isHoisted (h : isHoisted line = true) : BeginsDeclaration line := by
  obtain ⟨lead, hlead, hline⟩ := exists_blanks_append line
  rw [isHoisted, Bool.or_eq_true, Bool.or_eq_true] at h
  obtain (huse | hextern) | hmarks := h
  · obtain ⟨c, rest, hleft, hc⟩ := exists_of_keyword_isSome huse
    rw [hline, hleft]
    exact .use hlead hc
  · obtain ⟨after, hboth⟩ := Option.isSome_iff_exists.mp hextern
    obtain ⟨behind, hextern, hcrate⟩ := Option.bind_eq_some_iff.mp hboth
    obtain ⟨gap, hgap, hleft⟩ := exists_of_keyword hextern
    obtain ⟨c, rest, rfl, hc⟩ :=
      exists_of_keyword_isSome (Option.isSome_iff_exists.mpr ⟨after, hcrate⟩)
    rw [hline, hleft]
    exact .externCrate hlead hgap hc
  · obtain ⟨rest, hleft⟩ := startsWith_iff.mp hmarks
    rw [hline, ← hleft]
    exact .marks hlead

theorem BeginsDeclaration.isHoisted (h : BeginsDeclaration line) : isHoisted line = true := by
  cases h with
  | @use lead rest c hlead hc =>
      have hword : (keyword "use" ("use".toList ++ c :: rest)).isSome = true :=
        keyword_isSome_iff.mpr ⟨c, rest, rfl, hc⟩
      have hleft : stripLeft ("use".toList ++ c :: rest) = "use".toList ++ c :: rest := rfl
      rw [isHoisted_append hlead, Snippet.isHoisted, hleft, hword]
      rfl
  | @externCrate lead gap rest c hlead hgap hc =>
      have hword : (keyword "crate" ("crate".toList ++ c :: rest)).isSome = true :=
        keyword_isSome_iff.mpr ⟨c, rest, rfl, hc⟩
      have hextern := keyword_append "extern" ("crate".toList ++ c :: rest) hgap
      have hleft : stripLeft ("crate".toList ++ c :: rest) = "crate".toList ++ c :: rest := rfl
      have hfirst : stripLeft ("extern".toList ++ (gap ++ ("crate".toList ++ c :: rest))) =
          "extern".toList ++ (gap ++ ("crate".toList ++ c :: rest)) := rfl
      rw [isHoisted_append hlead, Snippet.isHoisted, hfirst, hextern, hleft, Option.bind_eq_bind,
        Option.bind_some, hword, Bool.or_true, Bool.true_or]
  | @marks lead rest hlead =>
      rw [isHoisted_append hlead, Snippet.isHoisted, Bool.or_eq_true]
      exact .inr (startsWith_iff.mpr ⟨rest, rfl⟩)

theorem isHoisted_iff : isHoisted line = true ↔ BeginsDeclaration line :=
  ⟨beginsDeclaration_of_isHoisted, BeginsDeclaration.isHoisted⟩

theorem goesOn_iff : goesOn line = true ↔ ¬ EndsDeclaration line := by
  rw [goesOn, EndsDeclaration, not_or, ← startsWith_iff, Bool.and_eq_true, Bool.not_eq_true',
    Bool.not_eq_true', Bool.not_eq_true, ← List.contains_iff_mem, Bool.not_eq_true, and_comm]

/-- With one line more a declaration is unfinished if the line does not end it. -/
theorem unfinished_concat (lines : List Line) (line : Line) :
    Unfinished (lines ++ [line]) ↔
      (Unfinished lines ∨ BeginsDeclaration line) ∧ ¬ EndsDeclaration line := by
  constructor
  · rintro ⟨above, first, below, hsplit, hfirst, hends⟩
    obtain rfl | ⟨below, last, rfl⟩ := List.eq_nil_or_concat' below
    · obtain ⟨-, rfl⟩ := List.append_inj' hsplit rfl |>.imp id List.singleton_inj.mp
      exact ⟨.inr hfirst, hends line List.mem_cons_self⟩
    · rw [← List.cons_append, ← List.append_assoc] at hsplit
      obtain ⟨rfl, hlast⟩ := List.append_inj' hsplit rfl
      obtain rfl := List.singleton_inj.mp hlast
      refine ⟨.inl ⟨above, first, below, rfl, hfirst, fun l hl => hends l ?_⟩, hends line ?_⟩
      · exact List.mem_append_left [line] hl
      · exact List.mem_append_right (first :: below) (List.mem_singleton_self line)
  · rintro ⟨⟨above, first, below, rfl, hfirst, hends⟩ | hbegins, hline⟩
    · refine ⟨above, first, below ++ [line], by simp, hfirst, ?_⟩
      rw [← List.cons_append, List.forall_mem_append, List.forall_mem_singleton]
      exact ⟨hends, hline⟩
    · exact ⟨lines, line, [], rfl, hbegins, List.forall_mem_singleton.mpr hline⟩

/-- What wrapping remembers of the lines above. -/
theorem foldl_nextInside_iff (lines : List Line) :
    lines.foldl nextInside false = true ↔ Unfinished lines := by
  induction lines using List.reverseRecOn with
  | nil =>
      refine iff_of_false Bool.false_ne_true ?_
      rintro ⟨above, first, below, hsplit, -⟩
      exact List.append_ne_nil_of_right_ne_nil above (List.cons_ne_nil first below) hsplit.symm
  | append_singleton lines line ih =>
      rw [List.foldl_append, List.foldl_cons, List.foldl_nil, nextInside, Bool.and_eq_true,
        Bool.or_eq_true, ih, isHoisted_iff, goesOn_iff, unfinished_concat]

theorem getElem?_placed (inside : Bool) (lines : List Line) (i : Nat) :
    (placed inside lines)[i]? = lines[i]?.map fun line =>
      ((lines.take i).foldl nextInside inside || isHoisted line, line) := by
  induction lines generalizing inside i with
  | nil => rfl
  | cons line lines ih =>
      rw [placed_cons]
      cases i with
      | zero => rfl
      | succ i =>
          rw [List.getElem?_cons_succ, ih, List.getElem?_cons_succ, List.take_succ_cons,
            List.foldl_cons]

/-- The lines that go in front are those of the declarations. -/
theorem placed_front_iff (lines : List Line) (i : Nat) :
    (∃ line, (placed false lines)[i]? = some (true, line)) ↔ InDeclaration lines i := by
  refine exists_congr fun line => ?_
  rw [getElem?_placed, Option.map_eq_some_iff, ← isHoisted_iff, ← foldl_nextInside_iff, or_comm,
    ← Bool.or_eq_true]
  constructor
  · rintro ⟨other, hline, hsame⟩
    obtain ⟨hfront, rfl⟩ := Prod.mk.inj hsame
    exact ⟨hline, hfront⟩
  · rintro ⟨hline, hfront⟩
    exact ⟨line, hline, by rw [hfront]⟩

/-! ## The text of the program -/

theorem flatMap_feed {lines : List Line} (h : lines ≠ []) :
    lines.flatMap (· ++ ['\n']) = joinLines lines ++ ['\n'] := by
  obtain rfl | ⟨above, last, rfl⟩ := List.eq_nil_or_concat' lines
  · exact absurd rfl h
  · rw [joinLines_concat, List.flatMap_append, List.flatMap_singleton, List.append_assoc]

theorem flatMap_opening (value : Bool) :
    (opening value).flatMap (· ++ ['\n']) = openingText value := by
  cases value <;> rfl

theorem flatMap_closing (value : Bool) :
    '\n' :: (closing value).flatMap (· ++ ['\n']) = closingText value := by
  cases value <;> rfl

theorem flatMap_innerLines (lines : List Line) :
    (innerLines lines).flatMap (· ++ ['\n']) = joinLines (lines.map indented) ++ ['\n'] := by
  cases lines with
  | nil => rfl
  | cons line lines => exact flatMap_feed (List.cons_ne_nil _ _)

/-- A program is the text of its lines. -/
theorem program_eq_closedText (value : Bool) (front lines : List Line) :
    program value front lines = closedText (programLines value front (innerLines lines)) := by
  have hfront : (if front.isEmpty then [] else front ++ [[]]).flatMap (· ++ ['\n']) =
      if front.isEmpty then [] else joinLines front ++ "\n\n".toList := by
    cases front with
    | nil => rfl
    | cons line front =>
        show ((line :: front) ++ [[]]).flatMap (· ++ ['\n']) = joinLines (line :: front) ++ _
        rw [List.flatMap_append, flatMap_feed (List.cons_ne_nil line front), List.append_assoc]
        rfl
  apply String.toList_injective
  rw [toList_program, closedText, String.toList_ofList, programLines, List.flatMap_append, hfront,
    List.flatMap_append, List.flatMap_append, flatMap_opening, flatMap_innerLines, ← flatMap_closing,
    aboveMain]
  simp only [List.append_assoc, List.singleton_append]

/-! ## The law -/

/-- **Wrapping divides the lines of a snippet.** Those of the declarations go in front as they are,
the other ones, indented, into `fn main`, and nothing is added but the lines around them. -/
theorem wrap_divides (body : String) : ∃ marked : List (Bool × Line),
    marked.map Prod.snd = splitLines body.toList ∧
      (∀ i, (∃ line, marked[i]? = some (true, line)) ↔
        InDeclaration (splitLines body.toList) i) ∧
      wrap body = closedText (programLines (!endsInStatement (linesAt false marked))
        (linesAt true marked) (innerLines (linesAt false marked))) := by
  refine ⟨placed false (splitLines body.toList), map_placed false _, placed_front_iff _, ?_⟩
  rw [wrap_eq, wrapParts_eq, program_eq_closedText]

/-- A snippet without lines leaves an empty line in the program, so that the lines alone do not make
it up. -/
theorem empty_snippet_has_line :
    wrap "" = "fn main() \x7b\n\n\x7d\n" ∧
      ¬ ∃ (marked : List (Bool × Line)) (value : Bool),
        marked.map Prod.snd = splitLines "".toList ∧
          wrap "" = closedText (programLines value (linesAt true marked)
            ((linesAt false marked).map indented)) := by
  have hwrap : wrap "" = "fn main() \x7b\n\n\x7d\n" := by decide +kernel
  refine ⟨hwrap, ?_⟩
  rintro ⟨marked, value, hmarked, htext⟩
  obtain rfl := List.map_eq_nil_iff.mp (hmarked : marked.map Prod.snd = [])
  rw [hwrap] at htext
  revert htext
  cases value <;> decide +kernel

end RustScript.Snippet
