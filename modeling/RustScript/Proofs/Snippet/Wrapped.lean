import Mathlib.Data.List.Flatten
import Mathlib.Data.List.SplitBy
import RustScript.Proofs.Source.Agree
import RustScript.Proofs.Source.Sections
import RustScript.Proofs.Text.Lines
import RustScript.Snippet

/-!
# The facts of a wrapped snippet

Wrapping moves whole lines and knows nothing of comments. Lines that stay together are a run; where
every run of a snippet is self-contained, a scan finds the same in the program as in the snippet, and
one entry point more.
-/

set_option autoImplicit false

namespace RustScript.Snippet

open RustScript.Source RustScript.Text

/-! ## Runs of lines -/

/-- The lines, each with whether it goes in front; `inside` says that a declaration goes on. -/
def placed (inside : Bool) : List Line → List (Bool × Line)
  | [] => []
  | line :: rest =>
      if inside || isHoisted line then (true, line) :: placed (goesOn line) rest
      else (false, line) :: placed false rest

/-- The lines of those that go to one place. -/
def linesAt (front : Bool) (lines : List (Bool × Line)) : List Line :=
  (lines.filter fun line => line.1 == front).map Prod.snd

theorem hoist_eq (inside : Bool) (lines : List Line) :
    hoist inside lines =
      (linesAt true (placed inside lines), linesAt false (placed inside lines)) := by
  induction lines generalizing inside with
  | nil => rfl
  | cons line rest ih =>
      rw [hoist, placed]
      by_cases h : (inside || isHoisted line) = true
      · rw [if_pos h, if_pos h, ih]
        rfl
      · rw [if_neg h, if_neg h, ih]
        rfl

theorem map_placed (inside : Bool) (lines : List Line) :
    (placed inside lines).map Prod.snd = lines := by
  induction lines generalizing inside with
  | nil => rfl
  | cons line rest ih =>
      rw [placed]
      split
      · rw [List.map_cons, ih]
      · rw [List.map_cons, ih]

/-- The lines of a snippet in runs of lines that stay together. -/
def placedRuns (lines : List Line) : List (List (Bool × Line)) :=
  (placed false lines).splitBy fun line next => line.1 == next.1

/-- The runs of lines that stay together. -/
def runs (lines : List Line) : List (List Line) := (placedRuns lines).map (List.map Prod.snd)

theorem flatten_runs (lines : List Line) : (runs lines).flatten = lines := by
  unfold runs placedRuns
  rw [← List.map_flatten, List.flatten_splitBy, map_placed]

/-- All lines of a run go to one place. -/
def goesTo (front : Bool) (run : List (Bool × Line)) : Bool := run.all fun line => line.1 == front

/-- The runs that go to one place. -/
def runsAt (front : Bool) (lines : List Line) : List (List Line) :=
  ((placedRuns lines).filter (goesTo front)).map (List.map Prod.snd)

/-- A run goes to one of the two places. -/
theorem goesTo_false_of_mem {lines : List Line} {run : List (Bool × Line)}
    (h : run ∈ placedRuns lines) : goesTo false run = !goesTo true run := by
  obtain ⟨line, rest, rfl⟩ := List.exists_cons_of_ne_nil fun hnil : run = [] =>
    List.nil_notMem_splitBy _ _ (hnil ▸ h)
  have hchain := List.isChain_of_mem_splitBy h
  have hsame : ∀ next ∈ rest, next.1 = line.1 := by
    have : IsTrans (Bool × Line) fun line next => line.1 == next.1 :=
      ⟨fun a b c hab hbc => beq_iff_eq.mpr ((beq_iff_eq.mp hab).trans (beq_iff_eq.mp hbc))⟩
    have hpairs := List.isChain_iff_pairwise.mp hchain
    exact fun next hnext => (beq_iff_eq.mp ((List.pairwise_cons.mp hpairs).1 next hnext)).symm
  have hall : ∀ front, goesTo front (line :: rest) = (line.1 == front) := by
    intro front
    unfold goesTo
    rw [List.all_cons, Bool.and_eq_left_iff_imp]
    exact fun h => List.all_eq_true.mpr fun next hnext => by rw [hsame next hnext, h]
  rw [hall, hall]
  cases line.1 <;> rfl

/-- The lines that go to one place are those of the runs that go there. -/
theorem linesAt_placed (front : Bool) (lines : List Line) :
    linesAt front (placed false lines) = (runsAt front lines).flatten := by
  have hall : ∀ {runs : List (List (Bool × Line))},
      (∀ run ∈ runs, goesTo false run = !goesTo true run) →
      linesAt front runs.flatten =
        ((runs.filter (goesTo front)).map (List.map Prod.snd)).flatten := by
    intro runs hruns
    induction runs with
    | nil => rfl
    | cons run runs ih =>
        have hrest := ih fun r hr => hruns r (List.mem_cons_of_mem _ hr)
        unfold linesAt at hrest ⊢
        rw [List.flatten_cons, List.filter_append, List.map_append, hrest, List.filter_cons]
        split
        · next hgoes =>
            rw [List.map_cons, List.flatten_cons,
              List.filter_eq_self.mpr (List.all_eq_true.mp hgoes)]
        · next hstays =>
            have hother : goesTo (!front) run = true := by
              have hone := hruns run List.mem_cons_self
              cases front <;> simp_all
            have hempty : (run.filter fun line => line.1 == front) = [] := by
              rw [List.filter_eq_nil_iff]
              intro line hline heq
              have hplace := List.all_eq_true.mp hother line hline
              rw [beq_iff_eq.mp heq] at hplace
              cases front <;> cases hplace
            rw [hempty, List.map_nil, List.nil_append]
  rw [runsAt, ← hall fun run hrun => goesTo_false_of_mem hrun, placedRuns, List.flatten_splitBy]

/-- Wrapping puts the runs in another order. -/
theorem runsAt_perm (lines : List Line) :
    (runsAt true lines ++ runsAt false lines).Perm (runs lines) := by
  have hother : (placedRuns lines).filter (goesTo false) =
      (placedRuns lines).filter fun run => !goesTo true run :=
    List.filter_congr fun _ => goesTo_false_of_mem
  unfold runsAt runs
  rw [← List.map_append, hother]
  exact (List.filter_append_perm _ _).map _

/-! ## The text of a snippet -/

/-- Lines end in a line feed, or in a carriage return and a line feed. -/
def plainBreaks : List Char → Bool
  | [] => true
  | '\r' :: '\n' :: rest => plainBreaks rest
  | c :: rest => (c = '\n' || !isLineBreak c) && plainBreaks rest

theorem plainBreaks_cons {c : Char} {rest : List Char}
    (hreturn : ∀ below, c = '\r' → rest = '\n' :: below → False) (h : plainBreaks (c :: rest)) :
    (c = '\n' ∨ isLineBreak c = false) ∧ plainBreaks rest := by
  rw [plainBreaks] at h
  · simpa using h
  · exact hreturn

theorem lineText_singleton (line : Line) : lineText [line] = '\n' :: line := by
  rw [lineText_cons]
  show '\n' :: (line ++ []) = _
  rw [List.append_nil]

/-- A blank in front of a line feed does not show. -/
theorem alike_blank_feed {c : Char} (hc : isBlank c = true) {cs cs' : List Char}
    (h : Alike ('\n' :: cs) cs') : Alike (c :: '\n' :: cs) cs' := by
  generalize htext : '\n' :: cs = text at h
  cases h with
  | nil => cases htext
  | @same d rest rest' h =>
      obtain ⟨rfl, rfl⟩ := List.cons.inj htext
      show Alike ([c, '\n'] ++ cs) (['\n'] ++ rest')
      exact .feed (allBlank_cons.mpr ⟨hc, rfl⟩) rfl (by simp) List.mem_cons_self h
  | @gap gap gap' _ _ hgap hgap' hsame h =>
      have hfeed : '\n' ∈ gap := by
        cases gap with
        | nil => exact absurd rfl hgap.ne_nil
        | cons d gap => exact (List.cons.inj htext).1 ▸ List.mem_cons_self
      exact .feed (allBlank_cons.mpr ⟨hc, hgap.blank⟩) hgap'.blank (List.mem_cons_of_mem _ hfeed)
        (hsame.mp hfeed) h

/-- What may stand behind the lines of a text: a last line end. -/
def lastLine (closed : Bool) : List Line := if closed then [[]] else []

/-- Behind a line, its end and the lines below it are alike however it ends. -/
theorem alike_line (line : Line) {feed rest : List Char} {lines : List Line}
    (hfeed : feed = '\n' :: rest ∨ feed = '\r' :: '\n' :: rest)
    (h : Alike ('\n' :: rest) (lineText lines)) :
    Alike ('\n' :: (line ++ feed)) (lineText (line :: lines)) := by
  rw [lineText_cons]
  refine .same '\n' ((Alike.refl line).append ?_)
  rcases hfeed with rfl | rfl
  · exact h
  · exact alike_blank_feed (by decide) h

theorem alike_splitLinesFrom {cs line : List Char} {begun : Bool} (h : plainBreaks cs)
    (hline : begun = false → line = []) : ∃ closed, Alike ('\n' :: (line.reverse ++ cs))
      (lineText (splitLinesFrom line begun cs ++ lastLine closed)) := by
  fun_induction splitLinesFrom line begun cs with
  | case1 line =>
      refine ⟨false, ?_⟩
      rw [List.append_nil]
      show Alike _ (lineText [line.reverse])
      rw [lineText_singleton]
      exact .refl _
  | case2 line begun hbegun =>
      rw [hline (by simpa using hbegun)]
      exact ⟨true, .refl _⟩
  | case3 line begun rest ih =>
      obtain ⟨closed, hrest⟩ := ih h fun _ => rfl
      exact ⟨closed, alike_line line.reverse (.inr rfl) hrest⟩
  | case4 line begun c rest hreturn hc ih =>
      obtain ⟨hfeed, hrest⟩ := plainBreaks_cons hreturn h
      obtain rfl := hfeed.resolve_right (by simp [hc])
      obtain ⟨closed, hrest⟩ := ih hrest fun _ => rfl
      exact ⟨closed, alike_line line.reverse (.inl rfl) hrest⟩
  | case5 line begun c rest hreturn hc ih =>
      obtain ⟨closed, hrest⟩ := ih (plainBreaks_cons hreturn h).2 fun hopen => Bool.noConfusion hopen
      rw [List.reverse_cons, List.append_assoc, List.singleton_append] at hrest
      exact ⟨closed, hrest⟩

/-- A snippet is alike to its lines. -/
theorem alike_splitLines {cs : List Char} (h : plainBreaks cs) : ∃ closed,
    Alike ('\n' :: cs) (lineText (splitLines cs ++ lastLine closed)) :=
  alike_splitLinesFrom h fun _ => rfl

/-! ## The text of the program -/

/-- The lines in front of those in `fn main`. -/
def opening (value : Bool) : List Line :=
  "fn main() \x7b".toList :: if value then ["    let value = \x7b".toList] else []

/-- The lines behind those in `fn main`. -/
def closing (value : Bool) : List Line :=
  (if value then ["    \x7d;".toList, "    println!(\"\x7b:?\x7d\", value);".toList] else []) ++
    ["\x7d".toList]

theorem lineText_joinLines {lines : List Line} (h : lines ≠ []) :
    '\n' :: joinLines lines = lineText lines := by
  induction lines with
  | nil => exact absurd rfl h
  | cons line rest ih =>
      cases rest with
      | nil => rw [lineText_singleton, joinLines]
      | cons next rest =>
          rw [joinLines, lineText_cons, ih (List.cons_ne_nil _ _)]
          exact List.cons_ne_nil _ _

/-- Indentation does not show. -/
theorem alike_indented (lines : List Line) :
    Alike (lineText (lines.map indented)) (lineText lines) := by
  induction lines with
  | nil => exact .nil
  | cons line lines ih =>
      rw [List.map_cons, lineText_cons, lineText_cons]
      unfold indented
      split
      · next hblank =>
          show Alike (['\n'] ++ lineText (lines.map indented)) (('\n' :: line) ++ lineText lines)
          exact .feed rfl (allBlank_cons.mpr ⟨rfl, hblank⟩) (by decide) List.mem_cons_self ih
      · show Alike ("\n    ".toList ++ (line ++ lineText (lines.map indented)))
          (['\n'] ++ (line ++ lineText lines))
        exact .feed rfl rfl (by decide) (by decide) ((Alike.refl line).append ih)

theorem alike_mainAround (lines : List Line) : ∃ value,
    Alike ('\n' :: mainAround lines)
      (lineText (opening value ++ lines ++ closing value ++ [[]])) := by
  -- without lines there is an empty one in the program
  have hinner : ∀ {behind : List Char}, Alike
      ('\n' :: (joinLines (lines.map indented) ++ '\n' :: behind))
      (lineText lines ++ '\n' :: behind) := by
    intro behind
    cases lines with
    | nil => exact alike_blank_feed (by decide) (.refl _)
    | cons line rest =>
        have hne : (line :: rest).map indented ≠ [] := List.cons_ne_nil _ _
        rw [← List.cons_append, lineText_joinLines hne]
        exact (alike_indented _).append (.refl _)
  unfold mainAround
  by_cases hends : endsInStatement lines = true
  · refine ⟨false, ?_⟩
    simp only [if_pos hends]
    have halike := (Alike.refl "\nfn main() \x7b".toList).append
      (@hinner "\x7d\n".toList)
    simpa [lineText, opening, closing] using halike
  · refine ⟨true, ?_⟩
    simp only [if_neg hends]
    have halike := (Alike.refl "\nfn main() \x7b\n    let value = \x7b".toList).append
      (@hinner "    \x7d;\n    println!(\"\x7b:?\x7d\", value);\n\x7d\n".toList)
    simpa [lineText, opening, closing] using halike

/-- The lines in front and those in `fn main`. -/
def wrapParts (body : String) : List Line × List Line := hoist false (splitLines body.toList)

theorem alike_wrap (body : String) : ∃ value,
    Alike ('\n' :: (wrap body).toList)
      (lineText ((wrapParts body).1 ++
        (opening value ++ (wrapParts body).2 ++ closing value ++ [[]]))) := by
  obtain ⟨value, hmain⟩ := alike_mainAround (wrapParts body).2
  refine ⟨value, ?_⟩
  have hwrap : (wrap body).toList =
      if (wrapParts body).1.isEmpty then mainAround (wrapParts body).2
      else joinLines (wrapParts body).1 ++ '\n' :: '\n' :: mainAround (wrapParts body).2 :=
    String.toList_ofList
  rw [hwrap]
  cases hfront : (wrapParts body).1 with
  | nil => exact hmain
  | cons line front =>
      rw [if_neg (by simp), ← List.cons_append, lineText_joinLines (List.cons_ne_nil _ _),
        lineText_append]
      exact (Alike.refl _).append (alike_blank_feed (by decide) hmain)

/-! ## The lines around a snippet -/

/-- A line of the program's own on which nothing is declared but, perhaps, the entry point. -/
structure Scaffold (line : Line) : Prop extends PlainLine line where
  no_use : useDeclaration line = none
  no_crate : externCrate line = none
  no_module : moduleDeclaration line = none
  no_type : typeDeclaration line = none

theorem scaffold_of_mem {value : Bool} {line : Line} (h : line ∈ opening value ++ closing value) :
    Scaffold line := by
  have hall : ∀ value, ∀ line ∈ opening value ++ closing value,
      line ∈ opening true ++ closing true := by decide
  have hlines := hall value line h
  simp only [opening, closing, if_true, List.cons_append, List.nil_append, List.mem_cons,
    List.not_mem_nil, or_false] at hlines
  rcases hlines with rfl | rfl | rfl | rfl | rfl <;>
  exact {
    slash := by decide
    feed := by decide
    uses := fun _ => .inl rfl
    crates := fun _ => .inl rfl
    modules := fun _ => .inl rfl
    types := fun _ => .inl rfl
    mains := fun _ => .inl rfl
    no_use := rfl
    no_crate := rfl
    no_module := rfl
    no_type := rfl }

theorem scaffold_nil : Scaffold [] := ⟨plainLine_nil, rfl, rfl, rfl, rfl⟩

theorem Scaffold.useDeclarations_eq {line : Line} (h : Scaffold line) :
    useDeclarations (codeOf [line]) = ⟨[], []⟩ := by
  unfold useDeclarations
  rw [h.starts finder_useDeclaration, h.no_use]
  rfl

theorem Scaffold.roots {line : Line} (h : Scaffold line) : (factsOf [line]).crateRoots = [] := by
  show atLineStarts externCrate (codeOf [line]) ++ (useDeclarations (codeOf [line])).roots = []
  rw [h.starts finder_externCrate, h.no_crate, h.useDeclarations_eq]
  rfl

theorem Scaffold.modules_eq {line : Line} (h : Scaffold line) :
    (factsOf [line]).localModules = [] := by
  show atLineStarts moduleDeclaration (codeOf [line]) = []
  rw [h.starts finder_moduleDeclaration, h.no_module]
  rfl

theorem Scaffold.names {line : Line} (h : Scaffold line) : (factsOf [line]).localNames = [] := by
  show atLineStarts typeDeclaration (codeOf [line]) ++ (useDeclarations (codeOf [line])).bindings =
    []
  rw [h.starts finder_typeDeclaration, h.no_type, h.useDeclarations_eq]
  rfl

/-! ## The facts of the program -/

/-- Some lines, each as a section of its own. -/
def singles (lines : List Line) : List (List Line) := lines.map fun line => [line]

theorem flatten_singles (lines : List Line) : (singles lines).flatten = lines := by
  induction lines with
  | nil => rfl
  | cons line lines ih =>
      show [line] ++ (singles lines).flatten = _
      rw [ih]
      rfl

/-- The sections of the program: the runs that go in front, those inside `fn main`, and the
program's own lines. -/
def programSections (value : Bool) (lines : List Line) : List (List Line) :=
  runsAt true lines ++ (singles (opening value) ++ runsAt false lines ++ singles (closing value) ++
    singles [[]])

theorem flatten_programSections (value : Bool) (body : String) :
    (programSections value (splitLines body.toList)).flatten =
      (wrapParts body).1 ++ (opening value ++ (wrapParts body).2 ++ closing value ++ [[]]) := by
  unfold programSections wrapParts
  simp only [List.flatten_append, flatten_singles, hoist_eq, linesAt_placed]

/-- The sections are those of the snippet, and single lines on which nothing is declared. -/
theorem mem_of_mem_programSections {value : Bool} {lines : List Line} {part : List Line}
    (h : part ∈ programSections value lines) :
    part ∈ runs lines ∨ ∃ line, part = [line] ∧ Scaffold line := by
  have hsingle : ∀ {own : List Line}, (∀ line ∈ own, Scaffold line) → part ∈ singles own →
      ∃ line, part = [line] ∧ Scaffold line := by
    intro own hown hpart
    obtain ⟨line, hline, rfl⟩ := List.mem_map.mp hpart
    exact ⟨line, rfl, hown line hline⟩
  have hruns : part ∈ runsAt true lines ++ runsAt false lines → part ∈ runs lines :=
    fun hpart => (runsAt_perm lines).subset hpart
  unfold programSections at h
  rcases List.mem_append.mp h with hfront | h
  · exact .inl (hruns (List.mem_append_left _ hfront))
  rcases List.mem_append.mp h with h | hlast
  · rcases List.mem_append.mp h with h | hclosing
    · rcases List.mem_append.mp h with hopening | hrest
      · exact .inr (hsingle (fun _ hl => scaffold_of_mem (List.mem_append_left _ hl)) hopening)
      · exact .inl (hruns (List.mem_append_right _ hrest))
    · exact .inr (hsingle (fun _ hl => scaffold_of_mem (List.mem_append_right _ hl)) hclosing)
  · exact .inr (hsingle (List.forall_mem_singleton.mpr scaffold_nil) hlast)

theorem mem_programSections {value : Bool} {lines : List Line} {part : List Line}
    (h : part ∈ runs lines) : part ∈ programSections value lines := by
  have hmem := (runsAt_perm lines).symm.subset h
  unfold programSections
  simp only [List.mem_append] at hmem ⊢
  tauto

theorem agree_of_gathers {facts other : Facts} {sections others : List (List Line)}
    (h : Gathers facts sections) (hother : Gathers other others)
    (hin : ∀ part ∈ sections, part ∈ others ∨ ∃ line, part = [line] ∧ Scaffold line)
    (hin' : ∀ part ∈ others, part ∈ sections ∨ ∃ line, part = [line] ∧ Scaffold line) :
    facts.Agree other := by
  have hmove : ∀ {found : List Line → List String} {sections others : List (List Line)},
      (∀ line, Scaffold line → found [line] = []) →
      (∀ part ∈ sections, part ∈ others ∨ ∃ line, part = [line] ∧ Scaffold line) →
      ∀ {name}, (∃ part ∈ sections, name ∈ found part) → ∃ part ∈ others, name ∈ found part := by
    rintro found sections others hnone hin name ⟨part, hpart, hname⟩
    rcases hin part hpart with hmem | ⟨line, rfl, hline⟩
    · exact ⟨part, hmem, hname⟩
    · rw [hnone line hline] at hname
      cases hname
  constructor
  · intro name
    rw [h.roots, hother.roots]
    exact ⟨hmove (fun _ => Scaffold.roots) hin, hmove (fun _ => Scaffold.roots) hin'⟩
  · intro name
    rw [h.modules, hother.modules]
    exact ⟨hmove (fun _ => Scaffold.modules_eq) hin, hmove (fun _ => Scaffold.modules_eq) hin'⟩
  · intro name
    rw [h.names, hother.names]
    exact ⟨hmove (fun _ => Scaffold.names) hin, hmove (fun _ => Scaffold.names) hin'⟩

theorem mainsIn_append (sections others : List (List Line)) :
    mainsIn (sections ++ others) = mainsIn sections + mainsIn others := by
  unfold mainsIn
  rw [List.flatMap_append, List.length_append]

theorem mainsIn_singles {lines : List Line} (h : ∀ line ∈ lines, Scaffold line) :
    mainsIn (singles lines) = lines.countP fun line => (mainFunction line).isSome := by
  induction lines with
  | nil => rfl
  | cons line lines ih =>
      have hrest := ih fun l hl => h l (List.mem_cons_of_mem _ hl)
      have hone : mainsIn [[line]] = if (mainFunction line).isSome then 1 else 0 := by
        show (atLineStarts mainFunction (codeOf [line]) ++ []).length = _
        rw [List.append_nil, (h line List.mem_cons_self).starts finder_mainFunction]
        cases mainFunction line <;> rfl
      show mainsIn ([[line]] ++ singles lines) = _
      rw [mainsIn_append, hrest, hone, List.countP_cons, Nat.add_comm]

/-- The program has an entry point of its own. -/
theorem mainsIn_programSections (value : Bool) (lines : List Line) :
    mainsIn (programSections value lines) = mainsIn (runs lines) + 1 := by
  have hruns : mainsIn (runsAt true lines) + mainsIn (runsAt false lines) = mainsIn (runs lines) := by
    rw [← mainsIn_append]
    exact ((runsAt_perm lines).flatMap_right _).length_eq
  have hopening : mainsIn (singles (opening value)) = 1 := by
    rw [mainsIn_singles fun _ hl => scaffold_of_mem (List.mem_append_left _ hl)]
    cases value <;> rfl
  have hclosing : mainsIn (singles (closing value)) = 0 := by
    rw [mainsIn_singles fun _ hl => scaffold_of_mem (List.mem_append_right _ hl)]
    cases value <;> rfl
  have hlast : mainsIn (singles [[]]) = 0 :=
    mainsIn_singles (List.forall_mem_singleton.mpr scaffold_nil)
  unfold programSections
  simp only [mainsIn_append, hopening, hclosing, hlast]
  omega

/-- **A wrapped snippet imports and declares what the snippet does, and has one entry point more.**
The lines of the snippet end in the usual way, and every run of lines that stay together is
self-contained. -/
theorem scan_wrap {body : String} (hbreaks : plainBreaks body.toList)
    (hruns : ∀ run ∈ runs (splitLines body.toList), SelfContained run) :
    (Facts.scan (wrap body)).Agree (Facts.scan body) ∧
      (Facts.scan (wrap body)).mainCount = (Facts.scan body).mainCount + 1 ∧
      (Facts.scan (wrap body)).externalCrates = (Facts.scan body).externalCrates := by
  have hscaffold : ∀ {part : List Line}, (∃ line, part = [line] ∧ Scaffold line) →
      SelfContained part := by
    rintro part ⟨line, rfl, hline⟩
    exact hline.selfContained
  -- the snippet is its runs, perhaps with a line end behind them
  obtain ⟨closed, hbody⟩ := alike_splitLines hbreaks
  have hlast : ∀ part ∈ singles (lastLine closed), ∃ line, part = [line] ∧ Scaffold line := by
    intro part hpart
    cases closed with
    | false => cases hpart
    | true => exact ⟨[], List.mem_singleton.mp hpart, scaffold_nil⟩
  have hparts : ∀ part ∈ runs (splitLines body.toList) ++ singles (lastLine closed),
      part ∈ runs (splitLines body.toList) ∨ ∃ line, part = [line] ∧ Scaffold line := by
    intro part hpart
    exact (List.mem_append.mp hpart).imp_right (hlast part)
  have hgathers : Gathers (Facts.scan body)
      (runs (splitLines body.toList) ++ singles (lastLine closed)) := by
    refine gathers_source ?_ fun part hpart => (hparts part hpart).elim (hruns part) hscaffold
    rw [List.flatten_append, flatten_runs, flatten_singles]
    exact hbody
  -- and so is the program, in another order
  obtain ⟨value, hprogram⟩ := alike_wrap body
  have hgathers' : Gathers (Facts.scan (wrap body))
      (programSections value (splitLines body.toList)) := by
    refine gathers_source ?_ fun part hpart =>
      (mem_of_mem_programSections hpart).elim (hruns part) hscaffold
    rw [flatten_programSections]
    exact hprogram
  have hagree : (Facts.scan (wrap body)).Agree (Facts.scan body) := by
    refine agree_of_gathers hgathers' hgathers (fun part hpart => ?_) fun part hpart => ?_
    · exact (mem_of_mem_programSections hpart).imp_left (List.mem_append_left _)
    · exact (hparts part hpart).imp_left mem_programSections
  refine ⟨hagree, ?_, hagree.externalCrates⟩
  have hmains : mainsIn (singles (lastLine closed)) = 0 := by
    cases closed with
    | false => rfl
    | true => exact mainsIn_singles (List.forall_mem_singleton.mpr scaffold_nil)
  rw [hgathers'.mains, hgathers.mains]
  show mainsIn _ = mainsIn _ + 1
  rw [mainsIn_programSections, mainsIn_append, hmains, Nat.add_zero]

/-- A snippet with comments and an import of several lines. -/
def filesSnippet : String :=
  "use rand::Rng; // numbers\nlet x = 1;\nuse std::\x7b\n    fs,\n\x7d;\n/* the\nvalue */ x\n"

/-- The snippet has four runs, each of them self-contained. -/
theorem scan_wrap_filesSnippet :
    (plainBreaks filesSnippet.toList ∧
      ∀ run ∈ runs (splitLines filesSnippet.toList), SelfContained run) ∧
    (Facts.scan (wrap filesSnippet)).Agree (Facts.scan filesSnippet) ∧
      (Facts.scan (wrap filesSnippet)).mainCount = (Facts.scan filesSnippet).mainCount + 1 ∧
      (Facts.scan (wrap filesSnippet)).externalCrates =
        (Facts.scan filesSnippet).externalCrates := by
  have hbreaks : plainBreaks filesSnippet.toList := by decide
  have hruns : ∀ run ∈ runs (splitLines filesSnippet.toList), SelfContained run := by
    have hlist : runs (splitLines filesSnippet.toList) =
        [["use rand::Rng; // numbers".toList], ["let x = 1;".toList],
          ["use std::\x7b".toList, "    fs,".toList, "\x7d;".toList],
          ["/* the".toList, "value */ x".toList]] := rfl
    have hnumbers : lineStarts (codeOf ["use rand::Rng; // numbers".toList]) =
        ["use rand::Rng; ".toList] := by decide +kernel
    have hlet : lineStarts (codeOf ["let x = 1;".toList]) = ["let x = 1;".toList] := by
      decide +kernel
    have hfiles : lineStarts (codeOf ["use std::\x7b".toList, "    fs,".toList, "\x7d;".toList]) =
        ["use std::\x7b\n    fs,\n\x7d;".toList, "    fs,\n\x7d;".toList, "\x7d;".toList] := by
      decide +kernel
    have hvalue : lineStarts (codeOf ["/* the".toList, "value */ x".toList]) = [" x".toList] := by
      decide +kernel
    rw [hlist]
    intro run hrun
    simp only [List.mem_cons, List.not_mem_nil, or_false] at hrun
    rcases hrun with rfl | rfl | rfl | rfl
    · refine .of_starts rfl hnumbers (List.forall_mem_singleton.mpr ?_)
      exact ⟨fun _ => .inl rfl, fun _ => .inl rfl, fun _ => .inl rfl, fun _ => .inl rfl,
        fun _ => .inl rfl⟩
    · refine .of_starts rfl hlet (List.forall_mem_singleton.mpr ?_)
      exact ⟨fun _ => .inl rfl, fun _ => .inl rfl, fun _ => .inl rfl, fun _ => .inl rfl,
        fun _ => .inl rfl⟩
    · refine .of_starts rfl hfiles fun cs hcs => ?_
      simp only [List.mem_cons, List.not_mem_nil, or_false] at hcs
      rcases hcs with rfl | rfl | rfl <;>
      exact ⟨fun _ => .inl rfl, fun _ => .inl rfl, fun _ => .inl rfl, fun _ => .inl rfl,
        fun _ => .inl rfl⟩
    · refine .of_starts rfl hvalue (List.forall_mem_singleton.mpr ?_)
      exact ⟨fun _ => .inl rfl, fun _ => .inl rfl, fun _ => .inl rfl, fun _ => .inl rfl,
        fun _ => .inl rfl⟩
  exact ⟨⟨hbreaks, hruns⟩, scan_wrap hbreaks hruns⟩

/-- A block comment with an import in it. -/
def commentedSnippet : String := "/*\nuse rand::Rng;\n*/\n1\n"

/-- The import comes to life in the program. -/
theorem commented_import_hoisted :
    ¬ (Facts.scan (wrap commentedSnippet)).Agree (Facts.scan commentedSnippet) := by
  intro h
  have hroot : "rand" ∈ (Facts.scan (wrap commentedSnippet)).crateRoots := by decide +kernel
  have hnone : "rand" ∉ (Facts.scan commentedSnippet).crateRoots := by decide +kernel
  exact hnone ((h.roots "rand").mp hroot)

end RustScript.Snippet
