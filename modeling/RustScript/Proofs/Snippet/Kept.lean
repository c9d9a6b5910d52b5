import RustScript.Proofs.Snippet.Value

/-!
# Literals in a wrapped snippet

Wrapping moves and indents lines and does not know which of them lie inside a literal. Each visible
character of a snippet has a place in the program (`programUpTo_prefix`). A literal is kept, character
by character, if it stands on one line. One of several lines is kept exactly if all of these go in
front, where no line is indented, and end in line feeds (`literal_kept_iff`).
-/

set_option autoImplicit false

namespace RustScript.Snippet

open RustScript.Source RustScript.Text RustScript.Rust

/-! ## Places in the program -/

/-- The beginning of the entry point, in the form that prints a value or in the plain one. -/
def openingText (value : Bool) : List Char :=
  if value then "fn main() \x7b\n    let value = \x7b\n".toList else "fn main() \x7b\n".toList

/-- The end of the entry point. -/
def closingText (value : Bool) : List Char :=
  if value then "\n    \x7d;\n    println!(\"\x7b:?\x7d\", value);\n\x7d\n".toList else "\n\x7d\n".toList

/-- What stands in the program above the lines in `fn main`. -/
def aboveMain (value : Bool) (front : List Line) : List Char :=
  (if front.isEmpty then [] else joinLines front ++ "\n\n".toList) ++ openingText value

/-- What stands in the program in front of a place on a line of the snippet: `above` are the lines
above, and `start` stands in front of that place on the line itself, which goes in front or not. -/
def ahead (value : Bool) (front : List Line) (above : List (Bool × Line)) (goesFront : Bool)
    (start : Line) : List Char :=
  if goesFront then (linesAt true above).flatMap (· ++ ['\n']) ++ start
  else aboveMain value front ++ ((linesAt false above).map indented).flatMap (· ++ ['\n']) ++
    ("    ".toList ++ start)

/-- The program up to the place where a part of the snippet, from its beginning, ends. -/
def programUpTo (body : String) (part : List Char) : List Char :=
  let lines := placed false (splitLines body.toList)
  let (above, start) := brokenFrom [] part
  match lines.drop above.length with
  | (goesFront, _) :: _ =>
      ahead (!endsInStatement (wrapParts body).2) (wrapParts body).1 (lines.take above.length)
        goesFront start
  | [] => (wrap body).toList

/-- The lines of the snippet on which a text behind `before` stands. -/
def linesOf (body : String) (before text : List Char) : List (Bool × Line) :=
  ((placed false (splitLines body.toList)).take ((brokenFrom [] (before ++ text)).1.length + 1)).drop
    (brokenFrom [] before).1.length

/-- How a string literal begins, plain or raw. -/
def stringOpenings : List String := ["\"", "b\"", "c\"", "r\"", "r#", "br\"", "br#", "cr\"", "cr#"]

/-- The token is a string literal. -/
def IsString (t : Token) : Prop :=
  t.kind = .literal ∧ stringOpenings.any (startsWith · t.text.toList) = true

theorem toList_program (value : Bool) (front lines : List Line) :
    (program value front lines).toList =
      aboveMain value front ++ joinLines (lines.map indented) ++ closingText value := by
  have hmain : mainForm value lines =
      openingText value ++ joinLines (lines.map indented) ++ closingText value := by
    cases value <;> rfl
  unfold program aboveMain
  rw [String.toList_ofList, hmain]
  split <;> simp

theorem toList_wrap (body : String) : (wrap body).toList =
    aboveMain (!endsInStatement (wrapParts body).2) (wrapParts body).1 ++
      joinLines ((wrapParts body).2.map indented) ++
        closingText (!endsInStatement (wrapParts body).2) := by
  rw [wrap_eq, toList_program]

theorem linesAt_append (front : Bool) (lines more : List (Bool × Line)) :
    linesAt front (lines ++ more) = linesAt front lines ++ linesAt front more := by
  unfold linesAt
  rw [List.filter_append, List.map_append]

theorem wrapParts_eq (body : String) : wrapParts body =
    (linesAt true (placed false (splitLines body.toList)),
      linesAt false (placed false (splitLines body.toList))) := hoist_eq false _

/-- Where a place is, if the lines above it are known. -/
theorem programUpTo_eq {body : String} {part : List Char} {above below : List (Bool × Line)}
    {goesFront : Bool} {line : Line}
    (hlines : placed false (splitLines body.toList) = above ++ (goesFront, line) :: below)
    (habove : (brokenFrom [] part).1.length = above.length) :
    programUpTo body part = ahead (!endsInStatement (wrapParts body).2) (wrapParts body).1 above
      goesFront (brokenFrom [] part).2 := by
  unfold programUpTo
  dsimp only
  rw [habove, hlines, List.drop_left, List.take_left]

theorem not_break_of_not_blank {c : Char} (h : isBlank c = false) : isLineBreak c = false := by
  refine Bool.eq_false_iff.mpr fun hbreak => ?_
  unfold isLineBreak at hbreak
  unfold isBlank at h
  simp only [Bool.or_eq_true, Bool.and_eq_true, decide_eq_true_eq, beq_iff_eq,
    Bool.or_eq_false_iff, Bool.and_eq_false_iff, decide_eq_false_iff_not, beq_eq_false_iff_ne] at *
  omega

/-- The line of a place, and the lines around it. -/
theorem exists_placed {body : String} {part rest : List Char} {c : Char}
    (hbody : body.toList = part ++ c :: rest) (hc : isLineBreak c = false) :
    ∃ above goesFront tail below, placed false (splitLines body.toList) =
        above ++ (goesFront, (brokenFrom [] part).2 ++ c :: tail) :: below ∧
      above.map Prod.snd = (brokenFrom [] part).1 := by
  obtain ⟨tail, below, htail⟩ :=
    @exists_splitLinesFrom rest (c :: (brokenFrom [] part).2.reverse) true rfl
  have hlines : splitLines body.toList = (brokenFrom [] part).1 ++
      splitLinesFrom (c :: (brokenFrom [] part).2.reverse) true rest := by
    rw [hbody]
    exact splitLinesFrom_append hc false
  rw [htail, ← map_placed false (splitLines body.toList), List.map_eq_append_iff] at hlines
  obtain ⟨above, more, hplaced, habove, hmore⟩ := hlines
  obtain ⟨⟨goesFront, line⟩, below, rfl, hline, -⟩ := List.map_eq_cons_iff.mp hmore
  refine ⟨above, goesFront, tail, below, ?_, habove⟩
  have hline : line = _ := hline
  rw [hplaced, hline, List.reverse_cons, List.reverse_reverse, List.append_assoc]
  rfl

theorem indented_of_not_blank {start tail : Line} {c : Char} (hc : isBlank c = false) :
    indented (start ++ c :: tail) = "    ".toList ++ start ++ (c :: tail) := by
  have hfilled : ¬ allBlank (start ++ c :: tail) = true := fun hblank => by
    rw [isBlank_of_mem hblank (List.mem_append_right _ List.mem_cons_self)] at hc
    cases hc
  rw [indented, if_neg hfilled, List.append_assoc]

theorem exists_joinLines_cons (c : Char) (tail : List Char) (below : List Line) :
    ∃ rest, joinLines ((c :: tail) :: below) = c :: rest := by
  cases below with
  | nil => exact ⟨tail, rfl⟩
  | cons line below => exact ⟨_, rfl⟩

/-- A line that goes in front is not indented. -/
theorem ahead_true (value : Bool) (front : List Line) (above : List (Bool × Line)) (start : Line) :
    ahead value front above true start = (linesAt true above).flatMap (· ++ ['\n']) ++ start := rfl

theorem ahead_false (value : Bool) (front : List Line) (above : List (Bool × Line)) (start : Line) :
    ahead value front above false start = aboveMain value front ++
      ((linesAt false above).map indented).flatMap (· ++ ['\n']) ++ ("    ".toList ++ start) := rfl

/-- Behind a place on a line stands what stands there on the line. -/
theorem ahead_append (value : Bool) (front : List Line) (above : List (Bool × Line))
    (goesFront : Bool) (start text : Line) : ahead value front above goesFront (start ++ text) =
      ahead value front above goesFront start ++ text := by
  cases goesFront with
  | true => rw [ahead_true, ahead_true, List.append_assoc]
  | false =>
      rw [ahead_false, ahead_false]
      simp only [List.append_assoc]

/-- On a line, the next place is behind the character at this one. -/
theorem programUpTo_concat {body : String} {part rest : List Char} {c : Char}
    (hbody : body.toList = part ++ c :: rest) (hc : isLineBreak c = false) :
    programUpTo body (part ++ [c]) = programUpTo body part ++ [c] := by
  obtain ⟨above, goesFront, tail, below, hplaced, habove⟩ := exists_placed hbody hc
  have hcount : (brokenFrom [] part).1.length = above.length := by rw [← habove, List.length_map]
  rw [programUpTo_eq hplaced hcount, programUpTo_eq hplaced (by rw [brokenFrom_concat hc, hcount]),
    brokenFrom_concat hc, ahead_append]

/-- **Every visible character of a snippet has a place in the program**, and stands there. -/
theorem programUpTo_prefix {body : String} {part rest : List Char} {c : Char}
    (hbody : body.toList = part ++ c :: rest) (hc : isBlank c = false) :
    programUpTo body part ++ [c] <+: (wrap body).toList := by
  obtain ⟨above, goesFront, tail, below, hplaced, habove⟩ :=
    exists_placed hbody (not_break_of_not_blank hc)
  rw [programUpTo_eq hplaced (by rw [← habove, List.length_map]), toList_wrap]
  generalize (!endsInStatement (wrapParts body).2) = value
  generalize (brokenFrom [] part).2 = start at hplaced ⊢
  rw [wrapParts_eq, hplaced]
  cases goesFront with
  | true =>
      obtain ⟨more, hmore⟩ := exists_joinLines_cons c tail (linesAt true below)
      have hfront : linesAt true (above ++ (true, start ++ c :: tail) :: below) =
          linesAt true above ++ (start ++ c :: tail) :: linesAt true below := linesAt_append true above _
      have hne : (linesAt true above ++ (start ++ c :: tail) :: linesAt true below).isEmpty = false := by
        simp
      rw [hfront, ahead_true, aboveMain, hne, if_neg Bool.false_ne_true, joinLines_split, hmore]
      simp
  | false =>
      obtain ⟨more, hmore⟩ := exists_joinLines_cons c tail ((linesAt false below).map indented)
      have hmain : (linesAt false (above ++ (false, start ++ c :: tail) :: below)).map indented =
          (linesAt false above).map indented ++
            ("    ".toList ++ start ++ c :: tail) :: (linesAt false below).map indented := by
        rw [linesAt_append, List.map_append]
        show _ ++ indented (start ++ c :: tail) :: _ = _
        rw [indented_of_not_blank hc]
        rfl
      rw [hmain, ahead_false, joinLines_split, hmore]
      simp

/-! ## Line feeds are the only breaks of the program -/

/-- Lines break in this text at line feeds only. -/
def FeedsOnly (cs : List Char) : Prop := ∀ c ∈ cs, isLineBreak c = true → c = '\n'

instance (cs : List Char) : Decidable (FeedsOnly cs) :=
  List.decidableBAll (fun c => isLineBreak c = true → c = '\n') cs

theorem FeedsOnly.append {cs cs' : List Char} (h : FeedsOnly cs) (h' : FeedsOnly cs') :
    FeedsOnly (cs ++ cs') := fun c hc => (List.mem_append.mp hc).elim (h c) (h' c)

theorem feedsOnly_joinLines {lines : List Line} (h : ∀ line ∈ lines, FeedsOnly line) :
    FeedsOnly (joinLines lines) := by
  intro c hc hbreak
  obtain hfeed | ⟨line, hline, hmem⟩ := mem_joinLines hc
  · exact hfeed
  · exact h line hline c hmem hbreak

theorem feedsOnly_wrap (body : String) : FeedsOnly (wrap body).toList := by
  have hlines : ∀ front, ∀ line ∈ linesAt front (placed false (splitLines body.toList)),
      FeedsOnly line := by
    intro front line hline c hc hbreak
    have hmem : line ∈ splitLines body.toList := by
      rw [← map_placed false (splitLines body.toList)]
      exact (List.filter_sublist.map Prod.snd).subset hline
    rw [not_break_of_mem_splitLines hmem c hc] at hbreak
    cases hbreak
  have hindented : ∀ {line : Line}, FeedsOnly line → FeedsOnly (indented line) := by
    intro line hline
    unfold indented
    split
    · exact nofun
    · exact FeedsOnly.append (by decide) hline
  have hown : ∀ value, FeedsOnly (openingText value) ∧ FeedsOnly (closingText value) := by
    intro value
    cases value <;> exact ⟨by decide, by decide⟩
  rw [toList_wrap, wrapParts_eq]
  refine (FeedsOnly.append (.append ?_ (hown _).1) (feedsOnly_joinLines ?_)).append (hown _).2
  · split
    · exact nofun
    · exact .append (feedsOnly_joinLines (hlines true)) (by decide)
  · exact List.forall_mem_map.mpr fun line hline => hindented (hlines false line hline)

/-! ## The lines of a text -/

/-- A text behind `before`, the open part of whose last line is `start`, begins on a line with the
flag `first`, closes the lines `covered` and ends on the line `last`. -/
structure Stands (body : String) (before text : List Char) (above covered below : List (Bool × Line))
    (first : Bool) (last : Bool × Line) : Prop where
  placed_eq : placed false (splitLines body.toList) = above ++ (covered ++ last :: below)
  above_eq : above.map Prod.snd = (brokenFrom [] before).1
  covered_eq : covered.map Prod.snd = (brokenFrom (brokenFrom [] before).2.reverse text).1
  first_eq : ((covered ++ [last]).head?).map Prod.fst = some first
  last_prefix : (brokenFrom (brokenFrom [] before).2.reverse text).2 <+: last.2
  broken_eq : brokenFrom [] (before ++ text) = (above.map Prod.snd ++ covered.map Prod.snd,
    (brokenFrom (brokenFrom [] before).2.reverse text).2)

theorem exists_stands {body : String} {before text behind : List Char} {c d : Char}
    {rest more : List Char} (hbody : body.toList = before ++ (text ++ behind))
    (hfirst : text = c :: rest) (hlast : text = more ++ [d]) (hc : isBlank c = false)
    (hd : isBlank d = false) : ∃ above covered below first last,
      Stands body before text above covered below first last := by
  have hc := not_break_of_not_blank hc
  have hd := not_break_of_not_blank hd
  have hbegins : body.toList = before ++ c :: (rest ++ behind) := by rw [hbody, hfirst]; rfl
  have hends : body.toList = (before ++ more) ++ d :: behind := by rw [hbody, hlast]; simp
  obtain ⟨above, first, tail, below, hplaced, habove⟩ := exists_placed hbegins hc
  obtain ⟨above', last, tail', below', hplaced', habove'⟩ := exists_placed hends hd
  have hwhole : brokenFrom [] (before ++ text) =
      (above.map Prod.snd ++ (brokenFrom (brokenFrom [] before).2.reverse text).1,
        (brokenFrom (brokenFrom [] before).2.reverse text).2) := by
    rw [habove, hfirst, brokenFrom_append hc]
  have hwhole' : brokenFrom [] (before ++ text) =
      (above'.map Prod.snd, (brokenFrom [] (before ++ more)).2 ++ [d]) := by
    rw [habove', hlast, ← List.append_assoc, brokenFrom_concat hd]
  obtain ⟨hclosed, hopen⟩ := Prod.mk.inj (hwhole.symm.trans hwhole')
  -- the lines above the first place are above the second one, too
  have hahead : above <+: above' := by
    refine List.prefix_of_prefix_length_le ⟨_, hplaced.symm⟩ ⟨_, hplaced'.symm⟩ ?_
    have hlengths := congrArg List.length hclosed
    rw [List.length_append, List.length_map, List.length_map] at hlengths
    omega
  obtain ⟨covered, rfl⟩ := hahead
  rw [List.map_append] at hclosed
  have hclosed := List.append_cancel_left hclosed
  rw [List.append_assoc] at hplaced'
  refine ⟨above, covered, below', first, (last, _), hplaced', habove, hclosed.symm, ?_, ?_, ?_⟩
  · have hsame := List.append_cancel_left (hplaced.symm.trans hplaced')
    cases covered with
    | nil => rw [← (List.cons.inj hsame).1]; rfl
    | cons line covered => rw [List.cons_append, ← (List.cons.inj hsame).1]; rfl
  · rw [hopen]
    exact ⟨tail', by simp⟩
  · rw [hwhole, hclosed]

section

variable {body : String} {before text : List Char} {above covered below : List (Bool × Line)}
  {first : Bool} {last : Bool × Line} (h : Stands body before text above covered below first last)

include h

theorem Stands.feed_not_mem : ∀ line ∈ above ++ (covered ++ [last]), '\n' ∉ line.2 := by
  intro line hline
  have hmem : line.2 ∈ splitLines body.toList := by
    rw [← map_placed false (splitLines body.toList), h.placed_eq]
    refine List.mem_map_of_mem ?_
    simp only [List.mem_append, List.mem_cons, List.not_mem_nil, or_false] at hline ⊢
    tauto
  exact feed_not_mem_of_mem_splitLines hmem

theorem Stands.programUpTo_before :
    programUpTo body before = ahead (!endsInStatement (wrapParts body).2) (wrapParts body).1 above
      first (brokenFrom [] before).2 := by
  obtain ⟨line, hhead, rfl⟩ := Option.map_eq_some_iff.mp h.first_eq
  obtain ⟨more, hmore⟩ := List.head?_eq_some_iff.mp hhead
  have hlines : placed false (splitLines body.toList) = above ++ (line.1, line.2) :: (more ++ below) := by
    rw [h.placed_eq, List.append_cons, hmore, List.cons_append]
  exact programUpTo_eq hlines (by rw [← h.above_eq, List.length_map])

theorem Stands.programUpTo_behind :
    programUpTo body (before ++ text) = ahead (!endsInStatement (wrapParts body).2)
      (wrapParts body).1 (above ++ covered) last.1
        (brokenFrom (brokenFrom [] before).2.reverse text).2 := by
  have hlines : placed false (splitLines body.toList) =
      (above ++ covered) ++ (last.1, last.2) :: below := by
    rw [h.placed_eq, List.append_assoc]
  rw [programUpTo_eq hlines, h.broken_eq]
  rw [h.broken_eq]
  simp

theorem Stands.linesOf_eq : linesOf body before text = covered ++ [last] := by
  have hcount : (brokenFrom [] (before ++ text)).1.length + 1 =
      above.length + (covered ++ [last]).length := by
    rw [h.broken_eq]
    simp [Nat.add_assoc]
  have hfront : (brokenFrom [] before).1.length = above.length := by
    rw [← h.above_eq, List.length_map]
  unfold linesOf
  rw [hcount, hfront, h.placed_eq, List.append_cons covered last below,
    List.take_length_add_append, List.take_left, List.drop_left]

/-- If lines break at line feeds only, a text consists of the lines on which it stands. -/
theorem Stands.text_eq (hfeeds : FeedsOnly text) :
    (covered.map Prod.snd).flatMap (· ++ ['\n']) ++
        (brokenFrom (brokenFrom [] before).2.reverse text).2 =
      (brokenFrom [] before).2 ++ text := by
  have hjoin := @flatMap_brokenFrom text (brokenFrom [] before).2.reverse hfeeds
  rwa [List.reverse_reverse, ← h.covered_eq] at hjoin

/-- Then it closes a line exactly if it has a line feed. -/
theorem Stands.covered_eq_nil_iff (hfeeds : FeedsOnly text) : covered = [] ↔ '\n' ∉ text := by
  constructor
  · rintro rfl
    have hjoin := h.text_eq hfeeds
    rw [List.map_nil, List.flatMap_nil, List.nil_append] at hjoin
    intro hfeed
    refine h.feed_not_mem last (by simp) (h.last_prefix.subset ?_)
    rw [hjoin]
    exact List.mem_append_right _ hfeed
  · intro hfree
    have hnone : ∀ c ∈ text, isLineBreak c = false := fun c hc =>
      Bool.eq_false_iff.mpr fun hbreak => hfree (hfeeds c hc hbreak ▸ hc)
    have hclosed := h.covered_eq
    rw [brokenFrom_of_not_break hnone] at hclosed
    exact List.map_eq_nil_iff.mp hclosed

end

theorem linesAt_true_of_all {lines : List (Bool × Line)} (h : ∀ line ∈ lines, line.1 = true) :
    linesAt true lines = lines.map Prod.snd := by
  unfold linesAt
  rw [List.filter_eq_self.mpr fun line hline => beq_iff_eq.mpr (h line hline)]

section

variable {body : String} {before text : List Char} {above covered below : List (Bool × Line)}
  {first : Bool} {last : Bool × Line} (h : Stands body before text above covered below first last)

include h

/-- A text on one line is kept. -/
theorem Stands.kept_of_line (hfeeds : FeedsOnly text) (hfree : '\n' ∉ text) :
    programUpTo body (before ++ text) = programUpTo body before ++ text := by
  obtain rfl := (h.covered_eq_nil_iff hfeeds).mpr hfree
  have hjoin := h.text_eq hfeeds
  rw [List.map_nil, List.flatMap_nil, List.nil_append] at hjoin
  have hfirst : last.1 = first := Option.some.inj h.first_eq
  rw [h.programUpTo_behind, h.programUpTo_before, hjoin, List.append_nil, hfirst, ahead_append]

/-- A text on lines that go in front is kept. -/
theorem Stands.kept_of_front (hfeeds : FeedsOnly text)
    (hfront : ∀ line ∈ covered ++ [last], line.1 = true) :
    programUpTo body (before ++ text) = programUpTo body before ++ text := by
  have hfirst : first = true := by
    obtain ⟨line, hhead, hfirst⟩ := Option.map_eq_some_iff.mp h.first_eq
    rw [← hfirst]
    exact hfront line (List.mem_of_mem_head? hhead)
  have hlast : last.1 = true := hfront last (by simp)
  have hcovered : ∀ line ∈ covered, line.1 = true :=
    fun line hline => hfront line (List.mem_append_left _ hline)
  rw [h.programUpTo_behind, h.programUpTo_before, hfirst, hlast, ahead_true, ahead_true,
    linesAt_append, linesAt_true_of_all hcovered, List.flatMap_append, List.append_assoc,
    List.append_assoc, h.text_eq hfeeds]

/-- The last line of a text of several lines is not indented where the text is kept. -/
theorem Stands.last_of_kept (hfeeds : FeedsOnly text) (hne : covered ≠ [])
    (hkept : programUpTo body (before ++ text) = programUpTo body before ++ text) :
    last.1 = true := by
  by_contra hlast
  obtain ⟨others, line, rfl⟩ := (List.eq_nil_or_concat covered).resolve_left hne
  obtain ⟨front, hfront⟩ : ∃ front, programUpTo body before =
      front ++ (brokenFrom [] before).2 := by
    rw [h.programUpTo_before]
    cases first with
    | true => exact ⟨_, rfl⟩
    | false => exact ⟨_, (List.append_assoc _ _ _).symm⟩
  have hjoin := h.text_eq hfeeds
  rw [h.programUpTo_behind, Bool.eq_false_iff.mpr hlast, hfront, List.append_assoc, ← hjoin,
    ahead_false, ← List.append_assoc, ← List.append_assoc] at hkept
  have hends := List.append_cancel_right hkept
  rw [List.concat_eq_append, List.map_append, List.flatMap_append, List.map_singleton,
    List.flatMap_singleton] at hends
  have hspaces : "    ".toList = "   ".toList ++ [' '] := rfl
  rw [hspaces] at hends
  simp only [← List.append_assoc] at hends
  exact absurd (List.append_inj' hends rfl).2 (by decide)

/-- Nor does the first line, since `fn main` stands behind what goes in front. -/
theorem Stands.first_of_kept (hlast : last.1 = true)
    (hkept : programUpTo body (before ++ text) = programUpTo body before ++ text) :
    first = true := by
  by_contra hfirst
  obtain ⟨tail, htail⟩ := h.last_prefix
  have hfront : (wrapParts body).1 = linesAt true (above ++ covered) ++
      ((brokenFrom (brokenFrom [] before).2.reverse text).2 ++ tail) :: linesAt true below := by
    have hline : last = (true, last.2) := Prod.ext hlast rfl
    rw [wrapParts_eq, h.placed_eq, ← List.append_assoc, linesAt_append, htail, hline]
    rfl
  have hjoin : joinLines (wrapParts body).1 = programUpTo body (before ++ text) ++
      joinLines (tail :: linesAt true below) := by
    rw [h.programUpTo_behind, hlast, ahead_true, hfront]
    exact joinLines_split _ _ _ _
  have hnonempty : (wrapParts body).1.isEmpty = false := by
    rw [hfront]
    simp
  have hlonger : (joinLines (wrapParts body).1).length < (programUpTo body before).length := by
    have hfeeds : ("\n\n".toList).length = 2 := rfl
    rw [h.programUpTo_before, Bool.eq_false_iff.mpr hfirst, ahead_false, aboveMain, hnonempty,
      if_neg Bool.false_ne_true]
    simp only [List.length_append]
    omega
  have hlengths := congrArg List.length hkept
  have hjoined := congrArg List.length hjoin
  rw [List.length_append] at hlengths hjoined
  omega

/-- A text of several lines is kept only if they all go in front. -/
theorem Stands.front_of_kept (hfeeds : FeedsOnly text) (hne : covered ≠ [])
    (hkept : programUpTo body (before ++ text) = programUpTo body before ++ text) :
    ∀ line ∈ covered ++ [last], line.1 = true := by
  have hlast := h.last_of_kept hfeeds hne hkept
  have hfirst := h.first_of_kept hlast hkept
  rw [h.programUpTo_behind, h.programUpTo_before, hlast, hfirst, ahead_true, ahead_true,
    linesAt_append, List.flatMap_append, List.append_assoc, List.append_assoc] at hkept
  have hcovered := List.append_cancel_left hkept
  rw [← h.text_eq hfeeds] at hcovered
  have hsame := List.append_cancel_right hcovered
  -- so as many of the lines go in front as there are
  have hfree : ∀ line ∈ covered.map Prod.snd, '\n' ∉ line := by
    refine List.forall_mem_map.mpr fun line hline => h.feed_not_mem line ?_
    exact List.mem_append_right _ (List.mem_append_left _ hline)
  have hfree' : ∀ line ∈ linesAt true covered, '\n' ∉ line := fun line hline =>
    hfree line ((List.filter_sublist.map Prod.snd).subset hline)
  have hcounts := congrArg (List.count '\n') hsame
  rw [count_feed_flatMap hfree, count_feed_flatMap hfree', linesAt, List.length_map,
    List.length_map] at hcounts
  intro line hline
  obtain hcovered | hline := List.mem_append.mp hline
  · exact beq_iff_eq.mp (List.length_filter_eq_length_iff.mp hcounts line hcovered)
  · rw [List.mem_singleton.mp hline, hlast]

end

/-- A string literal begins with a visible character. -/
theorem first_of_string {t : Token} (h : IsString t) :
    ∃ c rest, t.text.toList = c :: rest ∧ isBlank c = false := by
  have hopenings : ∀ word ∈ stringOpenings, ∃ c rest, word.toList = c :: rest ∧ isBlank c = false := by
    simp only [stringOpenings, List.forall_mem_cons, List.not_mem_nil, false_imp_iff, implies_true,
      and_true]
    exact ⟨⟨_, _, rfl, rfl⟩, ⟨_, _, rfl, rfl⟩, ⟨_, _, rfl, rfl⟩, ⟨_, _, rfl, rfl⟩, ⟨_, _, rfl, rfl⟩,
      ⟨_, _, rfl, rfl⟩, ⟨_, _, rfl, rfl⟩, ⟨_, _, rfl, rfl⟩, ⟨_, _, rfl, rfl⟩⟩
  obtain ⟨word, hword, hstarts⟩ := List.any_eq_true.mp h.2
  obtain ⟨c, rest, hsplit, hc⟩ := hopenings word hword
  obtain ⟨more, hmore⟩ := startsWith_iff.mp hstarts
  exact ⟨c, rest ++ more, by rw [← hmore, hsplit]; rfl, hc⟩

/-- **A literal is kept** in its place in the program exactly if lines break in it at line feeds only
and it stands on one line, or all its lines go in front. -/
theorem literal_kept_iff {body : String} {cs : List Char} {fuel : Nat} {state : LexState}
    {tokens : List (Token × List Char)} (hsuffix : cs <:+ body.toList)
    (hread : lexPlaced fuel state cs = some tokens) {t : Token} {behind : List Char}
    (hmem : (t, behind) ∈ tokens) (hstring : IsString t) :
    ∃ before, body.toList = before ++ (t.text.toList ++ behind) ∧
      programUpTo body (before ++ t.text.toList) <+: (wrap body).toList ∧
        (programUpTo body (before ++ t.text.toList) = programUpTo body before ++ t.text.toList ↔
          FeedsOnly t.text.toList ∧ ('\n' ∉ t.text.toList ∨
            ∀ line ∈ linesOf body before t.text.toList, line.1 = true)) := by
  obtain ⟨hcloses, hstands⟩ := closes_of_mem hread _ hmem
  obtain ⟨before, hbody⟩ := hstands.trans hsuffix
  refine ⟨before, hbody.symm, ?_⟩
  obtain ⟨c, rest, hfirst, hc⟩ := first_of_string hstring
  obtain ⟨more, d, ⟨hd, -⟩, hlast⟩ := hcloses.other (by rw [hstring.1]; exact nofun)
  generalize t.text.toList = text at *
  obtain ⟨above, covered, below, first, last, h⟩ := exists_stands hbody.symm hfirst hlast hc hd
  have hends : body.toList = (before ++ more) ++ d :: behind := by rw [← hbody, hlast]; simp
  have hahead : programUpTo body (before ++ text) <+: (wrap body).toList := by
    rw [hlast, ← List.append_assoc, programUpTo_concat hends (not_break_of_not_blank hd)]
    exact programUpTo_prefix hends hd
  refine ⟨hahead, fun hkept => ?_, ?_⟩
  · have hfeeds : FeedsOnly text := fun c hc =>
      feedsOnly_wrap body c (hahead.subset (hkept ▸ List.mem_append_right _ hc))
    refine ⟨hfeeds, ?_⟩
    by_cases hne : covered = []
    · exact .inl ((h.covered_eq_nil_iff hfeeds).mp hne)
    · rw [h.linesOf_eq]
      exact .inr (h.front_of_kept hfeeds hne hkept)
  · rintro ⟨hfeeds, hfree | hfront⟩
    · exact h.kept_of_line hfeeds hfree
    · rw [h.linesOf_eq] at hfront
      exact h.kept_of_front hfeeds hfront

/-- A raw string with the marks of a comment and of strings in it. -/
def quotedSnippet : String := "use std::fs;\n  let s = r#\"a // \"b\" /* c\"#;\ns\n"

/-- The literal is kept. -/
theorem quotedSnippet_kept :
    (∃ tokens, lexPlaced 100 insideMain quotedSnippet.toList = some tokens ∧
        (⟨.literal, "r#\"a // \"b\" /* c\"#", false, false⟩, ";\ns\n".toList) ∈ tokens) ∧
      IsString ⟨.literal, "r#\"a // \"b\" /* c\"#", false, false⟩ ∧
      ∃ before, quotedSnippet.toList =
          before ++ ("r#\"a // \"b\" /* c\"#".toList ++ ";\ns\n".toList) ∧
        programUpTo quotedSnippet (before ++ "r#\"a // \"b\" /* c\"#".toList) =
          programUpTo quotedSnippet before ++ "r#\"a // \"b\" /* c\"#".toList := by
  have hstring : IsString ⟨.literal, "r#\"a // \"b\" /* c\"#", false, false⟩ := ⟨rfl, by decide⟩
  obtain ⟨tokens, hread, hmem⟩ : ∃ tokens,
      lexPlaced 100 insideMain quotedSnippet.toList = some tokens ∧
        (⟨.literal, "r#\"a // \"b\" /* c\"#", false, false⟩, ";\ns\n".toList) ∈ tokens :=
    ⟨_, rfl, by decide⟩
  obtain ⟨before, hbody, -, hkept⟩ := literal_kept_iff List.suffix_rfl hread hmem hstring
  exact ⟨⟨tokens, hread, hmem⟩, hstring, before, hbody,
    hkept.mpr ⟨by decide, .inl (by decide)⟩⟩

/-- A string of two lines. -/
def verseSnippet : String := "let s = \"a\nb\";\n"

/-- The string is not in the program: its second line is indented. -/
theorem verse_is_changed :
    (∃ tokens, lexFrom 100 insideMain verseSnippet.toList = some tokens ∧
        ⟨.literal, "\"a\nb\"", false, false⟩ ∈ tokens) ∧
      IsString ⟨.literal, "\"a\nb\"", false, false⟩ ∧
      ¬ "\"a\nb\"".toList <:+: (wrap verseSnippet).toList := by
  exact ⟨⟨_, rfl, by decide⟩, ⟨rfl, by decide⟩, by decide +kernel⟩

end RustScript.Snippet
