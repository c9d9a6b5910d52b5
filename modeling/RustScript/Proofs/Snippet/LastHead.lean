import Mathlib.Data.List.Infix
import RustScript.Proofs.Snippet.Braces

/-!
# The first line of the last statement

Going from line to line, wrapping takes a line for the first one of a statement if no brace is open in
front of it and the line above ends in `;` or `}`. What it has in the end is the line behind the
longest part of the code, short of the whole, at which a statement may end (`lastHead?_eq_some_iff`).
So it is the first line of the last statement wherever the statements above are complete and nothing
in the last one looks like its end before it is over (`lastHead?_statements`).
-/

set_option autoImplicit false

namespace RustScript.Snippet

/-! ## Where a statement may end -/

/-- Behind these lines a statement may end: they open no more braces than they close, and the last
one ends in `;` or `}`. -/
def MayEnd (codes : List Line) : Prop :=
  balanceOf codes ≤ 0 ∧ ∃ code ∈ codes.getLast?, endsStatement code = true

/-- A new statement begins behind these lines. -/
def Begins (codes : List Line) : Prop := codes = [] ∨ MayEnd codes

/-- No statement may end in the middle of these lines. -/
def Unbroken (codes : List Line) : Prop := ∀ front, front <+: codes → front ≠ codes → ¬ MayEnd front

/-- A statement that has ended: it closes the braces that it opens, and ends in `;` or `}`. -/
structure Complete (codes : List Line) : Prop where
  closed : balanceOf codes = 0
  ends : ∃ code ∈ codes.getLast?, endsStatement code = true

/-- The line begins the last statement: it stands behind the longest part of the lines, short of all
of them, behind which a statement begins. -/
def IsLastHead (codes : List Line) (head : Line) : Prop :=
  ∃ above below, codes = above ++ head :: below ∧ Begins above ∧
    ∀ front, front <+: codes → front ≠ codes → MayEnd front → front.length ≤ above.length

instance : DecidablePred MayEnd := fun codes =>
  decidable_of_iff (balanceOf codes ≤ 0 ∧ (codes.getLast?.any endsStatement) = true) <| by
    rw [MayEnd, Option.any_eq_true]
    exact and_congr_right fun _ => Iff.rfl

instance : DecidablePred Unbroken := fun codes =>
  decidable_of_iff (∀ front ∈ codes.inits, front ≠ codes → ¬ MayEnd front) <|
    forall_congr' fun _ => by rw [List.mem_inits]

instance : DecidablePred Complete := fun codes =>
  decidable_of_iff (balanceOf codes = 0 ∧ (codes.getLast?.any endsStatement) = true) <| by
    rw [Option.any_eq_true]
    exact ⟨fun ⟨hclosed, hends⟩ => ⟨hclosed, hends⟩, fun h => ⟨h.closed, h.ends⟩⟩

/-! ## Counting braces -/

variable {codes above below : List Line} {head : Line}

theorem balanceOf_append (above below : List Line) :
    balanceOf (above ++ below) = balanceOf above + balanceOf below := by
  induction above with
  | nil => exact (Int.zero_add _).symm
  | cons line above ih => rw [List.cons_append, balanceOf, ih, balanceOf, Int.add_assoc]

/-- Complete statements, one behind the other, leave no brace open. -/
theorem balanceOf_flatten {statements : List (List Line)} (h : ∀ s ∈ statements, Complete s) :
    balanceOf statements.flatten = 0 := by
  induction statements with
  | nil => rfl
  | cons s statements ih =>
      obtain ⟨hs, hrest⟩ := List.forall_mem_cons.mp h
      rw [List.flatten_cons, balanceOf_append, hs.closed, ih hrest]
      rfl

/-- Behind complete statements a new one begins. -/
theorem begins_flatten {statements : List (List Line)} (h : ∀ s ∈ statements, Complete s) :
    Begins statements.flatten := by
  obtain rfl | ⟨front, last, rfl⟩ := List.eq_nil_or_concat' statements
  · exact .inl rfl
  · obtain ⟨code, hcode, hends⟩ := (h last (by simp)).ends
    refine .inr ⟨Int.le_of_eq (balanceOf_flatten h), code, ?_, hends⟩
    rw [List.flatten_append, List.flatten_singleton, List.getLast?_append, hcode]
    rfl

/-- Lines that leave no brace open make no difference to where a statement may end behind them. -/
theorem mayEnd_append_iff (hclosed : balanceOf above = 0) (hne : below ≠ []) :
    MayEnd (above ++ below) ↔ MayEnd below := by
  have hlast := List.getLast?_eq_some_getLast hne
  rw [MayEnd, balanceOf_append, hclosed, Int.zero_add, List.getLast?_append, hlast, MayEnd, hlast]
  rfl

/-! ## From line to line -/

/-- What wrapping remembers at the beginning. -/
def Progress.start (head : Line) : Progress := ⟨head, 0, true⟩

/-- A line is taken for the first one of a statement if a statement begins behind the lines above. -/
theorem boundary_foldl_iff (first : Line) (codes : List Line) :
    (((codes.foldl Progress.next (.start first)).depth ≤ 0 : Bool) &&
      (codes.foldl Progress.next (.start first)).boundary) = true ↔ Begins codes := by
  obtain rfl | ⟨front, code, rfl⟩ := List.eq_nil_or_concat' codes
  · exact iff_of_true rfl (.inl rfl)
  · have hdepth := depth_foldl (front ++ [code]) (.start first)
    rw [show (Progress.start first).depth = 0 from rfl, Int.zero_add] at hdepth
    rw [Bool.and_eq_true, decide_eq_true_eq, hdepth, Begins, or_iff_right (by simp), MayEnd]
    refine and_congr_right fun hclosed => ?_
    rw [List.foldl_append, List.foldl_cons, List.foldl_nil] at hdepth ⊢
    have hnext : (Progress.next (front.foldl Progress.next (.start first)) code).boundary =
        endsStatement code := by
      show (decide ((Progress.next _ code).depth ≤ 0) && _) = _
      rw [hdepth, decide_eq_true hclosed, Bool.true_and]
    rw [hnext, List.getLast?_concat]
    simp

/-- **What wrapping has behind some lines** is the first line of the last statement in them. -/
theorem isLastHead_foldl (first : Line) (hne : codes ≠ []) :
    IsLastHead codes (codes.foldl Progress.next (.start first)).head := by
  -- the last line either begins a statement itself or belongs to the last one above it
  induction codes using List.reverseRecOn with
  | nil => exact absurd rfl hne
  | append_singleton codes code ih =>
      have hbegins := boundary_foldl_iff first codes
      rw [List.foldl_append, List.foldl_cons, List.foldl_nil]
      by_cases hcodes : Begins codes
      · refine ⟨codes, [], ?_, hcodes, fun front hfront hshort _ => ?_⟩
        · rw [Progress.next, if_pos (hbegins.mpr hcodes)]
        · exact (List.prefix_concat_iff.mp hfront).resolve_left hshort |>.length_le
      · obtain ⟨above, below, hsplit, habove, hlongest⟩ := ih fun hnil => hcodes (.inl hnil)
        refine ⟨above, below ++ [code], ?_, habove, fun front hfront hshort hends => ?_⟩
        · rw [Progress.next, if_neg (mt hbegins.mp hcodes)]
          nth_rewrite 1 [hsplit]
          rw [List.append_assoc, List.cons_append]
        · have hinside := (List.prefix_concat_iff.mp hfront).resolve_left hshort
          refine hlongest front hinside ?_ hends
          rintro rfl
          exact hcodes (.inr hends)

theorem Begins.length_le (h : Begins above) {front : List Line} (hsplit : codes = above ++ head :: below)
    (hlongest : ∀ part, part <+: codes → part ≠ codes → MayEnd part → part.length ≤ front.length) :
    above.length ≤ front.length := by
  obtain rfl | hends := h
  · exact Nat.zero_le _
  · refine hlongest above ⟨head :: below, hsplit.symm⟩ ?_ hends
    rw [hsplit]
    exact fun heq => List.cons_ne_nil head below (List.self_eq_append_right.mp heq)

theorem IsLastHead.unique {other : Line} (h : IsLastHead codes head) (h' : IsLastHead codes other) :
    head = other := by
  obtain ⟨above, below, hsplit, hbegins, hlongest⟩ := h
  obtain ⟨above', below', hsplit', hbegins', hlongest'⟩ := h'
  have hlength : above.length = above'.length :=
    Nat.le_antisymm (hbegins.length_le hsplit hlongest') (hbegins'.length_le hsplit' hlongest)
  exact (List.cons.inj (List.append_inj (hsplit.symm.trans hsplit') hlength).2).1

/-- **The line that wrapping takes for the head of the last statement** stands behind the longest part
of the lines, short of all of them, behind which a statement begins. -/
theorem lastHead?_eq_some_iff : lastHead? codes = some head ↔ IsLastHead codes head := by
  cases codes with
  | nil =>
      refine iff_of_false nofun ?_
      rintro ⟨above, below, hsplit, -⟩
      exact List.append_ne_nil_of_right_ne_nil above (List.cons_ne_nil head below) hsplit.symm
  | cons first codes =>
      have hlast := isLastHead_foldl first (List.cons_ne_nil first codes)
      rw [lastHead?, Option.some_inj, show lastHeadFrom first 0 true (first :: codes) = _ from
        lastHeadFrom_eq (.start first) (first :: codes)]
      exact ⟨fun heq => heq ▸ hlast, hlast.unique⟩

/-- **Behind complete statements, wrapping finds the first line of the last one**, however many braces
that one leaves open and however it ends, if no statement may end in the middle of it. -/
theorem lastHead?_statements {statements : List (List Line)} {head : Line} {more : List Line}
    (habove : ∀ s ∈ statements, Complete s) (hlast : Unbroken (head :: more)) :
    lastHead? (statements.flatten ++ head :: more) = some head := by
  refine lastHead?_eq_some_iff.mpr
    ⟨statements.flatten, more, rfl, begins_flatten habove, fun front hfront hshort hends => ?_⟩
  obtain hinside | ⟨part, rfl⟩ :=
    List.prefix_or_prefix_of_prefix hfront (List.prefix_append statements.flatten (head :: more))
  · exact hinside.length_le
  · obtain rfl | hne := eq_or_ne part []
    · rw [List.append_nil]
    · -- the part that reaches into the last statement would end there
      have hpart := (mayEnd_append_iff (balanceOf_flatten habove) hne).mp hends
      refine absurd hpart (hlast part ((List.prefix_append_right_inj _).mp hfront) ?_)
      exact fun heq => hshort (by rw [heq])

/-- Two statements, the first one with braces on three lines. -/
def shapeStatements : List (List Line) :=
  [["let area = match shape \x7b".toList, "Shape::Dot => \x7b\x7d".toList, "\x7d;".toList],
    ["print(area);".toList]]

/-- The lines in a loop that is left open. -/
def openLines : List Line := ["step();".toList, "\x7b".toList]

theorem lastHead?_shapeStatements :
    (∀ s ∈ shapeStatements, Complete s) ∧ Unbroken ("while more() \x7b".toList :: openLines) ∧
      lastHead? (shapeStatements.flatten ++ "while more() \x7b".toList :: openLines) =
        some "while more() \x7b".toList := by
  have habove : ∀ s ∈ shapeStatements, Complete s := by decide +kernel
  have hlast : Unbroken ("while more() \x7b".toList :: openLines) := by decide +kernel
  exact ⟨habove, hlast, lastHead?_statements habove hlast⟩

end RustScript.Snippet
