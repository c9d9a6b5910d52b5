import Mathlib.Data.List.Infix
import RustScript.Proofs.Source.Words
import RustScript.Snippet

/-!
# The pieces of a text

Splitting counts braces from character to character and cuts at a comma where as many have been closed
as opened. `Cuts pieces cs` states that rule, and it holds of every text, also where a brace closes
nothing and the count falls below zero (`commaPieces_eq_iff`). So joining gives the text back, texts
that are balanced and have no comma outside braces come out of a join as they went in, and a group of
a balanced text is never torn (`splitTopLevel_join`).
-/

set_option autoImplicit false

namespace RustScript.Source

open RustScript.Snippet RustScript.Text

/-! ## Braces and commas -/

/-- Every brace of the text has a partner: no front part closes more braces than it opens, and the
whole closes as many. -/
structure Balanced (cs : List Char) : Prop where
  opened : ∀ front, front <+: cs → 0 ≤ braceBalance front
  closed : braceBalance cs = 0

/-- No comma stands at depth zero in the text, which begins at the given depth. -/
def Unsplit (depth : Int) (cs : List Char) : Prop :=
  ∀ front, front ++ [','] <+: cs → depth + braceBalance front ≠ 0

instance : DecidablePred Balanced := fun cs =>
  decidable_of_iff ((∀ front ∈ cs.inits, 0 ≤ braceBalance front) ∧ braceBalance cs = 0)
    ⟨fun ⟨hopened, hclosed⟩ => ⟨fun front h => hopened front ((List.mem_inits _ _).mpr h), hclosed⟩,
      fun h => ⟨fun front hmem => h.opened front ((List.mem_inits _ _).mp hmem), h.closed⟩⟩

instance (depth : Int) : DecidablePred (Unsplit depth) := fun cs =>
  decidable_of_iff (∀ front ∈ cs.inits, front ++ [','] <+: cs → depth + braceBalance front ≠ 0)
    ⟨fun h front hfront =>
        h front ((List.mem_inits _ _).mpr ((List.prefix_append front [',']).trans hfront)) hfront,
      fun h front _ => h front⟩

variable {cs front rest : List Char} {pieces : List (List Char)} {depth : Int}

theorem braceBalance_open : braceBalance ['\x7b'] = 1 := rfl

theorem braceBalance_close : braceBalance ['\x7d'] = -1 := rfl

theorem braceBalance_of_not_mem (hopen : '\x7b' ∉ cs) (hclose : '\x7d' ∉ cs) :
    braceBalance cs = 0 := by
  rw [braceBalance, List.count_eq_zero_of_not_mem hopen, List.count_eq_zero_of_not_mem hclose]
  rfl

theorem unsplit_of_not_mem (h : ',' ∉ cs) (depth : Int) : Unsplit depth cs := fun _ hfront =>
  absurd (hfront.subset (List.mem_append_right _ (List.mem_singleton_self ','))) h

theorem unsplit_singleton_iff {c : Char} : Unsplit depth [c] ↔ ¬ (c = ',' ∧ depth = 0) := by
  constructor
  · rintro h ⟨rfl, rfl⟩
    exact h [] List.prefix_rfl rfl
  · intro h front hfront hzero
    obtain rfl : front = [] := by
      have hlength := hfront.length_le
      rw [List.length_append, List.length_singleton, List.length_singleton] at hlength
      exact List.length_eq_zero_iff.mp (by omega)
    obtain ⟨rfl, -⟩ := List.cons_prefix_cons.mp hfront
    exact h ⟨rfl, (Int.add_zero depth).symm.trans hzero⟩

theorem unsplit_append_iff : Unsplit depth (front ++ rest) ↔
    Unsplit depth front ∧ Unsplit (depth + braceBalance front) rest := by
  constructor
  · refine fun h => ⟨fun part hpart => h part (hpart.trans (List.prefix_append front rest)),
      fun part hpart => ?_⟩
    have hwhole := h (front ++ part) (by
      rw [List.append_assoc]
      exact (List.prefix_append_right_inj front).mpr hpart)
    rwa [braceBalance_append, ← Int.add_assoc] at hwhole
  · rintro ⟨hfront, hrest⟩ part hpart
    -- a comma of the whole stands in the front or behind it
    obtain hinside | hbeyond := List.prefix_or_prefix_of_prefix hpart (List.prefix_append front rest)
    · exact hfront part hinside
    · obtain rfl | ⟨part, rfl⟩ := List.prefix_concat_iff.mp hbeyond
      · exact hfront part List.prefix_rfl
      · rw [List.append_assoc] at hpart
        rw [braceBalance_append, ← Int.add_assoc]
        exact hrest part ((List.prefix_append_right_inj front).mp hpart)

theorem unsplit_cons_iff {c : Char} : Unsplit depth (c :: cs) ↔
    ¬ (c = ',' ∧ depth = 0) ∧ Unsplit (depth + braceBalance [c]) cs := by
  rw [← unsplit_singleton_iff]
  exact (unsplit_append_iff : Unsplit depth ([c] ++ cs) ↔ _)

/-! ## From character to character -/

theorem commaPieces_comma (piece rest : List Char) :
    commaPieces 0 piece (',' :: rest) = piece.reverse :: commaPieces 0 [] rest :=
  if_pos ⟨rfl, rfl⟩

theorem commaPieces_cons {c : Char} (h : ¬ (c = ',' ∧ depth = 0)) (piece rest : List Char) :
    commaPieces depth piece (c :: rest) =
      commaPieces (depth + braceBalance [c]) (c :: piece) rest := by
  have hdepth : (if c = '\x7b' then depth + 1 else if c = '\x7d' then depth - 1 else depth) =
      depth + braceBalance [c] := by
    split_ifs with hopen hclose
    · rw [hopen, braceBalance_open]
    · rw [hclose, braceBalance_close]
      rfl
    · rw [braceBalance_of_not_mem (fun hmem => hopen (List.mem_singleton.mp hmem).symm)
        fun hmem => hclose (List.mem_singleton.mp hmem).symm, Int.add_zero]
  rw [commaPieces, if_neg h, hdepth]

/-- A text without a comma at depth zero goes as a whole into the piece that has been begun. -/
theorem Unsplit.commaPieces_append (h : Unsplit depth cs) (piece rest : List Char) :
    commaPieces depth piece (cs ++ rest) =
      commaPieces (depth + braceBalance cs) (cs.reverse ++ piece) rest := by
  induction cs generalizing depth piece with
  | nil => exact congrArg (commaPieces · piece rest) (Int.add_zero depth).symm
  | cons c cs ih =>
      obtain ⟨hc, hcs⟩ := unsplit_cons_iff.mp h
      rw [List.cons_append, commaPieces_cons hc, ih hcs, braceBalance_cons c cs, ← Int.add_assoc,
        List.reverse_cons, List.append_assoc, List.singleton_append]

theorem commaPieces_append_of_not_mem (hcomma : ',' ∉ cs) (hopen : '\x7b' ∉ cs)
    (hclose : '\x7d' ∉ cs) (depth : Int) (piece rest : List Char) :
    commaPieces depth piece (cs ++ rest) = commaPieces depth (cs.reverse ++ piece) rest := by
  rw [(unsplit_of_not_mem hcomma depth).commaPieces_append, braceBalance_of_not_mem hopen hclose,
    Int.add_zero]

/-! ## Where a text is cut -/

/-- The pieces of a text: it is cut at the commas at depth zero, and at no others. -/
inductive Cuts : List (List Char) → List Char → Prop
  | last {piece : List Char} (unsplit : Unsplit 0 piece) : Cuts [piece] piece
  | comma {piece rest : List Char} {pieces : List (List Char)} (unsplit : Unsplit 0 piece)
      (closed : braceBalance piece = 0) (more : Cuts pieces rest) :
      Cuts (piece :: pieces) (piece ++ ',' :: rest)

theorem cuts_begun {begun : List Char} (h : Unsplit 0 begun) (cs : List Char) :
    Cuts (commaPieces (braceBalance begun) begun.reverse cs) (begun ++ cs) := by
  -- the depth is the balance of the piece that has been begun, which holds no comma at depth zero
  induction cs generalizing begun with
  | nil =>
      rw [commaPieces, List.reverse_reverse, List.append_nil]
      exact .last h
  | cons c cs ih =>
      by_cases hcut : c = ',' ∧ braceBalance begun = 0
      · obtain ⟨rfl, hclosed⟩ := hcut
        rw [hclosed, commaPieces_comma, List.reverse_reverse]
        exact .comma h hclosed (ih (unsplit_of_not_mem List.not_mem_nil 0))
      · have hnext : Unsplit 0 (begun ++ [c]) :=
          unsplit_append_iff.mpr ⟨h, unsplit_singleton_iff.mpr (by rwa [Int.zero_add])⟩
        have hrest := ih hnext
        rwa [braceBalance_append, List.reverse_append, List.reverse_singleton,
          List.singleton_append, List.append_assoc, List.singleton_append,
          ← commaPieces_cons hcut] at hrest

/-- Behind the front of a text, splitting has the pieces of the front, of which the last one goes on,
and the depth is the balance of the front. -/
theorem Cuts.commaPieces_append (h : Cuts pieces front) : ∃ earlier begun,
    pieces = earlier ++ [begun] ∧ ∀ rest, commaPieces 0 [] (front ++ rest) =
      earlier ++ commaPieces (braceBalance front) begun.reverse rest := by
  induction h with
  | @last piece unsplit =>
      refine ⟨[], piece, rfl, fun rest => ?_⟩
      rw [unsplit.commaPieces_append, Int.zero_add, List.append_nil]
      rfl
  | @comma piece front pieces unsplit closed _ ih =>
      obtain ⟨earlier, begun, rfl, hrest⟩ := ih
      have hbalance : braceBalance (piece ++ ',' :: front) = braceBalance front := by
        rw [braceBalance_append, braceBalance_cons, closed, Int.zero_add,
          braceBalance_of_not_mem (by decide) (by decide), Int.zero_add]
      refine ⟨piece :: earlier, begun, rfl, fun rest => ?_⟩
      rw [hbalance, List.append_assoc, List.cons_append, unsplit.commaPieces_append, closed,
        Int.add_zero, commaPieces_comma, hrest, List.append_nil, List.reverse_reverse]
      rfl

/-- **Splitting cuts at the commas at depth zero, and at no others**, in every text. -/
theorem commaPieces_eq_iff : commaPieces 0 [] cs = pieces ↔ Cuts pieces cs := by
  constructor
  · rintro rfl
    exact cuts_begun (unsplit_of_not_mem List.not_mem_nil 0) cs
  · intro h
    obtain ⟨earlier, begun, rfl, hrest⟩ := h.commaPieces_append
    have hwhole := hrest []
    rwa [List.append_nil, commaPieces, List.reverse_reverse] at hwhole

theorem mem_splitTopLevel_iff {piece : List Char} :
    piece ∈ splitTopLevel cs ↔ piece ∈ commaPieces 0 [] cs ∧ allBlank piece = false := by
  rw [splitTopLevel, List.mem_filter, Bool.not_eq_true']

/-! ## Joining the pieces -/

theorem intercalate_append_cons (front piece : List Char) (pieces : List (List Char)) :
    [','].intercalate ((front ++ piece) :: pieces) =
      front ++ [','].intercalate (piece :: pieces) := by
  cases pieces with
  | nil => rw [List.intercalate_singleton, List.intercalate_singleton]
  | cons next pieces =>
      rw [List.intercalate_cons_cons, List.intercalate_cons_cons, List.append_assoc,
        List.append_assoc, List.append_assoc]

/-- The piece that has been begun goes on, and the other pieces are behind it. -/
theorem exists_commaPieces (depth : Int) (piece cs : List Char) : ∃ after later,
    commaPieces depth piece cs = (piece.reverse ++ after) :: later ∧
      [','].intercalate (after :: later) = cs := by
  induction cs generalizing depth piece with
  | nil => exact ⟨[], [], by rw [commaPieces, List.append_nil], List.intercalate_singleton⟩
  | cons c cs ih =>
      by_cases hcut : c = ',' ∧ depth = 0
      · obtain ⟨rfl, rfl⟩ := hcut
        obtain ⟨after, later, hpieces, hjoined⟩ := ih 0 []
        refine ⟨[], commaPieces 0 [] cs, by rw [commaPieces_comma, List.append_nil], ?_⟩
        rw [hpieces, List.intercalate_cons_cons]
        exact congrArg (',' :: ·) hjoined
      · obtain ⟨after, later, hpieces, hjoined⟩ := ih (depth + braceBalance [c]) (c :: piece)
        refine ⟨c :: after, later, ?_, ?_⟩
        · rw [commaPieces_cons hcut, hpieces, List.reverse_cons, List.append_assoc,
            List.singleton_append]
        · rw [← hjoined]
          exact intercalate_append_cons [c] after later

theorem intercalate_commaPieces (depth : Int) (piece cs : List Char) :
    [','].intercalate (commaPieces depth piece cs) = piece.reverse ++ cs := by
  obtain ⟨after, later, hpieces, hjoined⟩ := exists_commaPieces depth piece cs
  rw [hpieces, intercalate_append_cons, hjoined]

/-! ## Splitting what has been joined -/

/-- A text that stays whole between commas: it closes the braces that it opens, and none of its own
commas stands at depth zero. -/
structure Whole (cs : List Char) : Prop where
  closed : braceBalance cs = 0
  unsplit : Unsplit 0 cs

theorem Cuts.whole {piece next : List Char} (h : Cuts (piece :: next :: pieces) cs) :
    Whole piece := by
  cases h with
  | comma unsplit closed _ => exact ⟨closed, unsplit⟩

theorem cuts_intercalate (hne : pieces ≠ []) (h : ∀ piece ∈ pieces, Whole piece) :
    Cuts pieces ([','].intercalate pieces) := by
  induction pieces with
  | nil => exact absurd rfl hne
  | cons piece pieces ih =>
      obtain ⟨hpiece, hrest⟩ := List.forall_mem_cons.mp h
      cases pieces with
      | nil =>
          rw [List.intercalate_singleton]
          exact .last hpiece.unsplit
      | cons next pieces =>
          rw [List.intercalate_cons_cons, List.append_assoc]
          exact .comma hpiece.unsplit hpiece.closed (ih (List.cons_ne_nil next pieces) hrest)

/-- Whole texts joined by commas are split into those that are not blank. -/
theorem splitTopLevel_of_whole (h : ∀ piece ∈ pieces, Whole piece) :
    splitTopLevel ([','].intercalate pieces) = pieces.filter fun piece => !allBlank piece := by
  unfold splitTopLevel
  obtain rfl | hne := eq_or_ne pieces []
  · rfl
  · rw [commaPieces_eq_iff.mpr (cuts_intercalate hne h)]

theorem whole_of_blank (h : allBlank cs) : Whole cs where
  closed := braceBalance_of_not_mem (not_mem_of_blank (by decide) h)
    (not_mem_of_blank (by decide) h)
  unsplit := unsplit_of_not_mem (not_mem_of_blank (by decide) h) 0

/-- The parts are the texts, in their order, with blank parts put among them. -/
inductive WithBlanks : List (List Char) → List (List Char) → Prop
  | nil : WithBlanks [] []
  | text {text : List Char} {texts parts : List (List Char)} (more : WithBlanks texts parts) :
      WithBlanks (text :: texts) (text :: parts)
  | blank {part : List Char} {texts parts : List (List Char)} (blank : allBlank part)
      (more : WithBlanks texts parts) : WithBlanks texts (part :: parts)

theorem WithBlanks.whole {texts parts : List (List Char)} (h : WithBlanks texts parts)
    (hwhole : ∀ text ∈ texts, Whole text) : ∀ part ∈ parts, Whole part := by
  induction h with
  | nil => exact hwhole
  | text _ ih =>
      obtain ⟨htext, hrest⟩ := List.forall_mem_cons.mp hwhole
      exact List.forall_mem_cons.mpr ⟨htext, ih hrest⟩
  | blank hblank _ ih => exact List.forall_mem_cons.mpr ⟨whole_of_blank hblank, ih hwhole⟩

theorem WithBlanks.filter {texts parts : List (List Char)} (h : WithBlanks texts parts)
    (hvisible : ∀ text ∈ texts, allBlank text = false) :
    (parts.filter fun part => !allBlank part) = texts := by
  induction h with
  | nil => rfl
  | text _ ih =>
      obtain ⟨htext, hrest⟩ := List.forall_mem_cons.mp hvisible
      rw [List.filter_cons_of_pos (by rw [htext]; rfl), ih hrest]
  | blank hblank _ ih => rw [List.filter_cons_of_neg (by rw [hblank]; decide), ih hvisible]

/-! ## Groups -/

/-- The text in braces. -/
def braced (inner : List Char) : List Char := '\x7b' :: (inner ++ ['\x7d'])

/-- The stretch between `front` and `rest` lies in one piece of the text, and that piece is not left
out as blank. -/
def WithinPiece (front stretch rest : List Char) : Prop :=
  ∃ earlier before after later,
    commaPieces 0 [] (front ++ (stretch ++ rest)) =
        earlier ++ (before ++ (stretch ++ after)) :: later ∧
      [','].intercalate (earlier ++ [before]) = front ∧
      [','].intercalate (after :: later) = rest ∧
      before ++ (stretch ++ after) ∈ splitTopLevel (front ++ (stretch ++ rest))

theorem eq_close_of_neg {c : Char} (h : braceBalance [c] < 0) : c = '\x7d' := by
  by_contra hne
  rw [braceBalance,
    List.count_eq_zero_of_not_mem fun hmem => hne (List.mem_singleton.mp hmem).symm] at h
  omega

/-- Where a text takes the number of open braces below zero, a closing brace does so first, and none is
open in front of it. -/
theorem exists_close {opened : Int} (hopened : 0 ≤ opened) (h : opened + braceBalance cs < 0) :
    ∃ inner rest, cs = inner ++ '\x7d' :: rest ∧ opened + braceBalance inner = 0 ∧
      ∀ front, front <+: inner → 0 ≤ opened + braceBalance front := by
  induction cs generalizing opened with
  | nil =>
      rw [braceBalance_nil] at h
      omega
  | cons c cs ih =>
      rw [braceBalance_cons, ← Int.add_assoc] at h
      by_cases hnext : 0 ≤ opened + braceBalance [c]
      · obtain ⟨inner, rest, rfl, hzero, hinside⟩ := ih hnext h
        refine ⟨c :: inner, rest, rfl, ?_, fun front hfront => ?_⟩
        · rw [braceBalance_cons, ← Int.add_assoc, hzero]
        · obtain rfl | ⟨part, rfl, hpart⟩ := List.prefix_cons_iff.mp hfront
          · rwa [braceBalance_nil, Int.add_zero]
          · rw [braceBalance_cons, ← Int.add_assoc]
            exact hinside part hpart
      · -- no other character takes the count down
        obtain rfl : c = '\x7d' := eq_close_of_neg (by omega)
        rw [braceBalance_close] at hnext
        refine ⟨[], cs, rfl, by rw [braceBalance_nil]; omega, fun front hfront => ?_⟩
        rwa [List.prefix_nil.mp hfront, braceBalance_nil, Int.add_zero]

section

variable {inner more : List Char}

/-- Every opening brace of a balanced text opens a group. -/
theorem Balanced.exists_braced (h : Balanced (front ++ '\x7b' :: more)) :
    ∃ inner rest, '\x7b' :: more = braced inner ++ rest ∧ Balanced inner := by
  have hfront : 0 ≤ braceBalance front := h.opened front (List.prefix_append front _)
  have hmore : 0 + braceBalance more < 0 := by
    have hclosed := h.closed
    rw [braceBalance_append, braceBalance_cons, braceBalance_open] at hclosed
    omega
  obtain ⟨inner, rest, rfl, hzero, hinside⟩ := exists_close (Int.le_refl 0) hmore
  refine ⟨inner, rest, by simp [braced], fun part hpart => ?_, (Int.zero_add _).symm.trans hzero⟩
  exact (hinside part hpart).trans_eq (Int.zero_add _)

theorem Balanced.braceBalance_braced (h : Balanced inner) : braceBalance (braced inner) = 0 := by
  rw [braced, braceBalance_cons, braceBalance_append, h.closed]
  rfl

/-- The commas in a group stand below the top level. -/
theorem Balanced.unsplit_braced (h : Balanced inner) (hdepth : 0 ≤ depth) :
    Unsplit depth (braced inner) := by
  refine unsplit_cons_iff.mpr ⟨fun hc => absurd hc.1 (by decide), unsplit_append_iff.mpr
    ⟨fun part hpart => ?_, unsplit_of_not_mem (by decide) _⟩⟩
  have hopened := h.opened part ((List.prefix_append part [',']).trans hpart)
  rw [braceBalance_open]
  omega

theorem not_blank_of_braced (before after : List Char) :
    allBlank (before ++ (braced inner ++ after)) = false := by
  have hopen : isBlank '\x7b' = false := by decide
  simp [allBlank, braced, hopen]

/-- A group of a balanced text lies in one piece. -/
theorem Balanced.withinPiece (h : Balanced (front ++ (braced inner ++ rest)))
    (hinner : Balanced inner) : WithinPiece front (braced inner) rest := by
  have hdepth : 0 ≤ braceBalance front := h.opened front (List.prefix_append front _)
  have hfront := intercalate_commaPieces 0 [] front
  obtain ⟨earlier, before, hpieces, hbehind⟩ := (commaPieces_eq_iff.mp rfl).commaPieces_append
  obtain ⟨after, later, hlater, hrest⟩ := exists_commaPieces (braceBalance front)
    ((braced inner).reverse ++ before.reverse) rest
  -- the group goes into the piece that the front has begun, and the rest goes on behind it
  have hwhole : commaPieces 0 [] (front ++ (braced inner ++ rest)) =
      earlier ++ (before ++ (braced inner ++ after)) :: later := by
    rw [hbehind, (hinner.unsplit_braced hdepth).commaPieces_append, hinner.braceBalance_braced,
      Int.add_zero, hlater, List.reverse_append, List.reverse_reverse, List.reverse_reverse,
      List.append_assoc]
  rw [hpieces] at hfront
  refine ⟨earlier, before, after, later, hwhole, hfront, hrest, mem_splitTopLevel_iff.mpr ⟨?_, ?_⟩⟩
  · rw [hwhole]
    exact List.mem_append_right earlier List.mem_cons_self
  · exact not_blank_of_braced before after

/-- Behind a brace that closes nothing a group stands at depth zero, and its comma cuts it. -/
example : splitTopLevel "\x7d\x7ba,b\x7d".toList = ["\x7d\x7ba".toList, "b\x7d".toList] := by
  decide +kernel

end

/-! ## The law -/

/-- **Splitting undoes joining.** Texts that are balanced and have no comma outside braces come out of
a join as they went in, and blank parts among them are dropped. Of any text, the pieces are those
between its commas at depth zero; joined again they are the text, and only blank ones are left out.
In a balanced text each opening brace opens a group, and each group lies in one piece. -/
theorem splitTopLevel_join :
    (∀ {texts parts : List (List Char)}, WithBlanks texts parts →
      (∀ text ∈ texts, allBlank text = false ∧ Balanced text ∧ Unsplit 0 text) →
        splitTopLevel ([','].intercalate parts) = texts) ∧
      ∀ cs : List Char,
        [','].intercalate (commaPieces 0 [] cs) = cs ∧
          (∀ pieces, commaPieces 0 [] cs = pieces ↔ Cuts pieces cs) ∧
          (∀ piece, piece ∈ splitTopLevel cs ↔
            piece ∈ commaPieces 0 [] cs ∧ allBlank piece = false) ∧
          (Balanced cs →
            (∀ front more, cs = front ++ '\x7b' :: more → ∃ inner rest,
              '\x7b' :: more = braced inner ++ rest ∧ Balanced inner) ∧
            ∀ front inner rest, cs = front ++ (braced inner ++ rest) → Balanced inner →
              WithinPiece front (braced inner) rest) := by
  refine ⟨fun hparts htexts => ?_, fun cs => ⟨intercalate_commaPieces 0 [] cs,
    fun pieces => commaPieces_eq_iff, fun piece => mem_splitTopLevel_iff, fun hcs => ⟨?_, ?_⟩⟩⟩
  · have hwhole := hparts.whole fun text hmem =>
      ⟨(htexts text hmem).2.1.closed, (htexts text hmem).2.2⟩
    rw [splitTopLevel_of_whole hwhole, hparts.filter fun text hmem => (htexts text hmem).1]
  · rintro front more rfl
    exact hcs.exists_braced
  · rintro front inner rest rfl hinner
    exact hcs.withinPiece hinner

/-- Two members of a group, each with a group of its own. -/
def memberTexts : List (List Char) :=
  [" io::\x7bself, Read as _\x7d".toList, "fmt::\x7b\x7bWrite\x7d, *\x7d ".toList]

/-- The members with blank parts in front of them, between them and behind them. -/
def memberParts : List (List Char) :=
  [[], " io::\x7bself, Read as _\x7d".toList, "\n\t".toList, [],
    "fmt::\x7b\x7bWrite\x7d, *\x7d ".toList, [' ']]

theorem splitTopLevel_memberParts :
    WithBlanks memberTexts memberParts ∧
      (∀ text ∈ memberTexts, allBlank text = false ∧ Balanced text ∧ Unsplit 0 text) ∧
      splitTopLevel ([','].intercalate memberParts) = memberTexts ∧
      Balanced "a, fmt::\x7b\x7bWrite\x7d, *\x7d, b".toList ∧
      WithinPiece "a, fmt::".toList (braced "\x7bWrite\x7d, *".toList) ", b".toList := by
  have hparts : WithBlanks memberTexts memberParts :=
    .blank rfl (.text (.blank (by decide) (.blank rfl (.text (.blank (by decide) .nil)))))
  have htexts : ∀ text ∈ memberTexts, allBlank text = false ∧ Balanced text ∧ Unsplit 0 text := by
    decide +kernel
  have hbalanced : Balanced "a, fmt::\x7b\x7bWrite\x7d, *\x7d, b".toList := by decide +kernel
  exact ⟨hparts, htexts, splitTopLevel_join.1 hparts htexts, hbalanced,
    ((splitTopLevel_join.2 _).2.2.2 hbalanced).2 _ _ _ rfl (by decide +kernel)⟩

end RustScript.Source
