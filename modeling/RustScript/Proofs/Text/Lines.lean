import RustScript.Proofs.Source.Words
import RustScript.Text.Lines

/-!
# Lines and the text they make

No line has a character in it at which lines break, so the text of some lines gives its first line
and its last line back. A part of a text closes some lines and leaves one open (`brokenFrom`).
-/

set_option autoImplicit false

namespace RustScript.Text

open RustScript.Source

variable {cs line : List Char} {c : Char}

/-- What holds of every character of a given text is found by going through it. -/
theorem forall_mem_of_all {p : Char → Prop} [DecidablePred p]
    (h : (cs.all fun c => decide (p c)) = true) : ∀ c ∈ cs, p c := fun c hc =>
  of_decide_eq_true (List.all_eq_true.mp h c hc)

/-- A character that breaks lines is blank. -/
theorem not_isLineBreak_of_isBlank (h : isBlank c = false) : isLineBreak c = false := by
  rw [Bool.eq_false_iff] at h ⊢
  intro hbreak
  refine h ?_
  simp only [isLineBreak, isBlank, Bool.or_eq_true, Bool.and_eq_true, decide_eq_true_eq,
    beq_iff_eq] at hbreak ⊢
  omega

theorem not_break_of_mem_splitLinesFrom {begun : List Char} {isOpen : Bool}
    (h : line ∈ splitLinesFrom begun isOpen cs) (hbegun : ∀ c ∈ begun, isLineBreak c = false) :
    ∀ c ∈ line, isLineBreak c = false := by
  fun_induction splitLinesFrom begun isOpen cs with
  | case1 begun =>
      obtain rfl := List.mem_singleton.mp h
      exact fun c hc => hbegun c (List.mem_reverse.mp hc)
  | case2 => cases h
  | case3 begun isOpen rest ih | case4 begun isOpen c rest hreturn hc ih =>
      obtain rfl | hrest := List.mem_cons.mp h
      · exact fun c hc => hbegun c (List.mem_reverse.mp hc)
      · exact ih hrest nofun
  | case5 begun isOpen c rest hreturn hc ih =>
      exact ih h (List.forall_mem_cons.mpr ⟨Bool.eq_false_iff.mpr hc, hbegun⟩)

theorem not_break_of_mem_splitLines (h : line ∈ splitLines cs) :
    ∀ c ∈ line, isLineBreak c = false :=
  not_break_of_mem_splitLinesFrom h nofun

theorem feed_not_mem_of_mem_splitLines (h : line ∈ splitLines cs) : '\n' ∉ line :=
  fun hfeed => absurd (not_break_of_mem_splitLines h '\n' hfeed) (by decide)

theorem joinLines_cons_cons (line next : List Char) (rest : List (List Char)) :
    joinLines (line :: next :: rest) = line ++ '\n' :: joinLines (next :: rest) := rfl

/-- The first line ends where the text breaks first. -/
theorem takeWhile_joinLines (h : '\n' ∉ line) (more : List (List Char)) :
    (joinLines (line :: more)).takeWhile (· ≠ '\n') = line := by
  cases more with
  | nil => exact List.takeWhile_eq_self_iff.mpr fun c hc => decide_eq_true fun heq => h (heq ▸ hc)
  | cons next rest => rw [joinLines_cons_cons, takeWhile_mark h]

theorem feed_mem_joinLines_iff (h : '\n' ∉ line) {more : List (List Char)} :
    '\n' ∈ joinLines (line :: more) ↔ more ≠ [] := by
  cases more with
  | nil => exact iff_of_false h fun hne => hne rfl
  | cons next rest =>
      rw [joinLines_cons_cons]
      exact iff_of_true (List.mem_append_right _ List.mem_cons_self) (List.cons_ne_nil _ _)

/-- What stands at a place in the text: the lines above, each with its line feed, then the line up to
there. -/
theorem joinLines_split (above : List (List Char)) (start rest : List Char)
    (below : List (List Char)) :
    joinLines (above ++ (start ++ rest) :: below) =
      above.flatMap (· ++ ['\n']) ++ start ++ joinLines (rest :: below) := by
  induction above with
  | nil => cases below <;> simp [joinLines]
  | cons line above ih =>
      have hne : ∃ next more, above ++ (start ++ rest) :: below = next :: more := by
        cases above with
        | nil => exact ⟨_, _, rfl⟩
        | cons next more => exact ⟨_, _, rfl⟩
      obtain ⟨next, more, hnext⟩ := hne
      rw [List.cons_append, hnext, joinLines, ← hnext, ih, List.flatMap_cons]
      · simp
      · exact List.cons_ne_nil _ _

/-- The last line stands behind the others. -/
theorem joinLines_concat (above : List (List Char)) (last : List Char) :
    joinLines (above ++ [last]) = above.flatMap (· ++ ['\n']) ++ last := by
  have hsplit := joinLines_split above last [] []
  rwa [List.append_nil, joinLines, List.append_nil] at hsplit

theorem mem_joinLines {c : Char} {lines : List (List Char)} (h : c ∈ joinLines lines) :
    c = '\n' ∨ ∃ line ∈ lines, c ∈ line := by
  obtain rfl | ⟨above, last, rfl⟩ := List.eq_nil_or_concat lines
  · cases h
  rw [List.concat_eq_append] at h ⊢
  rw [joinLines_concat] at h
  obtain habove | hlast := List.mem_append.mp h
  · obtain ⟨line, hline, hc⟩ := List.mem_flatMap.mp habove
    obtain hc | hfeed := List.mem_append.mp hc
    · exact .inr ⟨line, List.mem_append_left _ hline, hc⟩
    · exact .inl (List.mem_singleton.mp hfeed)
  · exact .inr ⟨last, List.mem_append_right _ (List.mem_singleton_self last), hlast⟩

theorem count_feed_flatMap {lines : List (List Char)} (h : ∀ line ∈ lines, '\n' ∉ line) :
    (lines.flatMap (· ++ ['\n'])).count '\n' = lines.length := by
  induction lines with
  | nil => rfl
  | cons line lines ih =>
      obtain ⟨hline, hlines⟩ := List.forall_mem_cons.mp h
      rw [List.flatMap_cons, List.count_append, List.count_append, List.count_eq_zero_of_not_mem hline,
        ih hlines, List.length_cons, Nat.add_comm]
      rfl

/-- What holds no line feed stands on the last line, at the end of the text. -/
theorem exists_of_joinLines_concat {above : List (List Char)} {last front back : List Char}
    (hback : '\n' ∉ back) (h : joinLines (above ++ [last]) = front ++ back) :
    ∃ start, last = start ++ back ∧ front = above.flatMap (· ++ ['\n']) ++ start := by
  rw [joinLines_concat] at h
  obtain ⟨start, hfront, hlast⟩ | ⟨start, habove, hback'⟩ := List.append_eq_append_iff.mp h
  · exact ⟨start, hlast, hfront⟩
  · obtain rfl | ⟨others, line, rfl⟩ := List.eq_nil_or_concat above
    · obtain ⟨rfl, rfl⟩ := List.append_eq_nil_iff.mp habove.symm
      exact ⟨[], hback'.symm, rfl⟩
    · obtain rfl | ⟨begun, c, rfl⟩ := List.eq_nil_or_concat start
      · exact ⟨[], hback'.symm, by rw [habove, List.append_nil, List.append_nil]⟩
      · -- then the end of a line above would stand in `back`
        rw [List.concat_eq_append, List.flatMap_append, List.flatMap_singleton,
          ← List.append_assoc, List.concat_eq_append, ← List.append_assoc] at habove
        obtain ⟨-, hc⟩ := List.append_inj' habove rfl
        rw [hback', ← List.singleton_inj.mp hc] at hback
        exact absurd (by simp) hback

/-! ## Parts of a text -/

/-- The lines that a text closes and the line that it leaves open; `line`, last character first, has
been begun. -/
def brokenFrom (line : List Char) : List Char → List (List Char) × List Char
  | [] => ([], line.reverse)
  | '\r' :: '\n' :: rest => (line.reverse :: (brokenFrom [] rest).1, (brokenFrom [] rest).2)
  | c :: rest =>
      if isLineBreak c then (line.reverse :: (brokenFrom [] rest).1, (brokenFrom [] rest).2)
      else brokenFrom (c :: line) rest

section

variable {cs line rest : List Char} {c : Char}

theorem no_return_append {d : Char} (hc : isLineBreak c = false)
    (h : ∀ below, d = '\r' → cs = '\n' :: below → False) :
    ∀ below, d = '\r' → cs ++ c :: rest = '\n' :: below → False := by
  intro below hd hsplit
  cases cs with
  | nil =>
      rw [(List.cons.inj hsplit).1] at hc
      exact absurd hc (by decide)
  | cons e cs => exact h cs hd (by rw [(List.cons.inj hsplit).1])

theorem no_return_of_not_break (hc : isLineBreak c = false) :
    ∀ below, c = '\r' → rest = '\n' :: below → False := by
  rintro below rfl
  exact absurd hc (by decide)

theorem splitLinesFrom_cons (hc : isLineBreak c = false) (isOpen : Bool) :
    splitLinesFrom line isOpen (c :: rest) = splitLinesFrom (c :: line) true rest := by
  rw [splitLinesFrom, if_neg (by simp [hc])]
  exact no_return_of_not_break hc

/-- What is begun without a break is begun on one line. -/
theorem splitLinesFrom_of_not_break (h : ∀ c ∈ cs, isLineBreak c = false) (isOpen : Bool) :
    splitLinesFrom line isOpen (cs ++ rest) =
      splitLinesFrom (cs.reverse ++ line) (isOpen || !cs.isEmpty) rest := by
  induction cs generalizing line isOpen with
  | nil => rw [List.nil_append, List.reverse_nil, List.nil_append, List.isEmpty_nil, Bool.not_true,
      Bool.or_false]
  | cons c cs ih =>
      obtain ⟨hc, hcs⟩ := List.forall_mem_cons.mp h
      rw [List.cons_append, splitLinesFrom_cons hc, ih hcs, List.reverse_cons, List.append_assoc,
        List.isEmpty_cons, Bool.not_false, Bool.or_true, Bool.true_or]
      rfl

theorem brokenFrom_cons (hc : isLineBreak c = false) :
    brokenFrom line (c :: rest) = brokenFrom (c :: line) rest := by
  rw [brokenFrom, if_neg (by simp [hc])]
  exact no_return_of_not_break hc

theorem brokenFrom_of_not_break (h : ∀ c ∈ cs, isLineBreak c = false) :
    brokenFrom line cs = ([], line.reverse ++ cs) := by
  induction cs generalizing line with
  | nil => rw [brokenFrom, List.append_nil]
  | cons c cs ih =>
      obtain ⟨hc, hcs⟩ := List.forall_mem_cons.mp h
      rw [brokenFrom_cons hc, ih hcs, List.reverse_cons, List.append_assoc]
      rfl

/-- Behind a part of a text, the open line goes on. -/
theorem splitLinesFrom_append (hc : isLineBreak c = false) (isOpen : Bool) :
    splitLinesFrom line isOpen (cs ++ c :: rest) = (brokenFrom line cs).1 ++
      splitLinesFrom (c :: (brokenFrom line cs).2.reverse) true rest := by
  fun_induction brokenFrom line cs generalizing isOpen with
  | case1 line => rw [List.nil_append, splitLinesFrom_cons hc, List.reverse_reverse, List.nil_append]
  | case2 line cs ih =>
      show splitLinesFrom line isOpen ('\r' :: '\n' :: (cs ++ c :: rest)) = _
      rw [splitLinesFrom, ih, List.cons_append]
  | case3 line d cs hreturn hd ih =>
      rw [List.cons_append, splitLinesFrom, if_pos hd, ih, List.cons_append]
      exact no_return_append hc hreturn
  | case4 line d cs hreturn hd ih =>
      rw [List.cons_append, splitLinesFrom_cons (Bool.eq_false_iff.mpr hd), ih]

theorem brokenFrom_append (hc : isLineBreak c = false) :
    brokenFrom line (cs ++ c :: rest) =
      ((brokenFrom line cs).1 ++ (brokenFrom (brokenFrom line cs).2.reverse (c :: rest)).1,
        (brokenFrom (brokenFrom line cs).2.reverse (c :: rest)).2) := by
  fun_induction brokenFrom line cs with
  | case1 line => rw [List.nil_append, List.reverse_reverse, List.nil_append]
  | case2 line cs ih =>
      show brokenFrom line ('\r' :: '\n' :: (cs ++ c :: rest)) = _
      rw [brokenFrom, ih]
      rfl
  | case3 line d cs hreturn hd ih =>
      rw [List.cons_append, brokenFrom, if_pos hd, ih]
      · rfl
      · exact no_return_append hc hreturn
  | case4 line d cs hreturn hd ih =>
      rw [List.cons_append, brokenFrom_cons (Bool.eq_false_iff.mpr hd), ih]

theorem brokenFrom_concat (hc : isLineBreak c = false) :
    brokenFrom line (cs ++ [c]) = ((brokenFrom line cs).1, (brokenFrom line cs).2 ++ [c]) := by
  rw [brokenFrom_append hc, brokenFrom_cons hc, brokenFrom, List.append_nil, List.reverse_cons,
    List.reverse_reverse]

/-- An open line begins with what has been read of it. -/
theorem exists_splitLinesFrom {isOpen : Bool} (hopen : isOpen = true) :
    ∃ tail below, splitLinesFrom line isOpen cs = (line.reverse ++ tail) :: below := by
  fun_induction splitLinesFrom line isOpen cs with
  | case1 line => exact ⟨[], [], by rw [List.append_nil]⟩
  | case2 line isOpen hclosed => exact absurd hopen hclosed
  | case3 | case4 => exact ⟨[], _, by rw [List.append_nil]⟩
  | case5 line isOpen c cs _ _ ih =>
      obtain ⟨tail, below, hlines⟩ := ih rfl
      exact ⟨c :: tail, below, by rw [hlines, List.reverse_cons, List.append_assoc]; rfl⟩

/-- The first line of a text begins with what stands in front of its first break. -/
theorem exists_splitLines_append (hne : cs ≠ []) (h : ∀ c ∈ cs, isLineBreak c = false)
    (rest : List Char) : ∃ tail below, splitLines (cs ++ rest) = (cs ++ tail) :: below := by
  have hopen : ∃ tail below, splitLinesFrom cs.reverse true rest =
      (cs.reverse.reverse ++ tail) :: below := exists_splitLinesFrom rfl
  obtain ⟨tail, below, hlines⟩ := hopen
  refine ⟨tail, below, ?_⟩
  unfold splitLines
  rw [splitLinesFrom_of_not_break h, List.append_nil, List.isEmpty_eq_false_iff.mpr hne]
  rw [List.reverse_reverse] at hlines
  exact hlines

/-- If all breaks are line feeds, the text consists of its lines. -/
theorem flatMap_brokenFrom (h : ∀ c ∈ cs, isLineBreak c = true → c = '\n') :
    (brokenFrom line cs).1.flatMap (· ++ ['\n']) ++ (brokenFrom line cs).2 =
      line.reverse ++ cs := by
  fun_induction brokenFrom line cs with
  | case1 line => rw [List.flatMap_nil, List.nil_append, List.append_nil]
  | case2 line cs ih => exact absurd (h '\r' List.mem_cons_self (by decide)) (by decide)
  | case3 line c cs _ hc ih =>
      obtain rfl := h c List.mem_cons_self hc
      rw [List.flatMap_cons, List.append_assoc, List.append_assoc,
        ih fun d hd => h d (List.mem_cons_of_mem _ hd)]
      rfl
  | case4 line c cs _ hc ih =>
      rw [ih fun d hd => h d (List.mem_cons_of_mem _ hd), List.reverse_cons, List.append_assoc]
      rfl

/-! ## Line feeds -/

theorem no_return_feed {d : Char} (hlast : ¬ (d = '\r' ∧ cs = []))
    (h : ∀ below, d = '\r' → cs = '\n' :: below → False) :
    ∀ below, d = '\r' → cs ++ '\n' :: rest = '\n' :: below → False := by
  intro below hd hsplit
  cases cs with
  | nil => exact hlast ⟨hd, rfl⟩
  | cons e cs => exact h cs hd (by rw [(List.cons.inj hsplit).1])

/-- A line feed ends its line, also with a carriage return in front of it. -/
theorem splitLinesFrom_feed (isOpen : Bool) :
    splitLinesFrom line isOpen (cs ++ '\n' :: rest) =
      splitLinesFrom line isOpen (cs ++ ['\n']) ++ splitLines rest := by
  fun_induction splitLinesFrom line isOpen cs with
  | case1 line => rfl
  | case2 line isOpen _ => rfl
  | case3 line isOpen cs ih =>
      show _ :: splitLinesFrom [] false (cs ++ '\n' :: rest) = _
      rw [ih]
      rfl
  | case4 line isOpen c cs hreturn hc ih =>
      by_cases hlast : c = '\r' ∧ cs = []
      · obtain ⟨rfl, rfl⟩ := hlast
        rfl
      · rw [List.cons_append, List.cons_append, splitLinesFrom, if_pos hc, ih, splitLinesFrom,
          if_pos hc, List.cons_append]
        all_goals exact no_return_feed hlast hreturn
  | case5 line isOpen c cs hreturn hc ih =>
      have hkept : isLineBreak c = false := Bool.eq_false_iff.mpr hc
      rw [List.cons_append, List.cons_append, splitLinesFrom_cons hkept, ih,
        splitLinesFrom_cons hkept]

/-- Line ends in front of a line feed do not depend on what stands behind it. -/
theorem exists_normalizeLineEnds (cs : List Char) : ∃ front, ∀ rest,
    normalizeLineEnds (cs ++ '\n' :: rest) = front ++ '\n' :: normalizeLineEnds rest := by
  fun_induction normalizeLineEnds cs with
  | case1 => exact ⟨[], fun rest => rfl⟩
  | case2 cs ih =>
      obtain ⟨front, hfront⟩ := ih
      exact ⟨'\n' :: front, fun rest => congrArg ('\n' :: ·) (hfront rest)⟩
  | case3 c cs hreturn ih =>
      by_cases hlast : c = '\r' ∧ cs = []
      · obtain ⟨rfl, rfl⟩ := hlast
        exact ⟨[], fun rest => rfl⟩
      · obtain ⟨front, hfront⟩ := ih
        refine ⟨(if c = '\r' then '\n' else c) :: front, fun rest => ?_⟩
        rw [List.cons_append, normalizeLineEnds, hfront, List.cons_append]
        exact no_return_feed hlast hreturn

end

end RustScript.Text
