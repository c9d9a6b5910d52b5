import RustScript.Proofs.Snippet.Heads
import RustScript.Proofs.Snippet.Value

/-!
# A snippet that ends in a brace

By the tokens of a snippet of which the last one closes a brace, there is a value to print unless the
brace closes a loop or an item. Wrapping counts braces line by line to find the first line of the last
statement, and judges the statement by that line. Where the braces of literals are in balance, the
lines show where statements end, and a loop or an item is begun by its keyword, wrapping follows the
rule (`wrap_brace`).
-/

set_option autoImplicit false

namespace RustScript.Snippet

open RustScript.Source RustScript.Text RustScript.Rust

/-! ## Statements -/

/-- A statement without comments on lines of its own. Blank lines count as one. -/
structure Statement where
  lines : List Line
  elements : List Element
  lexed : cut (joinLines lines) = some elements
  bare : ∀ e ∈ elements, e.isComment = false
  /-- As many braces are closed as opened. -/
  closed : (tokensOf elements).countP (·.isPunctuation '\x7b') =
    (tokensOf elements).countP (·.isPunctuation '\x7d')
  ends : ∀ t ∈ (tokensOf elements).getLast?, t.isPunctuation ';' = true ∨
    t.isPunctuation '\x7d' = true

/-- The tokens of a statement. -/
def Statement.tokens (s : Statement) : List Token := tokensOf s.elements

/-- The lines on which anything stands. -/
def visible (lines : List Line) : List Line := lines.filter fun line => !allBlank line

/-- How many more braces the code of a line opens than it closes, as far as wrapping sees it. -/
def seenBalance (line : Line) : Int := ((code? line).map braceBalance).getD 0

/-- The lines of a statement show its braces and its end. -/
structure Statement.Legible (s : Statement) : Prop where
  literals : ∀ t ∈ s.tokens, t.kind ≠ .punctuation → braceBalance t.text.toList = 0
  seen : ∀ line ∈ s.lines, seenBalance line = braceBalance line
  last : ∀ line ∈ (visible s.lines).getLast?, code? line = some (strip line)

/-- If a line of code seems to end the statement before its end, the next one begins like a loop or an
item exactly if the statement is one. `depth` counts the braces that are open. -/
def Seamless (block : Bool) : Int → List Line → Prop
  | depth, code :: next :: more =>
      (depth + braceBalance code ≤ 0 → endsStatement code = true → isBlockHead next = block) ∧
        Seamless block (depth + braceBalance code) (next :: more)
  | _, _ => True

instance decidableSeamless (block : Bool) :
    (depth : Int) → (codes : List Line) → Decidable (Seamless block depth codes)
  | _, [] => .isTrue trivial
  | _, [_] => .isTrue trivial
  | depth, code :: next :: more =>
      have := decidableSeamless block (depth + braceBalance code) (next :: more)
      inferInstanceAs (Decidable
        ((depth + braceBalance code ≤ 0 → endsStatement code = true → isBlockHead next = block) ∧
          Seamless block (depth + braceBalance code) (next :: more)))

/-- The first line of a statement shows whether it is a loop or an item. -/
structure Statement.Told (s : Statement) (head : Line) (more : List Line) : Prop where
  lines : s.lines = head :: more
  first : code? head = some (strip head)
  ordinary : ∀ c ∈ head, Ordinary c
  /-- A loop or an item has its keyword on the line, with nothing in front but a label, or a
  visibility and `unsafe`. -/
  block : isBlock s.tokens = true → Opens (strip head)
  /-- Any other statement does not begin like a declaration, nor with a variable `union`. -/
  value : isBlock s.tokens = false → nextWordIn s.tokens ["pub"] = false ∧
    nextWordIn (s.tokens.dropWhile isQualifier) ["union"] = false
  seamless : Seamless (isBlock s.tokens) 0 (codeLines s.lines)

/-! ## From one line to the next -/

/-- What wrapping remembers between two lines of code. -/
structure Progress where
  /-- The first line of the present statement. -/
  head : Line
  /-- The number of open braces. -/
  depth : Int
  /-- A statement has just ended. -/
  boundary : Bool

/-- What wrapping remembers behind a line of code. -/
def Progress.next (p : Progress) (code : Line) : Progress where
  head := if p.depth ≤ 0 && p.boundary then code else p.head
  depth := p.depth + braceBalance code
  boundary := decide (p.depth + braceBalance code ≤ 0) && endsStatement code

theorem lastHeadFrom_eq (p : Progress) (codes : List Line) :
    lastHeadFrom p.head p.depth p.boundary codes = (codes.foldl Progress.next p).head := by
  induction codes generalizing p with
  | nil => rfl
  | cons code codes ih => exact ih (p.next code)

/-- How many more braces lines open than they close. -/
def balanceOf : List Line → Int
  | [] => 0
  | line :: lines => braceBalance line + balanceOf lines

theorem depth_foldl (codes : List Line) (p : Progress) :
    (codes.foldl Progress.next p).depth = p.depth + balanceOf codes := by
  induction codes generalizing p with
  | nil => exact (Int.add_zero p.depth).symm
  | cons code codes ih =>
      rw [List.foldl_cons, ih, balanceOf]
      exact Int.add_assoc p.depth (braceBalance code) (balanceOf codes)

/-- A new statement begins on the next line. -/
def Progress.AtBoundary (p : Progress) : Prop := p.depth = 0 ∧ p.boundary = true

/-- Behind lines of code that open no more braces than they close, and of which the last one ends a
statement, a new statement begins. -/
theorem Progress.AtBoundary.foldl {p : Progress} {codes : List Line} (h : p.AtBoundary)
    (hbalance : balanceOf codes = 0)
    (hends : ∀ code ∈ codes.getLast?, endsStatement code = true) :
    (codes.foldl Progress.next p).AtBoundary := by
  have hdepth : (codes.foldl Progress.next p).depth = 0 := by
    rw [depth_foldl, hbalance, h.1]
    rfl
  refine ⟨hdepth, ?_⟩
  obtain rfl | ⟨front, code, rfl⟩ := List.eq_nil_or_concat codes
  · exact h.2
  · rw [List.concat_eq_append] at hdepth hends ⊢
    rw [List.foldl_append] at hdepth ⊢
    have hcode := hends code (by rw [List.getLast?_concat]; rfl)
    exact Bool.and_eq_true_iff.mpr ⟨decide_eq_true (Int.le_of_eq hdepth), hcode⟩

/-- In the middle of a statement the head stays, or one like it takes its place. -/
theorem isBlockHead_foldl {block : Bool} {p : Progress} {code : Line} {more : List Line}
    (hhead : isBlockHead (p.next code).head = block) (h : Seamless block p.depth (code :: more)) :
    isBlockHead (more.foldl Progress.next (p.next code)).head = block := by
  induction more generalizing p code with
  | nil => exact hhead
  | cons next more ih =>
      obtain ⟨hnext, hrest⟩ := h
      refine ih (p := p.next code) ?_ hrest
      show isBlockHead (if (p.next code).depth ≤ 0 && (p.next code).boundary then next
        else (p.next code).head) = block
      split_ifs with hboundary
      · obtain ⟨hdepth, hends⟩ := Bool.and_eq_true_iff.mp hboundary
        exact hnext (of_decide_eq_true hdepth) (Bool.and_eq_true_iff.mp hends).2
      · exact hhead

/-! ## The braces of a statement -/

theorem braceBalance_joinLines (lines : List Line) :
    braceBalance (joinLines lines) = balanceOf lines := by
  induction lines with
  | nil => rfl
  | cons line lines ih =>
      rw [balanceOf]
      cases lines with
      | nil => exact (Int.add_zero _).symm
      | cons next lines =>
          have hfeed : braceBalance ['\n'] = 0 := by decide
          rw [joinLines_cons_cons, braceBalance_append, braceBalance_cons, ih, hfeed, Int.zero_add]

/-- Wrapping sees all the braces if it sees those of each line. -/
theorem balanceOf_codeLines {lines : List Line}
    (h : ∀ line ∈ lines, seenBalance line = braceBalance line) :
    balanceOf (codeLines lines) = balanceOf lines := by
  induction lines with
  | nil => rfl
  | cons line lines ih =>
      obtain ⟨hline, hlines⟩ := List.forall_mem_cons.mp h
      unfold seenBalance at hline
      unfold codeLines at ih ⊢
      rw [balanceOf, ← hline, ← ih hlines]
      cases hcode : code? line with
      | none =>
          rw [List.filterMap_cons_none hcode, Option.map_none, Option.getD_none, Int.zero_add]
      | some code =>
          rw [List.filterMap_cons_some hcode, balanceOf, Option.map_some, Option.getD_some]

/-- The braces that a token opens or closes. -/
theorem braceBalance_token {t : Token} (hcloses : t.Closes)
    (hliteral : t.kind ≠ .punctuation → braceBalance t.text.toList = 0) :
    braceBalance t.text.toList = (if t.isPunctuation '\x7b' then 1 else 0) -
      if t.isPunctuation '\x7d' then 1 else 0 := by
  unfold Token.isPunctuation
  by_cases hkind : t.kind = .punctuation
  · obtain ⟨c, hc⟩ := hcloses.punctuation hkind
    have htext : t.text = String.singleton c := by
      rw [← String.ofList_toList (s := t.text), hc]
      rfl
    have hsame : ∀ d : Char, (String.singleton c = String.singleton d) ↔ c = d := fun d =>
      ⟨fun h => by simpa using congrArg String.toList h, congrArg String.singleton⟩
    rw [hc, hkind, htext]
    unfold braceBalance
    simp only [hsame, List.count_singleton, decide_true, Bool.true_and, beq_iff_eq,
      decide_eq_true_eq]
    split_ifs <;> rfl
  · rw [hliteral hkind, decide_eq_false hkind]
    rfl

/-- The braces of a text without comments are those of its tokens. -/
theorem braceBalance_textOf {es : List Element} (hfit : Fit es)
    (hbare : ∀ e ∈ es, e.isComment = false)
    (hliterals : ∀ t ∈ tokensOf es, t.kind ≠ .punctuation → braceBalance t.text.toList = 0) :
    braceBalance (textOf es) = (tokensOf es).countP (·.isPunctuation '\x7b') -
      (tokensOf es).countP (·.isPunctuation '\x7d') := by
  induction es with
  | nil => rfl
  | cons e es ih =>
      obtain ⟨hfits, hfit⟩ := hfit
      obtain ⟨hcomment, hmore⟩ := List.forall_mem_cons.mp hbare
      rw [textOf_cons, braceBalance_append]
      cases e with
      | space c =>
          have hspace : braceBalance [c] = 0 := by
            have hc : isSpace c = true := hfits
            unfold isSpace at hc
            simp only [Bool.or_eq_true, decide_eq_true_eq] at hc
            obtain ((((rfl | rfl) | rfl) | rfl) | rfl) | rfl := hc <;> decide
          show braceBalance [c] + _ = _
          rw [hspace, Int.zero_add, ih hfit hmore hliterals]
          rfl
      | token t =>
          obtain ⟨hliteral, hliterals⟩ := List.forall_mem_cons.mp
            (show ∀ u ∈ t :: tokensOf es, _ from hliterals)
          have htokens : tokensOf (.token t :: es) = t :: tokensOf es := rfl
          show braceBalance t.text.toList + _ = _
          rw [ih hfit hmore hliterals, braceBalance_token hfits hliteral, htokens, List.countP_cons,
            List.countP_cons]
          push_cast
          split_ifs <;> omega
      | _ => cases hcomment

theorem Statement.Legible.balance {s : Statement} (h : s.Legible) :
    balanceOf (codeLines s.lines) = 0 := by
  have htext := braceBalance_textOf (fit_of_cut s.lexed) s.bare h.literals
  rw [text_of_cut s.lexed, s.closed, Int.sub_self] at htext
  rw [balanceOf_codeLines h.seen, ← braceBalance_joinLines, htext]

/-! ## The end of a statement -/

/-- The last character that is not blank. -/
theorem exists_of_not_allBlank {line : Line} (h : allBlank line = false) :
    ∃ front d back, line = front ++ [d] ++ back ∧ isBlank d = false ∧ allBlank back = true := by
  induction line using List.reverseRecOn with
  | nil => cases h
  | append_singleton cs c ih =>
      cases hc : isBlank c with
      | false => exact ⟨cs, c, [], (List.append_nil _).symm, hc, rfl⟩
      | true =>
          have hcs : allBlank cs = false := by
            refine Bool.eq_false_iff.mpr fun hall => Bool.false_ne_true (h.symm.trans ?_)
            exact allBlank_append.mpr ⟨hall, allBlank_cons.mpr ⟨hc, rfl⟩⟩
          obtain ⟨front, d, back, rfl, hd, hback⟩ := ih hcs
          refine ⟨front, d, back ++ [c], List.append_assoc _ _ _, hd, ?_⟩
          exact allBlank_append.mpr ⟨hback, allBlank_cons.mpr ⟨hc, rfl⟩⟩

/-- The last characters of two texts that differ in blanks at the end only. -/
theorem last_unique {front front' back back' : List Char} {c d : Char}
    (h : front ++ [c] ++ back = front' ++ [d] ++ back') (hc : isBlank c = false)
    (hd : isBlank d = false) (hback : allBlank back = true) (hback' : allBlank back' = true) :
    c = d := by
  have hstrip := congrArg stripRight h
  rw [stripRight_append front hc, stripRight_append front' hd, stripRight_of_allBlank hback,
    stripRight_of_allBlank hback', List.append_nil, List.append_nil] at hstrip
  exact List.singleton_injective (List.append_inj' hstrip rfl).2

theorem getLast?_strip {front back : Line} {d : Char} (hd : isBlank d = false)
    (hback : allBlank back = true) : (strip (front ++ [d] ++ back)).getLast? = some d := by
  have hfilled : ¬ allBlank (front ++ [d]) = true := by
    intro hall
    rw [isBlank_of_mem hall (List.mem_append_right _ (List.mem_singleton_self d))] at hd
    cases hd
  obtain ⟨blanks, -, hsplit⟩ := exists_blanks_append (front ++ [d])
  unfold strip
  rw [stripLeft_append_of_not_allBlank _ hfilled]
  obtain hnil | ⟨code, last, hleft⟩ := List.eq_nil_or_concat (stripLeft (front ++ [d]))
  · exact absurd (stripLeft_eq_nil_iff.mp hnil) hfilled
  · rw [List.concat_eq_append] at hleft
    rw [hleft, ← List.append_assoc] at hsplit
    obtain ⟨-, hlast⟩ := List.append_inj' hsplit rfl
    rw [hleft, ← List.singleton_injective hlast, stripRight_append _ hd,
      stripRight_of_allBlank hback, List.append_nil, List.getLast?_concat]

theorem code?_of_allBlank {line : Line} (h : allBlank line = true) : code? line = none := by
  refine code?_of_remark ?_
  unfold isRemark
  rw [h, Bool.true_or]

/-- The last visible line stands above blank ones. -/
theorem exists_of_visible {lines : List Line} {line : Line}
    (h : (visible lines).getLast? = some line) :
    ∃ above below, lines = above ++ line :: below ∧ allBlank line = false ∧
      ∀ other ∈ below, allBlank other = true := by
  obtain ⟨front, hfront⟩ := List.getLast?_eq_some_iff.mp h
  obtain ⟨above, rest, rfl, -, hrest⟩ := List.filter_eq_append_iff.mp hfront
  obtain ⟨blanks, below, rfl, -, hline, hbelow⟩ := List.filter_eq_cons_iff.mp hrest
  refine ⟨above ++ blanks, below, (List.append_assoc _ _ _).symm, ?_, fun other hother => ?_⟩
  · simpa using hline
  · have hblank := List.filter_eq_nil_iff.mp hbelow other hother
    simpa using hblank

theorem allBlank_joinLines {lines : List Line} (h : ∀ line ∈ lines, allBlank line = true) :
    allBlank (joinLines lines) = true := by
  refine List.all_eq_true.mpr fun c hc => ?_
  obtain rfl | ⟨line, hline, hmem⟩ := mem_joinLines hc
  · decide
  · exact isBlank_of_mem (h line hline) hmem

/-- The last token of elements without comments stands in front of blanks. -/
theorem exists_of_last_token {es : List Element} (hfit : Fit es)
    (hbare : ∀ e ∈ es, e.isComment = false) {t : Token} (h : (tokensOf es).getLast? = some t) :
    ∃ front back, textOf es = front ++ t.text.toList ++ back ∧ allBlank back = true := by
  obtain ⟨others, hothers⟩ := List.getLast?_eq_some_iff.mp h
  obtain ⟨above, rest, rfl, -, hrest⟩ := List.filterMap_eq_append_iff.mp hothers
  obtain ⟨spaces, e, below, rfl, -, he, hbelow⟩ := List.filterMap_eq_cons_iff.mp hrest
  have htext : e.text = t.text.toList := by
    cases e with
    | token u => rw [← Option.some.inj he]; rfl
    | _ => cases he
  refine ⟨textOf above ++ textOf spaces, textOf below, ?_, ?_⟩
  · rw [textOf_append, textOf_append, textOf_cons, htext]
    simp only [List.append_assoc]
  · rw [← List.append_assoc] at hfit hbare
    refine allBlank_textOf hfit.behind.2 (fun other hother => hbare other ?_) hbelow
    exact List.mem_append_right _ (List.mem_cons_of_mem _ hother)

/-- The last line of code ends with the last token. -/
theorem Statement.Legible.exists_last_code {s : Statement} (h : s.Legible) {t : Token} {c : Char}
    (ht : s.tokens.getLast? = some t) (hc : t.isPunctuation c = true) (hblank : isBlank c = false) :
    ∃ code, (codeLines s.lines).getLast? = some code ∧ code.getLast? = some c := by
  obtain ⟨front, back, htext, hback⟩ := exists_of_last_token (fit_of_cut s.lexed) s.bare ht
  have hchar : t.text.toList = [c] := by
    obtain ⟨-, htext⟩ := Bool.and_eq_true_iff.mp hc
    rw [of_decide_eq_true htext]
    simp
  rw [text_of_cut s.lexed, hchar] at htext
  -- there is a line that is not blank
  obtain ⟨line, hline⟩ : ∃ line, (visible s.lines).getLast? = some line := by
    cases hlast : (visible s.lines).getLast? with
    | some line => exact ⟨line, rfl⟩
    | none =>
        have hnone := List.filter_eq_nil_iff.mp (List.getLast?_eq_none_iff.mp hlast)
        have hall := allBlank_joinLines fun line hline => by simpa using hnone line hline
        rw [htext] at hall
        have hmem : c ∈ front ++ [c] ++ back := by simp
        rw [isBlank_of_mem hall hmem] at hblank
        cases hblank
  have hcode := h.last line hline
  obtain ⟨above, below, hsplit, hfilled, hbelow⟩ := exists_of_visible hline
  obtain ⟨front', d, back', rfl, hd, hback'⟩ := exists_of_not_allBlank hfilled
  have hlast : (strip (front' ++ [d] ++ back')).getLast? = some d := getLast?_strip hd hback'
  refine ⟨strip (front' ++ [d] ++ back'), ?_, ?_⟩
  · have hnone : codeLines below = [] :=
      List.filterMap_eq_nil_iff.mpr fun other hother => code?_of_allBlank (hbelow other hother)
    unfold codeLines at hnone ⊢
    rw [hsplit, List.filterMap_append, List.filterMap_cons_some hcode, hnone, List.getLast?_concat]
  · have hjoin := joinLines_split above (front' ++ [d] ++ back') [] below
    have hafter : allBlank (joinLines ([] :: below)) = true :=
      allBlank_joinLines (List.forall_mem_cons.mpr ⟨rfl, hbelow⟩)
    rw [List.append_nil, ← hsplit, htext] at hjoin
    have hboth : front ++ [c] ++ back = above.flatMap (· ++ ['\n']) ++ front' ++ [d] ++
        (back' ++ joinLines ([] :: below)) := by
      rw [hjoin]
      simp only [List.append_assoc]
    have hsame : c = d := last_unique hboth hblank hd hback (allBlank_append.mpr ⟨hback', hafter⟩)
    rw [hlast, hsame]

theorem codeLines_of_no_token {s : Statement} (h : s.tokens = []) : codeLines s.lines = [] := by
  have hblank := allBlank_textOf (fit_of_cut s.lexed) s.bare h
  rw [text_of_cut s.lexed] at hblank
  refine List.filterMap_eq_nil_iff.mpr fun line hline => code?_of_allBlank ?_
  obtain ⟨above, below, hsplit⟩ := List.append_of_mem hline
  have hjoin := joinLines_split above line [] below
  rw [List.append_nil, ← hsplit] at hjoin
  rw [hjoin] at hblank
  exact (allBlank_append.mp (allBlank_append.mp hblank).1).2

/-- Behind a statement a new one begins. -/
theorem Statement.Legible.atBoundary {s : Statement} (h : s.Legible) {p : Progress}
    (hp : p.AtBoundary) : ((codeLines s.lines).foldl Progress.next p).AtBoundary := by
  refine hp.foldl h.balance fun code hcode => ?_
  cases htokens : s.tokens.getLast? with
  | none =>
      rw [codeLines_of_no_token (List.getLast?_eq_none_iff.mp htokens)] at hcode
      cases hcode
  | some t =>
      have hends : ∀ c, isBlank c = false → t.isPunctuation c = true →
          code.getLast? = some c := by
        intro c hblank hc
        obtain ⟨code', hcode', hlast⟩ := h.exists_last_code htokens hc hblank
        rw [← Option.some.inj (hcode'.symm.trans hcode), hlast]
      unfold endsStatement
      obtain hsemicolon | hbrace := s.ends t htokens
      · rw [hends ';' (by decide) hsemicolon]
        rfl
      · rw [hends '\x7d' (by decide) hbrace]
        rfl

/-- **Behind any number of statements a new one begins.** -/
theorem atBoundary_statements {statements : List Statement} (h : ∀ s ∈ statements, s.Legible)
    {p : Progress} (hp : p.AtBoundary) :
    ((codeLines (statements.flatMap Statement.lines)).foldl Progress.next p).AtBoundary := by
  induction statements generalizing p with
  | nil => exact hp
  | cons s statements ih =>
      obtain ⟨hs, hmore⟩ := List.forall_mem_cons.mp h
      unfold codeLines at ih ⊢
      rw [List.flatMap_cons, List.filterMap_append, List.foldl_append]
      exact ih hmore (hs.atBoundary hp)

/-! ## The first line of a statement -/

theorem exists_strip_append (line : Line) : ∃ lead trail, allBlank lead = true ∧
    allBlank trail = true ∧ line = lead ++ (strip line ++ trail) := by
  obtain ⟨lead, hlead, hsplit⟩ := exists_blanks_append line
  cases hblank : allBlank (stripLeft line) with
  | true =>
      refine ⟨line, [], ?_, rfl, ?_⟩
      · rw [hsplit]
        exact allBlank_append.mpr ⟨hlead, hblank⟩
      · unfold strip
        rw [stripRight_of_allBlank hblank, List.append_nil, List.append_nil]
  | false =>
      obtain ⟨front, d, back, hleft, hd, hback⟩ := exists_of_not_allBlank hblank
      refine ⟨lead, back, hlead, hback, ?_⟩
      unfold strip
      rw [hleft, stripRight_append front hd, stripRight_of_allBlank hback, List.append_nil, ← hleft]
      exact hsplit

/-- The first line tells a loop or an item from any other statement. -/
theorem Statement.Told.isBlockHead_eq {s : Statement} {head : Line} {more : List Line}
    (h : s.Told head more) : isBlockHead (strip head) = isBlock s.tokens := by
  cases hblock : isBlock s.tokens with
  | true => exact isBlockHead_iff.mpr (h.block hblock)
  | false =>
      refine Bool.eq_false_iff.mpr fun hhead => ?_
      obtain ⟨hpub, hunion⟩ := h.value hblock
      obtain ⟨lead, trail, hlead, htrail, hsplit⟩ := exists_strip_append head
      obtain ⟨tail, htail, hjoin⟩ : ∃ tail, EndsLine tail ∧
          joinLines s.lines = lead ++ (strip head ++ (trail ++ tail)) := by
        cases more with
        | nil =>
            refine ⟨[], trivial, ?_⟩
            rw [h.lines, List.append_nil, ← hsplit]
            rfl
        | cons next more =>
            refine ⟨'\n' :: joinLines (next :: more), (by decide : isBlank '\n' = true), ?_⟩
            rw [h.lines, joinLines_cons_cons, ← List.append_assoc (strip head), ← List.append_assoc,
              ← hsplit]
      have hends : EndsLine (trail ++ tail) := by
        cases trail with
        | nil => exact htail
        | cons c trail => exact (allBlank_cons.mp htrail).1
      have hordinary : ∀ c ∈ lead ++ (strip head ++ trail), Ordinary c := hsplit ▸ h.ordinary
      have hcut := cutsTo_of_cut s.lexed
      rw [hjoin] at hcut
      obtain ⟨es, htokens, hcut⟩ := hcut.gap (isSpace_of_ordinary hlead fun c hc =>
        hordinary c (List.mem_append_left _ hc))
      unfold Statement.tokens at hpub hunion hblock
      rw [htokens] at hpub hunion hblock
      have hkeyword := isBlock_of_opens (isBlockHead_iff.mp hhead) hcut
        (fun c hc => hordinary c (List.mem_append_right _ (List.mem_append_left _ hc))) hends
        hpub hunion
      rw [hblock] at hkeyword
      cases hkeyword

/-! ## The law -/

/-- Whether the end of the lines is a statement depends on the first line of the last one. -/
theorem endsInStatement_of_brace {lines : List Line} {first code : Line} {codes : List Line}
    (hcodes : codeLines lines = first :: codes) (hcode : (codeLines lines).getLast? = some code)
    (hbrace : code.getLast? = some '\x7d') :
    endsInStatement lines =
      isBlockHead ((codeLines lines).foldl Progress.next ⟨first, 0, true⟩).head := by
  have hhead : lastHead? (codeLines lines) =
      some ((codeLines lines).foldl Progress.next ⟨first, 0, true⟩).head := by
    rw [hcodes]
    exact congrArg some (lastHeadFrom_eq ⟨first, 0, true⟩ (first :: codes))
  unfold endsInStatement
  dsimp only
  rw [hcode, hhead]
  dsimp only
  rw [hbrace]
  rfl

/-- **The rule for braces.** If the last token of the last statement closes a brace, the program is the
plain one exactly if that statement is a loop or an item. -/
theorem wrap_brace {body : String} {statements : List Statement} {last : Statement} {head : Line}
    {more : List Line} {t : Token}
    (hlines : (wrapParts body).2 = statements.flatMap Statement.lines ++ last.lines)
    (hstatements : ∀ s ∈ statements, s.Legible) (hlast : last.Legible) (htold : last.Told head more)
    (ht : last.tokens.getLast? = some t) (hbrace : t.isPunctuation '\x7d' = true) :
    (wrap body = program false (wrapParts body).1 (wrapParts body).2 ↔
        isBlock last.tokens = true) ∧
      (wrap body = program true (wrapParts body).1 (wrapParts body).2 ↔
        isBlock last.tokens = false) := by
  obtain ⟨code, hcode, hends⟩ := hlast.exists_last_code ht hbrace (by decide)
  have hfirst : codeLines last.lines = strip head :: codeLines more := by
    rw [htold.lines]
    exact List.filterMap_cons_some htold.first
  have hcodes : codeLines (wrapParts body).2 =
      codeLines (statements.flatMap Statement.lines) ++ strip head :: codeLines more := by
    rw [hlines, ← hfirst]
    exact List.filterMap_append
  have hlastCode : (codeLines (wrapParts body).2).getLast? = some code := by
    rw [hcodes, ← hfirst, List.getLast?_append, hcode]
    rfl
  obtain ⟨first, codes, hbegin⟩ : ∃ first codes, codeLines (wrapParts body).2 = first :: codes := by
    rw [hcodes]
    exact List.exists_cons_of_ne_nil (by simp)
  -- the head of the last statement takes the place of what was remembered before it
  have hblock : endsInStatement (wrapParts body).2 = isBlock last.tokens := by
    rw [endsInStatement_of_brace hbegin hlastCode hends, hcodes, List.foldl_append, List.foldl_cons]
    have hboundary := atBoundary_statements hstatements (p := ⟨first, 0, true⟩) ⟨rfl, rfl⟩
    generalize (codeLines (statements.flatMap Statement.lines)).foldl Progress.next
      ⟨first, 0, true⟩ = p at hboundary
    obtain ⟨hdepth, hstart⟩ := hboundary
    refine isBlockHead_foldl (p := p) ?_ ?_
    · show isBlockHead (if p.depth ≤ 0 && p.boundary then strip head else p.head) = _
      rw [hdepth, hstart, if_pos (by decide)]
      exact htold.isBlockHead_eq
    · rw [hdepth, ← hfirst]
      exact htold.seamless
  rw [wrap_eq_program_iff, wrap_eq_program_iff, hblock]
  exact ⟨Iff.rfl, Iff.rfl⟩

/-- A snippet with braces in a literal, and a loop with a label. -/
def countSnippet : String :=
  "let text = \"\x7b\x7d\";\n\n'count: while n < 3 \x7b\n    n += 1;\n\x7d\n"

/-- The first statement and the empty line behind it. -/
def textStatement : Statement where
  lines := ["let text = \"\x7b\x7d\";".toList, []]
  elements := (cut (joinLines ["let text = \"\x7b\x7d\";".toList, []])).getD []
  lexed := by decide +kernel
  bare := by decide +kernel
  closed := by decide +kernel
  ends := by decide +kernel

/-- The lines of the loop. -/
def countLines : List Line :=
  ["'count: while n < 3 \x7b".toList, "    n += 1;".toList, "\x7d".toList]

/-- The loop. -/
def countStatement : Statement where
  lines := countLines
  elements := (cut (joinLines countLines)).getD []
  lexed := by decide +kernel
  bare := by decide +kernel
  closed := by decide +kernel
  ends := by decide +kernel

theorem told_countStatement :
    countStatement.Told "'count: while n < 3 \x7b".toList ["    n += 1;".toList, "\x7d".toList] where
  lines := rfl
  first := by decide +kernel
  ordinary := forall_mem_of_all (by decide +kernel)
  block := fun _ => isBlockHead_iff.mp (by decide +kernel)
  value := fun hvalue => absurd hvalue (by decide +kernel)
  seamless := by decide +kernel

/-- The loop is no value. -/
theorem wrap_countSnippet :
    wrap countSnippet = program false (wrapParts countSnippet).1 (wrapParts countSnippet).2 := by
  have hlines : (wrapParts countSnippet).2 =
      [textStatement].flatMap Statement.lines ++ countStatement.lines := by decide +kernel
  have htext : textStatement.Legible := by constructor <;> decide +kernel
  have hcount : countStatement.Legible := by constructor <;> decide +kernel
  have hlast : countStatement.tokens.getLast? = some ⟨.punctuation, "\x7d", false, false⟩ := by
    decide +kernel
  exact (wrap_brace hlines (List.forall_mem_singleton.mpr htext) hcount told_countStatement hlast
    (by decide)).1.mpr (by decide +kernel)

/-- An item with an attribute. -/
def derivedSnippet : String := "#[derive(Debug)]\nstruct P \x7b\n    x: i32,\n\x7d\n"

/-- **An attribute hides an item**: its value is printed, which it has not. -/
theorem derived_item_printed :
    (∃ es, cut (joinLines (wrapParts derivedSnippet).2) = some es ∧
      isBlock (tokensOf es) = true ∧
      (tokensOf es).getLast? = some ⟨.punctuation, "\x7d", false, false⟩) ∧
    wrap derivedSnippet =
        program true (wrapParts derivedSnippet).1 (wrapParts derivedSnippet).2 ∧
      wrap derivedSnippet ≠
        program false (wrapParts derivedSnippet).1 (wrapParts derivedSnippet).2 := by
  refine ⟨⟨(cut (joinLines (wrapParts derivedSnippet).2)).getD [], ?_⟩, ?_⟩ <;> decide +kernel

end RustScript.Snippet
