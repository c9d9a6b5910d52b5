import RustScript.Proofs.Rust.Elements
import RustScript.Proofs.Source.Readers
import RustScript.Proofs.Source.RustWords
import RustScript.Rust.Grammar.Rule
import RustScript.Snippet

/-!
# How a loop or an item begins

By its tokens, a statement is a loop or an item if a keyword says so, behind attributes, a label, a
visibility and qualifiers (`isBlock`). Wrapping has only the first line, and looks for the keyword
behind a label, or behind a visibility and `unsafe` (`Opens`). What it finds there is the keyword of a
loop or an item indeed (`isBlock_of_opens`).
-/

set_option autoImplicit false

namespace RustScript.Rust

/-! ## By the tokens -/

/-- The tokens behind outer attributes; `depth` counts the brackets that are open. -/
def behindAttributes : Nat → List Token → List Token
  | 0, t :: u :: rest =>
      if t.isPunctuation '#' && u.isPunctuation '[' then behindAttributes 1 rest else t :: u :: rest
  | 0, ts => ts
  | _ + 1, [] => []
  | depth + 1, t :: rest =>
      behindAttributes (if t.isPunctuation '[' then depth + 2
        else if t.isPunctuation ']' then depth else depth + 1) rest

/-- The tokens behind a label and its colon. -/
def behindLabel : List Token → List Token
  | mark :: name :: colon :: rest =>
      if mark.isPunctuation '\'' && name.kind = .word && colon.isPunctuation ':' then rest
      else mark :: name :: colon :: rest
  | ts => ts

/-- The tokens behind a visibility. -/
def behindVisibility : List Token → List Token
  | [] => []
  | t :: rest =>
      if t.isWord "pub" then
        if nextIs rest (·.isPunctuation '(') then
          (rest.dropWhile fun u => !u.isPunctuation ')').tail
        else rest
      else t :: rest

/-- The words that may stand in front of the keyword of an item. -/
def qualifiers : List String := ["async", "const", "default", "extern", "gen", "unsafe"]

/-- The token is one of these words, or the name of a calling convention. -/
def isQualifier (t : Token) : Bool :=
  t.kind = .literal || (t.kind = .word && qualifiers.contains t.text)

/-- The keywords of items that have a body, apart from those that depend on what follows. -/
def itemKeywords : List String := ["fn", "struct", "enum", "impl", "trait", "mod"]

/-- The front is the keyword of an item. -/
def declaresItem : List Token → Bool
  | [] => false
  | t :: rest => t.kind = .word &&
      (itemKeywords.contains t.text || (t.text = "union" && nextIs rest (·.kind = .word)) ||
        (t.text = "macro_rules" && nextIs rest (·.isPunctuation '!')))

/-- The front is the keyword of a loop, perhaps behind a label. -/
def beginsLoop (ts : List Token) : Bool := nextWordIn (behindLabel ts) ["for", "while", "loop"]

/-- **The statement with these tokens is a loop or an item.** -/
def isBlock (ts : List Token) : Bool :=
  let ts := behindAttributes 0 ts
  beginsLoop ts || declaresItem ((behindVisibility ts).dropWhile isQualifier)

end RustScript.Rust

namespace RustScript.Snippet

open RustScript.Rust RustScript.Source RustScript.Text

/-! ## By the first line -/

/-- Behind the word no other character of a word stands; behind a mark one does. -/
def Bounded (word : String) (rest : Line) : Prop :=
  (word.toList.getLast?.map isWord) ≠ some (rest.head?.any isWord)

instance (word : String) (rest : Line) : Decidable (Bounded word rest) :=
  inferInstanceAs (Decidable (_ ≠ _))

/-- A label with its colon and blanks, or nothing. -/
inductive Label : Line → Prop
  | nothing : Label []
  | named {c : Char} {name gap gap' : Line} : (c.isAlpha || decide (c = '_')) = true →
      (∀ d ∈ name, isWord d = true) → allBlank gap → allBlank gap' →
      Label ('\'' :: c :: (name ++ (gap ++ ':' :: gap')))

/-- The line begins like a loop or an item. -/
inductive Opens : Line → Prop
  | loop {label rest : Line} {word : String} : Label label → word ∈ loopWords →
      Bounded word rest → Opens (label ++ (word.toList ++ rest))
  | item {vis care rest : Line} {word : String} : Visibility (')' ∉ ·) vis → Safety care →
      word ∈ itemWords → Bounded word rest → Opens (vis ++ (care ++ (word.toList ++ rest)))

theorem startsWithWord_iff {word : String} {text : Line} :
    startsWithWord word text = true ↔ ∃ rest, text = word.toList ++ rest ∧ Bounded word rest := by
  unfold startsWithWord
  constructor
  · intro h
    cases hfound : afterPrefix word.toList text with
    | none =>
        rw [hfound] at h
        cases h
    | some rest =>
        rw [hfound] at h
        exact ⟨rest, eq_append_of_afterPrefix hfound, of_decide_eq_true h⟩
  · rintro ⟨rest, rfl, hbounded⟩
    rw [afterPrefix_append]
    exact decide_eq_true hbounded

/-- What is passed over is a label or nothing. -/
theorem exists_afterLabel (text : Line) : ∃ label, Label label ∧ text = label ++ afterLabel text := by
  have hnone : ∃ label, Label label ∧ text = label ++ text := ⟨[], .nothing, rfl⟩
  unfold afterLabel
  split
  · next c rest =>
      split_ifs with hc
      · split
        · next after hcolon =>
            obtain ⟨gap, hgap, hsplit⟩ := exists_blanks_append (rest.dropWhile isWord)
            obtain ⟨gap', hgap', hsplit'⟩ := exists_blanks_append after
            have hname : ∀ d ∈ rest.takeWhile isWord, isWord d = true := fun d hd =>
              List.mem_takeWhile_imp hd
            refine ⟨_, .named hc hname hgap hgap', ?_⟩
            rw [hcolon] at hsplit
            simp only [List.cons_append, List.append_assoc]
            rw [← hsplit', ← hsplit, List.takeWhile_append_dropWhile]
        · exact hnone
      · exact hnone
  · exact hnone

theorem isWord_of_isAsciiWord {c : Char} (h : isAsciiWord c = true) : isWord c = true := by
  unfold isWord
  unfold isAsciiWord at h
  rw [h, Bool.true_or]

/-- No blank is a character of a word. -/
theorem not_isWord_of_isBlank {c : Char} (h : isBlank c = true) : isWord c = false := by
  have hascii := isAsciiWord_of_isBlank h
  unfold isAsciiWord at hascii
  unfold isWord
  rw [hascii, Bool.false_or, Bool.and_eq_false_iff]
  by_cases hforeign : 0x80 ≤ c.toNat
  · have hall : ∀ n ∈ foreignBlanks,
        (wordRanges.toList.any fun range => range.1 ≤ n && n ≤ range.2) = false := by
      decide +kernel
    unfold Ranges.contains
    rw [← Array.any_toList]
    exact .inr (hall c.toNat (mem_foreignBlanks h hforeign))
  · exact .inl (decide_eq_false hforeign)

theorem dropWhile_isWord {name gap : Line} (hname : ∀ d ∈ name, isWord d = true)
    (hgap : allBlank gap = true) (rest : Line) :
    (name ++ (gap ++ ':' :: rest)).dropWhile isWord = gap ++ ':' :: rest := by
  rw [List.dropWhile_append_of_pos hname]
  cases gap with
  | nil => exact List.dropWhile_cons_of_neg (by decide)
  | cons c gap =>
      refine List.dropWhile_cons_of_neg ?_
      rw [not_isWord_of_isBlank (allBlank_cons.mp hgap).1]
      exact Bool.false_ne_true

theorem Label.afterLabel_append {label word : Line} (h : Label label) (hword : IsWord word)
    (rest : Line) : afterLabel (label ++ (word ++ rest)) = word ++ rest := by
  have hleft : stripLeft (word ++ rest) = word ++ rest := hword.trimmed.stripLeft_append rest
  cases h with
  | nothing =>
      obtain ⟨c, more, rfl⟩ := List.exists_cons_of_ne_nil hword.ne_nil
      unfold afterLabel
      split
      · next heq =>
          have hc := hword.word c List.mem_cons_self
          rw [(List.cons.inj heq).1] at hc
          cases hc
      · rfl
  | @named d name gap gap' hd hname hgap hgap' =>
      unfold afterLabel
      simp only [List.cons_append, List.append_assoc, hd, if_true]
      rw [dropWhile_isWord hname hgap, stripLeft_append_of_allBlank _ hgap,
        stripLeft_cons_of_not_blank _ (by decide)]
      show stripLeft (gap' ++ (word ++ rest)) = word ++ rest
      rw [stripLeft_append_of_allBlank _ hgap', hleft]

theorem Bounded.breaks {word : String} {rest : Line} (h : Bounded word rest)
    (hword : word.toList.getLast?.map isWord = some true) : Breaks rest := by
  unfold Bounded at h
  rw [hword] at h
  cases rest with
  | nil => trivial
  | cons c rest =>
      refine Bool.eq_false_iff.mpr fun hc => h ?_
      rw [List.head?_cons, Option.any_some, isWord_of_isAsciiWord hc]

/-- At the keyword of an item a word begins that is neither `pub` nor `unsafe`. -/
theorem exists_word_of_item {word : String} {rest : Line} (hword : word ∈ itemWords)
    (hbounded : Bounded word rest) : ∃ w cs, word.toList ++ rest = String.toList w ++ cs ∧
      isIdentifier w.toList ∧ w ≠ "pub" ∧ w ≠ "unsafe" ∧ Breaks cs := by
  unfold itemWords at hword
  simp only [List.mem_cons, List.not_mem_nil, or_false] at hword
  obtain rfl | rfl | rfl | rfl | rfl | rfl | rfl | rfl := hword
  case inr.inr.inr.inr.inr.inr.inr =>
    exact ⟨"macro_rules", '!' :: rest, rfl, by decide, by decide, by decide, rfl⟩
  all_goals exact ⟨_, rest, rfl, by decide, by decide, by decide, hbounded.breaks (by decide)⟩

theorem isIdentifier_of_loopWords {word : String} (h : word ∈ loopWords) :
    isIdentifier word.toList ∧ word.toList.getLast?.map isWord = some true := by
  unfold loopWords at h
  simp only [List.mem_cons, List.not_mem_nil, or_false] at h
  obtain rfl | rfl | rfl := h <;> decide

/-- `unsafe` is passed over, with the blanks behind it. -/
theorem optionalUnsafe_append {care cs : Line} {w : String} (h : Safety care)
    (hw : IsWord w.toList) (hne : w ≠ "unsafe") (hcs : Breaks cs) :
    optionalKeyword "unsafe" (care ++ (w.toList ++ cs)) = w.toList ++ cs := by
  cases h with
  | safe => exact optionalKeyword_of_ne isWord_unsafe hw hcs hne
  | marked hgap =>
      unfold optionalKeyword
      rw [List.append_assoc, keyword_append _ _ hgap, Option.getD_some]
      exact hw.trimmed.stripLeft_append cs

theorem exists_optionalUnsafe (cs : Line) :
    ∃ care, Safety care ∧ cs = care ++ optionalKeyword "unsafe" cs := by
  unfold optionalKeyword
  cases h : keyword "unsafe" cs with
  | none => exact ⟨[], .safe, rfl⟩
  | some rest =>
      obtain ⟨gap, hgap, rfl⟩ := exists_of_keyword h
      exact ⟨_, .marked hgap, (List.append_assoc _ _ _).symm⟩

/-- **What wrapping takes for the first line of a loop or an item.** -/
theorem isBlockHead_iff {head : Line} : isBlockHead head = true ↔ Opens head := by
  unfold isBlockHead
  simp only [Bool.or_eq_true, List.any_eq_true, startsWithWord_iff]
  constructor
  · rintro (⟨word, hword, rest, hrest, hbounded⟩ | ⟨word, hword, rest, hrest, hbounded⟩)
    · obtain ⟨label, hlabel, hsplit⟩ := exists_afterLabel head
      rw [hsplit, hrest]
      exact .loop hlabel hword hbounded
    · obtain ⟨vis, hvis, hsplit⟩ := exists_optionalVisibility head
      obtain ⟨care, hcare, hsplit'⟩ := exists_optionalUnsafe (optionalVisibility head)
      rw [hsplit, hsplit', hrest]
      exact .item hvis hcare hword hbounded
  · intro h
    cases h with
    | @loop label rest word hlabel hword hbounded =>
        obtain ⟨hidentifier, -⟩ := isIdentifier_of_loopWords hword
        refine .inl ⟨word, hword, rest, ?_, hbounded⟩
        exact hlabel.afterLabel_append (isWord_of_isIdentifier hidentifier) rest
    | @item vis care rest word hvis hcare hword hbounded =>
        obtain ⟨w, cs, hsplit, hidentifier, hpub, hunsafe, hcs⟩ :=
          exists_word_of_item hword hbounded
        have hw := isWord_of_isIdentifier hidentifier
        refine .inr ⟨word, hword, rest, ?_, hbounded⟩
        have hvisible : optionalVisibility (vis ++ (care ++ (w.toList ++ cs))) =
            care ++ (w.toList ++ cs) := by
          cases hcare with
          | safe => exact optionalVisibility_append (w := w.toList) hvis hw (toList_ne hpub) hcs
          | @marked gap hgap =>
              rw [List.append_assoc]
              exact optionalVisibility_append hvis isWord_unsafe (by decide)
                (Breaks.gap_append hgap _)
        rw [hsplit, hvisible, optionalUnsafe_append hcare hw hunsafe hcs]

/-! ## The tokens of the first line -/

/-- No identifier goes on into the text. -/
def Stops : List Char → Prop
  | [] => True
  | c :: _ => isIdentifierContinue c = false

theorem Stops.breaks {cs : List Char} (h : Stops cs) : Breaks cs := by
  cases cs with
  | nil => trivial
  | cons c cs =>
      refine Bool.eq_false_iff.mpr fun hc => ?_
      rw [Stops, continues_of_isAsciiWord hc] at h
      cases h

theorem Stops.dropWhile_append {name cs : List Char} (h : Stops cs)
    (hname : ∀ d ∈ name, isIdentifierContinue d = true) :
    (name ++ cs).dropWhile isIdentifierContinue = cs := by
  rw [List.dropWhile_append_of_pos hname]
  cases cs with
  | nil => rfl
  | cons c cs => exact List.dropWhile_cons_of_neg (Bool.not_eq_true _ ▸ h)

/-- An identifier is read whole. -/
theorem readToken_identifier {c : Char} {name rest : List Char}
    (hc : (c.isAlpha || decide (c = '_')) = true)
    (hname : ∀ d ∈ name, isIdentifierContinue d = true) (hrest : Stops rest)
    (hliteral : ¬ BeginsLiteral (c :: name) rest) :
    readToken false (c :: name ++ rest) = some (.word, rest) := by
  -- what is in ASCII at its front, and the rest of it
  have hsplit := List.takeWhile_append_dropWhile (p := isAsciiWord) (l := name)
  have hfront : isIdentifier (c :: name.takeWhile isAsciiWord) :=
    Bool.and_eq_true_iff.mpr ⟨hc, List.all_eq_true.mpr fun d hd => List.mem_takeWhile_imp hd⟩
  have hback : ∀ d ∈ name.dropWhile isAsciiWord, isIdentifierContinue d = true := fun d hd =>
    hname d ((List.dropWhile_sublist _).subset hd)
  have hstart : ∀ d more, name.dropWhile isAsciiWord = d :: more → isAsciiWord d = false := by
    intro d more hdrop
    have hhead := List.head_dropWhile_not isAsciiWord (l := name) (by simp [hdrop])
    simpa [hdrop] using hhead
  generalize name.takeWhile isAsciiWord = front at hsplit hfront
  generalize name.dropWhile isAsciiWord = back at hsplit hback hstart
  subst hsplit
  have hbreaks : Breaks (back ++ rest) := by
    cases back with
    | nil => exact hrest.breaks
    | cons d more => exact hstart d more rfl
  have hplain : ¬ BeginsLiteral (c :: front) (back ++ rest) := by
    cases back with
    | nil =>
        rw [List.append_nil] at hliteral
        exact hliteral
    | cons d more =>
        rintro ⟨-, mark, hmark, behind, heq⟩
        have hd := hback d List.mem_cons_self
        rw [(List.cons.inj heq).1] at hd
        unfold literalMarks at hmark
        simp only [List.mem_cons, List.not_mem_nil, or_false] at hmark
        obtain rfl | rfl | rfl := hmark <;> revert hd <;> decide
  have hread := readToken_name hfront hbreaks hplain
  rw [hrest.dropWhile_append hback] at hread
  rw [← hread, List.cons_append, List.cons_append, List.append_assoc]

/-- The text is cut into these elements, and no dot stands in front of it. -/
def CutsTo (cs : List Char) (es : List Element) : Prop :=
  ∃ fuel state, state.afterDot = false ∧ cs.length < fuel ∧ cutFrom fuel state cs = some es

theorem cutsTo_of_cut {cs : List Char} {es : List Element} (h : cut cs = some es) : CutsTo cs es :=
  ⟨_, _, rfl, Nat.lt_succ_self _, h⟩

namespace CutsTo

variable {c : Char} {cs rest after : List Char} {es : List Element}

theorem space (h : CutsTo (c :: rest) es) (hc : isSpace c = true) :
    ∃ es', es = .space c :: es' ∧ CutsTo rest es' := by
  obtain ⟨fuel, state, hdot, hfuel, hcut⟩ := h
  cases fuel with
  | zero => omega
  | succ fuel =>
      have hslash : c ≠ '/' := by
        rintro rfl
        cases hc
      rw [cutFrom, if_pos hc] at hcut
      · obtain ⟨es', hes', rfl⟩ := Option.map_eq_some_iff.mp hcut
        exact ⟨es', rfl, fuel, { state with glued := false }, hdot, Nat.lt_of_succ_lt_succ hfuel,
          hes'⟩
      · exact fun _ heq => absurd heq hslash
      · exact fun _ heq => absurd heq hslash

theorem gap {gap : List Char} (h : CutsTo (gap ++ rest) es) (hgap : ∀ c ∈ gap, isSpace c = true) :
    ∃ es', tokensOf es = tokensOf es' ∧ CutsTo rest es' := by
  induction gap generalizing es with
  | nil => exact ⟨es, rfl, h⟩
  | cons c gap ih =>
      obtain ⟨es', rfl, hrest⟩ := h.space (hgap c List.mem_cons_self)
      obtain ⟨es, hes, hmore⟩ := ih hrest fun d hd => hgap d (List.mem_cons_of_mem c hd)
      exact ⟨es, hes, hmore⟩

theorem token {kind : TokenKind} (h : CutsTo (c :: rest) es) (hspace : isSpace c = false)
    (hslash : c ≠ '/') (hdot : c ≠ '.') (hread : readToken false (c :: rest) = some (kind, after)) :
    ∃ t es', es = .token t :: es' ∧ t.kind = kind ∧ c :: rest = t.text.toList ++ after ∧
      CutsTo after es' := by
  obtain ⟨fuel, state, hstate, hfuel, hcut⟩ := h
  cases fuel with
  | zero => omega
  | succ fuel =>
      rw [cutFrom, hspace, if_neg Bool.false_ne_true, hstate, hread] at hcut
      · obtain ⟨es', hes', rfl⟩ := Option.map_eq_some_iff.mp hcut
        have hshort := length_of_readToken hread
        obtain ⟨-, hsplit⟩ := closes_of_ends state.glued state.commented
          (ends_readToken false (c :: rest) _ hread)
        refine ⟨_, es', rfl, rfl, ?_, fuel, _, ?_, by omega, hes'⟩
        · rw [String.toList_ofList]
          exact hsplit
        · rw [decide_eq_false hdot, Bool.false_and]
      · exact fun _ heq => absurd heq hslash
      · exact fun _ heq => absurd heq hslash

theorem word {name : List Char} (h : CutsTo (c :: name ++ rest) es)
    (hc : (c.isAlpha || decide (c = '_')) = true)
    (hname : ∀ d ∈ name, isIdentifierContinue d = true) (hrest : Stops rest)
    (hliteral : ¬ BeginsLiteral (c :: name) rest) :
    ∃ t es', es = .token t :: es' ∧ t.kind = .word ∧ t.text.toList = c :: name ∧
      CutsTo rest es' := by
  have hword : isAsciiWord c = true := by
    unfold isAsciiWord Char.isAlphanum
    obtain hletter | hline := Bool.or_eq_true_iff.mp hc
    · rw [hletter]
      rfl
    · rw [hline, Bool.or_true]
  have hforeign : ∀ d, isAsciiWord d = false → c ≠ d := by
    rintro d hd rfl
    rw [hword] at hd
    cases hd
  have hspace : isSpace c = false := by
    refine Bool.eq_false_iff.mpr fun hspace => ?_
    rw [isAsciiWord_of_isBlank (isBlank_of_isSpace hspace)] at hword
    cases hword
  obtain ⟨t, es', hes, hkind, hsplit, hcut⟩ := h.token hspace (hforeign '/' rfl) (hforeign '.' rfl)
    (readToken_identifier hc hname hrest hliteral)
  exact ⟨t, es', hes, hkind, (List.append_cancel_right hsplit).symm, hcut⟩

theorem mark (h : CutsTo (c :: rest) es)
    (hread : readToken false (c :: rest) = some (.punctuation, rest))
    (hspace : isSpace c = false) (hslash : c ≠ '/') (hdot : c ≠ '.') :
    ∃ t es', es = .token t :: es' ∧ t.isPunctuation c = true ∧ CutsTo rest es' := by
  obtain ⟨t, es', hes, hkind, hsplit, hcut⟩ := h.token hspace hslash hdot hread
  refine ⟨t, es', hes, ?_, hcut⟩
  have htext : t.text = String.singleton c := by
    have hchar : [c] = t.text.toList := List.append_cancel_right hsplit
    rw [← String.ofList_toList (s := t.text), ← hchar]
    rfl
  unfold Token.isPunctuation
  rw [hkind, htext]
  simp

end CutsTo

/-- Wrapping and the lexer agree what the character is: a letter or a digit, or a blank. -/
def Ordinary (c : Char) : Prop := isWord c = isIdentifierContinue c ∧ isBlank c = isSpace c

instance (c : Char) : Decidable (Ordinary c) := inferInstanceAs (Decidable (_ ∧ _))

/-- The end of a text, or a blank. -/
def EndsLine : List Char → Prop
  | [] => True
  | c :: _ => isBlank c = true

theorem stops_of_isBlank {c : Char} (h : isBlank c = true) : isIdentifierContinue c = false :=
  Bool.eq_false_iff.mpr fun hc => by
    rw [(solid_of_continues hc).1] at h
    cases h

theorem Bounded.stops {word : String} {rest tail : Line} (h : Bounded word rest)
    (hword : word.toList.getLast?.map isWord = some true) (hordinary : ∀ c ∈ rest, Ordinary c)
    (htail : EndsLine tail) : Stops (rest ++ tail) := by
  cases rest with
  | nil =>
      cases tail with
      | nil => trivial
      | cons c tail => exact stops_of_isBlank htail
  | cons c rest =>
      unfold Bounded at h
      rw [hword, List.head?_cons, Option.any_some] at h
      show isIdentifierContinue c = false
      rw [← (hordinary c List.mem_cons_self).1]
      exact Bool.eq_false_iff.mpr fun hc => h (hc ▸ rfl)

theorem isSpace_of_ordinary {gap : Line} (hgap : allBlank gap = true)
    (hordinary : ∀ c ∈ gap, Ordinary c) : ∀ c ∈ gap, isSpace c = true := fun c hc =>
  (hordinary c hc).2.symm.trans (isBlank_of_mem hgap hc)

theorem behindAttributes_cons {t : Token} (h : t.isPunctuation '#' = false) (ts : List Token) :
    behindAttributes 0 (t :: ts) = t :: ts := by
  cases ts with
  | nil => rfl
  | cons u ts =>
      rw [behindAttributes, h, Bool.false_and, if_neg Bool.false_ne_true]

theorem isPunctuation_of_word {t : Token} (h : t.kind = .word) (c : Char) :
    t.isPunctuation c = false := by
  unfold Token.isPunctuation
  rw [h]
  rfl

theorem isPunctuation_of_other {t : Token} {c d : Char} (h : t.isPunctuation c = true)
    (hne : c ≠ d) : t.isPunctuation d = false := by
  unfold Token.isPunctuation at h ⊢
  obtain ⟨-, htext⟩ := Bool.and_eq_true_iff.mp h
  rw [of_decide_eq_true htext, Bool.and_eq_false_iff]
  refine .inr (decide_eq_false fun heq => hne ?_)
  have hlist := congrArg String.toList heq
  simpa using hlist

/-- No literal begins behind a blank or a colon. -/
theorem not_beginsLiteral {name gap : Line} (hgap : allBlank gap = true) (rest : Line) :
    ¬ BeginsLiteral name (gap ++ ':' :: rest) := by
  rintro ⟨-, mark, hmark, behind, heq⟩
  have hhead : mark = ':' ∨ isBlank mark = true := by
    cases gap with
    | nil => exact .inl (List.cons.inj heq).1.symm
    | cons c gap => exact .inr ((List.cons.inj heq).1 ▸ (allBlank_cons.mp hgap).1)
  unfold literalMarks at hmark
  simp only [List.mem_cons, List.not_mem_nil, or_false] at hmark
  obtain rfl | rfl | rfl := hmark <;> revert hhead <;> decide

theorem stops_of_gap {gap : Line} (hgap : allBlank gap = true) (rest : Line) :
    Stops (gap ++ ':' :: rest) := by
  cases gap with
  | nil => exact (by decide : isIdentifierContinue ':' = false)
  | cons c gap => exact stops_of_isBlank (allBlank_cons.mp hgap).1

/-- The mark of a label is no quote. -/
theorem readToken_label {c : Char} {name gap : Line} (hc : (c.isAlpha || decide (c = '_')) = true)
    (hname : ∀ d ∈ name, isWord d = true) (hgap : allBlank gap = true) (rest : Line) :
    readToken false ('\'' :: c :: (name ++ (gap ++ ':' :: rest))) =
      some (.punctuation, c :: (name ++ (gap ++ ':' :: rest))) := by
  have hquote : ∀ more, name ++ (gap ++ ':' :: rest) ≠ '\'' :: more := by
    intro more heq
    cases name with
    | cons d name =>
        have hd := hname d List.mem_cons_self
        rw [(List.cons.inj heq).1] at hd
        revert hd
        decide
    | nil =>
        cases gap with
        | cons d gap =>
            have hd := (allBlank_cons.mp hgap).1
            rw [(List.cons.inj heq).1] at hd
            revert hd
            decide
        | nil => cases heq
  have hnone : skipCharacter (c :: (name ++ (gap ++ ':' :: rest))) = none := by
    unfold skipCharacter
    split
    · next heq =>
        rw [(List.cons.inj heq).1] at hc
        cases hc
    · next heq =>
        rw [(List.cons.inj heq).1] at hc
        cases hc
    · next heq => exact absurd (List.cons.inj heq).2 (hquote _)
    · rfl
  simp only [readToken, hnone]

/-- The first token is a word. -/
theorem CutsTo.keyword {w : String} {rest : Line} {es : List Element}
    (h : CutsTo (w.toList ++ rest) es) (hw : isIdentifier w.toList)
    (hfront : w.toList ∉ literalFronts) (hrest : Stops rest) :
    ∃ t es', es = .token t :: es' ∧ t.kind = .word ∧ t.text = w ∧ CutsTo rest es' := by
  cases hlist : w.toList with
  | nil =>
      rw [hlist] at hw
      cases hw
  | cons c name =>
      rw [hlist] at h hw hfront
      obtain ⟨hc, hname⟩ := Bool.and_eq_true_iff.mp hw
      obtain ⟨t, es', hes, hkind, htext, hcut⟩ := h.word hc
        (fun d hd => continues_of_isAsciiWord (List.all_eq_true.mp hname d hd)) hrest
        fun hliteral => hfront hliteral.1
      exact ⟨t, es', hes, hkind, String.toList_injective (htext.trans hlist.symm), hcut⟩

theorem nextWordIn_cons {t : Token} {w : String} {words : List String} (hkind : t.kind = .word)
    (htext : t.text = w) (ts : List Token) : nextWordIn (t :: ts) words = words.contains w := by
  show (decide (t.kind = .word) && words.contains t.text) = _
  rw [hkind, htext]
  simp

theorem not_literalFronts_of_loopWords {word : String} (h : word ∈ loopWords) :
    word.toList ∉ literalFronts := by
  unfold loopWords at h
  simp only [List.mem_cons, List.not_mem_nil, or_false] at h
  obtain rfl | rfl | rfl := h <;> decide

theorem behindLabel_cons {t : Token} (h : t.isPunctuation '\'' = false) (ts : List Token) :
    behindLabel (t :: ts) = t :: ts := by
  rcases ts with - | ⟨u, - | ⟨v, ts⟩⟩
  · rfl
  · rfl
  · rw [behindLabel, h, Bool.false_and, Bool.false_and, if_neg Bool.false_ne_true]

/-- A label is passed over. -/
theorem Label.behindLabel {label behind : Line} {es : List Element} (hlabel : Label label)
    (hordinary : ∀ c ∈ label, Ordinary c) (hcut : CutsTo (label ++ behind) es)
    (hbehind : ∀ es', CutsTo behind es' → ∃ t ts, tokensOf es' = t :: ts ∧ t.kind = .word) :
    ∃ es', CutsTo behind es' ∧
      Rust.behindLabel (behindAttributes 0 (tokensOf es)) = tokensOf es' := by
  cases hlabel with
  | nothing =>
      obtain ⟨t, ts, htokens, hkind⟩ := hbehind es hcut
      refine ⟨es, hcut, ?_⟩
      rw [htokens, behindAttributes_cons (isPunctuation_of_word hkind _),
        behindLabel_cons (isPunctuation_of_word hkind _)]
  | @named c name gap gap' hc hname hgap hgap' =>
      have hcontinue : ∀ d ∈ name, isIdentifierContinue d = true := fun d hd =>
        (hordinary d (by simp [hd])).1.symm.trans (hname d hd)
      have hspace := isSpace_of_ordinary hgap fun d hd => hordinary d (by simp [hd])
      have hspace' := isSpace_of_ordinary hgap' fun d hd => hordinary d (by simp [hd])
      simp only [List.cons_append, List.append_assoc] at hcut
      -- the mark, the name and the colon, with blanks around the colon
      obtain ⟨mark, es, rfl, hmark, hcut⟩ :=
        hcut.mark (readToken_label hc hname hgap _) (by decide) (by decide) (by decide)
      rw [← List.cons_append] at hcut
      obtain ⟨named, es, rfl, hkind, -, hcut⟩ :=
        hcut.word hc hcontinue (stops_of_gap hgap _) (not_beginsLiteral hgap _)
      obtain ⟨es', htokens, hcut⟩ := hcut.gap hspace
      obtain ⟨colon, es'', rfl, hcolon, hcut⟩ :=
        hcut.mark rfl (by decide) (by decide) (by decide)
      obtain ⟨last, htokens', hcut⟩ := hcut.gap hspace'
      refine ⟨last, hcut, ?_⟩
      show Rust.behindLabel (behindAttributes 0 (mark :: named :: tokensOf es)) = _
      rw [behindAttributes_cons (isPunctuation_of_other hmark (by decide)), htokens]
      show Rust.behindLabel (mark :: named :: colon :: tokensOf es'') = _
      rw [Rust.behindLabel, hmark, hkind, hcolon, htokens']
      rfl

/-- Behind a label the keyword of a loop is read. -/
theorem isBlock_of_loop {label behind : Line} {word : String} {es : List Element}
    (hlabel : Label label) (hword : word ∈ loopWords) (hbehind : Stops behind)
    (hordinary : ∀ c ∈ label, Ordinary c) (hcut : CutsTo (label ++ (word.toList ++ behind)) es) :
    isBlock (tokensOf es) = true := by
  have hkeyword : ∀ es', CutsTo (word.toList ++ behind) es' →
      ∃ t ts, tokensOf es' = t :: ts ∧ t.kind = .word ∧ t.text = word := by
    intro es' hcut
    obtain ⟨t, es'', rfl, hkind, htext, -⟩ := hcut.keyword (isIdentifier_of_loopWords hword).1
      (not_literalFronts_of_loopWords hword) hbehind
    exact ⟨t, tokensOf es'', rfl, hkind, htext⟩
  obtain ⟨es', hcut', htokens⟩ := hlabel.behindLabel hordinary hcut fun es' hcut' => by
    obtain ⟨t, ts, htokens, hkind, -⟩ := hkeyword es' hcut'
    exact ⟨t, ts, htokens, hkind⟩
  obtain ⟨t, ts, hfirst, hkind, htext⟩ := hkeyword es' hcut'
  unfold isBlock beginsLoop
  dsimp only
  rw [htokens, hfirst, nextWordIn_cons hkind htext, Bool.or_eq_true]
  exact .inl (List.contains_iff_mem.mpr hword)

/-- The word `unsafe` is passed over. -/
theorem exists_of_safety {care behind : Line} {es : List Element} (hcare : Safety care)
    (hordinary : ∀ c ∈ care, Ordinary c) (hcut : CutsTo (care ++ behind) es) :
    ∃ es', CutsTo behind es' ∧
      (tokensOf es).dropWhile isQualifier = (tokensOf es').dropWhile isQualifier := by
  cases hcare with
  | safe => exact ⟨es, hcut, rfl⟩
  | @marked gap hgap =>
      rw [List.append_assoc] at hcut
      have hstops : Stops (gap ++ behind) := by
        obtain ⟨c, rest, rfl⟩ := List.exists_cons_of_ne_nil hgap.ne_nil
        exact stops_of_isBlank (allBlank_cons.mp hgap.blank).1
      have hspace := isSpace_of_ordinary hgap.blank fun c hc =>
        hordinary c (List.mem_append_right _ hc)
      obtain ⟨t, es, rfl, hkind, htext, hcut⟩ :=
        hcut.keyword (by decide) (by decide) hstops
      obtain ⟨es', htokens, hcut⟩ := hcut.gap hspace
      refine ⟨es', hcut, ?_⟩
      have hqualifier : isQualifier t = true := by
        unfold isQualifier
        rw [hkind, htext]
        rfl
      show (t :: tokensOf es).dropWhile isQualifier = _
      rw [List.dropWhile_cons_of_pos hqualifier, htokens]

/-- At the front a word stands that is no qualifier. -/
theorem dropWhile_isQualifier {t : Token} {w : String} (hkind : t.kind = .word) (htext : t.text = w)
    (hw : w ∉ qualifiers) (ts : List Token) : (t :: ts).dropWhile isQualifier = t :: ts := by
  refine List.dropWhile_cons_of_neg ?_
  unfold isQualifier
  rw [hkind, htext]
  simpa using hw

theorem mem_itemWords {word : String} (h : word ∈ itemWords) :
    word ∈ itemKeywords ∨ word = "union" ∨ word = "macro_rules!" := by
  unfold itemWords at h
  simp only [List.mem_cons, List.not_mem_nil, or_false] at h
  obtain rfl | rfl | rfl | rfl | rfl | rfl | rfl | rfl := h <;> decide

theorem itemKeywords_are_words : ∀ w ∈ itemKeywords, isIdentifier w.toList ∧
    w.toList ∉ literalFronts ∧ w ∉ qualifiers ∧ w.toList.getLast?.map isWord = some true := by
  decide

/-- Behind `unsafe` the keyword of an item is read. -/
theorem declaresItem_of_item {care rest tail : Line} {word : String} {es : List Element}
    (hcare : Safety care) (hword : word ∈ itemWords) (hbounded : Bounded word rest)
    (hordinary : ∀ c ∈ care ++ rest, Ordinary c) (htail : EndsLine tail)
    (hcut : CutsTo (care ++ (word.toList ++ (rest ++ tail))) es)
    (hunion : nextWordIn ((tokensOf es).dropWhile isQualifier) ["union"] = false) :
    declaresItem ((tokensOf es).dropWhile isQualifier) = true := by
  obtain ⟨es', hcut, hpassed⟩ :=
    exists_of_safety hcare (fun c hc => hordinary c (List.mem_append_left _ hc)) hcut
  rw [hpassed] at hunion ⊢
  have hstops : word.toList.getLast?.map isWord = some true → Stops (rest ++ tail) := fun hlast =>
    hbounded.stops hlast (fun c hc => hordinary c (List.mem_append_right _ hc)) htail
  obtain hkeyword | rfl | rfl := mem_itemWords hword
  · obtain ⟨hidentifier, hfront, hqualifier, hlast⟩ := itemKeywords_are_words word hkeyword
    obtain ⟨t, es'', rfl, hkind, htext, -⟩ := hcut.keyword hidentifier hfront (hstops hlast)
    show declaresItem ((t :: tokensOf es'').dropWhile isQualifier) = true
    rw [dropWhile_isQualifier hkind htext hqualifier]
    rw [declaresItem, hkind, htext, List.contains_iff_mem.mpr hkeyword]
    rfl
  · -- a union is an item only if its name follows
    obtain ⟨t, es'', rfl, hkind, htext, -⟩ :=
      hcut.keyword (by decide) (by decide) (hstops (by decide))
    have hfront : nextWordIn ((t :: tokensOf es'').dropWhile isQualifier) ["union"] = false := hunion
    rw [dropWhile_isQualifier hkind htext (by decide), nextWordIn_cons hkind htext] at hfront
    exact absurd hfront (by decide)
  · have hmark : Stops ('!' :: (rest ++ tail)) := (by decide : isIdentifierContinue '!' = false)
    have hsplit : "macro_rules!".toList ++ (rest ++ tail) =
        "macro_rules".toList ++ '!' :: (rest ++ tail) := rfl
    rw [hsplit] at hcut
    obtain ⟨t, es'', rfl, hkind, htext, hcut⟩ := hcut.keyword (by decide) (by decide) hmark
    obtain ⟨mark, last, rfl, hpunctuation, -⟩ := hcut.mark rfl (by decide) (by decide) (by decide)
    show declaresItem ((t :: mark :: tokensOf last).dropWhile isQualifier) = true
    rw [dropWhile_isQualifier hkind htext (by decide)]
    rw [declaresItem, hkind, htext]
    exact hpunctuation

theorem behindAttributes_of_item {ts : List Token}
    (h : declaresItem (ts.dropWhile isQualifier) = true) : behindAttributes 0 ts = ts := by
  cases ts with
  | nil => rfl
  | cons t ts =>
      refine behindAttributes_cons ?_ ts
      have hkind : t.kind ≠ .punctuation := by
        intro hkind
        have hqualifier : isQualifier t = false := by
          unfold isQualifier
          rw [hkind]
          rfl
        rw [List.dropWhile_cons_of_neg (Bool.not_eq_true _ ▸ hqualifier), declaresItem, hkind] at h
        cases h
      unfold Token.isPunctuation
      rw [decide_eq_false hkind, Bool.false_and]

theorem behindVisibility_of_not {ts : List Token} (h : nextWordIn ts ["pub"] = false) :
    behindVisibility ts = ts := by
  cases ts with
  | nil => rfl
  | cons t ts =>
      have hpub : t.isWord "pub" = false := by
        unfold nextWordIn nextIs at h
        unfold Token.isWord
        simpa using h
      rw [behindVisibility, hpub, if_neg Bool.false_ne_true]

/-- **A keyword on the first line is one of the statement**, unless the statement begins with `pub`
or with a name that is a keyword elsewhere. -/
theorem isBlock_of_opens {head tail : Line} {es : List Element} (hopens : Opens head)
    (hcut : CutsTo (head ++ tail) es) (hordinary : ∀ c ∈ head, Ordinary c) (htail : EndsLine tail)
    (hpub : nextWordIn (tokensOf es) ["pub"] = false)
    (hunion : nextWordIn ((tokensOf es).dropWhile isQualifier) ["union"] = false) :
    isBlock (tokensOf es) = true := by
  cases hopens with
  | @loop label rest word hlabel hword hbounded =>
      simp only [List.append_assoc] at hcut
      refine isBlock_of_loop hlabel hword ?_
        (fun c hc => hordinary c (List.mem_append_left _ hc)) hcut
      refine hbounded.stops (isIdentifier_of_loopWords hword).2 (fun c hc => hordinary c ?_) htail
      exact List.mem_append_right _ (List.mem_append_right _ hc)
  | @item vis care rest word hvis hcare hword hbounded =>
      simp only [List.append_assoc] at hcut
      have hfirst : ∀ {behind : Line}, Stops behind → ¬ CutsTo ("pub".toList ++ behind) es := by
        intro behind hbehind hcut
        obtain ⟨t, es', rfl, hkind, htext, -⟩ := hcut.keyword (by decide) (by decide) hbehind
        have hnone : nextWordIn (t :: tokensOf es') ["pub"] = false := hpub
        rw [nextWordIn_cons hkind htext] at hnone
        cases hnone
      cases hvis with
      | inherited =>
          have hmore : ∀ c ∈ care ++ rest, Ordinary c := by
            intro c hc
            refine hordinary c ?_
            simp only [List.mem_append] at hc ⊢
            tauto
          have hitem : declaresItem ((tokensOf es).dropWhile isQualifier) = true :=
            declaresItem_of_item hcare hword hbounded hmore htail hcut hunion
          unfold isBlock
          dsimp only
          rw [behindAttributes_of_item hitem, behindVisibility_of_not hpub, hitem, Bool.or_true]
      | @everywhere gap hgap =>
          rw [List.append_assoc] at hcut
          obtain ⟨c, more, rfl⟩ := List.exists_cons_of_ne_nil hgap.ne_nil
          exact absurd hcut (hfirst (stops_of_isBlank (allBlank_cons.mp hgap.blank).1))
      | restricted =>
          rw [List.append_assoc] at hcut
          exact absurd hcut (hfirst (by decide : isIdentifierContinue '(' = false))

end RustScript.Snippet
