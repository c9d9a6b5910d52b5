import RustScript.Proofs.Rust.Placed
import RustScript.Proofs.Snippet.Wrapped

/-!
# When a snippet has a value

By the tokens of a snippet, unless the last one closes a brace, there is a value to print exactly if
the last token is not `;`. Wrapping looks at lines instead: it ends a line at `//` even in a literal,
knows nothing of what stands behind a block comment, and drops a line that begins with `*`. Where the
end of a snippet is laid out so that this makes no difference, wrapping follows the rule
(`wrap_value`).
-/

set_option autoImplicit false

namespace RustScript.Snippet

open RustScript.Source RustScript.Text RustScript.Rust

/-! ## The two forms of a program -/

/-- The entry point around lines, in the form that prints their value or in the plain one. -/
def mainForm (value : Bool) (lines : List Line) : List Char :=
  let inner := joinLines (lines.map indented)
  if value then
    "fn main() \x7b\n    let value = \x7b\n".toList ++ inner ++
      "\n    \x7d;\n    println!(\"\x7b:?\x7d\", value);\n\x7d\n".toList
  else "fn main() \x7b\n".toList ++ inner ++ "\n\x7d\n".toList

/-- The program with these lines in front and those in `fn main`. -/
def program (value : Bool) (front lines : List Line) : String :=
  String.ofList (if front.isEmpty then mainForm value lines
    else joinLines front ++ '\n' :: '\n' :: mainForm value lines)

/-- Wrapping gives one of the two forms. -/
theorem wrap_eq (body : String) :
    wrap body = program (!endsInStatement (wrapParts body).2) (wrapParts body).1
      (wrapParts body).2 := by
  have hmain : mainAround (wrapParts body).2 =
      mainForm (!endsInStatement (wrapParts body).2) (wrapParts body).2 := by
    unfold mainAround mainForm
    cases endsInStatement (wrapParts body).2 <;> rfl
  unfold program
  rw [← hmain]
  rfl

/-- The two forms are different programs. -/
theorem program_ne (front lines : List Line) :
    program true front lines ≠ program false front lines := by
  have hlonger : (mainForm false lines).length < (mainForm true lines).length := by
    have hfront : ("fn main() \x7b\n".toList).length <
        ("fn main() \x7b\n    let value = \x7b\n".toList).length := by decide
    have hback : ("\n\x7d\n".toList).length <
        ("\n    \x7d;\n    println!(\"\x7b:?\x7d\", value);\n\x7d\n".toList).length := by decide
    unfold mainForm
    simp only [Bool.false_eq_true, if_false, if_true, List.length_append]
    omega
  intro h
  have hlengths := congrArg List.length (String.ofList_injective h)
  split_ifs at hlengths
  · omega
  · simp only [List.length_append, List.length_cons] at hlengths
    omega

theorem wrap_eq_program_iff (body : String) (value : Bool) :
    wrap body = program value (wrapParts body).1 (wrapParts body).2 ↔
      endsInStatement (wrapParts body).2 = !value := by
  rw [wrap_eq]
  cases value <;> cases endsInStatement (wrapParts body).2
  · exact iff_of_false (program_ne _ _) Bool.false_ne_true
  · exact iff_of_true rfl rfl
  · exact iff_of_true rfl rfl
  · exact iff_of_false (program_ne _ _).symm Bool.false_ne_true.symm

/-! ## Tokens and lines -/

/-- What the lexer remembers inside `fn main`. -/
def insideMain : LexState := ⟨true, false, false, false⟩

/-- The last token of lines, if there is any. Lines with a comment or a literal that does not end have
no tokens to speak of. -/
def lastToken? (lines : List Line) : Option (Option Token) :=
  (lexFrom ((joinLines lines).length + 1) insideMain (joinLines lines)).map List.getLast?

/-- The last token of lines with the text behind it. -/
def lastPlaced? (lines : List Line) : Option (Option (Token × List Char)) :=
  (lexPlaced ((joinLines lines).length + 1) insideMain (joinLines lines)).map List.getLast?

theorem map_lastPlaced? (lines : List Line) :
    (lastPlaced? lines).map (Option.map Prod.fst) = lastToken? lines := by
  unfold lastToken? lastPlaced?
  rw [← map_lexPlaced, Option.map_map, Option.map_map]
  congr 1
  funext placed
  exact List.getLast?_map.symm

/-- The last token stands in the text. -/
theorem closes_of_lastPlaced? {lines : List Line} {t : Token} {behind : List Char}
    (h : lastPlaced? lines = some (some (t, behind))) :
    t.Closes ∧ t.text.toList ++ behind <:+ joinLines lines := by
  obtain ⟨placed, hread, hlast⟩ := Option.map_eq_some_iff.mp h
  exact closes_of_mem hread _ (List.mem_of_getLast? hlast)

/-- The token is one of Rust: there is none for a character that is foreign to the grammar. -/
def Known (t : Token) : Prop :=
  t.kind = .punctuation → ∀ c ∈ t.text.toList, '!' ≤ c ∧ c ≤ '~'

/-- The line is blank, or begins like a line of a comment. -/
def isRemark (line : Line) : Bool :=
  allBlank line || ["//", "/*", "*"].any (startsWith · (stripLeft line))

/-- The line on which the last token ends, in two parts, and the lines below it: comments do not
change where a statement seems to end. -/
structure Legible (start rest : Line) (below : List Line) : Prop where
  /-- Between the token and the first `//` of its line there are blanks, or, behind a token that ends
  no statement, something that seems to end none. -/
  behind : ∃ gap, beforeComment (start ++ rest) = start ++ gap ∧ (allBlank gap = true ∨
    endsStatement start = false ∧ endsStatement (stripRight gap) = false)
  /-- The line does not begin like a line of a block comment. -/
  front : startsWith "/*" (stripLeft (start ++ rest)) = false ∧
    startsWith "*" (stripLeft (start ++ rest)) = false
  /-- The lines below are remarks, or, behind a token that ends no statement, seem to end none. -/
  below : ∀ line ∈ below, isRemark line = true ∨
    endsStatement start = false ∧ ∀ code, code? line = some code → endsStatement code = false

/-- How lines may end for a reader who knows nothing but lines. -/
inductive EndsLegibly (lines : List Line) : Prop
  /-- There is no token, and every line is a remark. -/
  | remarks (none : lastToken? lines = some none) (all : ∀ line ∈ lines, isRemark line = true)
  /-- The last token ends at the end of `start`. -/
  | token {t : Token} {above below : List Line} {start rest : Line}
      (last : lastPlaced? lines = some (some (t, joinLines (rest :: below))))
      (split : lines = above ++ (start ++ rest) :: below) (legible : Legible start rest below)

/-! ## The last line of code -/

theorem startsWith_iff {word : String} {text : Line} :
    startsWith word text = true ↔ word.toList <+: text := by
  constructor
  · intro h
    obtain ⟨rest, hrest⟩ := Option.isSome_iff_exists.mp h
    exact ⟨rest, (eq_append_of_afterPrefix hrest).symm⟩
  · rintro ⟨rest, rfl⟩
    exact Option.isSome_iff_exists.mpr ⟨rest, afterPrefix_append _ _⟩

theorem beforeComment_cons {c : Char} {cs : List Char}
    (h : ∀ rest, c = '/' → cs = '/' :: rest → False) :
    beforeComment (c :: cs) = c :: beforeComment cs := by
  rw [beforeComment]
  exact h

theorem beforeComment_blanks {blanks : List Char} (h : allBlank blanks = true) (cs : List Char) :
    beforeComment (blanks ++ cs) = blanks ++ beforeComment cs := by
  induction blanks with
  | nil => rfl
  | cons c rest ih =>
      obtain ⟨hc, hrest⟩ := allBlank_cons.mp h
      have hslash : ∀ more, c = '/' → rest ++ cs = '/' :: more → False := by
        rintro more rfl
        exact absurd hc (by decide)
      rw [List.cons_append, beforeComment_cons hslash, ih hrest, List.cons_append]

theorem prefix_beforeComment (cs : List Char) : beforeComment cs <+: cs := by
  fun_induction beforeComment cs with
  | case1 => exact List.prefix_rfl
  | case2 => exact List.nil_prefix
  | case3 c rest _ ih => exact (List.prefix_cons_inj c).mpr ih

/-- The code of a line that begins with a character that begins no line comment. -/
theorem strip_beforeComment {blanks : List Char} (hblanks : allBlank blanks = true) {c : Char}
    (hc : isBlank c = false) (rest : List Char)
    (hslash : ∀ more, c = '/' → rest = '/' :: more → False) :
    strip (beforeComment (blanks ++ c :: rest)) = c :: stripRight (beforeComment rest) := by
  have hright := stripRight_append [] hc (beforeComment rest)
  rw [beforeComment_blanks hblanks, beforeComment_cons hslash]
  unfold strip
  rw [stripLeft_append_of_allBlank _ hblanks, stripLeft_cons_of_not_blank _ hc]
  exact hright

theorem code?_of_remark {line : Line} (h : isRemark line = true) : code? line = none := by
  obtain ⟨blanks, hblanks, hsplit⟩ := exists_blanks_append line
  unfold code?
  dsimp only
  rw [if_pos]
  simp only [isRemark, List.any_cons, List.any_nil, Bool.or_false, Bool.or_eq_true,
    startsWith_iff] at h
  simp only [Bool.or_eq_true, List.isEmpty_iff, startsWith_iff]
  obtain hblank | ⟨rest, hrest⟩ | ⟨rest, hrest⟩ | ⟨rest, hrest⟩ := h
  · have hall := beforeComment_blanks hblank []
    rw [List.append_nil] at hall
    rw [hall]
    exact .inl (.inl (strip_of_allBlank (allBlank_append.mpr ⟨hblank, rfl⟩)))
  · rw [hsplit, ← hrest, beforeComment_blanks hblanks]
    exact .inl (.inl (strip_of_allBlank (allBlank_append.mpr ⟨hblanks, rfl⟩)))
  · rw [hsplit, ← hrest]
    refine .inl (.inr ?_)
    have hcode := strip_beforeComment hblanks (c := '/') (by decide) ('*' :: rest)
      (fun _ _ hmore => by cases hmore)
    have hstar : stripRight (beforeComment ('*' :: rest)) =
        '*' :: stripRight (beforeComment rest) := by
      rw [beforeComment_cons fun _ hslash _ => by cases hslash]
      exact stripRight_append [] (by decide) (beforeComment rest)
    rw [hstar] at hcode
    exact ⟨stripRight (beforeComment rest), hcode.symm⟩
  · rw [hsplit, ← hrest]
    refine .inr ?_
    have hcode := strip_beforeComment hblanks (c := '*') (by decide) rest
      (fun _ hstar _ => by cases hstar)
    exact ⟨stripRight (beforeComment rest), hcode.symm⟩

theorem codeLines_of_remarks {lines : List Line} (h : ∀ line ∈ lines, isRemark line = true) :
    codeLines lines = [] :=
  List.filterMap_eq_nil_iff.mpr fun line hline => code?_of_remark (h line hline)

section

variable {start rest front : Line} {below : List Line} {c : Char}
  (h : Legible start rest below) (hstart : start = front ++ [c]) (hc : isBlank c = false)

include h hstart hc

/-- The code of the line on which the last token ends. -/
theorem exists_code : ∃ code, code? (start ++ rest) = some code ∧
    endsStatement code = endsStatement start ∧
    (endsStatement start = true → code.getLast? = some c) := by
  obtain ⟨gap, hgap, hbehind⟩ := h.behind
  obtain ⟨blanks, hblanks, hsplit⟩ := exists_blanks_append start
  have hfilled : ¬ allBlank start = true := by
    intro hall
    rw [hstart] at hall
    rw [isBlank_of_mem hall (List.mem_append_right _ (List.mem_singleton_self c))] at hc
    cases hc
  obtain ⟨code, hcode⟩ : ∃ code, stripLeft start = code ++ [c] := by
    obtain hnil | ⟨code, last, hleft⟩ := List.eq_nil_or_concat (stripLeft start)
    · exact absurd (stripLeft_eq_nil_iff.mp hnil) hfilled
    · rw [List.concat_eq_append] at hleft
      rw [hleft, hstart, ← List.append_assoc] at hsplit
      obtain ⟨-, hlast⟩ := List.append_inj' hsplit rfl
      exact ⟨code, by rw [hleft, ← hlast]⟩
  have hstrip : strip (beforeComment (start ++ rest)) = code ++ [c] ++ stripRight gap := by
    rw [hgap]
    unfold strip
    rw [stripLeft_append_of_not_allBlank _ hfilled, hcode, stripRight_append _ hc]
  -- what is left is the front of the line, which does not begin like a line of a comment
  have hprefix : code ++ [c] ++ stripRight gap <+: stripLeft (start ++ rest) := by
    have hline : gap <+: rest := by
      have hbefore := prefix_beforeComment (start ++ rest)
      rw [hgap] at hbefore
      exact (List.prefix_append_right_inj start).mp hbefore
    rw [stripLeft_append_of_not_allBlank _ hfilled, hcode]
    exact (List.prefix_append_right_inj _).mpr ((prefix_stripRight gap).trans hline)
  have hfound : code? (start ++ rest) = some (code ++ [c] ++ stripRight gap) := by
    unfold code?
    dsimp only
    rw [hstrip, if_neg]
    simp only [Bool.or_eq_true, List.isEmpty_iff, startsWith_iff]
    rintro ((hnil | hblock) | hstar)
    · simp at hnil
    · exact Bool.false_ne_true (h.front.1.symm.trans (startsWith_iff.mpr (hblock.trans hprefix)))
    · exact Bool.false_ne_true (h.front.2.symm.trans (startsWith_iff.mpr (hstar.trans hprefix)))
  have hlast : (code ++ [c]).getLast? = start.getLast? := by
    rw [hstart, List.getLast?_concat, List.getLast?_concat]
  have hsame : endsStatement (code ++ [c]) = endsStatement start := by
    unfold endsStatement
    rw [hlast]
  refine ⟨_, hfound, ?_⟩
  cases hrest : stripRight gap with
  | nil =>
      rw [List.append_nil]
      exact ⟨hsame, fun _ => List.getLast?_concat⟩
  | cons d more =>
      -- then a comment stands behind the token, which ends no statement
      obtain hblank | ⟨hopen, hmore⟩ := hbehind
      · rw [stripRight_of_allBlank hblank] at hrest
        cases hrest
      · rw [hopen]
        refine ⟨?_, fun hends => by cases hends⟩
        rw [hrest] at hmore
        unfold endsStatement at hmore ⊢
        rw [List.getLast?_append_of_ne_nil _ (List.cons_ne_nil d more)]
        exact hmore

/-- The last line of code ends a statement exactly if the last token does. -/
theorem exists_last_code (above : List Line) : ∃ code,
    (codeLines (above ++ (start ++ rest) :: below)).getLast? = some code ∧
      endsStatement code = endsStatement start ∧
      (endsStatement start = true → code.getLast? = some c) := by
  obtain ⟨code, hcode, hsame, hlast⟩ := exists_code h hstart hc
  have hcodes : codeLines (above ++ (start ++ rest) :: below) =
      codeLines above ++ code :: codeLines below := by
    unfold codeLines
    rw [List.filterMap_append, List.filterMap_cons_some hcode]
  rw [hcodes]
  obtain hnil | ⟨more, last, hmore⟩ := List.eq_nil_or_concat (codeLines below)
  · rw [hnil]
    exact ⟨code, List.getLast?_concat, hsame, hlast⟩
  · -- a line below that is no remark seems to end no statement
    rw [List.concat_eq_append] at hmore
    have hmem : last ∈ codeLines below :=
      hmore ▸ List.mem_append_right _ (List.mem_singleton_self last)
    obtain ⟨line, hline, hread⟩ := List.mem_filterMap.mp hmem
    obtain hremark | ⟨hopen, hends⟩ := h.below line hline
    · rw [code?_of_remark hremark] at hread
      cases hread
    · refine ⟨last, ?_, (hends last hread).trans hopen.symm, fun hclosed => ?_⟩
      · rw [hmore, ← List.cons_append, ← List.append_assoc, List.getLast?_concat]
      · rw [hopen] at hclosed
        cases hclosed

end

/-- What wrapping takes for the end of the snippet. -/
theorem endsInStatement_of_last {lines : List Line} {code : Line}
    (h : (codeLines lines).getLast? = some code) :
    (code.getLast? = some ';' → endsInStatement lines = true) ∧
      (endsStatement code = false → endsInStatement lines = false) := by
  obtain ⟨first, more, hcodes⟩ : ∃ first more, codeLines lines = first :: more := by
    cases hcodes : codeLines lines with
    | nil =>
        rw [hcodes] at h
        cases h
    | cons first more => exact ⟨first, more, rfl⟩
  have hhead : lastHead? (codeLines lines) =
      some (lastHeadFrom first 0 true (first :: more)) := by rw [hcodes]; rfl
  unfold endsInStatement
  dsimp only
  rw [h, hhead]
  dsimp only
  constructor
  · intro hlast
    rw [hlast]
    rfl
  · intro hends
    unfold endsStatement at hends
    obtain ⟨hsemicolon, hbrace⟩ := Bool.or_eq_false_iff.mp hends
    rw [hsemicolon, hbrace]
    rfl

/-! ## The law -/

/-- How a known token that is no closing brace ends. -/
theorem exists_last {t : Token} (hcloses : t.Closes) (hknown : Known t) (hbrace : t.text ≠ "\x7d") :
    ∃ front c, t.text.toList = front ++ [c] ∧ isBlank c = false ∧ c ≠ '\x7d' ∧
      (t.text = ";" ↔ c = ';') := by
  have hsingle : ∀ c : Char, t.text.toList = [c] → t.text = String.singleton c := by
    intro c hc
    rw [← String.ofList_toList (s := t.text), hc]
    rfl
  by_cases hkind : t.kind = .punctuation
  · obtain ⟨c, hc⟩ := hcloses.punctuation hkind
    obtain ⟨hfirst, hlast⟩ := hknown hkind c (hc ▸ List.mem_singleton_self c)
    refine ⟨[], c, hc, Bool.eq_false_iff.mpr fun hblank => ?_, ?_, fun hsemicolon => ?_, ?_⟩
    · have hfirst : 33 ≤ c.toNat := hfirst
      have hlast : c.toNat ≤ 126 := hlast
      unfold isBlank at hblank
      simp only [Bool.or_eq_true, Bool.and_eq_true, decide_eq_true_eq, beq_iff_eq] at hblank
      omega
    · rintro rfl
      exact hbrace (hsingle _ hc)
    · rw [hsemicolon] at hc
      exact (List.singleton_injective hc).symm
    · rintro rfl
      exact hsingle _ hc
  · obtain ⟨front, c, ⟨hblank, hsemicolon, hclosing⟩, hc⟩ := hcloses.other hkind
    refine ⟨front, c, hc, hblank, hclosing, fun htext => ?_, fun heq => absurd heq hsemicolon⟩
    rw [htext] at hc
    have hends : [] ++ [';'] = front ++ [c] := hc
    exact (List.singleton_injective (List.append_inj' hends rfl).2).symm

/-- Where the last token stands, the line has its last character. -/
theorem exists_front {above below : List Line} {start rest : Line} {word : List Char} {c : Char}
    (h : word ++ [c] ++ joinLines (rest :: below) <:+
      joinLines (above ++ (start ++ rest) :: below)) (hc : isBlank c = false) :
    ∃ front, start = front ++ [c] := by
  obtain ⟨before, hbefore⟩ := h
  rw [joinLines_split, ← List.append_assoc, ← List.append_assoc] at hbefore
  have hcancel := List.append_cancel_right hbefore
  obtain rfl | ⟨front, last, rfl⟩ := List.eq_nil_or_concat start
  · -- then a line end would be the last character of the token
    rw [List.append_nil] at hcancel
    obtain rfl | ⟨others, line, rfl⟩ := List.eq_nil_or_concat above
    · simp at hcancel
    · rw [List.concat_eq_append, List.flatMap_append, List.flatMap_singleton,
        ← List.append_assoc] at hcancel
      obtain ⟨-, hlast⟩ := List.append_inj' hcancel rfl
      rw [List.singleton_injective hlast] at hc
      cases hc
  · rw [List.concat_eq_append, ← List.append_assoc] at hcancel
    obtain ⟨-, hlast⟩ := List.append_inj' hcancel rfl
    exact ⟨front, by rw [List.concat_eq_append, hlast]⟩

/-- **The value rule.** If the last token is no closing brace, the program prints a value exactly if
it is no semicolon; without a token there is nothing to print. -/
theorem wrap_value {body : String} (h : EndsLegibly (wrapParts body).2) :
    (lastToken? (wrapParts body).2 = some none →
      wrap body = program false (wrapParts body).1 (wrapParts body).2) ∧
    ∀ t, lastToken? (wrapParts body).2 = some (some t) → Known t → t.text ≠ "\x7d" →
      (wrap body = program true (wrapParts body).1 (wrapParts body).2 ↔ t.text ≠ ";") ∧
        (wrap body = program false (wrapParts body).1 (wrapParts body).2 ↔ t.text = ";") := by
  simp only [wrap_eq_program_iff]
  generalize (wrapParts body).2 = lines at h ⊢
  cases h with
  | remarks hnone hall =>
      refine ⟨fun _ => ?_, fun t hlast => ?_⟩
      · unfold endsInStatement
        rw [codeLines_of_remarks hall]
        rfl
      · rw [hnone] at hlast
        cases hlast
  | @token found above below start rest hfound hsplit hlegible =>
      have hlast : lastToken? lines = some (some found) := by
        rw [← map_lastPlaced?, hfound]
        rfl
      refine ⟨fun hnone => ?_, fun t hlast' hknown hbrace => ?_⟩
      · rw [hnone] at hlast
        cases hlast
      · obtain rfl := Option.some.inj (Option.some.inj (hlast.symm.trans hlast'))
        obtain ⟨hcloses, hstands⟩ := closes_of_lastPlaced? hfound
        obtain ⟨word, c, htext, hc, hother, hiff⟩ := exists_last hcloses hknown hbrace
        rw [htext, hsplit] at hstands
        obtain ⟨front, hstart⟩ := exists_front hstands hc
        obtain ⟨code, hcode, hsame, hlastCode⟩ := exists_last_code hlegible hstart hc above
        obtain ⟨hstatement, hvalue⟩ := endsInStatement_of_last hcode
        have hends : endsStatement start = decide (c = ';') := by
          unfold endsStatement
          rw [hstart, List.getLast?_concat]
          simp [hother]
        rw [hsplit, hiff, ne_eq, hiff]
        by_cases hsemicolon : c = ';'
        · have hplain : endsInStatement (above ++ (start ++ rest) :: below) = true :=
            hstatement (hsemicolon ▸ hlastCode (by rw [hends, hsemicolon]; rfl))
          rw [hplain]
          simp [hsemicolon]
        · have hprints : endsInStatement (above ++ (start ++ rest) :: below) = false :=
            hvalue (by rw [hsame, hends]; exact decide_eq_false hsemicolon)
          rw [hprints]
          simp [hsemicolon]

/-- A snippet with comments of every form. -/
def lengthSnippet : String :=
  "let text = \"http://a\"; // a /* b\ntext.len() /* its\n * length */ // done\n\n// end\n"

/-- Its last token is a bracket, behind which there are comments only: its value is printed. -/
theorem wrap_value_lengthSnippet :
    EndsLegibly (wrapParts lengthSnippet).2 ∧
      lastToken? (wrapParts lengthSnippet).2 = some (some ⟨.punctuation, ")", true, false⟩) ∧
      wrap lengthSnippet =
        program true (wrapParts lengthSnippet).1 (wrapParts lengthSnippet).2 := by
  have hlegible : EndsLegibly (wrapParts lengthSnippet).2 := by
    refine @EndsLegibly.token _ ⟨.punctuation, ")", true, false⟩
      ["let text = \"http://a\"; // a /* b".toList]
      [" * length */ // done".toList, [], "// end".toList] "text.len()".toList " /* its".toList
      (by decide +kernel) rfl ⟨⟨" /* its".toList, rfl, .inr ⟨rfl, rfl⟩⟩, ⟨rfl, rfl⟩, ?_⟩
    intro line hline
    simp only [List.mem_cons, List.not_mem_nil, or_false] at hline
    rcases hline with rfl | rfl | rfl <;> exact .inl rfl
  have hlast : lastToken? (wrapParts lengthSnippet).2 =
      some (some ⟨.punctuation, ")", true, false⟩) := by decide +kernel
  have hknown : Known ⟨.punctuation, ")", true, false⟩ := by
    intro _ c hc
    obtain rfl : c = ')' := List.mem_singleton.mp hc
    exact ⟨by decide, by decide⟩
  refine ⟨hlegible, hlast, ?_⟩
  exact ((wrap_value hlegible).2 _ hlast hknown (by decide)).1.mpr (by decide)

/-- A literal with the mark of a line comment in it. -/
def addressSnippet : String := "let address = \"http://a\";\n"

/-- The last token is a semicolon, and a value is printed nevertheless. -/
theorem statement_is_printed :
    lastToken? (wrapParts addressSnippet).2 = some (some ⟨.punctuation, ";", true, false⟩) ∧
      wrap addressSnippet =
        program true (wrapParts addressSnippet).1 (wrapParts addressSnippet).2 ∧
      wrap addressSnippet ≠
        program false (wrapParts addressSnippet).1 (wrapParts addressSnippet).2 := by
  decide +kernel

end RustScript.Snippet
