import RustScript.Proofs.Project.PathText
import RustScript.Proofs.Text.Lines
import RustScript.Source.Fence

/-!
# Fragments between fences

A fragment that is put between an opening and a closing line is found again, verbatim, whatever code
stands around it: `manifestBlocks_fencedBody`. What looks like a fence inside a fragment or in the
middle of a line makes no difference, and neither does a fence that is never closed.
-/

set_option autoImplicit false

namespace RustScript.Text

/-! ## Lines of texts that are put together -/

theorem cutAt_append_cons (mark : Char) (front rest : List Char) :
    cutAt mark (front ++ mark :: rest) = cutAt mark front ++ cutAt mark rest := by
  rw [cutAt_eq_splitOn, cutAt_eq_splitOn, cutAt_eq_splitOn]
  exact List.splitOnP_append_cons front rest (beq_self_eq_true mark)

theorem cutLines_joinLines {texts : List (List Char)} (hne : texts ≠ []) :
    cutLines (joinLines texts) = texts.flatMap cutLines := by
  induction texts with
  | nil => exact absurd rfl hne
  | cons text rest ih =>
      cases rest with
      | nil => rw [joinLines, List.flatMap_singleton]
      | cons next more =>
          rw [joinLines_cons_cons, cutLines, cutAt_append_cons, List.flatMap_cons,
            ← ih (List.cons_ne_nil _ _)]
          rfl

theorem joinLines_eq_intercalate (lines : List (List Char)) :
    joinLines lines = ['\n'].intercalate lines := by
  induction lines with
  | nil => rfl
  | cons line rest ih =>
      cases rest with
      | nil => rw [joinLines, List.intercalate_singleton]
      | cons next more =>
          rw [joinLines_cons_cons, ih, List.intercalate_cons_cons, List.append_assoc,
            List.singleton_append]

theorem joinLines_cutLines (cs : List Char) : joinLines (cutLines cs) = cs := by
  rw [joinLines_eq_intercalate, cutLines, cutAt_eq_splitOn, List.intercalate_splitOn]

/-- The text is empty or ends in a line feed. -/
def WholeLines (cs : List Char) : Prop := cs = [] ∨ ∃ front, cs = front ++ ['\n']

/-- Behind whole lines a new line begins. -/
theorem WholeLines.exists_lines {cs : List Char} (h : WholeLines cs) :
    ∃ lines, (∀ line ∈ lines, line ∈ cutLines cs) ∧ cs = lines.flatMap (· ++ ['\n']) ∧
      ∀ rest, cutLines (cs ++ rest) = lines ++ cutLines rest := by
  obtain rfl | ⟨front, rfl⟩ := h
  · exact ⟨[], nofun, rfl, fun rest => rfl⟩
  · have hcut : ∀ rest, cutLines (front ++ ['\n'] ++ rest) = cutLines front ++ cutLines rest := by
      intro rest
      rw [List.append_assoc, List.singleton_append]
      exact cutAt_append_cons '\n' front rest
    have hlines : cutLines (front ++ ['\n']) = cutLines front ++ [[]] := by
      rw [← List.append_nil (front ++ _), hcut]
      rfl
    refine ⟨cutLines front, fun line hline => ?_, ?_, hcut⟩
    · rw [hlines]
      exact List.mem_append_left _ hline
    · rw [← joinLines_cutLines (front ++ ['\n']), hlines, joinLines_concat, List.append_nil]

end RustScript.Text

namespace RustScript.Source

open RustScript.Text

/-! ## Fences -/

/-- Spaces and tabs, or nothing. -/
def Indent (cs : List Char) : Prop := ∀ c ∈ cs, c = ' ' ∨ c = '\t'

/-- The line opens a block: there is nothing on it but the fence, the blanks around it, and a
carriage return at the end or none. -/
inductive OpeningLine : List Char → Prop
  | plain {indent blanks : List Char} : Indent indent → Indent blanks →
      OpeningLine (indent ++ openFence.toList ++ blanks)
  | returned {indent blanks : List Char} : Indent indent → Indent blanks →
      OpeningLine (indent ++ openFence.toList ++ blanks ++ ['\r'])

/-- The line closes a block: behind blanks stands the fence, and behind it anything. -/
inductive ClosingLine : List Char → Prop
  | fence {indent rest : List Char} : Indent indent → ClosingLine (indent ++ '*' :: '/' :: rest)

theorem isIndent_iff {c : Char} : isIndent c = true ↔ c = ' ' ∨ c = '\t' := by
  simp [isIndent]

theorem indent_iff {cs : List Char} : Indent cs ↔ cs.dropWhile isIndent = [] := by
  rw [List.dropWhile_eq_nil_iff]
  exact forall₂_congr fun _ _ => isIndent_iff.symm

/-- The blanks in front of a line and the rest of it. -/
theorem exists_indent (line : List Char) :
    ∃ indent, Indent indent ∧ line = indent ++ line.dropWhile isIndent :=
  ⟨line.takeWhile isIndent, fun _ hc => isIndent_iff.mp (List.mem_takeWhile_imp hc),
    List.takeWhile_append_dropWhile.symm⟩

theorem Indent.dropWhile_append {indent : List Char} (h : Indent indent) (rest : List Char) :
    (indent ++ rest).dropWhile isIndent = rest.dropWhile isIndent :=
  List.dropWhile_append_of_pos fun _ hc => isIndent_iff.mpr (h _ hc)

theorem closesBlock_iff {line : List Char} : closesBlock line = true ↔ ClosingLine line := by
  unfold closesBlock
  constructor
  · intro h
    obtain ⟨rest, hrest⟩ := Option.isSome_iff_exists.mp h
    obtain ⟨indent, hindent, hline⟩ := exists_indent line
    rw [eq_append_of_afterPrefix hrest] at hline
    rw [hline]
    exact .fence hindent
  · rintro ⟨hindent⟩
    rw [hindent.dropWhile_append]
    rfl

theorem opensBlock_iff {line : List Char} : opensBlock line = true ↔ OpeningLine line := by
  unfold opensBlock
  constructor
  · intro h
    obtain ⟨indent, hindent, hline⟩ := exists_indent line
    split at h
    · next rest hrest =>
        rw [eq_append_of_afterPrefix hrest, ← List.append_assoc] at hline
        rw [hline]
        obtain ⟨blanks, hblanks, hsplit⟩ := exists_indent rest
        rw [hsplit]
        obtain hnil | hreturn := Bool.or_eq_true_iff.mp h
        · rw [beq_iff_eq.mp hnil, List.append_nil]
          exact .plain hindent hblanks
        · rw [beq_iff_eq.mp hreturn, ← List.append_assoc]
          exact .returned hindent hblanks
    · cases h
  · intro h
    have hfence : ∀ {indent : List Char}, Indent indent → ∀ rest,
        afterPrefix openFence.toList ((indent ++ openFence.toList ++ rest).dropWhile isIndent) =
          some rest := by
      intro indent hindent rest
      rw [List.append_assoc, hindent.dropWhile_append]
      exact afterPrefix_append openFence.toList rest
    cases h with
    | plain hindent hblanks =>
        rw [hfence hindent]
        dsimp only
        rw [indent_iff.mp hblanks]
        rfl
    | returned hindent hblanks =>
        rw [List.append_assoc, hfence hindent]
        dsimp only
        rw [hblanks.dropWhile_append]
        rfl

instance : DecidablePred OpeningLine := fun _ => decidable_of_iff _ opensBlock_iff

instance : DecidablePred ClosingLine := fun _ => decidable_of_iff _ closesBlock_iff

/-! ## Blocks among lines -/

variable {lines rest : List (List Char)} {line : List Char}

/-- Lines that open no block are passed over. -/
theorem blocksOf_append_of_not_opens (h : ∀ line ∈ lines, ¬ OpeningLine line) :
    blocksOf (lines ++ rest) = blocksOf rest := by
  induction lines with
  | nil => rfl
  | cons line lines ih =>
      obtain ⟨hline, hlines⟩ := List.forall_mem_cons.mp h
      rw [List.cons_append, blocksOf, if_neg (mt opensBlock_iff.mp hline), ih hlines]

/-- Up to the first closing line everything belongs to the block. -/
theorem blockText_append_of_closes (h : ∀ line ∈ lines, ¬ ClosingLine line)
    (hline : ClosingLine line) :
    blockText (lines ++ line :: rest) = some (lines.flatMap (· ++ ['\n']), rest) := by
  induction lines with
  | nil => rw [List.nil_append, blockText, if_pos (closesBlock_iff.mpr hline), List.flatMap_nil]
  | cons first lines ih =>
      obtain ⟨hfirst, hlines⟩ := List.forall_mem_cons.mp h
      rw [List.cons_append, blockText, if_neg (mt closesBlock_iff.mp hfirst), ih hlines,
        Option.map_some, List.flatMap_cons, List.append_assoc, List.singleton_append]

theorem blocksOf_cons_of_opens (h : OpeningLine line) : blocksOf (line :: lines) =
    match blockText lines with
    | some (text, after) => text :: blocksOf after
    | none => [] := by
  rw [blocksOf, if_pos (opensBlock_iff.mpr h)]
  split <;> next heq => rw [heq]

theorem blockText_of_not_closes (h : ∀ line ∈ lines, ¬ ClosingLine line) :
    blockText lines = none := by
  induction lines with
  | nil => rfl
  | cons line lines ih =>
      obtain ⟨hline, hlines⟩ := List.forall_mem_cons.mp h
      rw [blockText, if_neg (mt closesBlock_iff.mp hline), ih hlines, Option.map_none]

/-- Lines that close no block end none that is open in front of them. -/
theorem blockText_append_of_not_closes (h : ∀ line ∈ rest, ¬ ClosingLine line) :
    blockText (lines ++ rest) =
      (blockText lines).map fun found => (found.1, found.2 ++ rest) := by
  induction lines with
  | nil => rw [List.nil_append, blockText_of_not_closes h, blockText, Option.map_none]
  | cons line lines ih =>
      rw [List.cons_append, blockText, blockText, ih]
      split
      · rfl
      · rw [Option.map_map, Option.map_map]
        rfl

/-- **Lines that close no block add none**, also if they open some. -/
theorem blocksOf_append_of_not_closes (h : ∀ line ∈ rest, ¬ ClosingLine line) :
    blocksOf (lines ++ rest) = blocksOf lines := by
  fun_induction blocksOf lines with
  | case1 =>
      rw [List.nil_append]
      induction rest with
      | nil => rw [blocksOf]
      | cons line rest ih =>
          obtain ⟨-, hrest⟩ := List.forall_mem_cons.mp h
          by_cases hopens : OpeningLine line
          · rw [blocksOf_cons_of_opens hopens, blockText_of_not_closes hrest]
          · rw [blocksOf, if_neg (mt opensBlock_iff.mp hopens), ih hrest]
  | case2 line lines hopens text after hblock ih =>
      rw [List.cons_append, blocksOf_cons_of_opens (opensBlock_iff.mp hopens),
        blockText_append_of_not_closes h, hblock]
      exact congrArg (text :: ·) ih
  | case3 line lines hopens hnone =>
      rw [List.cons_append, blocksOf_cons_of_opens (opensBlock_iff.mp hopens),
        blockText_append_of_not_closes h, hnone, Option.map_none]
  | case4 line lines hopens ih => rw [List.cons_append, blocksOf, if_neg hopens, ih]

/-! ## Blocks in a text -/

/-- A fragment between its fences, and the code in front of them. -/
structure Fenced where
  /-- Whole lines, none of which opens a block. -/
  code : List Char
  opening : List Char
  /-- Whole lines, none of which closes a block. -/
  fragment : List Char
  closing : List Char
  code_whole : WholeLines code
  code_idle : ∀ line ∈ cutLines code, ¬ OpeningLine line
  opens : OpeningLine opening
  fragment_whole : WholeLines fragment
  fragment_open : ∀ line ∈ cutLines fragment, ¬ ClosingLine line
  closes : ClosingLine closing
  one_line : '\n' ∉ closing

/-- The code, the fences and the fragment, up to the end of the closing line. -/
def Fenced.text (fenced : Fenced) : List Char :=
  fenced.code ++ (fenced.opening ++ '\n' :: (fenced.fragment ++ fenced.closing))

/-- A script with fenced fragments, and with code behind the last of them, if there is any text
behind its closing line. -/
def fencedBody (blocks : List Fenced) (last : Option (List Char)) : List Char :=
  joinLines (blocks.map Fenced.text ++ last.toList)

theorem OpeningLine.feed_not_mem {line : List Char} (h : OpeningLine line) : '\n' ∉ line := by
  have hindent : ∀ {cs : List Char}, Indent cs → '\n' ∉ cs := fun hcs hmem =>
    absurd (hcs '\n' hmem) (by decide)
  have hfence : '\n' ∉ openFence.toList := by decide
  cases h with
  | plain hfront hback => simp [hindent hfront, hindent hback, hfence]
  | returned hfront hback => simp [hindent hfront, hindent hback, hfence]

/-- A fenced fragment is found, and behind its closing line the search goes on. -/
theorem Fenced.blocksOf_append (fenced : Fenced) (rest : List (List Char)) :
    blocksOf (cutLines fenced.text ++ rest) = fenced.fragment :: blocksOf rest := by
  obtain ⟨codeLines, hcode, -, hcutCode⟩ := fenced.code_whole.exists_lines
  obtain ⟨lines, hlines, hfragment, hcut⟩ := fenced.fragment_whole.exists_lines
  have htext : cutLines fenced.text =
      codeLines ++ fenced.opening :: (lines ++ [fenced.closing]) := by
    rw [Fenced.text, hcutCode, cutLines, cutAt_append_cons,
      cutAt_of_not_mem fenced.opens.feed_not_mem, List.singleton_append]
    refine congrArg (codeLines ++ fenced.opening :: ·) ((hcut _).trans ?_)
    exact congrArg (lines ++ ·) (cutAt_of_not_mem fenced.one_line)
  rw [htext, List.append_assoc,
    blocksOf_append_of_not_opens fun line hline => fenced.code_idle line (hcode line hline),
    List.cons_append, blocksOf_cons_of_opens fenced.opens, List.append_assoc,
    List.singleton_append, blockText_append_of_closes
      (fun line hline => fenced.fragment_open line (hlines line hline)) fenced.closes,
    ← hfragment]

theorem blocksOf_fenced (blocks : List Fenced) (rest : List (List Char)) :
    blocksOf ((blocks.map Fenced.text).flatMap cutLines ++ rest) =
      blocks.map Fenced.fragment ++ blocksOf rest := by
  induction blocks with
  | nil => rfl
  | cons fenced blocks ih =>
      rw [List.map_cons, List.flatMap_cons, List.append_assoc, fenced.blocksOf_append, ih,
        List.map_cons, List.cons_append]

theorem blocksOf_of_not_opens (h : ∀ line ∈ lines, ¬ OpeningLine line) : blocksOf lines = [] := by
  rw [← List.append_nil lines, blocksOf_append_of_not_opens h, blocksOf]

theorem blocksOf_fencedBody (blocks : List Fenced) {last : Option (List Char)}
    (hlast : ∀ code ∈ last, blocksOf (cutLines code) = []) :
    blocksOf (cutLines (fencedBody blocks last)) = blocks.map Fenced.fragment := by
  unfold fencedBody
  by_cases hne : blocks.map Fenced.text ++ last.toList = []
  · obtain ⟨hblocks, -⟩ := List.append_eq_nil_iff.mp hne
    rw [hne, List.map_eq_nil_iff.mp hblocks, List.map_nil]
    exact blocksOf_of_not_opens (by decide)
  · have hnone : blocksOf (last.toList.flatMap cutLines) = [] := by
      cases last with
      | none => rw [Option.toList_none, List.flatMap_nil, blocksOf]
      | some code => rw [Option.toList_some, List.flatMap_singleton, hlast code rfl]
    rw [cutLines_joinLines hne, List.flatMap_append, blocksOf_fenced, hnone, List.append_nil]

/-- Behind whole lines, text without a closing line adds no block. -/
theorem blocksOf_append_unclosed {body more : List Char} (hbody : WholeLines body)
    (h : ∀ line ∈ cutLines more, ¬ ClosingLine line) :
    blocksOf (cutLines (body ++ more)) = blocksOf (cutLines body) := by
  obtain ⟨lines, -, -, hcut⟩ := hbody.exists_lines
  have hcutBody : cutLines body = lines ++ [[]] := by
    rw [← List.append_nil body, hcut]
    rfl
  rw [hcut, hcutBody, blocksOf_append_of_not_closes h, blocksOf_append_of_not_closes]
  decide

/-! ## In the middle of a line -/

theorem dropWhile_append_of_not_indent {front : List Char} (h : ¬ Indent front)
    (back : List Char) : (front ++ back).dropWhile isIndent = front.dropWhile isIndent ++ back := by
  rw [List.dropWhile_append, if_neg]
  rw [List.isEmpty_iff]
  exact mt indent_iff.mpr h

theorem ClosingLine.dropWhile {line : List Char} (h : ClosingLine line) :
    ∃ rest, line.dropWhile isIndent = '*' :: '/' :: rest := by
  obtain ⟨hindent⟩ := h
  exact ⟨_, hindent.dropWhile_append _⟩

theorem ClosingLine.of_dropWhile {line rest : List Char}
    (h : line.dropWhile isIndent = '*' :: '/' :: rest) : ClosingLine line := by
  obtain ⟨indent, hindent, hline⟩ := exists_indent line
  rw [hline, h]
  exact .fence hindent

/-- The fence of an opening line is its only text. -/
theorem OpeningLine.slash {line : List Char} (h : OpeningLine line) :
    line.count '/' = 1 ∧ (line.dropWhile isIndent).head? = some '/' := by
  have hcount : ∀ {cs : List Char}, Indent cs → cs.count '/' = 0 := fun hcs =>
    List.count_eq_zero_of_not_mem fun hmem => absurd (hcs '/' hmem) (by decide)
  have hfence : openFence.toList.count '/' = 1 := by decide
  have hreturn : ['\r'].count '/' = 0 := by decide
  cases h with
  | plain hfront hback =>
      refine ⟨by simp only [List.count_append, hcount hfront, hcount hback, hfence], ?_⟩
      rw [List.append_assoc, hfront.dropWhile_append]
      rfl
  | returned hfront hback =>
      refine ⟨by simp only [List.count_append, hcount hfront, hcount hback, hfence, hreturn], ?_⟩
      rw [List.append_assoc, List.append_assoc, hfront.dropWhile_append]
      rfl

/-- A fence that stands behind anything but blanks opens no block. -/
theorem not_openingLine_of_not_indent {front : List Char} (h : ¬ Indent front)
    (back : List Char) : ¬ OpeningLine (front ++ (openFence.toList ++ back)) := by
  intro hline
  -- the line would begin with a slash in front of the one in the fence
  obtain ⟨hcount, hhead⟩ := hline.slash
  obtain ⟨c, more, hcons⟩ := List.exists_cons_of_ne_nil (mt indent_iff.mpr h)
  rw [dropWhile_append_of_not_indent h, hcons, List.cons_append, List.head?_cons] at hhead
  have hfront : '/' ∈ front := by
    rw [← Option.some_inj.mp hhead]
    exact (List.dropWhile_sublist isIndent).mem (hcons ▸ List.mem_cons_self)
  have hpositive := List.count_pos_iff.mpr hfront
  have hfence : openFence.toList.count '/' = 1 := by decide
  rw [List.count_append, List.count_append, hfence] at hcount
  omega

/-- A fence that stands behind anything but blanks makes no line a closing one. -/
theorem closingLine_append_iff {front : List Char} (h : ¬ Indent front) (back : List Char) :
    ClosingLine (front ++ '*' :: '/' :: back) ↔ ClosingLine front := by
  have hdrop := dropWhile_append_of_not_indent h ('*' :: '/' :: back)
  constructor
  · intro hline
    obtain ⟨rest, hrest⟩ := hline.dropWhile
    rw [hdrop] at hrest
    rcases hfront : front.dropWhile isIndent with _ | ⟨c, _ | ⟨d, more⟩⟩
    · exact absurd (indent_iff.mpr hfront) h
    · rw [hfront] at hrest
      exact absurd (List.cons.inj (List.cons.inj hrest).2).1 (by decide)
    · rw [hfront] at hrest
      obtain ⟨hc, hbehind⟩ := List.cons.inj hrest
      rw [hc, (List.cons.inj hbehind).1] at hfront
      exact .of_dropWhile hfront
  · intro hline
    obtain ⟨rest, hrest⟩ := hline.dropWhile
    rw [hrest] at hdrop
    exact .of_dropWhile hdrop

/-- An opening line closes nothing. -/
theorem OpeningLine.not_closingLine {line : List Char} (h : OpeningLine line) :
    ¬ ClosingLine line := by
  intro hcloses
  obtain ⟨rest, hrest⟩ := hcloses.dropWhile
  have hhead := h.slash.2
  rw [hrest] at hhead
  cases hhead

/-- **Fenced fragments are found again**, verbatim and in order. An opening line that no line closes
adds no block. Text that looks like a fence counts only where blanks alone stand in front of it on
its line, and inside a fragment what looks like an opening line does not count at all. -/
theorem manifestBlocks_fencedBody (blocks : List Fenced) {last : Option (List Char)}
    (hlast : ∀ code ∈ last, ∀ line ∈ cutLines code, ¬ OpeningLine line) :
    manifestBlocks (String.ofList (fencedBody blocks last)) =
        blocks.map (fun fenced => String.ofList fenced.fragment) ∧
      (∀ opening more, WholeLines (fencedBody blocks last) → OpeningLine opening →
        (∀ line ∈ cutLines more, ¬ ClosingLine line) →
          manifestBlocks (String.ofList (fencedBody blocks last ++ (opening ++ '\n' :: more))) =
            blocks.map fun fenced => String.ofList fenced.fragment) ∧
      ∀ front back, ¬ Indent front →
        ¬ OpeningLine (front ++ (openFence.toList ++ back)) ∧
          (ClosingLine (front ++ '*' :: '/' :: back) ↔ ClosingLine front) := by
  have hblocks := blocksOf_fencedBody blocks fun code hcode =>
    blocksOf_of_not_opens (hlast code hcode)
  refine ⟨?_, fun opening more hwhole hopens hmore => ?_, fun front back hfront =>
    ⟨not_openingLine_of_not_indent hfront back, closingLine_append_iff hfront back⟩⟩
  · rw [manifestBlocks, String.toList_ofList, hblocks, List.map_map]
    rfl
  · have hunclosed : ∀ line ∈ cutLines (opening ++ '\n' :: more), ¬ ClosingLine line := by
      rw [cutLines, cutAt_append_cons, cutAt_of_not_mem hopens.feed_not_mem, List.singleton_append]
      exact List.forall_mem_cons.mpr ⟨hopens.not_closingLine, hmore⟩
    rw [manifestBlocks, String.toList_ofList, blocksOf_append_unclosed hwhole hunclosed, hblocks,
      List.map_map]
    rfl

/-- A fragment with an opening line in it, behind code with fences that are none. -/
def oddBlock : Fenced where
  code := "let s = \"/*[toml]\";\n*/\n".toList
  opening := " /*[toml]\t\r".toList
  fragment := "/*[toml]\na = 1 # */\n".toList
  closing := "\t*/ /*[toml]".toList
  code_whole := .inr ⟨"let s = \"/*[toml]\";\n*/".toList, by decide⟩
  code_idle := by decide
  opens := by decide
  fragment_whole := .inr ⟨"/*[toml]\na = 1 # */".toList, by decide⟩
  fragment_open := by decide
  closes := by decide
  one_line := by decide

/-- An empty fragment, without code in front of it. -/
def bareBlock : Fenced where
  code := []
  opening := openFence.toList
  fragment := []
  closing := ['*', '/']
  code_whole := .inl rfl
  code_idle := by decide
  opens := by decide
  fragment_whole := .inl rfl
  fragment_open := by decide
  closes := by decide
  one_line := by decide

theorem manifestBlocks_oddBlock :
    (∀ code ∈ some "fn f();\n".toList, ∀ line ∈ cutLines code, ¬ OpeningLine line) ∧
      manifestBlocks (String.ofList (fencedBody [oddBlock, bareBlock] (some "fn f();\n".toList))) =
        ["/*[toml]\na = 1 # */\n", ""] ∧
      manifestBlocks (String.ofList (fencedBody [oddBlock, bareBlock] (some "fn f();\n".toList) ++
        (openFence.toList ++ '\n' :: "a = 2\n".toList))) = ["/*[toml]\na = 1 # */\n", ""] ∧
      ¬ OpeningLine "s = /*[toml]".toList ∧ ¬ ClosingLine "a = 1 # */".toList := by
  have hlast : ∀ code ∈ some "fn f();\n".toList, ∀ line ∈ cutLines code, ¬ OpeningLine line := by
    intro code hcode
    obtain rfl := Option.some_inj.mp hcode
    decide
  have hwhole : WholeLines (fencedBody [oddBlock, bareBlock] (some "fn f();\n".toList)) :=
    .inr ⟨fencedBody [oddBlock, bareBlock] (some "fn f();".toList), by decide⟩
  obtain ⟨hblocks, hunclosed, hmiddle⟩ := manifestBlocks_fencedBody [oddBlock, bareBlock] hlast
  refine ⟨hlast, hblocks, hunclosed _ _ hwhole (by decide) (by decide), ?_, ?_⟩
  · exact (hmiddle "s = ".toList [] (by rw [indent_iff]; decide)).1
  · exact mt (hmiddle "a = 1 # ".toList [] (by rw [indent_iff]; decide)).2.mp (by decide)

end RustScript.Source
