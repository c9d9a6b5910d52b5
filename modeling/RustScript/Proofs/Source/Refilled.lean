import RustScript.Proofs.Source.Analyzed
import RustScript.Proofs.Source.Fenced
import RustScript.Proofs.Source.Live

/-!
# Scripts with other fragments in their blocks

A script may be taken apart into its manifest blocks and the code around them
(`exists_fencedBody`). With other fragments between the same fences it has the same facts, as a scan
takes blocks away with the comments (`scan_refilled`). The readers of directives and descriptions do
not: they read the lines of fragments like other lines (`readings_fencedBody`).
-/

set_option autoImplicit false

namespace RustScript.Source

open RustScript.Text

/-! ## The blocks of a script -/

/-- The blocks differ in nothing but their fragments. -/
structure SameFences (block block' : Fenced) : Prop where
  code : block'.code = block.code
  opening : block'.opening = block.opening
  closing : block'.closing = block.closing

theorem wholeLines_flatMap (lines : List (List Char)) : WholeLines (lines.flatMap (· ++ ['\n'])) := by
  obtain rfl | ⟨above, line, rfl⟩ := List.eq_nil_or_concat lines
  · exact .inl rfl
  · refine .inr ⟨above.flatMap (· ++ ['\n']) ++ line, ?_⟩
    rw [List.concat_eq_append, List.flatMap_append, List.flatMap_singleton, List.append_assoc]

theorem cutLines_flatMap {lines : List (List Char)} (h : ∀ line ∈ lines, '\n' ∉ line)
    (rest : List Char) :
    cutLines (lines.flatMap (· ++ ['\n']) ++ rest) = lines ++ cutLines rest := by
  induction lines with
  | nil => rfl
  | cons line lines ih =>
      obtain ⟨hline, hlines⟩ := List.forall_mem_cons.mp h
      rw [List.flatMap_cons, List.append_assoc, List.append_assoc, List.singleton_append, cutLines,
        cutAt_append_cons, cutAt_of_not_mem hline]
      exact congrArg (line :: ·) (ih hlines)

/-- Joined lines are found again. -/
theorem cutLines_joinLines_of_feed {lines : List (List Char)} (hne : lines ≠ [])
    (h : ∀ line ∈ lines, '\n' ∉ line) : cutLines (joinLines lines) = lines := by
  rw [cutLines_joinLines hne]
  exact (List.flatMap_congr fun line hline => cutAt_of_not_mem (h line hline)).trans
    (List.flatMap_singleton' lines)

/-- A block is closed by the first closing line. -/
theorem exists_of_blockText {lines after : List (List Char)} {text : List Char}
    (h : blockText lines = some (text, after)) :
    ∃ content closing, lines = content ++ closing :: after ∧ ClosingLine closing ∧
      (∀ line ∈ content, ¬ ClosingLine line) ∧ text = content.flatMap (· ++ ['\n']) := by
  induction lines generalizing text with
  | nil => cases h
  | cons line rest ih =>
      rw [blockText] at h
      split_ifs at h with hcloses
      · obtain ⟨rfl, rfl⟩ := Prod.mk.inj (Option.some.inj h)
        exact ⟨[], line, rfl, closesBlock_iff.mp hcloses, List.forall_mem_nil _, rfl⟩
      · obtain ⟨found, hfound, heq⟩ := Option.map_eq_some_iff.mp h
        obtain ⟨rfl, rfl⟩ := Prod.mk.inj heq
        obtain ⟨content, closing, rfl, hclosing, hcontent, htext⟩ := ih hfound
        refine ⟨line :: content, closing, rfl, hclosing, ?_, ?_⟩
        · exact List.forall_mem_cons.mpr ⟨mt closesBlock_iff.mpr hcloses, hcontent⟩
        · rw [htext, List.flatMap_cons, List.append_assoc, List.singleton_append]

/-- Where blocks are found, a first one is. -/
theorem exists_of_blocksOf {lines : List (List Char)} (h : blocksOf lines ≠ []) :
    ∃ code opening content closing after, lines = code ++ opening :: (content ++ closing :: after) ∧
      (∀ line ∈ code, ¬ OpeningLine line) ∧ OpeningLine opening ∧
      (∀ line ∈ content, ¬ ClosingLine line) ∧ ClosingLine closing := by
  fun_induction blocksOf lines with
  | case1 => exact absurd rfl h
  | case2 line rest hopens text after hblock _ =>
      obtain ⟨content, closing, rfl, hclosing, hcontent, -⟩ := exists_of_blockText hblock
      exact ⟨[], line, content, closing, after, rfl, List.forall_mem_nil _, opensBlock_iff.mp hopens,
        hcontent, hclosing⟩
  | case3 => exact absurd rfl h
  | case4 line rest hopens ih =>
      obtain ⟨code, opening, content, closing, after, rfl, hcode, hblock⟩ := ih h
      exact ⟨line :: code, opening, content, closing, after, rfl,
        List.forall_mem_cons.mpr ⟨mt opensBlock_iff.mpr hopens, hcode⟩, hblock⟩

theorem not_of_mem_cutLines_flatMap {P : List Char → Prop} {lines : List (List Char)}
    (hfeed : ∀ line ∈ lines, '\n' ∉ line) (hlines : ∀ line ∈ lines, ¬ P line) (hnil : ¬ P []) :
    ∀ line ∈ cutLines (lines.flatMap (· ++ ['\n'])), ¬ P line := by
  rw [← List.append_nil (lines.flatMap _), cutLines_flatMap hfeed]
  exact List.forall_mem_append.mpr ⟨hlines, List.forall_mem_singleton.mpr hnil⟩

/-- Lines consist of blocks with the code in front of them and of the code behind the last one. -/
theorem exists_fenced {lines : List (List Char)} (hfeed : ∀ line ∈ lines, '\n' ∉ line) :
    ∃ (blocks : List Fenced) (last : Option (List Char)),
      lines = (blocks.map Fenced.text ++ last.toList).flatMap cutLines ∧
      ∀ code ∈ last, blocksOf (cutLines code) = [] := by
  -- the lines behind the first block are taken apart in the same way
  induction hlength : lines.length using Nat.strongRecOn generalizing lines with
  | ind n ih =>
      by_cases hblocks : blocksOf lines = []
      · by_cases hne : lines = []
        · exact ⟨[], none, hne, nofun⟩
        · have hlines := cutLines_joinLines_of_feed hne hfeed
          refine ⟨[], some (joinLines lines), ?_, fun code hcode => ?_⟩
          · simp [hlines]
          · rw [← Option.some.inj hcode, hlines, hblocks]
      · obtain ⟨code, opening, content, closing, after, rfl, hcode, hopening, hcontent, hclosing⟩ :=
          exists_of_blocksOf hblocks
        simp only [List.forall_mem_append, List.forall_mem_cons] at hfeed
        obtain ⟨hcodeFeed, -, hcontentFeed, hclosingFeed, hafter⟩ := hfeed
        obtain ⟨blocks, last, hrest, hlast⟩ := ih after.length (by simp [← hlength]; omega) hafter rfl
        let block : Fenced := {
          code := code.flatMap (· ++ ['\n'])
          opening
          fragment := content.flatMap (· ++ ['\n'])
          closing
          code_whole := wholeLines_flatMap code
          code_idle := not_of_mem_cutLines_flatMap hcodeFeed hcode (by decide)
          opens := hopening
          fragment_whole := wholeLines_flatMap content
          fragment_open := not_of_mem_cutLines_flatMap hcontentFeed hcontent (by decide)
          closes := hclosing
          one_line := hclosingFeed }
        have htext : cutLines block.text = code ++ opening :: (content ++ [closing]) := by
          show cutLines (code.flatMap _ ++ (opening ++ '\n' :: (content.flatMap _ ++ closing))) = _
          rw [cutLines_flatMap hcodeFeed, cutLines, cutAt_append_cons,
            cutAt_of_not_mem hopening.feed_not_mem, List.singleton_append]
          refine congrArg (code ++ opening :: ·) ((cutLines_flatMap hcontentFeed _).trans ?_)
          exact congrArg (content ++ ·) (cutAt_of_not_mem hclosingFeed)
        refine ⟨block :: blocks, last, ?_, hlast⟩
        rw [List.map_cons, List.cons_append, List.flatMap_cons, ← hrest, htext]
        simp

/-- **Every script** consists of its blocks with the code in front of them and of the code behind the
last one. -/
theorem exists_fencedBody (cs : List Char) :
    ∃ (blocks : List Fenced) (last : Option (List Char)), cs = fencedBody blocks last ∧
      blocksOf (cutLines cs) = blocks.map Fenced.fragment ∧
      ∀ code ∈ last, blocksOf (cutLines code) = [] := by
  have hfeed : ∀ line ∈ cutLines cs, '\n' ∉ line := fun _ => not_mem_of_mem_cutAt
  obtain ⟨blocks, last, hlines, hlast⟩ := exists_fenced hfeed
  have hne : blocks.map Fenced.text ++ last.toList ≠ [] := by
    intro hnil
    rw [hnil, List.flatMap_nil] at hlines
    exact absurd hlines (by rw [cutLines, cutAt_eq_splitOn]; exact List.splitOnP_ne_nil _ _)
  have hbody : cs = fencedBody blocks last := by
    rw [← joinLines_cutLines cs, hlines, ← cutLines_joinLines hne, joinLines_cutLines]
    rfl
  refine ⟨blocks, last, hbody, ?_, hlast⟩
  rw [hbody, blocksOf_fencedBody blocks hlast]

/-! ## What a scan sees of blocks -/

theorem afterClose_append_of_none {front cs : List Char} (h : afterClose front = none)
    (hcs : ∀ rest, cs ≠ '/' :: rest) : afterClose (front ++ cs) = afterClose cs := by
  fun_induction afterClose front with
  | case1 => rfl
  | case2 => cases h
  | case3 c front hclose ih =>
      rw [List.cons_append, afterClose, ih h]
      rintro rest rfl hrest
      cases front with
      | nil => exact hcs rest hrest
      | cons d front =>
          obtain ⟨rfl, -⟩ := List.cons.inj hrest
          exact hclose front rfl rfl

/-- A block goes with the comments, and with it a comment that begins in front of it. -/
theorem exists_front (cs gap : List Char) (hgap : allBlank ('\n' :: gap)) :
    ∃ front, ∀ inner rest, (∀ more, inner ≠ '/' :: more) → afterClose inner = some rest →
      removeBlockComments (cs ++ '\n' :: (gap ++ '/' :: '*' :: inner)) =
        front ++ removeBlockComments rest := by
  -- the induction is on what stands in front of the block, comment by comment
  induction hlength : cs.length using Nat.strongRecOn generalizing cs with
  | ind n ih =>
      by_cases hopen : OpensComment cs
      · obtain ⟨behind, rfl⟩ := hopen
        cases hclose : afterClose behind with
        | some after =>
            have hshort := length_afterClose_lt hclose
            obtain ⟨front, hfront⟩ := ih after.length
              (by simp only [← hlength, List.length_cons]; omega) after rfl
            refine ⟨front, fun inner rest hslash hinner => ?_⟩
            rw [← hfront inner rest hslash hinner, List.cons_append, List.cons_append,
              removeBlockComments_of_afterClose (afterClose_append hclose _)]
        | none =>
            -- the comment is still open at the fence, so it ends where the block does
            refine ⟨[], fun inner rest hslash hinner => ?_⟩
            have hstar : afterClose ('*' :: inner) = some rest := by
              rw [afterClose, hinner]
              exact fun more _ => hslash more
            rw [List.cons_append, List.cons_append, removeBlockComments_of_afterClose,
              List.nil_append]
            rw [afterClose_append_of_none hclose fun _ heq => absurd (List.cons.inj heq).1 (by decide),
              ← List.cons_append, afterClose_blank_append hgap, afterClose_cons (by decide), hstar]
      · cases cs with
        | nil =>
            refine ⟨'\n' :: gap, fun inner rest _ hinner => ?_⟩
            rw [List.nil_append, ← List.cons_append, removeBlockComments_blank_append hgap,
              removeBlockComments_of_afterClose hinner]
        | cons c cs =>
            obtain ⟨front, hfront⟩ := ih cs.length (by simp [← hlength]) cs rfl
            refine ⟨c :: front, fun inner rest hslash hinner => ?_⟩
            rw [List.cons_append, removeBlockComments_cons, hfront inner rest hslash hinner,
              List.cons_append]
            rintro ⟨more, heq⟩
            obtain ⟨rfl, hcs⟩ := List.cons.inj heq
            cases cs with
            | nil => exact absurd (List.cons.inj hcs).1 (by decide)
            | cons d cs =>
                obtain ⟨rfl, -⟩ := List.cons.inj hcs
                exact hopen ⟨cs, rfl⟩

theorem Indent.allBlank {cs : List Char} (h : Indent cs) : allBlank cs :=
  List.all_eq_true.mpr fun c hc => by
    obtain rfl | rfl := h c hc <;> rfl

theorem OpeningLine.exists_blanks {line : List Char} (h : OpeningLine line) :
    ∃ indent blanks, allBlank indent ∧ allBlank blanks ∧
      line = indent ++ '/' :: '*' :: ("[toml]".toList ++ blanks) := by
  obtain ⟨hindent, hblanks⟩ | ⟨hindent, hblanks⟩ := h
  · exact ⟨_, _, hindent.allBlank, hblanks.allBlank, by rw [List.append_assoc]; rfl⟩
  · have hreturn : allBlank ['\r'] := by decide
    refine ⟨_, _, hindent.allBlank, allBlank_append.mpr ⟨hblanks.allBlank, hreturn⟩, ?_⟩
    rw [List.append_assoc, List.append_assoc]
    rfl

/-- The first end of a comment behind an opening fence is the closing fence. -/
theorem afterClose_fragment {blanks indent fragment : List Char} (hblanks : allBlank blanks)
    (hindent : Indent indent) (hfragment : afterClose fragment = none) (behind : List Char) :
    afterClose ("[toml]".toList ++ blanks ++ '\n' :: (fragment ++ (indent ++ '*' :: '/' :: behind))) =
      some behind := by
  have hfence : ∀ cs, afterClose ("[toml]".toList ++ cs) = afterClose cs := fun cs => rfl
  have hslash : ∀ rest, indent ++ '*' :: '/' :: behind ≠ '/' :: rest := by
    intro rest heq
    cases indent with
    | nil => exact absurd (List.cons.inj heq).1 (by decide)
    | cons c indent =>
        rw [List.cons_append] at heq
        obtain hc | hc := hindent c List.mem_cons_self <;>
          exact absurd (hc.symm.trans (List.cons.inj heq).1) (by decide)
  rw [List.append_assoc, hfence, afterClose_blank_append hblanks, afterClose_cons (by decide),
    afterClose_append_of_none hfragment hslash, afterClose_blank_append hindent.allBlank]
  rfl

variable {blocks blocks' : List Fenced}

/-- No fragment has the end of a comment in it. -/
def Sealed (blocks : List Fenced) : Prop := ∀ block ∈ blocks, ¬ ['*', '/'] <:+: block.fragment

theorem ClosingLine.exists_indent {line : List Char} (h : ClosingLine line) :
    ∃ indent behind, Indent indent ∧ line = indent ++ '*' :: '/' :: behind := by
  obtain ⟨hindent⟩ := h
  exact ⟨_, _, hindent, rfl⟩

theorem WholeLines.exists_feed {cs : List Char} (h : WholeLines cs) :
    ∃ front, '\n' :: cs = front ++ ['\n'] := by
  obtain rfl | ⟨front, rfl⟩ := h
  · exact ⟨[], rfl⟩
  · exact ⟨'\n' :: front, rfl⟩

/-- Whatever fragments stand between the fences, the same remains of the text. -/
theorem removeBlockComments_refilled (h : List.Forall₂ SameFences blocks blocks')
    (hsealed : Sealed blocks) (hsealed' : Sealed blocks') (front after : List Char) :
    removeBlockComments (front ++ ((blocks.map Fenced.text).flatMap ('\n' :: ·) ++ after)) =
      removeBlockComments (front ++ ((blocks'.map Fenced.text).flatMap ('\n' :: ·) ++ after)) := by
  induction h generalizing front with
  | nil => rfl
  | @cons block block' blocks blocks' hsame _ ih =>
      obtain ⟨hblock, hblocks⟩ := List.forall_mem_cons.mp hsealed
      obtain ⟨hblock', hblocks'⟩ := List.forall_mem_cons.mp hsealed'
      obtain ⟨lines, hlines⟩ := WholeLines.exists_feed block.code_whole
      obtain ⟨gap, blanks, hgap, hblanks, hopening⟩ := block.opens.exists_blanks
      obtain ⟨indent, behind, hindent, hclosing⟩ := block.closes.exists_indent
      obtain ⟨kept, hkept⟩ := exists_front (front ++ lines) gap (allBlank_cons.mpr ⟨rfl, hgap⟩)
      -- what is kept of the text up to the closing fence does not depend on the fragment
      have htext : ∀ {fragment : List Char}, ¬ ['*', '/'] <:+: fragment → ∀ rest,
          removeBlockComments (front ++ ('\n' :: (block.code ++ (block.opening ++ '\n' ::
            (fragment ++ block.closing))) ++ rest)) = kept ++ removeBlockComments (behind ++ rest) := by
        intro fragment hfragment rest
        have hcode : front ++ ('\n' :: (block.code ++ (block.opening ++ '\n' ::
            (fragment ++ block.closing))) ++ rest) = front ++ lines ++ '\n' :: (gap ++ '/' :: '*' ::
              ("[toml]".toList ++ blanks ++ '\n' ::
                (fragment ++ (indent ++ '*' :: '/' :: (behind ++ rest))))) := by
          rw [← List.cons_append, hlines, hopening, hclosing]
          simp only [List.append_assoc, List.cons_append, List.nil_append]
        rw [hcode]
        refine hkept _ _ (fun more heq => absurd (List.cons.inj heq).1 (by decide)) ?_
        exact afterClose_fragment hblanks hindent (afterClose_eq_none_iff.mpr hfragment) _
      have hfences : block'.text = block.code ++ (block.opening ++ '\n' ::
          (block'.fragment ++ block.closing)) := by
        rw [Fenced.text, hsame.code, hsame.opening, hsame.closing]
      rw [List.map_cons, List.map_cons, List.flatMap_cons, List.flatMap_cons, List.append_assoc,
        List.append_assoc, hfences, htext hblock', Fenced.text, htext hblock, ih hblocks hblocks']

theorem feed_joinLines {texts : List (List Char)} (hne : texts ≠ []) :
    '\n' :: joinLines texts = texts.flatMap ('\n' :: ·) := by
  induction texts with
  | nil => exact absurd rfl hne
  | cons text rest ih =>
      cases rest with
      | nil => rw [joinLines, List.flatMap_singleton]
      | cons next more =>
          rw [joinLines_cons_cons, List.flatMap_cons, ← ih (List.cons_ne_nil _ _), List.cons_append]

/-- **A scan finds the same facts** whatever fragments stand between the fences. -/
theorem scan_refilled (h : List.Forall₂ SameFences blocks blocks') (hsealed : Sealed blocks)
    (hsealed' : Sealed blocks') (last : Option (List Char)) :
    Facts.scan (String.ofList (fencedBody blocks last)) =
      Facts.scan (String.ofList (fencedBody blocks' last)) := by
  have hcode : removeBlockComments (fencedBody blocks last) =
      removeBlockComments (fencedBody blocks' last) := by
    cases h with
    | nil => rfl
    | @cons block block' blocks blocks' hsame hrest =>
        have hfeed : ∀ cs, removeBlockComments ('\n' :: cs) = '\n' :: removeBlockComments cs :=
          fun cs => removeBlockComments_cons fun ⟨_, heq⟩ => absurd (List.cons.inj heq).1 (by decide)
        refine (List.cons.inj ((hfeed _).symm.trans (Eq.trans ?_ (hfeed _)))).2
        have hpieces := removeBlockComments_refilled (.cons hsame hrest) hsealed hsealed' []
          (last.toList.flatMap ('\n' :: ·))
        rw [List.nil_append, List.nil_append, ← List.flatMap_append, ← List.flatMap_append] at hpieces
        have hne : ∀ (block : Fenced) (blocks : List Fenced),
            (block :: blocks).map Fenced.text ++ last.toList ≠ [] := fun _ _ => List.cons_ne_nil _ _
        unfold fencedBody
        rw [feed_joinLines (hne _ _), feed_joinLines (hne _ _)]
        exact hpieces
  unfold Facts.scan removeComments
  rw [String.toList_ofList, String.toList_ofList, hcode]

/-! ## What is read off the lines of blocks -/

section

variable {α : Type} {read : List Char → Option α}

/-- What is read off the lines of a text. -/
def readings (read : List Char → Option α) (cs : List Char) : List α :=
  (splitLines cs).filterMap read

theorem filterMap_splitLinesFrom_feed (hnil : read [] = none) {line : List Char} {isOpen : Bool}
    (hline : isOpen = false → line = []) (cs : List Char) :
    (splitLinesFrom line isOpen (cs ++ ['\n'])).filterMap read =
      (splitLinesFrom line isOpen cs).filterMap read := by
  fun_induction splitLinesFrom line isOpen cs with
  | case1 line => rfl
  | case2 line isOpen hclosed =>
      rw [hline (Bool.eq_false_iff.mpr hclosed)]
      exact List.filterMap_cons_none hnil
  | case3 line isOpen cs ih =>
      show List.filterMap read (line.reverse :: splitLinesFrom [] false (cs ++ ['\n'])) = _
      rw [List.filterMap_cons, List.filterMap_cons, ih fun _ => rfl]
  | case4 line isOpen c cs hreturn hc ih =>
      by_cases hlast : c = '\r' ∧ cs = []
      · obtain ⟨rfl, rfl⟩ := hlast
        rfl
      · rw [List.cons_append, splitLinesFrom, if_pos hc, List.filterMap_cons, List.filterMap_cons,
          ih fun _ => rfl]
        exact no_return_feed hlast hreturn
  | case5 line isOpen c cs hreturn hc ih =>
      rw [List.cons_append, splitLinesFrom_cons (Bool.eq_false_iff.mpr hc),
        ih Bool.noConfusion]

/-- What is read in front of a line feed and behind it. -/
theorem readings_feed (hnil : read [] = none) (cs rest : List Char) :
    readings read (cs ++ '\n' :: rest) = readings read cs ++ readings read rest := by
  unfold readings splitLines
  rw [splitLinesFrom_feed, List.filterMap_append, filterMap_splitLinesFrom_feed hnil fun _ => rfl]
  rfl

theorem readings_whole (hnil : read [] = none) {cs : List Char} (h : WholeLines cs)
    (rest : List Char) : readings read (cs ++ rest) = readings read cs ++ readings read rest := by
  obtain rfl | ⟨front, rfl⟩ := h
  · rfl
  · rw [List.append_assoc, List.singleton_append, readings_feed hnil, readings_feed hnil]
    exact congrArg (· ++ readings read rest) (List.append_nil _).symm

theorem readings_joinLines (hnil : read [] = none) (texts : List (List Char)) :
    readings read (joinLines texts) = texts.flatMap (readings read) := by
  induction texts with
  | nil => rfl
  | cons text rest ih =>
      cases rest with
      | nil => rw [joinLines, List.flatMap_singleton]
      | cons next more =>
          rw [joinLines_cons_cons, readings_feed hnil, ih]
          rfl

/-- What is read off a script: fragments are read like the code around them. -/
def noted (read : List Char → Option α) (blocks : List Fenced) (last : Option (List Char)) : List α :=
  blocks.flatMap (fun block => readings read block.code ++ (readings read block.opening ++
    (readings read block.fragment ++ readings read block.closing))) ++
    last.toList.flatMap (readings read)

theorem readings_fencedBody (hnil : read [] = none) (blocks : List Fenced)
    (last : Option (List Char)) :
    readings read (fencedBody blocks last) = noted read blocks last := by
  have htext : ∀ block : Fenced, readings read block.text = readings read block.code ++
      (readings read block.opening ++ (readings read block.fragment ++
        readings read block.closing)) := fun block => by
    rw [Fenced.text, readings_whole hnil block.code_whole, readings_feed hnil,
      readings_whole hnil block.fragment_whole]
  unfold fencedBody noted
  rw [readings_joinLines hnil, List.flatMap_append, List.flatMap_map]
  simp only [htext]

/-- The same is read if the same is read off the fragments. -/
theorem noted_refilled (h : List.Forall₂ SameFences blocks blocks')
    (hread : List.Forall₂ (fun block block' : Fenced =>
      readings read block'.fragment = readings read block.fragment) blocks blocks')
    (last : Option (List Char)) : noted read blocks' last = noted read blocks last := by
  unfold noted
  refine congrArg (· ++ last.toList.flatMap (readings read)) ?_
  induction h with
  | nil => rfl
  | cons hsame _ ih =>
      obtain ⟨hfragment, hrest⟩ := List.forall₂_cons.mp hread
      rw [List.flatMap_cons, List.flatMap_cons, ih hrest, hsame.code, hsame.opening, hsame.closing,
        hfragment]

/-- What is read off a fragment stands among what is read off the script. -/
theorem length_noted (h : List.Forall₂ SameFences blocks blocks')
    (hsilent : ∀ block ∈ blocks, readings read block.fragment = []) (last : Option (List Char)) :
    (noted read blocks' last).length = (noted read blocks last).length +
      (blocks'.flatMap fun block => readings read block.fragment).length := by
  unfold noted
  induction h with
  | nil => rfl
  | cons hsame _ ih =>
      obtain ⟨hfragment, hrest⟩ := List.forall_mem_cons.mp hsilent
      have hmore := ih hrest
      simp only [List.flatMap_cons, List.length_append, hsame.code, hsame.opening, hsame.closing,
        hfragment, List.length_nil] at hmore ⊢
      omega

/-- Where nothing was read off the fragments, the same is read exactly if nothing is now. -/
theorem noted_eq_iff_of_silent (h : List.Forall₂ SameFences blocks blocks')
    (hsilent : ∀ block ∈ blocks, readings read block.fragment = []) (last : Option (List Char)) :
    noted read blocks' last = noted read blocks last ↔
      ∀ block ∈ blocks', readings read block.fragment = [] := by
  have hlength := length_noted h hsilent last
  rw [← List.flatMap_eq_nil_iff]
  constructor
  · intro heq
    rw [heq, Nat.left_eq_add] at hlength
    exact List.length_eq_zero_iff.mp hlength
  · intro hnil
    have hsilent' := List.flatMap_eq_nil_iff.mp hnil
    refine noted_refilled h ?_ last
    clear hlength hnil
    induction h with
    | nil => exact .nil
    | cons _ _ ih =>
        obtain ⟨hfragment, hrest⟩ := List.forall_mem_cons.mp hsilent
        obtain ⟨hfragment', hrest'⟩ := List.forall_mem_cons.mp hsilent'
        exact .cons (hfragment'.trans hfragment.symm) (ih hrest hrest')

end

/-! ## Descriptions -/

theorem feed_not_mem_strip {cs : List Char} (h : '\n' ∉ cs) : '\n' ∉ strip cs := fun hmem =>
  h ((stripLeft_suffix cs).mem ((prefix_stripRight _).mem hmem))

theorem feed_not_mem_descriptionLine {line text : List Char} (h : '\n' ∉ line)
    (htext : descriptionLine? line = some text) : '\n' ∉ text := by
  obtain ⟨rest, hrest, rfl⟩ := Option.map_eq_some_iff.mp htext
  have hline : '\n' ∉ stripLeft line := fun hmem => h ((stripLeft_suffix line).mem hmem)
  refine feed_not_mem_strip fun hmem => hline ?_
  cases hfirst : afterPrefix ['/', '/', '/'] (stripLeft line) with
  | some behind =>
      rw [hfirst] at hrest
      rw [eq_append_of_afterPrefix hfirst, Option.some.inj hrest]
      exact List.mem_append_right _ hmem
  | none =>
      rw [hfirst] at hrest
      rw [eq_append_of_afterPrefix hrest]
      exact List.mem_append_right _ hmem

theorem description_eq (body : String) : description body =
    match readings descriptionLine? body.toList with
    | [] => none
    | lines => some (String.ofList (joinLines lines)) := rfl

/-- The lines of a description are found again in it. -/
theorem description_eq_iff {body other : String} : description other = description body ↔
    readings descriptionLine? other.toList = readings descriptionLine? body.toList := by
  have hfeed : ∀ cs : List Char, ∀ text ∈ readings descriptionLine? cs, '\n' ∉ text := by
    intro cs text htext
    obtain ⟨line, hline, hread⟩ := List.mem_filterMap.mp htext
    exact feed_not_mem_descriptionLine (feed_not_mem_of_mem_splitLines hline) hread
  rw [description_eq, description_eq]
  refine ⟨fun h => ?_, fun h => by rw [h]⟩
  have hother := hfeed other.toList
  have hbody := hfeed body.toList
  generalize readings descriptionLine? other.toList = texts at h hother ⊢
  generalize readings descriptionLine? body.toList = texts' at h hbody ⊢
  cases texts with
  | nil =>
      cases texts' with
      | nil => rfl
      | cons text' texts' => cases h
  | cons text texts =>
      cases texts' with
      | nil => cases h
      | cons text' texts' =>
          have hjoin := congrArg String.toList (Option.some.inj h)
          rw [String.toList_ofList, String.toList_ofList] at hjoin
          rw [← cutLines_joinLines_of_feed (List.cons_ne_nil _ _) hother, hjoin,
            cutLines_joinLines_of_feed (List.cons_ne_nil _ _) hbody]

/-! ## Scripts -/

/-- The text of the fragment. -/
def Fenced.content (block : Fenced) : String := String.ofList block.fragment

/-- The scripts differ in nothing but the fragments in their blocks; `last` is the code behind them. -/
structure Refilled (text other : String) (blocks blocks' : List Fenced)
    (last : Option (List Char)) : Prop where
  body : (stripShebang text).1 = String.ofList (fencedBody blocks last)
  body' : (stripShebang other).1 = String.ofList (fencedBody blocks' last)
  shebang : (stripShebang other).2 = (stripShebang text).2
  fences : List.Forall₂ SameFences blocks blocks'
  rest : ∀ code ∈ last, blocksOf (cutLines code) = []

/-- The first three characters decide whether there is an interpreter line. -/
theorem hasShebang_append {front : List Char} (h : 3 ≤ front.length) (rest other : List Char) :
    hasShebang (front ++ rest) = hasShebang (front ++ other) := by
  obtain ⟨a, b, c, more, rfl⟩ : ∃ a b c more, front = a :: b :: c :: more := by
    match front, h with
    | a :: b :: c :: more, _ => exact ⟨a, b, c, more, rfl⟩
  by_cases hstart : a = '#' ∧ b = '!'
  · obtain ⟨rfl, rfl⟩ := hstart
    by_cases hc : c = '['
    · rw [hc]
      rfl
    · have hshebang : ∀ cs, hasShebang ('#' :: '!' :: c :: cs) = true := fun cs => by
        simp [hasShebang, hc]
      exact (hshebang _).trans (hshebang _).symm
  · have hnone : ∀ cs, hasShebang (a :: b :: cs) = false := fun cs => by
      unfold hasShebang
      split <;> simp_all
    exact (hnone _).trans (hnone _).symm

/-- Behind its beginning, the body of a script can be replaced. -/
theorem exists_stripShebang {text : String} {front rest : List Char} (hfront : 3 ≤ front.length)
    (hbody : (stripShebang text).1.toList = front ++ rest) (rest' : List Char) :
    ∃ other, (stripShebang other).1 = String.ofList (front ++ rest') ∧
      (stripShebang other).2 = (stripShebang text).2 := by
  by_cases hshebang : hasShebang text.toList = true
  · have htext : text.toList.dropWhile (· ≠ '\n') = front ++ rest := by
      rw [← hbody, stripShebang, if_pos hshebang, String.toList_ofList]
    obtain ⟨c, more, rfl⟩ := List.exists_cons_of_length_pos (l := front) (by omega)
    obtain ⟨line, hline, hsplit⟩ := exists_of_dropWhile htext
    obtain rfl : c = '\n' := by
      rw [hsplit, dropWhile_mark hline] at htext
      exact (List.cons.inj htext).1.symm
    -- the interpreter line has at least two characters, and the line feed is the third one
    have hlength : 3 ≤ (line ++ ['\n']).length := by
      rw [hsplit] at hshebang
      rcases line with _ | ⟨a, _ | ⟨b, line⟩⟩
      · exact absurd hshebang (by simp [hasShebang])
      · exact absurd hshebang (by simp [hasShebang])
      · simp
    have hother : ∀ cs, hasShebang (line ++ '\n' :: cs) = true := by
      intro cs
      rw [hsplit] at hshebang
      have hsame := hasShebang_append hlength cs (more ++ rest)
      rw [List.append_assoc, List.append_assoc, List.singleton_append] at hsame
      exact hsame.trans hshebang
    refine ⟨String.ofList (line ++ '\n' :: (more ++ rest')), ?_⟩
    simp only [stripShebang, String.toList_ofList, hother, if_pos, hsplit, dropWhile_mark hline,
      takeWhile_mark hline]
    exact ⟨rfl, trivial⟩
  · have htext : text.toList = front ++ rest := by
      rw [← hbody, stripShebang, if_neg hshebang]
    refine ⟨String.ofList (front ++ rest'), ?_⟩
    have hother : ¬ hasShebang (String.ofList (front ++ rest')).toList = true := by
      rwa [String.toList_ofList, hasShebang_append hfront rest' rest, ← htext]
    rw [stripShebang, stripShebang, if_neg hother, if_neg hshebang]
    exact ⟨rfl, rfl⟩

/-- A script begins with the code in front of its first block and the opening fence. -/
theorem exists_opening_append (block : Fenced) (blocks : List Fenced) (last : Option (List Char)) :
    ∃ rest, fencedBody (block :: blocks) last = block.code ++ block.opening ++ rest := by
  unfold fencedBody
  rw [List.map_cons, List.cons_append]
  have htext : block.text = block.code ++ block.opening ++
      '\n' :: (block.fragment ++ block.closing) := by
    rw [Fenced.text, List.append_assoc]
  cases blocks.map Fenced.text ++ last.toList with
  | nil => exact ⟨_, htext⟩
  | cons next more => exact ⟨_, by rw [joinLines_cons_cons, htext, List.append_assoc]⟩

/-- **Every script has its blocks**, and their fragments can be replaced by any others. -/
theorem exists_refilled (text : String) :
    ∃ (blocks : List Fenced) (last : Option (List Char)),
      manifestBlocks (stripShebang text).1 = blocks.map Fenced.content ∧
      ∀ {blocks' : List Fenced}, List.Forall₂ SameFences blocks blocks' →
        ∃ other, Refilled text other blocks blocks' last := by
  obtain ⟨blocks, last, hbody, hblocks, hlast⟩ := exists_fencedBody (stripShebang text).1.toList
  have htext : (stripShebang text).1 = String.ofList (fencedBody blocks last) := by
    rw [← hbody, String.ofList_toList]
  refine ⟨blocks, last, ?_, fun hfences => ?_⟩
  · rw [manifestBlocks, hblocks, List.map_map]
    rfl
  · cases hfences with
    | nil => exact ⟨text, htext, htext, rfl, .nil, hlast⟩
    | @cons block block' blocks blocks' hsame hrest =>
        obtain ⟨rest, hopening⟩ := exists_opening_append block blocks last
        obtain ⟨rest', hopening'⟩ := exists_opening_append block' blocks' last
        have hlength : 3 ≤ (block.code ++ block.opening).length := by
          obtain ⟨indent, blanks, -, -, hfence⟩ := block.opens.exists_blanks
          have hname : "[toml]".toList.length = 6 := rfl
          rw [hfence]
          simp only [List.length_append, List.length_cons, hname]
          omega
        rw [hsame.code, hsame.opening] at hopening'
        obtain ⟨other, hother, hshebang⟩ :=
          exists_stripShebang hlength (hbody.trans hopening) rest'
        rw [← hopening'] at hother
        exact ⟨other, htext, hother, hshebang, .cons hsame hrest, hlast⟩

/-! ## Analyses -/

variable {text other : String} {blocks blocks' : List Fenced} {last : Option (List Char)}

/-- What an analysis finds apart from the blocks themselves, if it is not refused. -/
structure SameFacts (metadata other : Metadata) : Prop where
  mainCount : other.mainCount = metadata.mainCount
  isProgram : other.isProgram = metadata.isProgram
  inferred : other.inferred = metadata.inferred

theorem Refilled.manifestBlocks_eq (h : Refilled text other blocks blocks' last) :
    manifestBlocks (stripShebang other).1 = blocks'.map Fenced.content := by
  rw [h.body', manifestBlocks, String.toList_ofList, blocksOf_fencedBody blocks' h.rest,
    List.map_map]
  rfl

theorem Refilled.sameFacts (h : Refilled text other blocks blocks' last) (hsealed : Sealed blocks)
    (hsealed' : Sealed blocks') : SameFacts (findings false (stripShebang text).1)
      (findings false (stripShebang other).1) := by
  have hscan : findFacts false (stripShebang other).1 = findFacts false (stripShebang text).1 := by
    rw [findFacts_false, findFacts_false, h.body, h.body',
      scan_refilled h.fences hsealed hsealed' last]
  have hcount : (findings false (stripShebang other).1).mainCount =
      (findings false (stripShebang text).1).mainCount := congrArg (·.1.mainCount) hscan
  exact {
    mainCount := hcount
    isProgram := congrArg (decide <| 1 ≤ ·) hcount
    inferred := congrArg (·.1.externalCrates) hscan }

theorem Refilled.readings_eq (h : Refilled text other blocks blocks' last) {α : Type}
    {read : List Char → Option α} (hnil : read [] = none) :
    readings read (stripShebang text).1.toList = noted read blocks last ∧
      readings read (stripShebang other).1.toList = noted read blocks' last := by
  rw [h.body, h.body', String.toList_ofList, String.toList_ofList, readings_fencedBody hnil,
    readings_fencedBody hnil]
  exact ⟨rfl, rfl⟩

theorem Refilled.head?_manifestBlocks (h : Refilled text other blocks blocks' last) :
    (manifestBlocks (stripShebang other).1).head? = blocks'.head?.map Fenced.content := by
  rw [h.manifestBlocks_eq, List.head?_map]

/-- The first of the new blocks decides whether the analysis is refused, and why. -/
theorem Refilled.analyze_eq_error_iff (h : Refilled text other blocks blocks' last)
    (cause : Manifest.Malformed) : analyze false other = .error cause ↔
      ∃ block ∈ blocks'.head?, Manifest.fragment block.content = .error cause := by
  rw [Source.analyze_eq_error_iff, h.head?_manifestBlocks]
  constructor
  · rintro ⟨content, hcontent, hfragment⟩
    obtain ⟨block, hblock, rfl⟩ := Option.map_eq_some_iff.mp hcontent
    exact ⟨block, hblock, hfragment⟩
  · rintro ⟨block, hblock, hfragment⟩
    exact ⟨block.content, Option.mem_map_of_mem Fenced.content hblock, hfragment⟩

/-- **Only the first block counts, and only as a document, but for the lines that are remarks.**
Whatever stands in the blocks, an analysis is refused as malformed exactly if the first one is no
manifest fragment, and for an excess exactly if the reader comes to it in the first one. Otherwise it
gives the first fragment and a warning for every further one, and the facts are the same for all
fragments without the end of a comment. Directives and descriptions are read off the fragments like off
the lines around them. So they are the same if the same is read off the fragments, and a description to
which none of them has added is the same only if none of them adds to it now. -/
theorem analyze_refilled (h : Refilled text other blocks blocks' last) (hsealed : Sealed blocks)
    (hsealed' : Sealed blocks') :
    ((∃ cause, cause.isForeseen = true ∧ analyze false other = .error cause) ↔
      ∃ block ∈ blocks'.head?, Manifest.Unsound block.content) ∧
    (∀ excess, analyze false other = .error (.excessive excess) ↔
      ∃ block ∈ blocks'.head?, Manifest.Exceeds block.content excess) ∧
    ∀ {metadata metadata' : Metadata}, analyze false text = .ok metadata →
      analyze false other = .ok metadata' →
      metadata'.embedded = blocks'.head?.map Fenced.content ∧
      metadata'.warnings = blocks'.tail.map (extraBlockWarning ·.content) ∧
      SameFacts metadata metadata' ∧
      metadata'.directives = Entries.ofList (noted directive? blocks' last) ∧
      (List.Forall₂ (fun block block' : Fenced =>
          readings directive? block'.fragment = readings directive? block.fragment) blocks blocks' →
        metadata'.directives = metadata.directives ∧ metadata'.purpose = metadata.purpose) ∧
      (List.Forall₂ (fun block block' : Fenced =>
          readings descriptionLine? block'.fragment = readings descriptionLine? block.fragment)
          blocks blocks' → metadata'.description = metadata.description) ∧
      ((∀ block ∈ blocks, readings descriptionLine? block.fragment = []) →
        (metadata'.description = metadata.description ↔
          ∀ block ∈ blocks', readings descriptionLine? block.fragment = [])) := by
  have hnil : directive? [] = none ∧ descriptionLine? [] = none := ⟨rfl, rfl⟩
  obtain ⟨hdirected, hdirected'⟩ := h.readings_eq hnil.1
  obtain ⟨hdescribed, hdescribed'⟩ := h.readings_eq hnil.2
  refine ⟨?_, fun excess => ?_, ?_⟩
  · constructor
    · rintro ⟨cause, hforeseen, hcause⟩
      obtain ⟨block, hblock, hfragment⟩ := (h.analyze_eq_error_iff cause).mp hcause
      exact ⟨block, hblock, Manifest.exists_foreseen_iff.mp ⟨cause, hforeseen, hfragment⟩⟩
    · rintro ⟨block, hblock, hunsound⟩
      obtain ⟨cause, hforeseen, hcause⟩ := Manifest.exists_foreseen_iff.mpr hunsound
      exact ⟨cause, hforeseen, (h.analyze_eq_error_iff cause).mpr ⟨block, hblock, hcause⟩⟩
  · simp only [h.analyze_eq_error_iff, Manifest.excess_iff]
  · intro metadata metadata' hanalysis hanalysis'
    obtain ⟨-, rfl⟩ := analyze_eq_ok_iff.mp hanalysis
    obtain ⟨-, rfl⟩ := analyze_eq_ok_iff.mp hanalysis'
    have hdirectives : (findings false (stripShebang other).1).directives =
        Entries.ofList (noted directive? blocks' last) := congrArg Entries.ofList hdirected'
    refine ⟨h.head?_manifestBlocks, ?_, h.sameFacts hsealed hsealed', hdirectives, fun hsame => ?_, fun hsame => ?_,
      fun hsilent => ?_⟩
    · show (manifestBlocks (stripShebang other).1).tail.map extraBlockWarning = _
      rw [h.manifestBlocks_eq, ← List.map_tail, List.map_map]
      rfl
    · have heq : (findings false (stripShebang other).1).directives =
          (findings false (stripShebang text).1).directives := by
        rw [hdirectives, noted_refilled h.fences hsame, ← hdirected]
        rfl
      exact ⟨heq, congrArg (·.get? "purpose") heq⟩
    · refine description_eq_iff.mpr ?_
      rw [hdescribed, hdescribed', noted_refilled h.fences hsame]
    · refine description_eq_iff.trans ?_
      rw [hdescribed, hdescribed', noted_eq_iff_of_silent h.fences hsilent]

/-- A fragment with a dependency. -/
def rollingBlock : Fenced := { bareBlock with
  fragment := "[dependencies]\nrand = \"0.8\"\n".toList
  fragment_whole := .inr ⟨"[dependencies]\nrand = \"0.8\"".toList, by decide⟩
  fragment_open := by decide }

/-- A fragment that is no document but a directive. -/
def speakingBlock : Fenced := { bareBlock with
  fragment := "//# Purpose: mine\n".toList
  fragment_whole := .inr ⟨"//# Purpose: mine".toList, by decide⟩
  fragment_open := by decide }

/-- A program behind its blocks. -/
def blocksAbove (blocks : List Fenced) : String :=
  String.ofList (fencedBody blocks (some "fn main() \x7b\x7d\n".toList))

theorem refilled_blocksAbove {blocks blocks' : List Fenced}
    (h : List.Forall₂ SameFences blocks blocks')
    (hplain : hasShebang (fencedBody blocks (some "fn main() \x7b\x7d\n".toList)) = false)
    (hplain' : hasShebang (fencedBody blocks' (some "fn main() \x7b\x7d\n".toList)) = false) :
    Refilled (blocksAbove blocks) (blocksAbove blocks') blocks blocks'
      (some "fn main() \x7b\x7d\n".toList) where
  body := congrArg Prod.fst (stripShebang_of_not hplain)
  body' := congrArg Prod.fst (stripShebang_of_not hplain')
  shebang := (congrArg Prod.snd (stripShebang_of_not hplain')).trans
    (congrArg Prod.snd (stripShebang_of_not hplain)).symm
  fences := h
  rest := fun code hcode => by
    rw [← Option.some.inj hcode]
    exact blocksOf_of_not_opens (by decide)

theorem analyze_refilled_speaking :
    Refilled (blocksAbove [bareBlock, bareBlock]) (blocksAbove [rollingBlock, speakingBlock])
        [bareBlock, bareBlock] [rollingBlock, speakingBlock] (some "fn main() \x7b\x7d\n".toList) ∧
      Sealed [bareBlock, bareBlock] ∧ Sealed [rollingBlock, speakingBlock] ∧
      ∃ metadata metadata', analyze false (blocksAbove [bareBlock, bareBlock]) = .ok metadata ∧
        analyze false (blocksAbove [rollingBlock, speakingBlock]) = .ok metadata' ∧
        metadata'.embedded = some "[dependencies]\nrand = \"0.8\"\n" ∧
        metadata'.warnings = [extraBlockWarning "//# Purpose: mine\n"] ∧
        SameFacts metadata metadata' ∧ metadata'.directives = [("purpose", "mine")] ∧
        metadata'.description = metadata.description := by
  have hfences : List.Forall₂ SameFences [bareBlock, bareBlock] [rollingBlock, speakingBlock] :=
    .cons ⟨rfl, rfl, rfl⟩ (.cons ⟨rfl, rfl, rfl⟩ .nil)
  have h := refilled_blocksAbove hfences (by decide) (by decide)
  have hbare : ¬ ['*', '/'] <:+: bareBlock.fragment := afterClose_eq_none_iff.mp rfl
  have hrolling : ¬ ['*', '/'] <:+: rollingBlock.fragment := afterClose_eq_none_iff.mp (by decide)
  have hspeaking : ¬ ['*', '/'] <:+: speakingBlock.fragment := afterClose_eq_none_iff.mp (by decide)
  have hsealed : Sealed [bareBlock, bareBlock] := by simp [Sealed, hbare]
  have hsealed' : Sealed [rollingBlock, speakingBlock] := by simp [Sealed, hrolling, hspeaking]
  have hsound : (analyze false (blocksAbove [bareBlock, bareBlock])).isOk = true ∧
      (analyze false (blocksAbove [rollingBlock, speakingBlock])).isOk = true := by decide +kernel
  obtain ⟨-, -, hfound⟩ := analyze_refilled h hsealed hsealed'
  cases hmetadata : analyze false (blocksAbove [bareBlock, bareBlock]) with
  | error cause =>
      rw [hmetadata] at hsound
      cases hsound.1
  | ok metadata =>
      cases hmetadata' : analyze false (blocksAbove [rollingBlock, speakingBlock]) with
      | error cause =>
          rw [hmetadata'] at hsound
          cases hsound.2
      | ok metadata' =>
          obtain ⟨hembedded, hwarnings, hfacts, hdirectives, -, hdescription, -⟩ :=
            hfound hmetadata hmetadata'
          have hsilent : readings descriptionLine? rollingBlock.fragment = [] ∧
              readings descriptionLine? speakingBlock.fragment = [] := by decide
          refine ⟨h, hsealed, hsealed', metadata, metadata', rfl, rfl, ?_, ?_, hfacts, ?_,
            hdescription (.cons hsilent.1 (.cons hsilent.2 .nil))⟩
          · exact hembedded.trans (congrArg some String.ofList_toList)
          · exact hwarnings.trans (congrArg ([extraBlockWarning ·]) String.ofList_toList)
          · rw [hdirectives]
            decide +kernel

/-- The second block of a script, which is to be ignored, says what the script is for. -/
theorem ignored_block_gives_purpose :
    List.Forall₂ SameFences [bareBlock, bareBlock] [bareBlock, speakingBlock] ∧
      Sealed [bareBlock, bareBlock] ∧ Sealed [bareBlock, speakingBlock] ∧
      ((analyze false (blocksAbove [bareBlock, bareBlock])).toOption.map Metadata.purpose =
        some none) ∧
      ((analyze false (blocksAbove [bareBlock, speakingBlock])).toOption.map Metadata.purpose =
        some (some "mine")) := by
  have hbare : ¬ ['*', '/'] <:+: bareBlock.fragment := afterClose_eq_none_iff.mp rfl
  have hspeaking : ¬ ['*', '/'] <:+: speakingBlock.fragment := afterClose_eq_none_iff.mp (by decide)
  refine ⟨.cons ⟨rfl, rfl, rfl⟩ (.cons ⟨rfl, rfl, rfl⟩ .nil), ?_, ?_, ?_, ?_⟩
  · simp [Sealed, hbare]
  · simp [Sealed, hbare, hspeaking]
  · decide +kernel
  · decide +kernel

end RustScript.Source
