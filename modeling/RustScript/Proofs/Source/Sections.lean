import RustScript.Proofs.Source.Inference
import RustScript.Proofs.Source.Reflow

/-!
# Sections of a script

Some lines of a script are self-contained if what is read in them does not depend on the lines that
follow: their comments end in them, and so do the declarations that begin in them. A scan of
self-contained sections finds in each of them what it finds there alone (`starts_sections`), in
whatever order the sections stand.
-/

set_option autoImplicit false

namespace RustScript.Source

open RustScript.Text

/-! ## Lines and their code -/

/-- The lines, each of them behind a line feed. -/
def lineText (lines : List (List Char)) : List Char := lines.flatMap ('\n' :: ·)

/-- The text of the lines without comments. -/
def codeOf (lines : List (List Char)) : List Char := removeComments (lineText lines)

theorem lineText_cons (line : List Char) (lines : List (List Char)) :
    lineText (line :: lines) = '\n' :: (line ++ lineText lines) := by
  unfold lineText
  rw [List.flatMap_cons, List.cons_append]

theorem lineText_append (lines more : List (List Char)) :
    lineText (lines ++ more) = lineText lines ++ lineText more := by
  unfold lineText
  rw [List.flatMap_append]

theorem lineText_eq (lines : List (List Char)) :
    lineText lines = [] ∨ ∃ cs, lineText lines = '\n' :: cs := by
  cases lines with
  | nil => exact .inl rfl
  | cons line lines => exact .inr ⟨_, lineText_cons line lines⟩

theorem removeComments_feed (cs : List Char) :
    removeComments ('\n' :: cs) = '\n' :: removeComments cs := by
  have hblank : allBlank ['\n'] := by decide
  unfold removeComments
  show removeLineComments false (removeBlockComments (['\n'] ++ cs)) = _
  rw [removeBlockComments_blank_append hblank, removeLineComments_blank_append hblank]
  rfl

theorem codeOf_nil : codeOf [] = [] := by
  show removeComments [] = []
  unfold removeComments removeBlockComments
  rfl

theorem codeOf_cons (line : List Char) (lines : List (List Char)) :
    codeOf (line :: lines) = '\n' :: removeComments (line ++ lineText lines) := by
  unfold codeOf
  rw [lineText_cons, removeComments_feed]

/-! ## Self-contained lines -/

/-- The texts behind the line feeds of a text. -/
def lineStarts : List Char → List (List Char)
  | [] => []
  | c :: rest => if c = '\n' then rest :: lineStarts rest else lineStarts rest

/-- Whatever follows on further lines, what is read at the front of the text is read within it, or
else there is nothing in it and it is passed over. -/
def Settled {α : Type} (read : List Char → Option (α × List Char)) (cs : List Char) : Prop :=
  ∀ after, read (cs ++ '\n' :: after) =
      (read cs).map (fun found => (found.1, found.2 ++ '\n' :: after)) ∨
    (atLineStarts read cs = [] ∧ read (cs ++ '\n' :: after) = read after)

/-- The reader is settled at the starts of the lines. -/
def Settles {α : Type} (read : List Char → Option (α × List Char)) (lines : List (List Char)) :
    Prop := ∀ cs ∈ lineStarts (codeOf lines), Settled read cs

/-- The text ends inside a block comment; `inside` says that one is open in front of it. -/
def leavesOpen (inside : Bool) : List Char → Bool
  | [] => inside
  | '/' :: '*' :: rest => if inside then leavesOpen true ('*' :: rest) else leavesOpen true rest
  | '*' :: '/' :: rest => if inside then leavesOpen false rest else leavesOpen false ('/' :: rest)
  | _ :: rest => leavesOpen inside rest

/-- Block comments that begin in the lines end in them. -/
def ClosesComments (lines : List (List Char)) : Prop := leavesOpen false (lineText lines) = false

/-- What is read in the lines does not depend on the lines that follow. -/
structure SelfContained (lines : List (List Char)) : Prop where
  closed : ClosesComments lines
  uses : Settles useDeclaration lines
  crates : Settles externCrate lines
  modules : Settles moduleDeclaration lines
  types : Settles typeDeclaration lines
  mains : Settles mainFunction lines

/-- The starts of the lines, one after the other. -/
theorem SelfContained.of_starts {lines starts : List (List Char)} (hclosed : ClosesComments lines)
    (hstarts : lineStarts (codeOf lines) = starts)
    (h : ∀ cs ∈ starts, Settled useDeclaration cs ∧ Settled externCrate cs ∧
      Settled moduleDeclaration cs ∧ Settled typeDeclaration cs ∧ Settled mainFunction cs) :
    SelfContained lines := by
  subst hstarts
  exact {
    closed := hclosed
    uses := fun cs hcs => (h cs hcs).1
    crates := fun cs hcs => (h cs hcs).2.1
    modules := fun cs hcs => (h cs hcs).2.2.1
    types := fun cs hcs => (h cs hcs).2.2.2.1
    mains := fun cs hcs => (h cs hcs).2.2.2.2 }

theorem lineStarts_of_suffix {cs rest : List Char} (h : '\n' :: rest <:+ cs) :
    rest :: lineStarts rest ⊆ lineStarts cs := by
  induction cs with
  | nil => exact absurd (List.suffix_nil.mp h) (List.cons_ne_nil _ _)
  | cons c cs ih =>
      have hmore : lineStarts cs ⊆ lineStarts (c :: cs) := by
        rw [lineStarts]
        split
        · exact List.subset_cons_self _ _
        · exact fun _ hmem => hmem
      rcases List.suffix_cons_iff.mp h with heq | hsuffix
      · obtain ⟨rfl, rfl⟩ := List.cons.inj heq
        rw [lineStarts, if_pos rfl]
        exact fun _ hmem => hmem
      · exact fun _ hmem => hmore (ih hsuffix hmem)

/-! ## Comments in sections -/

theorem leavesOpen_inside {c : Char} {cs : List Char} (h : ¬ (c = '*' ∧ ∃ rest, cs = '/' :: rest)) :
    leavesOpen true (c :: cs) = leavesOpen true cs := by
  by_cases hopen : OpensComment (c :: cs)
  · obtain ⟨rest, heq⟩ := hopen
    obtain ⟨rfl, rfl⟩ := List.cons.inj heq
    rfl
  · rw [leavesOpen]
    · rintro rest rfl rfl
      exact hopen ⟨rest, rfl⟩
    · rintro rest rfl rfl
      exact h ⟨rfl, rest, rfl⟩

theorem leavesOpen_outside {c : Char} {cs : List Char} (h : ¬ OpensComment (c :: cs)) :
    leavesOpen false (c :: cs) = leavesOpen false cs := by
  by_cases hclose : c = '*' ∧ ∃ rest, cs = '/' :: rest
  · obtain ⟨rfl, rest, rfl⟩ := hclose
    rfl
  · rw [leavesOpen]
    · rintro rest rfl rfl
      exact h ⟨rest, rfl⟩
    · rintro rest rfl rfl
      exact hclose ⟨rfl, rest, rfl⟩

/-- A comment that does not stay open ends, whatever follows. -/
theorem exists_afterClose {cs : List Char} (h : leavesOpen true cs = false) :
    ∃ rest, leavesOpen false rest = false ∧ rest.length < cs.length ∧
      ∀ after, afterClose (cs ++ after) = some (rest ++ after) := by
  induction cs with
  | nil => cases h
  | cons c cs ih =>
      by_cases hclose : c = '*' ∧ ∃ rest, cs = '/' :: rest
      · obtain ⟨rfl, rest, rfl⟩ := hclose
        refine ⟨rest, h, ?_, fun _ => rfl⟩
        simp only [List.length_cons]
        omega
      · rw [leavesOpen_inside hclose] at h
        obtain ⟨rest, hrest, hshort, hafter⟩ := ih h
        refine ⟨rest, hrest, Nat.lt_succ_of_lt hshort, fun after => ?_⟩
        rw [List.cons_append, afterClose, hafter]
        rintro behind rfl heq
        cases cs with
        | nil => cases h
        | cons d cs =>
            obtain ⟨rfl, -⟩ := List.cons.inj heq
            exact hclose ⟨rfl, cs, rfl⟩

theorem removeBlockComments_append {cs : List Char} (h : leavesOpen false cs = false)
    (after : List Char) : removeBlockComments (cs ++ '\n' :: after) =
      removeBlockComments cs ++ '\n' :: removeBlockComments after := by
  have hfeed : ∀ cs, removeBlockComments ('\n' :: cs) = '\n' :: removeBlockComments cs := fun cs =>
    removeBlockComments_blank_append (show allBlank ['\n'] from rfl) cs
  induction hlength : cs.length using Nat.strongRecOn generalizing cs with
  | ind n ih =>
      by_cases hopen : OpensComment cs
      · obtain ⟨inner, rfl⟩ := hopen
        have hinner : leavesOpen true inner = false := h
        obtain ⟨rest, hrest, hshort, hclose⟩ := exists_afterClose hinner
        have hself := hclose []
        rw [List.append_nil, List.append_nil] at hself
        simp only [List.length_cons] at hlength
        rw [List.cons_append, List.cons_append, removeBlockComments_of_afterClose (hclose _),
          removeBlockComments_of_afterClose hself]
        exact ih _ (by omega) hrest rfl
      · cases cs with
        | nil =>
            rw [List.nil_append, hfeed, removeBlockComments]
            rfl
        | cons c cs =>
            have hopen' : ¬ OpensComment (c :: (cs ++ '\n' :: after)) := by
              rintro ⟨behind, heq⟩
              obtain ⟨rfl, hbehind⟩ := List.cons.inj heq
              cases cs with
              | nil => cases hbehind
              | cons d cs =>
                  obtain ⟨rfl, -⟩ := List.cons.inj hbehind
                  exact hopen ⟨cs, rfl⟩
            rw [leavesOpen_outside hopen] at h
            rw [List.length_cons] at hlength
            rw [List.cons_append, removeBlockComments_cons hopen', removeBlockComments_cons hopen,
              ih _ (by omega) h rfl, List.cons_append]

/-- A line comment ends with its line. -/
theorem removeLineComments_append (inside : Bool) (cs after : List Char) :
    removeLineComments inside (cs ++ '\n' :: after) =
      removeLineComments inside cs ++ '\n' :: removeLineComments false after := by
  have hfeed : ∀ inside, removeLineComments inside ('\n' :: after) =
      '\n' :: removeLineComments false after := fun inside => by cases inside <;> rfl
  induction hlength : cs.length using Nat.strongRecOn generalizing cs inside with
  | ind n ih =>
      cases cs with
      | nil => exact hfeed inside
      | cons c cs =>
          rw [List.length_cons] at hlength
          cases inside with
          | true =>
              rw [List.cons_append, removeLineComments_inside, removeLineComments_inside,
                ih _ (by omega) false cs rfl, ih _ (by omega) true cs rfl]
              split <;> rfl
          | false =>
              by_cases hopen : OpensLineComment (c :: cs)
              · obtain ⟨rest, heq⟩ := hopen
                obtain ⟨rfl, rfl⟩ := List.cons.inj heq
                rw [List.length_cons] at hlength
                exact ih _ (by omega) true rest rfl
              · have hopen' : ¬ OpensLineComment (c :: (cs ++ '\n' :: after)) := by
                  rintro ⟨behind, heq⟩
                  obtain ⟨rfl, hbehind⟩ := List.cons.inj heq
                  cases cs with
                  | nil => cases hbehind
                  | cons d cs =>
                      obtain ⟨rfl, -⟩ := List.cons.inj hbehind
                      exact hopen ⟨cs, rfl⟩
                rw [List.cons_append, removeLineComments_cons hopen', removeLineComments_cons hopen,
                  ih _ (by omega) false cs rfl, List.cons_append]

/-- Lines that close their comments keep them to themselves. -/
theorem ClosesComments.removeComments_append {lines : List (List Char)} (h : ClosesComments lines)
    (after : List Char) : removeComments (lineText lines ++ '\n' :: after) =
      codeOf lines ++ removeComments ('\n' :: after) := by
  rw [removeComments_feed]
  unfold codeOf removeComments
  rw [removeBlockComments_append h, removeLineComments_append]

/-! ## What is found in sections -/

section

variable {α : Type} {rel : α → α → Prop} {read : List Char → Option (α × List Char)}
  (hread : Finder rel read)

include hread

theorem Finder.starts_feed (cs : List Char) :
    atLineStarts read ('\n' :: cs) = atLineStarts read cs :=
  hread.starts_blank_append (show allBlank ['\n'] from rfl) cs

/-- Where a reader is settled, what is found does not depend on what follows. -/
theorem Finder.starts_append {cs : List Char} (h : ∀ s ∈ lineStarts ('\n' :: cs), Settled read s)
    (after : List Char) :
    atLineStarts read (cs ++ '\n' :: after) = atLineStarts read cs ++ atLineStarts read after := by
  induction hlength : cs.length using Nat.strongRecOn generalizing cs with
  | ind n ih =>
      -- on the line behind what has been read the scan goes on in the same way
      have hnext : ∀ {rest : List Char}, rest <:+ cs →
          atLineStarts read (afterLine (rest ++ '\n' :: after)) =
            atLineStarts read (afterLine rest) ++ atLineStarts read after := by
        intro rest hrest
        by_cases hfeed : '\n' ∈ rest
        · obtain ⟨line, below, rfl, hbelow⟩ := exists_feed hfeed
          have hsuffix : '\n' :: below <:+ cs := (List.suffix_append line _).trans hrest
          have hself := hbelow []
          rw [List.append_nil, List.append_nil] at hself
          rw [hbelow, hself]
          refine ih _ ?_ (fun s hs => h s ?_) rfl
          · have hshort := hsuffix.length_le
            rw [List.length_cons] at hshort
            omega
          · exact lineStarts_of_suffix (hsuffix.trans (List.suffix_cons _ _)) hs
        · have hself : afterLine rest = [] := by
            have hfree := afterLine_append [] hfeed
            rw [List.append_nil] at hfree
            rw [hfree]
            rfl
          rw [afterLine_line _ hfeed, hself, atLineStarts_nil hread.nil, List.nil_append]
      have hnone : read cs = none → read (cs ++ '\n' :: after) = none →
          atLineStarts read (cs ++ '\n' :: after) =
            atLineStarts read cs ++ atLineStarts read after := by
        intro hself hboth
        rw [hread.starts_of_none hself, hread.starts_of_none hboth]
        exact hnext List.suffix_rfl
      rcases h cs List.mem_cons_self after with hstays | ⟨hempty, hpasses⟩
      · cases hself : read cs with
        | none =>
            rw [hself] at hstays
            exact hnone hself hstays
        | some found =>
            obtain ⟨x, rest⟩ := found
            rw [hself] at hstays
            rw [hread.starts_of_some hself, hread.starts_of_some hstays,
              hnext (hread.suffix _ _ _ hself), List.cons_append]
      · cases hbehind : read after with
        | some found =>
            rw [hempty, List.nil_append, hread.starts_of_some hbehind,
              hread.starts_of_some (hpasses.trans hbehind)]
        | none =>
            refine hnone ?_ (hpasses.trans hbehind)
            cases hself : read cs with
            | none => rfl
            | some found =>
                rw [hread.starts_of_some hself] at hempty
                cases hempty

/-- **In self-contained sections each is scanned for itself.** -/
theorem Finder.starts_sections {sections : List (List (List Char))}
    (hclosed : ∀ lines ∈ sections, ClosesComments lines)
    (hsettles : ∀ lines ∈ sections, Settles read lines) :
    atLineStarts read (codeOf sections.flatten) =
      sections.flatMap fun lines => atLineStarts read (codeOf lines) := by
  induction sections with
  | nil =>
      show atLineStarts read (codeOf []) = []
      rw [codeOf_nil, atLineStarts_nil hread.nil]
  | cons lines more ih =>
      have hmore := ih (fun l hl => hclosed l (List.mem_cons_of_mem _ hl))
        fun l hl => hsettles l (List.mem_cons_of_mem _ hl)
      rw [List.flatten_cons, List.flatMap_cons, ← hmore]
      cases lines with
      | nil => rw [List.nil_append, codeOf_nil, atLineStarts_nil hread.nil, List.nil_append]
      | cons line lines =>
          have hcode : codeOf (line :: lines ++ more.flatten) =
              codeOf (line :: lines) ++ codeOf more.flatten := by
            show removeComments _ = codeOf (line :: lines) ++ removeComments _
            rw [lineText_append]
            rcases lineText_eq more.flatten with hnil | ⟨cs, hcons⟩
            · have hempty := codeOf_nil
              rw [show codeOf [] = removeComments [] from rfl] at hempty
              rw [hnil, hempty, List.append_nil, List.append_nil]
              rfl
            · rw [hcons]
              exact (hclosed _ List.mem_cons_self).removeComments_append cs
          have hstarts := hsettles _ List.mem_cons_self
          unfold Settles at hstarts
          rw [hcode]
          rw [codeOf_cons] at hstarts ⊢
          rw [List.cons_append, hread.starts_feed, hread.starts_feed]
          rcases lineText_eq more.flatten with hnil | ⟨cs, hcons⟩
          · have hempty : codeOf more.flatten = [] := by
              unfold codeOf
              rw [hnil]
              exact codeOf_nil
            rw [hempty, atLineStarts_nil hread.nil, List.append_nil, List.append_nil]
          · have hbehind : codeOf more.flatten = '\n' :: removeComments cs := by
              unfold codeOf
              rw [hcons, removeComments_feed]
            rw [hbehind, hread.starts_append hstarts, hread.starts_feed]

end

/-! ## Single lines -/

theorem not_mem_lineText {c : Char} (hc : c ≠ '\n') {lines : List (List Char)}
    (h : ∀ line ∈ lines, c ∉ line) : c ∉ lineText lines := by
  intro hmem
  obtain ⟨line, hline, hmem⟩ := List.mem_flatMap.mp hmem
  exact h line hline (List.mem_of_ne_of_mem hc hmem)

/-- Lines without a slash have no comments. -/
theorem codeOf_of_not_mem {lines : List (List Char)} (h : ∀ line ∈ lines, '/' ∉ line) :
    codeOf lines = lineText lines :=
  removeComments_of_not_mem (not_mem_lineText (by decide) h)

theorem leavesOpen_of_not_mem {cs : List Char} (h : '/' ∉ cs) : leavesOpen false cs = false := by
  induction cs with
  | nil => rfl
  | cons c cs ih =>
      have hslash : ¬ OpensComment (c :: cs) := by
        rintro ⟨behind, heq⟩
        exact h ((List.cons.inj heq).1 ▸ List.mem_cons_self)
      rw [leavesOpen_outside hslash]
      exact ih fun hmem => h (List.mem_cons_of_mem c hmem)

theorem closesComments_of_not_mem {lines : List (List Char)} (h : ∀ line ∈ lines, '/' ∉ line) :
    ClosesComments lines :=
  leavesOpen_of_not_mem (not_mem_lineText (by decide) h)

theorem lineStarts_of_not_mem {line : List Char} (h : '\n' ∉ line) : lineStarts line = [] := by
  induction line with
  | nil => rfl
  | cons c line ih =>
      have hc : c ≠ '\n' := fun hc => h (hc ▸ List.mem_cons_self)
      rw [lineStarts, if_neg hc]
      exact ih fun hmem => h (List.mem_cons_of_mem c hmem)

/-- A line without comments whose declarations end on it. -/
structure PlainLine (line : List Char) : Prop where
  slash : '/' ∉ line
  feed : '\n' ∉ line
  uses : Settled useDeclaration line
  crates : Settled externCrate line
  modules : Settled moduleDeclaration line
  types : Settled typeDeclaration line
  mains : Settled mainFunction line

section

variable {line : List Char} (h : PlainLine line)

include h

theorem PlainLine.codeOf_eq : codeOf [line] = '\n' :: line := by
  rw [codeOf_of_not_mem (List.forall_mem_singleton.mpr h.slash), lineText_cons]
  show '\n' :: (line ++ []) = _
  rw [List.append_nil]

theorem PlainLine.settles {α : Type} {read : List Char → Option (α × List Char)}
    (hsettled : Settled read line) : Settles read [line] := by
  intro cs hcs
  rw [h.codeOf_eq, lineStarts, if_pos rfl, lineStarts_of_not_mem h.feed] at hcs
  rw [List.mem_singleton.mp hcs]
  exact hsettled

theorem PlainLine.selfContained : SelfContained [line] where
  closed := closesComments_of_not_mem (List.forall_mem_singleton.mpr h.slash)
  uses := h.settles h.uses
  crates := h.settles h.crates
  modules := h.settles h.modules
  types := h.settles h.types
  mains := h.settles h.mains

/-- On such a line what is found is what is read at its front. -/
theorem PlainLine.starts {α : Type} {rel : α → α → Prop}
    {read : List Char → Option (α × List Char)} (hread : Finder rel read) :
    atLineStarts read (codeOf [line]) = ((read line).map Prod.fst).toList := by
  have hbelow : ∀ {rest : List Char}, rest <:+ line → atLineStarts read (afterLine rest) = [] := by
    intro rest hrest
    have hfree : '\n' ∉ rest := fun hmem => h.feed (hrest.subset hmem)
    have hnext := afterLine_append [] hfree
    rw [List.append_nil] at hnext
    rw [hnext]
    exact atLineStarts_nil hread.nil
  rw [h.codeOf_eq, hread.starts_feed]
  cases hline : read line with
  | none => rw [hread.starts_of_none hline, hbelow List.suffix_rfl]; rfl
  | some found =>
      rw [hread.starts_of_some hline, hbelow (hread.suffix _ _ _ hline)]
      rfl

end

theorem Finder.settled_nil {α : Type} {rel : α → α → Prop}
    {read : List Char → Option (α × List Char)} (hread : Finder rel read) : Settled read [] :=
  fun after => .inr ⟨atLineStarts_nil hread.nil, by
    rw [List.nil_append, ← hread.strip, ← hread.strip after]
    rfl⟩

theorem plainLine_nil : PlainLine [] where
  slash := List.not_mem_nil
  feed := List.not_mem_nil
  uses := finder_useDeclaration.settled_nil
  crates := finder_externCrate.settled_nil
  modules := finder_moduleDeclaration.settled_nil
  types := finder_typeDeclaration.settled_nil
  mains := finder_mainFunction.settled_nil

/-! ## The facts of sections -/

/-- The facts found in a text without comments. -/
def factsOfCode (cs : List Char) : Facts where
  mainCount := (atLineStarts mainFunction cs).length
  crateRoots := atLineStarts externCrate cs ++ (useDeclarations cs).roots
  localModules := atLineStarts moduleDeclaration cs
  localNames := atLineStarts typeDeclaration cs ++ (useDeclarations cs).bindings

/-- The facts of some lines alone. -/
def factsOf (lines : List (List Char)) : Facts := factsOfCode (codeOf lines)

/-- How many entry points are found in the sections. -/
def mainsIn (sections : List (List (List Char))) : Nat :=
  (sections.flatMap fun lines => atLineStarts mainFunction (codeOf lines)).length

/-- What is found in any of several sections. -/
structure Gathers (facts : Facts) (sections : List (List (List Char))) : Prop where
  mains : facts.mainCount = mainsIn sections
  roots : ∀ name, name ∈ facts.crateRoots ↔
    ∃ lines ∈ sections, name ∈ (factsOf lines).crateRoots
  modules : ∀ name, name ∈ facts.localModules ↔
    ∃ lines ∈ sections, name ∈ (factsOf lines).localModules
  names : ∀ name, name ∈ facts.localNames ↔
    ∃ lines ∈ sections, name ∈ (factsOf lines).localNames

section

variable {source : List Char} {sections : List (List (List Char))}
  (halike : Alike ('\n' :: source) (lineText sections.flatten))
  (hsections : ∀ lines ∈ sections, SelfContained lines)

include halike hsections

theorem Finder.starts_source {α : Type} {rel : α → α → Prop}
    {read : List Char → Option (α × List Char)} (hread : Finder rel read)
    (hsettles : ∀ lines ∈ sections, Settles read lines) :
    List.Forall₂ rel (atLineStarts read (removeComments source))
      (sections.flatMap fun lines => atLineStarts read (codeOf lines)) := by
  have hstarts := hread.starts_alike (removeComments_alike halike)
  rw [removeComments_feed, hread.starts_feed] at hstarts
  have hcode : atLineStarts read (removeComments (lineText sections.flatten)) = _ :=
    hread.starts_sections (fun lines hlines => (hsections lines hlines).closed) hsettles
  rwa [hcode] at hstarts

theorem useDeclarations_source :
    useDeclarations (removeComments source) =
      .concat (sections.map fun lines => useDeclarations (codeOf lines)) := by
  have hstarts := finder_useDeclaration.starts_source halike hsections
    fun lines hlines => (hsections lines hlines).uses
  have hnames := map_eq_map hstarts fun _ _ _ _ => useNames_alike false
  unfold useDeclarations
  rw [hnames, List.map_flatMap]
  simp only [UseNames.concat, List.flatMap_map, List.flatMap_assoc]

/-- **The facts of a text in self-contained sections are those of the sections.** -/
theorem gathers_source : Gathers (factsOfCode (removeComments source)) sections := by
  have huses := useDeclarations_source halike hsections
  have hmains := eq_of_forall₂_eq (finder_mainFunction.starts_source halike hsections
    fun lines hlines => (hsections lines hlines).mains)
  have hcrates := eq_of_forall₂_eq (finder_externCrate.starts_source halike hsections
    fun lines hlines => (hsections lines hlines).crates)
  have hmodules := eq_of_forall₂_eq (finder_moduleDeclaration.starts_source halike hsections
    fun lines hlines => (hsections lines hlines).modules)
  have htypes := eq_of_forall₂_eq (finder_typeDeclaration.starts_source halike hsections
    fun lines hlines => (hsections lines hlines).types)
  have hnames : ∀ {name : String} {own declared : List (List Char) → List String},
      (name ∈ sections.flatMap own ++ sections.flatMap declared ↔
        ∃ lines ∈ sections, name ∈ own lines ++ declared lines) := by
    intro name own declared
    simp only [List.mem_append, List.mem_flatMap, and_or_left, exists_or]
  constructor
  · show (atLineStarts mainFunction (removeComments source)).length = _
    rw [hmains]
    rfl
  · intro name
    show name ∈ atLineStarts externCrate (removeComments source) ++ _ ↔ _
    rw [hcrates, huses]
    show name ∈ _ ++ (sections.map fun lines => useDeclarations (codeOf lines)).flatMap _ ↔ _
    rw [List.flatMap_map]
    exact hnames
  · intro name
    show name ∈ atLineStarts moduleDeclaration (removeComments source) ↔ _
    rw [hmodules, List.mem_flatMap]
    rfl
  · intro name
    show name ∈ atLineStarts typeDeclaration (removeComments source) ++ _ ↔ _
    rw [htypes, huses]
    show name ∈ _ ++ (sections.map fun lines => useDeclarations (codeOf lines)).flatMap _ ↔ _
    rw [List.flatMap_map]
    exact hnames

end

end RustScript.Source
