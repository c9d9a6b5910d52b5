import RustScript.Proofs.Rust.Elements
import RustScript.Proofs.Source.Sections

/-!
# The live code of a script

A scan removes what look like block comments, and then what look like line comments, and knows
nothing of literals or of comments inside comments. Where the comments of a script are what they look
like (`Apparent`), this leaves the code without its comments. Blanking the comments instead keeps words
and lines apart. If blanks and line feeds stand around the comments that do (`Spaced`), nothing else is
found in the live code. The rest is lines in which nothing is declared however one reads them
(`Readable`), and there a scan sees the live code (`scan_live`).
-/

set_option autoImplicit false

namespace RustScript.Rust

/-! ## Code without comments -/

/-- A character of a comment that has been blanked: lines stay as they are. -/
def blanked (c : Char) : Char := if c = '\n' then '\n' else ' '

namespace Element

/-- The text of an element in which comments are blanked. -/
def live (e : Element) : List Char := if e.isComment then e.text.map blanked else e.text

/-- The text of an element without comments. -/
def bare (e : Element) : List Char := if e.isComment then [] else e.text

/-- The element is a block comment. -/
def isBlock : Element → Bool
  | blockComment _ => true
  | _ => false

/-- The element is a line comment. -/
def isLine : Element → Bool
  | lineComment _ => true
  | _ => false

end Element

/-- **The live code**: the text with every comment blanked. -/
def liveOf (es : List Element) : List Char := es.flatMap Element.live

/-- The text without comments. -/
def bareOf (es : List Element) : List Char := es.flatMap Element.bare

end RustScript.Rust

namespace RustScript.Source

open RustScript.Rust RustScript.Text

/-! ## Comments that are what they look like -/

/-- No `/` with the mark behind it stands in the elements but at the beginning of their own comments. -/
def OpensOnlyOwn (mark : Char) (own : Element → Bool) : List Element → Prop
  | [] => True
  | e :: es => (own e = true ∨ ¬ ['/', mark] <:+: e.text ++ (textOf es).take 1) ∧
      OpensOnlyOwn mark own es

/-- Block comments open where they look like it, up to the last place at which one could end. -/
def OpensApparently : List Element → Prop
  | [] => True
  | e :: es => afterClose (textOf (e :: es)) = none ∨
      (e.isBlock = true ∨ ¬ ['/', '*'] <:+: e.text ++ (textOf es).take 1) ∧ OpensApparently es

instance decidableOpensOnlyOwn (mark : Char) (own : Element → Bool) :
    (es : List Element) → Decidable (OpensOnlyOwn mark own es)
  | [] => .isTrue trivial
  | e :: es =>
      have := decidableOpensOnlyOwn mark own es
      inferInstanceAs (Decidable
        ((own e = true ∨ ¬ ['/', mark] <:+: e.text ++ (textOf es).take 1) ∧
          OpensOnlyOwn mark own es))

instance decidableOpensApparently : (es : List Element) → Decidable (OpensApparently es)
  | [] => .isTrue trivial
  | e :: es =>
      have := decidableOpensApparently es
      inferInstanceAs (Decidable (afterClose (textOf (e :: es)) = none ∨
        (e.isBlock = true ∨ ¬ ['/', '*'] <:+: e.text ++ (textOf es).take 1) ∧
          OpensApparently es))

/-- The comments among the elements are what they look like. -/
structure Apparent (es : List Element) : Prop where
  blocks : OpensApparently es
  /-- No block comment has another one in it. -/
  flat : ∀ text, .blockComment text ∈ es → afterClose (text.drop 2) = some []
  lines : OpensOnlyOwn '/' Element.isLine (es.filter fun e => !e.isBlock)

/-! ## Removing block comments -/

theorem afterClose_eq_none_iff {cs : List Char} :
    afterClose cs = none ↔ ¬ ['*', '/'] <:+: cs := by
  fun_induction afterClose cs with
  | case1 => simp
  | case2 rest =>
      exact iff_of_false (Option.some_ne_none rest) fun h =>
        h (List.prefix_append ['*', '/'] rest).isInfix
  | case3 c cs hclose ih =>
      rw [ih, List.infix_cons_iff, not_or]
      refine (and_iff_right ?_).symm
      rintro ⟨rest, hrest⟩
      obtain ⟨rfl, hcs⟩ := List.cons.inj hrest
      exact hclose rest rfl hcs.symm

theorem afterClose_append {cs rest : List Char} (h : afterClose cs = some rest)
    (more : List Char) : afterClose (cs ++ more) = some (rest ++ more) := by
  fun_induction afterClose cs with
  | case1 => cases h
  | case2 => rw [← Option.some.inj h]; rfl
  | case3 c cs hclose ih =>
      rw [List.cons_append, afterClose, ih h]
      rintro behind rfl hbehind
      cases cs with
      | nil => cases h
      | cons d cs =>
          obtain ⟨rfl, -⟩ := List.cons.inj hbehind
          exact hclose cs rfl rfl

/-- Where no comment could end there is none. -/
theorem removeBlockComments_of_never {cs : List Char} (h : afterClose cs = none) :
    removeBlockComments cs = cs := by
  induction cs with
  | nil => rw [removeBlockComments]
  | cons c cs ih =>
      have hrest : ∀ {more : List Char}, more <:+ c :: cs → afterClose more = none := fun hmore =>
        afterClose_eq_none_iff.mpr fun hclose =>
          afterClose_eq_none_iff.mp h (hclose.trans hmore.isInfix)
      by_cases hopen : OpensComment (c :: cs)
      · obtain ⟨rest, heq⟩ := hopen
        obtain ⟨rfl, rfl⟩ := List.cons.inj heq
        have hinner : afterClose rest = none :=
          hrest ((List.suffix_cons _ _).trans (List.suffix_cons _ _))
        have hsame := ih (hrest (List.suffix_cons _ _))
        rw [removeBlockComments, hinner, hsame]
      · rw [removeBlockComments_cons hopen, ih (hrest (List.suffix_cons _ _))]

/-- A mark that does not stand in a text, nor at its end, does not open anything at its beginning. -/
theorem not_opens_of_not_infix {mark c : Char} {front behind : List Char}
    (h : ¬ ['/', mark] <:+: (c :: front) ++ behind.take 1) :
    ¬ ∃ rest, c :: (front ++ behind) = '/' :: mark :: rest := by
  rintro ⟨rest, heq⟩
  obtain ⟨rfl, hrest⟩ := List.cons.inj heq
  refine h (List.IsPrefix.isInfix ?_)
  cases front with
  | nil =>
      rw [List.nil_append] at hrest
      rw [hrest]
      exact ⟨[], rfl⟩
  | cons d front =>
      obtain ⟨rfl, -⟩ := List.cons.inj hrest
      exact ⟨front ++ behind.take 1, rfl⟩

theorem not_infix_of_cons {mark c : Char} {front behind : List Char}
    (h : ¬ ['/', mark] <:+: (c :: front) ++ behind.take 1) :
    ¬ ['/', mark] <:+: front ++ behind.take 1 :=
  fun hinside => h (hinside.trans (List.suffix_cons c _).isInfix)

theorem removeBlockComments_append_of_not_infix {front behind : List Char}
    (h : ¬ ['/', '*'] <:+: front ++ behind.take 1) :
    removeBlockComments (front ++ behind) = front ++ removeBlockComments behind := by
  induction front with
  | nil => rfl
  | cons c front ih =>
      have hopen : ¬ OpensComment (c :: (front ++ behind)) := not_opens_of_not_infix h
      rw [List.cons_append, removeBlockComments_cons hopen, ih (not_infix_of_cons h),
        List.cons_append]

theorem removeLineComments_append_of_not_infix {front behind : List Char}
    (h : ¬ ['/', '/'] <:+: front ++ behind.take 1) :
    removeLineComments false (front ++ behind) = front ++ removeLineComments false behind := by
  induction front with
  | nil => rfl
  | cons c front ih =>
      have hopen : ¬ OpensLineComment (c :: (front ++ behind)) := not_opens_of_not_infix h
      rw [List.cons_append, removeLineComments_cons hopen, ih (not_infix_of_cons h),
        List.cons_append]

/-- A text in which no comment is closed has no block comment. -/
theorem not_isBlock_of_never {es : List Element}
    (hflat : ∀ text, .blockComment text ∈ es → afterClose (text.drop 2) = some [])
    (hnever : afterClose (textOf es) = none) : ∀ e ∈ es, (!e.isBlock) = true := by
  intro e hmem
  cases e with
  | blockComment text =>
      have hinside : text.drop 2 <:+: textOf es :=
        (List.drop_suffix 2 text).isInfix.trans (text_infix_textOf hmem)
      have hclose : afterClose (text.drop 2) = none := afterClose_eq_none_iff.mpr fun hends =>
        afterClose_eq_none_iff.mp hnever (hends.trans hinside)
      rw [hflat text hmem] at hclose
      cases hclose
  | _ => rfl

/-- The first pass removes the block comments. -/
theorem removeBlockComments_textOf {es : List Element} (hfit : Fit es) (hopens : OpensApparently es)
    (hflat : ∀ text, .blockComment text ∈ es → afterClose (text.drop 2) = some []) :
    removeBlockComments (textOf es) = textOf (es.filter fun e => !e.isBlock) := by
  induction es with
  | nil =>
      show removeBlockComments [] = []
      rw [removeBlockComments]
  | cons e es ih =>
      obtain hnever | ⟨hown, hmore⟩ := hopens
      · rw [removeBlockComments_of_never hnever,
          List.filter_eq_self.mpr (not_isBlock_of_never hflat hnever)]
      · have hrest := ih hfit.2 hmore fun text htext => hflat text (List.mem_cons_of_mem _ htext)
        rw [textOf_cons]
        cases hblock : e.isBlock with
        | true =>
            rw [List.filter_cons_of_neg (by simp [hblock])]
            cases e with
            | blockComment text =>
                obtain ⟨⟨inner, rfl⟩, -⟩ := hfit
                have hclose := afterClose_append (hflat _ List.mem_cons_self) (textOf es)
                exact (removeBlockComments_of_afterClose hclose).trans hrest
            | _ => cases hblock
        | false =>
            rw [List.filter_cons_of_pos (by simp [hblock]), textOf_cons, ← hrest]
            refine removeBlockComments_append_of_not_infix (hown.resolve_left ?_)
            rw [hblock]
            exact Bool.false_ne_true

/-! ## Removing line comments -/

/-- Behind a line comment the line ends, also without the block comments. -/
theorem lineEnd_filter {es : List Element} (hfit : Fit es)
    (hline : textOf es = [] ∨ ∃ rest, textOf es = '\n' :: rest) :
    textOf (es.filter fun e => !e.isBlock) = [] ∨
      ∃ rest, textOf (es.filter fun e => !e.isBlock) = '\n' :: rest := by
  cases es with
  | nil => exact .inl rfl
  | cons e es =>
      have hfits : e.Fits (textOf es) := hfit.1
      obtain ⟨c, more, htext⟩ := List.exists_cons_of_ne_nil hfits.text_ne_nil
      have hfeed : c = '\n' := by
        rw [textOf_cons, htext] at hline
        obtain hnil | ⟨rest, hrest⟩ := hline
        · cases hnil
        · exact (List.cons.inj hrest).1
      have hblock : e.isBlock = false := by
        cases e with
        | blockComment text =>
            obtain ⟨⟨inner, rfl⟩, -⟩ := hfit
            rw [← (List.cons.inj htext).1] at hfeed
            exact absurd hfeed (by decide)
        | _ => rfl
      rw [List.filter_cons_of_pos (by simp [hblock]), textOf_cons, htext, hfeed]
      exact .inr ⟨_, rfl⟩

/-- The second pass removes the line comments. -/
theorem removeLineComments_textOf {es : List Element} (hfit : Fit es)
    (hopens : OpensOnlyOwn '/' Element.isLine (es.filter fun e => !e.isBlock)) :
    removeLineComments false (textOf (es.filter fun e => !e.isBlock)) = bareOf es := by
  induction es with
  | nil => rfl
  | cons e es ih =>
      have hbare : bareOf (e :: es) = e.bare ++ bareOf es := List.flatMap_cons
      cases hblock : e.isBlock with
      | true =>
          rw [List.filter_cons_of_neg (by simp [hblock])] at hopens ⊢
          rw [ih hfit.2 hopens, hbare]
          cases e with
          | blockComment text => rfl
          | _ => cases hblock
      | false =>
          rw [List.filter_cons_of_pos (by simp [hblock])] at hopens ⊢
          obtain ⟨hown, hopens⟩ := hopens
          rw [textOf_cons, hbare, ← ih hfit.2 hopens]
          cases hline : e.isLine with
          | true =>
              cases e with
              | lineComment text =>
                  obtain ⟨⟨⟨inner, rfl, hfree⟩, hends⟩, hfit⟩ := hfit
                  have hinside := removeLineComments_inside_append hfree
                    (textOf (es.filter fun e => !e.isBlock))
                  refine Eq.trans hinside ?_
                  obtain hnil | ⟨rest, hrest⟩ := lineEnd_filter hfit hends
                  · rw [hnil]
                    rfl
                  · rw [hrest]
                    rfl
              | _ => cases hline
          | false =>
              have htext : e.bare = e.text := by
                cases e with
                | lineComment text => cases hline
                | blockComment text => cases hblock
                | _ => rfl
              rw [htext]
              refine removeLineComments_append_of_not_infix (hown.resolve_left ?_)
              rw [hline]
              exact Bool.false_ne_true

/-- **Where comments are what they look like, the code without them is left.** -/
theorem Apparent.removeComments_eq {es : List Element} (h : Apparent es) (hfit : Fit es) :
    removeComments (textOf es) = bareOf es := by
  rw [removeComments, removeBlockComments_textOf hfit h.blocks h.flat,
    removeLineComments_textOf hfit h.lines]

/-! ## Blanks around comments -/

/-- The blanks and the comments between two tokens hold a blank, and a line feed if there is one in a
comment, so that the tokens are apart without the comments as they are where these are blanked. -/
inductive Spaced : List Element → Prop
  | nil : Spaced []
  | token (t : Token) {es : List Element} : Spaced es → Spaced (.token t :: es)
  | run {run es : List Element} : (∀ e ∈ run, e.token? = none) → (∃ c, .space c ∈ run) →
      ('\n' ∈ liveOf run → .space '\n' ∈ run) → Spaced es → Spaced (run ++ es)

theorem Spaced.space {c : Char} {es : List Element} (h : Spaced es) : Spaced (.space c :: es) := by
  refine @Spaced.run [.space c] es (fun e he => ?_) ⟨c, List.mem_singleton_self _⟩
    (fun hfeed => ?_) h
  · rw [List.mem_singleton.mp he]
    rfl
  · rw [List.mem_singleton.mp hfeed]
    exact List.mem_singleton_self _

theorem isBlank_blanked (c : Char) : isBlank (blanked c) = true := by
  unfold blanked
  split <;> decide

/-- Both ways to leave out the comments of a run of blanks and comments leave blanks, with line feeds
in both or in neither. -/
theorem gaps_of_run {run : List Element} (htokens : ∀ e ∈ run, e.token? = none)
    (hspaces : ∀ c, .space c ∈ run → isSpace c = true) (hspace : ∃ c, .space c ∈ run)
    (hfeed : '\n' ∈ liveOf run → .space '\n' ∈ run) :
    Gap (bareOf run) ∧ Gap (liveOf run) ∧ ('\n' ∈ bareOf run ↔ '\n' ∈ liveOf run) := by
  have hmem : ∀ {c : Char}, .space c ∈ run → c ∈ bareOf run ∧ c ∈ liveOf run := fun hc =>
    ⟨List.mem_flatMap.mpr ⟨_, hc, List.mem_singleton_self _⟩,
      List.mem_flatMap.mpr ⟨_, hc, List.mem_singleton_self _⟩⟩
  have hbare : ∀ {c : Char}, c ∈ bareOf run → .space c ∈ run := by
    intro c hc
    obtain ⟨e, he, hc⟩ := List.mem_flatMap.mp hc
    cases e with
    | space d => exact List.mem_singleton.mp hc ▸ he
    | token t => cases htokens _ he
    | _ => cases hc
  have hlive : ∀ c ∈ liveOf run, isBlank c = true := by
    intro c hc
    obtain ⟨e, he, hc⟩ := List.mem_flatMap.mp hc
    cases e with
    | space d =>
        obtain rfl := List.mem_singleton.mp hc
        exact isBlank_of_isSpace (hspaces c he)
    | token t => cases htokens _ he
    | _ =>
        obtain ⟨d, -, rfl⟩ := List.mem_map.mp hc
        exact isBlank_blanked d
  obtain ⟨c, hc⟩ := hspace
  refine ⟨⟨?_, List.ne_nil_of_mem (hmem hc).1⟩, ⟨List.all_eq_true.mpr hlive,
    List.ne_nil_of_mem (hmem hc).2⟩, fun h => (hmem (hbare h)).2, fun h => (hmem (hfeed h)).1⟩
  exact List.all_eq_true.mpr fun d hd => isBlank_of_isSpace (hspaces d (hbare hd))

theorem Spaced.alike {es : List Element} (h : Spaced es)
    (hspaces : ∀ c, .space c ∈ es → isSpace c = true) : Alike (bareOf es) (liveOf es) := by
  induction h with
  | nil => exact .nil
  | @token t es _ ih =>
      have hrest := ih fun c hc => hspaces c (List.mem_cons_of_mem _ hc)
      exact (Alike.refl t.text.toList).append hrest
  | @run run es htokens hspace hfeed _ ih =>
      have hrest := ih fun c hc => hspaces c (List.mem_append_right _ hc)
      obtain ⟨hbare, hlive, hsame⟩ := gaps_of_run htokens
        (fun c hc => hspaces c (List.mem_append_left _ hc)) hspace hfeed
      unfold bareOf liveOf
      rw [List.flatMap_append, List.flatMap_append]
      exact .gap hbare hlive hsame hrest

/-! ## What is found -/

/-- A scan finds the same in both texts. -/
structure FindsSame (cs cs' : List Char) : Prop where
  mains : atLineStarts mainFunction cs = atLineStarts mainFunction cs'
  crates : atLineStarts externCrate cs = atLineStarts externCrate cs'
  modules : atLineStarts moduleDeclaration cs = atLineStarts moduleDeclaration cs'
  types : atLineStarts typeDeclaration cs = atLineStarts typeDeclaration cs'
  uses : useDeclarations cs = useDeclarations cs'

theorem FindsSame.factsOfCode_eq {cs cs' : List Char} (h : FindsSame cs cs') :
    factsOfCode cs = factsOfCode cs' := by
  unfold factsOfCode
  rw [h.mains, h.crates, h.modules, h.types, h.uses]

/-- In front of the first line a line feed does not matter. -/
theorem useDeclarations_feed (cs : List Char) : useDeclarations ('\n' :: cs) = useDeclarations cs := by
  unfold useDeclarations
  rw [finder_useDeclaration.starts_feed]

theorem findsSame_of_alike {cs cs' : List Char} (h : Alike ('\n' :: cs) ('\n' :: cs')) :
    FindsSame cs cs' := by
  have hmains := eq_of_forall₂_eq (finder_mainFunction.starts_alike h)
  have hcrates := eq_of_forall₂_eq (finder_externCrate.starts_alike h)
  have hmodules := eq_of_forall₂_eq (finder_moduleDeclaration.starts_alike h)
  have htypes := eq_of_forall₂_eq (finder_typeDeclaration.starts_alike h)
  have huses := useDeclarations_alike h
  rw [finder_mainFunction.starts_feed, finder_mainFunction.starts_feed] at hmains
  rw [finder_externCrate.starts_feed, finder_externCrate.starts_feed] at hcrates
  rw [finder_moduleDeclaration.starts_feed, finder_moduleDeclaration.starts_feed] at hmodules
  rw [finder_typeDeclaration.starts_feed, finder_typeDeclaration.starts_feed] at htypes
  rw [useDeclarations_feed, useDeclarations_feed] at huses
  exact ⟨hmains, hcrates, hmodules, htypes, huses⟩

/-- What is read in a text does not depend on the lines that follow. -/
structure Enclosed (cs : List Char) : Prop where
  uses : ∀ s ∈ lineStarts ('\n' :: cs), Settled useDeclaration s
  crates : ∀ s ∈ lineStarts ('\n' :: cs), Settled externCrate s
  modules : ∀ s ∈ lineStarts ('\n' :: cs), Settled moduleDeclaration s
  types : ∀ s ∈ lineStarts ('\n' :: cs), Settled typeDeclaration s
  mains : ∀ s ∈ lineStarts ('\n' :: cs), Settled mainFunction s

/-- The starts of the lines, one after the other. -/
theorem Enclosed.of_starts {cs : List Char} {starts : List (List Char)}
    (hstarts : lineStarts ('\n' :: cs) = starts)
    (h : ∀ s ∈ starts, Settled useDeclaration s ∧ Settled externCrate s ∧
      Settled moduleDeclaration s ∧ Settled typeDeclaration s ∧ Settled mainFunction s) :
    Enclosed cs := by
  subst hstarts
  exact {
    uses := fun s hs => (h s hs).1
    crates := fun s hs => (h s hs).2.1
    modules := fun s hs => (h s hs).2.2.1
    types := fun s hs => (h s hs).2.2.2.1
    mains := fun s hs => (h s hs).2.2.2.2 }

theorem Enclosed.useDeclarations_append {cs : List Char} (h : Enclosed cs) (after : List Char) :
    useDeclarations (cs ++ '\n' :: after) =
      .concat [useDeclarations cs, useDeclarations after] := by
  unfold useDeclarations
  rw [finder_useDeclaration.starts_append h.uses, List.map_append]
  simp only [UseNames.concat, List.flatMap_append, List.flatMap_cons, List.flatMap_nil,
    List.append_nil]

theorem FindsSame.append {cs cs' ds ds' : List Char} (h : FindsSame cs cs') (hcs : Enclosed cs)
    (hcs' : Enclosed cs') (hds : FindsSame ds ds') :
    FindsSame (cs ++ '\n' :: ds) (cs' ++ '\n' :: ds') := by
  constructor
  · rw [finder_mainFunction.starts_append hcs.mains, finder_mainFunction.starts_append hcs'.mains,
      h.mains, hds.mains]
  · rw [finder_externCrate.starts_append hcs.crates, finder_externCrate.starts_append hcs'.crates,
      h.crates, hds.crates]
  · rw [finder_moduleDeclaration.starts_append hcs.modules,
      finder_moduleDeclaration.starts_append hcs'.modules, h.modules, hds.modules]
  · rw [finder_typeDeclaration.starts_append hcs.types,
      finder_typeDeclaration.starts_append hcs'.types, h.types, hds.types]
  · rw [hcs.useDeclarations_append, hcs'.useDeclarations_append, h.uses, hds.uses]

/-- Nothing is found in the text. -/
structure Barren (cs : List Char) : Prop where
  mains : atLineStarts mainFunction cs = []
  crates : atLineStarts externCrate cs = []
  modules : atLineStarts moduleDeclaration cs = []
  types : atLineStarts typeDeclaration cs = []
  uses : atLineStarts useDeclaration cs = []

theorem Barren.findsSame {cs cs' : List Char} (h : Barren cs) (h' : Barren cs') :
    FindsSame cs cs' where
  mains := h.mains.trans h'.mains.symm
  crates := h.crates.trans h'.crates.symm
  modules := h.modules.trans h'.modules.symm
  types := h.types.trans h'.types.symm
  uses := by
    unfold useDeclarations
    rw [h.uses, h'.uses]

/-! ## The law -/

/-- A scan reads the elements as they are meant: their comments are what they look like, with blanks
around them, or nothing is declared in them however one reads them. So it is with some lines and those
behind them, if what is read in each of the parts does not depend on the next. -/
inductive Readable : List Element → Prop
  | apparent {es : List Element} : Apparent es → Spaced (.space '\n' :: es) → Readable es
  | barren {es : List Element} : Barren (removeComments (textOf es)) → Barren (liveOf es) →
      Readable es
  | append {part es : List Element} : Readable part → leavesOpen false (textOf part) = false →
      Enclosed (removeComments (textOf part)) → Enclosed (liveOf part) → Readable es →
      Readable (part ++ .space '\n' :: es)

/-- Elements fit in front of a line feed exactly if they fit at the end. -/
theorem fit_of_append {part es : List Element} (h : Fit (part ++ .space '\n' :: es)) :
    Fit part ∧ Fit es := by
  induction part with
  | nil => exact ⟨trivial, h.2⟩
  | cons e part ih =>
      obtain ⟨hfits, hrest⟩ := h
      obtain ⟨hpart, hes⟩ := ih hrest
      refine ⟨⟨?_, hpart⟩, hes⟩
      cases e with
      | lineComment text =>
          refine ⟨hfits.1, ?_⟩
          have hline : textOf (part ++ .space '\n' :: es) = [] ∨
              ∃ rest, textOf (part ++ .space '\n' :: es) = '\n' :: rest := hfits.2
          rw [textOf_append] at hline
          cases hbehind : textOf part with
          | nil => exact .inl rfl
          | cons c more =>
              rw [hbehind] at hline
              obtain hnil | ⟨rest, hrest⟩ := hline
              · cases hnil
              · exact .inr ⟨more, by rw [(List.cons.inj hrest).1]⟩
      | _ => exact hfits

theorem Readable.findsSame {es : List Element} (h : Readable es) (hfit : Fit es) :
    FindsSame (removeComments (textOf es)) (liveOf es) := by
  induction h with
  | @apparent es happarent hspaced =>
      have hspaces : ∀ c, .space c ∈ .space '\n' :: es → isSpace c = true := fun c hc =>
        isSpace_of_mem (show Fit (.space '\n' :: es) from ⟨rfl, hfit⟩) hc
      rw [happarent.removeComments_eq hfit]
      exact findsSame_of_alike (hspaced.alike hspaces)
  | barren hremoved hlive => exact hremoved.findsSame hlive
  | @append part es _ hclosed hremoved hlive _ ihpart ih =>
      obtain ⟨hpart, hes⟩ := fit_of_append hfit
      have htext : textOf (part ++ .space '\n' :: es) = textOf part ++ '\n' :: textOf es :=
        textOf_append _ _
      have hlines : liveOf (part ++ .space '\n' :: es) = liveOf part ++ '\n' :: liveOf es := by
        unfold liveOf
        rw [List.flatMap_append]
        rfl
      have hremove : removeComments (textOf part ++ '\n' :: textOf es) =
          removeComments (textOf part) ++ '\n' :: removeComments (textOf es) := by
        unfold removeComments
        rw [removeBlockComments_append hclosed, removeLineComments_append]
      rw [htext, hlines, hremove]
      exact (ihpart hpart).append hremoved hlive (ih hes)

/-- **A scan sees the live code**: it finds what is found where every comment is blanked. -/
theorem scan_live {body : String} {es : List Element} (hcut : cut body.toList = some es)
    (h : Readable es) : Facts.scan body = factsOfCode (liveOf es) := by
  have hfinds := h.findsSame (fit_of_cut hcut)
  rw [text_of_cut hcut] at hfinds
  exact hfinds.factsOfCode_eq

/-- A script with comments in which modules are declared, and with an address. -/
def hostScript : String :=
  "mod kept; /* mod gone; */\nlet host = \"http://host\";\nmod last; // mod lost;\n"

/-- The declaration of a module. -/
def moduleElements (name : String) : List Element :=
  [.token ⟨.word, "mod", false, false⟩, .space ' ', .token ⟨.word, name, false, false⟩,
    .token ⟨.punctuation, ";", true, false⟩]

/-- The line of the address. -/
def hostElements : List Element :=
  [.token ⟨.word, "let", false, true⟩, .space ' ', .token ⟨.word, "host", false, false⟩, .space ' ',
    .token ⟨.punctuation, "=", false, false⟩, .space ' ',
    .token ⟨.literal, "\"http://host\"", false, false⟩, .token ⟨.punctuation, ";", true, false⟩]

/-- The first line. -/
def keptElements : List Element :=
  moduleElements "kept" ++ [.space ' ', .blockComment "/* mod gone; */".toList]

/-- The last line. -/
def lastElements : List Element :=
  moduleElements "last" ++ [.space ' ', .lineComment "// mod lost;".toList, .space '\n']

theorem spaced_module {name : String} {es : List Element} (h : Spaced es) :
    Spaced (moduleElements name ++ es) :=
  .token _ (.space (.token _ (.token _ h)))

theorem readable_hostScript :
    Readable (keptElements ++ .space '\n' :: (hostElements ++ .space '\n' :: lastElements)) := by
  have hkept : Readable keptElements := by
    have hcomment : Spaced [.space ' ', .blockComment "/* mod gone; */".toList] :=
      @Spaced.run [.space ' ', .blockComment "/* mod gone; */".toList] [] (by decide +kernel)
        ⟨' ', by decide +kernel⟩ (by decide +kernel) .nil
    refine .apparent ⟨by decide +kernel, fun text htext => ?_, by decide +kernel⟩
      (.space (spaced_module hcomment))
    have htext : text = "/* mod gone; */".toList := by
      simpa [keptElements, moduleElements] using htext
    subst htext
    decide +kernel
  have hhost : Readable hostElements :=
    .barren (by constructor <;> decide +kernel) (by constructor <;> decide +kernel)
  have hlast : Readable lastElements := by
    have hcomment : Spaced [.space ' ', .lineComment "// mod lost;".toList, .space '\n'] :=
      @Spaced.run [.space ' ', .lineComment "// mod lost;".toList, .space '\n'] []
        (by decide +kernel) ⟨' ', by decide +kernel⟩ (by decide +kernel) .nil
    refine .apparent ⟨by decide +kernel, fun text htext => ?_, by decide +kernel⟩
      (.space (spaced_module hcomment))
    simp [lastElements, moduleElements] at htext
  have hremoved : lineStarts ('\n' :: removeComments (textOf keptElements)) =
      ["mod kept; ".toList] := by decide +kernel
  have hblanked : lineStarts ('\n' :: liveOf keptElements) =
      ["mod kept;                ".toList] := by decide +kernel
  have hcutOff : lineStarts ('\n' :: removeComments (textOf hostElements)) =
      ["let host = \"http:".toList] := by decide +kernel
  have hwhole : lineStarts ('\n' :: liveOf hostElements) =
      ["let host = \"http://host\";".toList] := by decide +kernel
  refine .append hkept (by decide +kernel) (.of_starts hremoved ?_) (.of_starts hblanked ?_)
    (.append hhost (by decide +kernel) (.of_starts hcutOff ?_) (.of_starts hwhole ?_) hlast)
  all_goals
    refine List.forall_mem_singleton.mpr ?_
    exact ⟨fun _ => .inl rfl, fun _ => .inl rfl, fun _ => .inl rfl, fun _ => .inl rfl,
      fun _ => .inl rfl⟩

/-- The modules of the code are found, and no other. -/
theorem scan_hostScript :
    Facts.scan hostScript = factsOfCode
      "mod kept;                \nlet host = \"http://host\";\nmod last;             \n".toList := by
  have hcut : cut hostScript.toList =
      some (keptElements ++ .space '\n' :: (hostElements ++ .space '\n' :: lastElements)) := by
    decide +kernel
  have hlive : liveOf (keptElements ++ .space '\n' :: (hostElements ++ .space '\n' :: lastElements)) =
      "mod kept;                \nlet host = \"http://host\";\nmod last;             \n".toList := by
    decide +kernel
  exact hlive ▸ scan_live hcut readable_hostScript

/-- A block comment that looks like it has another one in it, and an import. -/
def nestedComment : String := "/* a /* b */\nuse rand::Rng;\n*/\n"

/-- **A comment in a comment ends both**: the import is found that is no code. -/
theorem nested_comment_read :
    ∃ es, cut nestedComment.toList = some es ∧ "rand" ∈ (Facts.scan nestedComment).crateRoots ∧
      "rand" ∉ (factsOfCode (liveOf es)).crateRoots := by
  refine ⟨[.blockComment "/* a /* b */\nuse rand::Rng;\n*/".toList, .space '\n'], ?_, ?_, ?_⟩ <;>
    decide +kernel

end RustScript.Source
