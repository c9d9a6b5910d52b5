import RustScript.Rust.Grammar.Items
import RustScript.Proofs.Source.UseTree
import Mathlib.Tactic.SplitIfs

/-!
# Where the roots in a syntax tree come from

The grammar makes no name up: each crate root in what it finds stands at the front of one of the
tokens that it has read. `From` says this of a result and `Yields` of a rule. Every combinator
keeps it, so every production over rules that keep it does, and with them the whole grammar. The
instances follow the grammar production by production and leave the search to the elaborator; only
a production that looks at the tokens itself is taken apart.
-/

set_option autoImplicit false
-- the elaborator counts the parts of a production anew for each step around them
set_option synthInstance.maxSize 1000000

namespace RustScript.Source

open RustScript.Rust RustScript.Rust.Rule RustScript.Rust.Grammar

variable {α β : Type} {words : List Token}

/-! ## Results -/

/-- The name is one of the words, or stands at the front of a word or of a macro variable. -/
inductive Named (words : List Token) (name : String) : Prop
  | whole {token : Token} (mem : token ∈ words) (word : token.kind = .word)
      (text : token.text = name)
  | head {token : Token} (mem : token ∈ words)
      (word : token.kind = .word ∨ token.kind = .metavariable)
      (text : asciiHead token.text = some name)

/-- What rules give. -/
class Traced (α : Type) where
  /-- The roots in a result are named by these words. -/
  Holds : List Token → α → Prop

/-- The roots in a result are named by these words. -/
class From [Traced α] (words : List Token) (a : α) : Prop where
  holds : Traced.Holds words a

instance : Traced Unit := ⟨fun _ _ => True⟩

instance : Traced Bool := ⟨fun _ _ => True⟩

instance : Traced Shape := ⟨fun _ _ => True⟩

instance : Traced String := ⟨fun _ _ => True⟩

instance : Traced Token := ⟨fun words token => token ∈ words⟩

instance : Traced Segment :=
  ⟨fun words segment => ∀ name, asciiHead segment.text = some name → Named words name⟩

instance : Traced UseTree := ⟨fun words tree => ∀ name ∈ treeRoots tree, Named words name⟩

instance : Traced Item :=
  ⟨fun words item => ∀ name ∈ item.all.flatMap itemRoots, Named words name⟩

section

variable [Traced α] [Traced β]

instance : Traced (List α) := ⟨fun words found => ∀ a ∈ found, From words a⟩

instance : Traced (Option α) := ⟨fun words found => ∀ a ∈ found, From words a⟩

instance : Traced (α × β) := ⟨fun words found => From words found.1 ∧ From words found.2⟩

instance (a : {a : α // From words a}) : From words a.1 := a.2

instance (u : Unit) : From words u := ⟨trivial⟩

instance (b : Bool) : From words b := ⟨trivial⟩

instance (s : Shape) : From words s := ⟨trivial⟩

instance (s : String) : From words s := ⟨trivial⟩

instance from_nil : From words ([] : List α) := ⟨fun _ h => nomatch h⟩

instance {a : α} {l : List α} [ha : From words a] [hl : From words l] : From words (a :: l) :=
  ⟨List.forall_mem_cons.2 ⟨ha, hl.holds⟩⟩

instance from_append {l m : List α} [hl : From words l] [hm : From words m] :
    From words (l ++ m) :=
  ⟨List.forall_mem_append.2 ⟨hl.holds, hm.holds⟩⟩

instance {l : List (List α)} [hl : From words l] : From words l.flatten where
  holds a ha := by
    obtain ⟨m, hm, ha⟩ := List.mem_flatten.1 ha
    exact (hl.holds m hm).holds a ha

instance : From words (none : Option α) := ⟨fun _ h => nomatch h⟩

instance {a : α} [ha : From words a] : From words (some a) :=
  ⟨fun _ h => Option.some.inj h ▸ ha⟩

instance {a : α} {b : β} [ha : From words a] [hb : From words b] : From words (a, b) :=
  ⟨⟨ha, hb⟩⟩

instance {found : α × β} [h : From words found] : From words found.1 := h.holds.1

instance {found : α × β} [h : From words found] : From words found.2 := h.holds.2

end

/-! ### Items -/

theorem allOf_eq_flatMap (items : List Item) : Item.allOf items = items.flatMap Item.all := by
  induction items with
  | nil => rfl
  | cons item rest ih => rw [Item.allOf, ih, List.flatMap_cons]

theorem named_of_from {items : List Item} (h : From words items) :
    ∀ name ∈ (Item.allOf items).flatMap itemRoots, Named words name := by
  intro name hname
  rw [allOf_eq_flatMap, List.flatMap_assoc] at hname
  obtain ⟨item, hitem, hname⟩ := List.mem_flatMap.1 hname
  exact (h.holds item hitem).holds name hname

section

variable {inner : List Item} [h : From words inner] (name : String)

instance : From words (Item.module name inner) := ⟨named_of_from h⟩

instance : From words (Item.typeItem name inner) := ⟨named_of_from h⟩

instance : From words (Item.function name inner) := ⟨named_of_from h⟩

instance : From words (Item.other inner) := ⟨named_of_from h⟩

instance : From words (held inner) := by
  unfold held
  split_ifs <;> infer_instance

end

instance {tree : UseTree} [h : From words tree] : From words (Item.use tree) where
  holds name hname := h.holds name (by simpa [Item.all, itemRoots] using hname)

theorem from_externCrate {token : Token} (h : token ∈ words) (hword : token.kind = .word)
    (renamed : Option String) : From words (Item.externCrate token.text renamed) where
  holds name hname := by
    have htext : name = token.text := by simpa [Item.all, itemRoots] using hname
    exact .whole h hword htext.symm

/-! ## Rules -/

/-- What is left are tokens among these, and they name the roots in what was found. -/
def Yielded [Traced α] (words : List Token) (read : Option (α × List Token)) : Prop :=
  ∀ found ∈ read, From words found.1 ∧ found.2 ⊆ words

/-- The rule gives no roots but those that the tokens before it name. -/
class Yields [Traced α] (words : List Token) (p : Rule α) : Prop where
  yielded : ∀ ts, ts ⊆ words → Yielded words (p ts)

theorem drop_subset_of (n : Nat) {ts : List Token} (h : ts ⊆ words) : ts.drop n ⊆ words :=
  List.Subset.trans (List.drop_subset n ts) h

theorem tail_subset_of {ts : List Token} (h : ts ⊆ words) : ts.tail ⊆ words :=
  List.Subset.trans (List.tail_sublist ts).subset h

section

variable [Traced α] [Traced β] {p q : Rule α}

theorem yielded_none : Yielded words (none : Option (α × List Token)) := fun _ h => nomatch h

theorem yielded_some {a : α} {rest : List Token} [ha : From words a] (hrest : rest ⊆ words) :
    Yielded words (some (a, rest)) :=
  fun _ h => Option.some.inj h ▸ ⟨ha, hrest⟩

theorem yielded_ite {c : Prop} [Decidable c] {read other : Option (α × List Token)}
    (hread : Yielded words read) (hother : Yielded words other) :
    Yielded words (if c then read else other) := by
  split_ifs
  · exact hread
  · exact hother

omit [Traced α] [Traced β] in
theorem bind_of_some {f : α → Rule β} {ts rest : List Token} {a : α}
    (h : p ts = some (a, rest)) : (p >>= f) ts = f a rest := by
  simp only [bind, h]

omit [Traced α] [Traced β] in
theorem bind_of_none {f : α → Rule β} {ts : List Token} (h : p ts = none) :
    (p >>= f) ts = none := by
  simp only [bind, h]

theorem Yields.andThen {f : α → Rule β} (hp : Yields words p)
    (hf : ∀ a, From words a → Yields words (f a)) : Yields words (p >>= f) where
  yielded ts hts := by
    cases hread : p ts with
    | none => exact bind_of_none hread ▸ yielded_none
    | some found =>
        obtain ⟨ha, hrest⟩ := hp.yielded ts hts found hread
        exact bind_of_some hread ▸ (hf found.1 ha).yielded found.2 hrest

instance {f : α → Rule β} [hp : Yields words p]
    [hf : ∀ a : {a // From words a}, Yields words (f a.1)] : Yields words (p >>= f) :=
  hp.andThen fun a ha => hf ⟨a, ha⟩

instance {a : α} [From words a] : Yields words (pure a : Rule α) := ⟨fun _ => yielded_some⟩

instance : Yields words (fail : Rule α) := ⟨fun _ _ => yielded_none⟩

instance {c : Prop} [Decidable c] [Yields words p] [Yields words q] :
    Yields words (if c then p else q) := by
  split_ifs <;> infer_instance

instance [hp : Yields words p] [hq : Yields words q] : Yields words (either p q) where
  yielded ts hts := by
    unfold either
    split
    next hread => exact hread ▸ hp.yielded ts hts
    · exact hq.yielded ts hts

instance {a : α} [From words a] [Yields words p] : Yields words (optionD a p) := by
  unfold optionD
  infer_instance

/-- A rule that only looks whether it may go on. -/
theorem yields_unless (refuses : List Token → Bool) (a : α) [From words a] :
    Yields words (fun ts => if refuses ts then none else some (a, ts) : Rule α) where
  yielded ts hts := by
    by_cases h : refuses ts = true
    · rw [if_pos h]
      exact yielded_none
    · rw [if_neg h]
      exact yielded_some hts

end

/-- A token is read, if any, that is accepted. -/
theorem token_cases (accept : Token → Bool) (ts : List Token) :
    token accept ts = none ∨
      ∃ t rest, ts = t :: rest ∧ accept t = true ∧ token accept ts = some (t, rest) := by
  match ts with
  | [] => exact .inl rfl
  | t :: rest =>
      by_cases h : accept t = true
      · exact .inr ⟨t, rest, rfl, h, if_pos h⟩
      · exact .inl (if_neg h)

instance {accept : Token → Bool} : Yields words (token accept) where
  yielded ts hts := by
    obtain hread | ⟨t, rest, rfl, haccept, hread⟩ := token_cases accept ts
    · exact hread ▸ yielded_none
    · have : From words t := ⟨hts List.mem_cons_self⟩
      exact hread ▸ yielded_some (List.subset_of_cons_subset hts)

instance {c : Char} : Yields words (mark c) := by
  unfold mark
  infer_instance

instance {text : String} : Yields words (word text) := by
  unfold word
  infer_instance

instance : Yields words name := by
  unfold name
  infer_instance

theorem Yields.name_andThen [Traced β] {f : String → Rule β}
    (hf : ∀ t ∈ words, t.kind = .word → Yields words (f t.text)) : Yields words (name >>= f) where
  yielded ts hts := by
    obtain hread | ⟨t, rest, rfl, hword, hread⟩ := token_cases (·.kind = .word) ts
    · exact bind_of_none (bind_of_none hread) ▸ yielded_none
    · have hname : name (t :: rest) = some (t.text, rest) := bind_of_some hread
      exact bind_of_some hname ▸ (hf t (hts List.mem_cons_self) (of_decide_eq_true hword)).yielded
        rest (List.subset_of_cons_subset hts)

instance {text : String} : Yields words (marks text) where
  yielded ts hts := by
    unfold marks
    split_ifs
    · exact yielded_some (drop_subset_of _ hts)
    · exact yielded_none

section

variable [Traced α] {p : Rule (List α)} [hp : Yields words p]

instance : Yields words (many p) where
  yielded ts hts := by
    fun_induction many p ts with
    | case1 => exact yielded_some hts
    | case2 ts found rest hread hlt more left hmany ih =>
        obtain ⟨hfound, hrest⟩ := hp.yielded ts hts _ hread
        obtain ⟨hmore, hleft⟩ := ih hrest _ hmany
        exact yielded_some hleft
    | case3 => exact yielded_none
    | case4 => exact yielded_some hts

instance : Yields words (commas p) := by
  unfold commas
  infer_instance

instance : Yields words (commaList p) := by
  unfold commaList
  infer_instance

end

instance [Traced α] {opening closing : Char} {p : Rule α} [Yields words p] :
    Yields words (between opening closing p) := by
  unfold between
  infer_instance

/-- None of the rules that refer to each other makes a root up. -/
class Sound (words : List Token) (r : Rules) : Prop where
  expression (literals : Bool) : Yields words (r.expression literals)
  clause (literals : Bool) : Yields words (r.clause literals)
  block : Yields words r.block
  ifExpression : Yields words r.ifExpression
  armBody : Yields words r.armBody
  type : Yields words r.type
  typeArguments : Yields words r.typeArguments
  pattern : Yields words r.pattern
  tokenTree : Yields words r.tokenTree
  useTree : Yields words r.useTree
  declaration : Yields words r.declaration

attribute [instance] Sound.expression Sound.clause Sound.block Sound.ifExpression Sound.armBody
  Sound.type Sound.typeArguments Sound.pattern Sound.tokenTree Sound.useTree Sound.declaration

section

variable {r : Rules} [Sound words r]

/-! ## Types and patterns -/

instance : Yields words looseToken := by
  unfold looseToken
  infer_instance

instance : Yields words (tokenTree r) := by
  unfold tokenTree
  extract_lets content
  have : Yields words content := by
    unfold content
    infer_instance
  infer_instance

instance : Yields words simplePath := by
  unfold simplePath
  extract_lets segment
  have : Yields words segment := by
    unfold segment
    infer_instance
  infer_instance

instance : Yields words (attributeContent r) := by
  unfold attributeContent
  infer_instance

instance : Yields words (outerAttribute r) := by
  unfold outerAttribute
  infer_instance

instance : Yields words (innerAttribute r) := by
  unfold innerAttribute
  infer_instance

instance : Yields words (attributes r) := by
  unfold attributes
  infer_instance

instance : Yields words lifetime := by
  unfold lifetime
  infer_instance

instance : Yields words (typeArguments r) := by
  unfold typeArguments
  extract_lets argument
  have : Yields words argument := by
    unfold argument
    infer_instance
  infer_instance

instance : Yields words (bracketedType r) := by
  unfold bracketedType
  infer_instance

instance : Yields words (parameters r) := by
  unfold parameters
  extract_lets receiver typed variadic parameter
  have : Yields words receiver := by
    unfold receiver
    iterate 4 refine .andThen inferInstance fun _ _ => ?_
    exact yields_unless _ _
  have : Yields words typed := by
    unfold typed
    infer_instance
  have : Yields words variadic := by
    unfold variadic
    infer_instance
  have : Yields words parameter := by
    unfold parameter
    infer_instance
  infer_instance

instance : Yields words (functionResult r) := by
  unfold functionResult
  infer_instance

instance : Yields words (forLifetimes r) := by
  unfold forLifetimes
  infer_instance

instance : Yields words pathHead := by
  unfold pathHead
  exact .andThen inferInstance fun first _ => yields_unless _ first

instance : Yields words (typePath r) := by
  unfold typePath
  extract_lets arguments segment step
  have : Yields words arguments := by
    unfold arguments
    infer_instance
  have : Yields words segment := by
    unfold segment
    infer_instance
  have : Yields words step := by
    unfold step
    infer_instance
  infer_instance

instance : Yields words (functionPointer r) := by
  unfold functionPointer
  infer_instance

instance : Yields words (singleType r) where
  yielded ts hts := by
    unfold singleType singleType.functionPointerFirst
    dsimp only
    split
    · exact yielded_none
    · split_ifs
      · split <;> exact Yields.yielded _ hts
      · exact Yields.yielded _ hts

instance : Yields words (type r) := by
  unfold type
  infer_instance

instance : Yields words (bounds r) := by
  unfold bounds
  infer_instance

instance : Yields words literalPattern := by
  unfold literalPattern
  infer_instance

instance : Yields words rangeMarks := by
  unfold rangeMarks
  infer_instance

instance : Yields words (valuePath r) := by
  unfold valuePath
  extract_lets head
  have : Yields words head := by
    unfold head
    infer_instance
  infer_instance

instance : Yields words (rangeEnd r) := by
  unfold rangeEnd
  extract_lets bound
  have : Yields words bound := by
    unfold bound
    infer_instance
  infer_instance

instance : Yields words (structPatternFields r) := by
  unfold structPatternFields
  extract_lets field remaining
  have : Yields words field := by
    unfold field
    infer_instance
  have : Yields words remaining := by
    unfold remaining
    infer_instance
  infer_instance

instance : Yields words (pathPattern r) := by
  unfold pathPattern
  infer_instance

instance : Yields words (singlePattern r) where
  yielded ts hts := by
    unfold singlePattern
    split
    · exact yielded_none
    · split_ifs <;> exact Yields.yielded _ hts

instance : Yields words (pattern r) := by
  unfold pattern
  infer_instance

/-! ## Expressions -/

instance : Yields words operator where
  yielded ts hts := by
    unfold operator
    split_ifs
    · exact yielded_none
    · split
      · exact yielded_some (drop_subset_of _ hts)
      · exact yielded_none

instance : Yields words (literalFields r) := by
  unfold literalFields
  extract_lets base field
  have : Yields words base := by
    unfold base
    infer_instance
  have : Yields words field := by
    unfold field
    infer_instance
  infer_instance

instance (literals : Bool) : Yields words (pathOperand r literals) := by
  unfold pathOperand
  refine .andThen inferInstance fun found hfound => ⟨fun ts hts => ?_⟩
  dsimp only
  split_ifs
  · exact Yields.yielded _ hts
  · exact Yields.yielded _ hts
  · exact yielded_some hts

instance : Yields words (element r) := by
  unfold element
  infer_instance

instance : Yields words (parenthesized r) := by
  unfold parenthesized
  infer_instance

instance : Yields words (array r) := by
  unfold array
  extract_lets more
  have : Yields words more := by
    unfold more
    infer_instance
  infer_instance

instance (literals : Bool) : Yields words (Grammar.closure r literals) := by
  unfold Grammar.closure
  extract_lets parameter
  have : Yields words parameter := by
    unfold parameter
    infer_instance
  infer_instance

instance (literals : Bool) : Yields words (condition r literals) := by
  unfold condition
  extract_lets clause
  have : Yields words clause := by
    unfold clause
    infer_instance
  infer_instance

instance : Yields words (ifExpression r) := by
  unfold ifExpression
  infer_instance

instance : Yields words (matchArms r) := by
  unfold matchArms
  extract_lets arm
  have : Yields words arm := by
    unfold arm
    infer_instance
  infer_instance

instance : Yields words (loopExpression r) where
  yielded ts hts := by
    unfold loopExpression
    split_ifs <;> exact Yields.yielded _ hts

instance : Yields words (blockOperand r) where
  yielded ts hts := by
    unfold blockOperand
    split
    · exact yielded_none
    next t rest =>
      have hrest : rest ⊆ words := List.subset_of_cons_subset hts
      split_ifs
      · exact Yields.yielded _ hts
      · exact Yields.yielded _ hts
      · exact yielded_none
      · split <;> first | exact Yields.yielded _ hts | exact Yields.yielded _ hrest | exact yielded_none

section

variable {p : Rule Items} [Yields words p] (literals : Bool) (op : String)

instance : Yields words (optionalOperand literals p) where
  yielded ts hts := by
    unfold optionalOperand
    split_ifs
    · exact yielded_some hts
    · exact Yields.yielded _ hts

instance : Yields words (rangeOperand literals op p) := by
  unfold rangeOperand
  infer_instance

instance : Yields words (openRange literals p) := by
  unfold openRange
  infer_instance

end

instance (literals : Bool) : Yields words (leadOperand r literals) where
  yielded ts hts := by
    unfold leadOperand
    dsimp only
    split
    · exact yielded_none
    next t rest =>
      have hrest : rest ⊆ words := List.subset_of_cons_subset hts
      split_ifs
      · exact Yields.yielded _ hts
      · exact yielded_none
      · split <;> first | exact Yields.yielded _ hrest | exact yielded_none

instance (literals : Bool) : Yields words (primary r literals) where
  yielded ts hts := by
    unfold primary
    dsimp only
    split
    · exact yielded_none
    · split_ifs
      · exact yielded_some (List.subset_of_cons_subset hts)
      all_goals exact Yields.yielded _ hts

instance : Yields words prefixOperator := by
  unfold prefixOperator
  extract_lets reference
  have : Yields words reference := by
    unfold reference
    infer_instance
  infer_instance

instance : Yields words (postfixOperator r) where
  yielded ts hts := by
    unfold postfixOperator
    split
    · exact yielded_none
    next t rest =>
      have hrest : rest ⊆ words := List.subset_of_cons_subset hts
      split_ifs
      · exact Yields.yielded _ hts
      · exact Yields.yielded _ hts
      · exact yielded_some hrest
      · exact Yields.yielded _ hrest
      · exact Yields.yielded _ hrest
      · exact yielded_none

instance (literals : Bool) : Yields words (operand r literals) := by
  unfold operand
  infer_instance

instance (literals : Bool) (stop : String → Bool) : Yields words (operatorStep r literals stop) := by
  unfold operatorStep
  infer_instance

instance (literals : Bool) (stop : String → Bool) : Yields words (chain r literals stop) := by
  unfold chain
  infer_instance

instance : Yields words (leadingExpression r) := by
  unfold leadingExpression
  extract_lets whole rest
  have : Yields words whole := by
    unfold whole
    infer_instance
  have hrest (found : Items) (hfound : From words found) : Yields words (rest found) := by
    unfold rest
    infer_instance
  refine ⟨fun ts hts => ?_⟩
  split_ifs
  · exact Yields.yielded _ hts
  · cases hread : primary r true ts with
    | none => exact yielded_none
    | some read =>
        obtain ⟨⟨shape, found⟩, left⟩ := read
        obtain ⟨hboth, hleft⟩ := Yields.yielded (p := primary r true) ts hts _ hread
        have hfound : From words found := hboth.holds.2
        have hgoes := (hrest found hfound).yielded left hleft
        cases shape with
        | other => exact hgoes
        | block => exact yielded_ite hgoes (yielded_some hleft)
        | macroCall => exact yielded_ite hgoes (yielded_some hleft)

instance : Yields words (armBody r) := by
  unfold armBody
  refine .andThen inferInstance fun found hfound => ⟨fun ts hts => ?_⟩
  dsimp only
  split_ifs
  · exact yielded_some (tail_subset_of hts)
  · exact yielded_some hts
  · exact yielded_none

/-! ## Use trees -/

section

variable {first : Segment} [hfirst : From words first] (lead : PathLead) (rest : List String)

instance : Traced UsePath := ⟨fun words path => ∀ name, root? path = some name → Named words name⟩

instance : From words (⟨lead, first, rest⟩ : UsePath) where
  holds name hname := by
    unfold root? at hname
    split at hname
    · cases hname
    · exact hfirst.holds name hname

variable {path : UsePath} [hpath : From words path]

instance : From words (UseTree.path path) :=
  ⟨fun name hname => hpath.holds name (Option.mem_toList.1 hname)⟩

instance (name : String) : From words (UseTree.renamed path name) :=
  ⟨fun name hname => hpath.holds name (Option.mem_toList.1 hname)⟩

instance : From words (UseTree.glob (some path)) :=
  ⟨fun name hname => hpath.holds name (Option.mem_toList.1 hname)⟩

instance (trees : List UseTree) : From words (UseTree.group (some path) trees) :=
  ⟨fun name hname => hpath.holds name (Option.mem_toList.1 hname)⟩

end

instance : From words (UseTree.glob none) := ⟨fun _ h => nomatch h⟩

instance {trees : List UseTree} [h : From words trees] : From words (UseTree.group none trees) where
  holds name hname := by
    rw [treeRoots, treeRootsOf_eq_flatMap] at hname
    obtain ⟨tree, htree, hname⟩ := List.mem_flatMap.1 hname
    exact (h.holds tree htree).holds name hname

instance : Yields words (useSegment r) where
  yielded ts hts := by
    unfold useSegment
    split
    · exact yielded_none
    next t rest =>
      have ht : t ∈ words := hts List.mem_cons_self
      have hrest : rest ⊆ words := List.subset_of_cons_subset hts
      split_ifs with hvariable hword
      · have : From words (Segment.variable t.text) := ⟨fun _ h => .head ht (.inr hvariable) h⟩
        exact yielded_some hrest
      · have : From words (Segment.keyword t.text) := ⟨fun _ h => .head ht (.inl hword) h⟩
        exact yielded_some hrest
      · have : From words (Segment.name t.text) := ⟨fun _ h => .head ht (.inl hword) h⟩
        exact yielded_some hrest
      · have : From words Segment.bracketed := ⟨fun _ h => nomatch h⟩
        exact Yields.yielded _ hts

instance : Yields words (useList r) := by
  unfold useList
  infer_instance

instance {first : Segment} [From words first] (lead : PathLead) (fuel : Nat)
    (names : List String) : Yields words (useTail r lead first fuel names) := by
  induction fuel generalizing names with
  | zero =>
      unfold useTail
      infer_instance
  | succ fuel ih =>
      refine ⟨fun ts hts => ?_⟩
      have hafter : ts.drop 2 ⊆ words := drop_subset_of _ hts
      have htail : ts.tail ⊆ words := tail_subset_of hts
      unfold useTail
      dsimp only
      split_ifs
      · exact yielded_some (tail_subset_of hafter)
      · exact Yields.yielded _ hafter
      · refine (Yields.andThen inferInstance fun _ _ => ⟨fun left hleft => ?_⟩).yielded _ hafter
        split_ifs
        · exact (ih names).yielded left hleft
        · exact yielded_none
      · exact Yields.yielded _ hafter
      · exact yielded_none
      · exact Yields.yielded _ htail
      · exact yielded_some hts

theorem yields_absolute (lead : PathLead) (fuel : Nat) :
    Yields words (name >>= fun first => useTail r lead (.name first) fuel []) :=
  .name_andThen fun t ht hword => by
    have : From words (Segment.name t.text) := ⟨fun _ h => .head ht (.inl hword) h⟩
    infer_instance

instance : Yields words (useTree r) where
  yielded ts hts := by
    have hafter : ts.drop 2 ⊆ words := drop_subset_of _ hts
    unfold useTree
    dsimp only
    split_ifs
    · exact Yields.yielded _ hts
    · exact yielded_some (tail_subset_of hts)
    · exact Yields.yielded _ hafter
    · exact yielded_some (tail_subset_of hafter)
    · exact (yields_absolute _ _).yielded _ hafter
    · exact (yields_absolute _ _).yielded _ hafter
    · exact Yields.yielded _ hts

/-! ## Items -/

instance : Yields words visibility where
  yielded ts hts := by
    unfold visibility
    split_ifs
    · exact yielded_some (tail_subset_of hts)
    · exact Yields.yielded _ hts

instance : Yields words (typeParameters r) := by
  unfold typeParameters
  extract_lets parameter
  have : Yields words parameter := by
    unfold parameter
    infer_instance
  infer_instance

instance : Yields words (whereClause r) := by
  unfold whereClause
  extract_lets predicate
  have : Yields words predicate := by
    unfold predicate
    infer_instance
  infer_instance

instance : Yields words (optionalParameters r) := by
  unfold optionalParameters
  infer_instance

instance : Yields words (optionalWhere r) := by
  unfold optionalWhere
  infer_instance

instance : Yields words (namedFields r) := by
  unfold namedFields
  infer_instance

instance : Yields words (orderedFields r) := by
  unfold orderedFields
  infer_instance

instance : Yields words (variants r) := by
  unfold variants
  infer_instance

instance : Yields words (declarationList r) := by
  unfold declarationList
  infer_instance

instance : Yields words (optionalValue r) := by
  unfold optionalValue
  infer_instance

instance {inner : Rule (String × Items)} [Yields words inner] : Yields words (typeItem inner) := by
  unfold typeItem
  infer_instance

instance : Yields words (structRest r) := by
  unfold structRest
  infer_instance

instance {body : Rule Items} [Yields words body] : Yields words (bodiedRest r body) := by
  unfold bodiedRest
  infer_instance

instance : Yields words (typeAliasRest r) := by
  unfold typeAliasRest
  infer_instance

instance : Yields words (associatedTypeRest r) := by
  unfold associatedTypeRest
  infer_instance

instance : Yields words (traitRest r) := by
  unfold traitRest
  infer_instance

instance : Yields words (implRest r) := by
  unfold implRest
  infer_instance

instance : Yields words (functionRest r) := by
  unfold functionRest
  infer_instance

instance : Yields words (constantRest r) := by
  unfold constantRest
  infer_instance

instance : Yields words (moduleRest r) := by
  unfold moduleRest
  infer_instance

instance : Yields words externCrateRest := by
  unfold externCrateRest
  refine .name_andThen fun t ht hword => ?_
  have := from_externCrate ht hword
  infer_instance

instance : Yields words (letRest r) := by
  unfold letRest
  infer_instance

instance : Yields words (macroRest r) := by
  unfold macroRest
  extract_lets arm arms
  have : Yields words arm := by
    unfold arm
    infer_instance
  have : Yields words arms := by
    unfold arms
    infer_instance
  infer_instance

instance : Yields words functionModifier := by
  unfold functionModifier
  infer_instance

instance : Yields words (foreignBlock r) := by
  unfold foreignBlock
  infer_instance

instance : Yields words (functionItem r) := by
  unfold functionItem
  infer_instance

instance : Yields words (itemRest r) where
  yielded ts hts := by
    unfold itemRest
    split
    · exact yielded_none
    next t rest =>
      have hrest : rest ⊆ words := List.subset_of_cons_subset hts
      have htail : rest.tail ⊆ words := tail_subset_of hrest
      split
      · exact yielded_none
      · split <;> try split_ifs
        all_goals first
          | exact Yields.yielded _ hts
          | exact Yields.yielded _ hrest
          | exact Yields.yielded _ htail
          | exact yielded_none

instance : Yields words (keywordDeclaration r) where
  yielded ts hts := by
    unfold keywordDeclaration
    dsimp only
    split
    · exact yielded_none
    next t rest =>
      have hrest : rest ⊆ words := List.subset_of_cons_subset hts
      have htail : rest.tail ⊆ words := tail_subset_of hrest
      split_ifs
      all_goals first
        | exact Yields.yielded _ hts
        | exact Yields.yielded _ hrest
        | exact Yields.yielded _ htail
        | exact yielded_some hrest
        | exact yielded_some hts

theorem From.of_some {found : Items} (h : From words (some found)) : From words found :=
  h.holds found rfl

instance : Yields words (declaration r) := by
  unfold declaration
  refine .andThen inferInstance fun found? hfound => ?_
  cases found? with
  | some found =>
      have := hfound.of_some
      infer_instance
  | none => infer_instance

instance (lastValue : Bool) : Yields words (statement r lastValue) := by
  unfold statement
  refine .andThen inferInstance fun found? hfound => ?_
  cases found? with
  | some found =>
      have := hfound.of_some
      infer_instance
  | none =>
      refine .andThen inferInstance fun leading hleading => ⟨fun ts hts => ?_⟩
      dsimp only
      split_ifs
      · exact yielded_some (tail_subset_of hts)
      · exact yielded_some hts
      · exact yielded_some hts
      · exact yielded_none

instance : Yields words (block r) := by
  unfold block
  infer_instance

instance : Sound words (deepen r) where
  expression _ := by
    unfold deepen
    infer_instance
  clause _ := by
    unfold deepen
    infer_instance
  block := inferInstanceAs (Yields words (block r))
  ifExpression := inferInstanceAs (Yields words (ifExpression r))
  armBody := inferInstanceAs (Yields words (armBody r))
  type := inferInstanceAs (Yields words (type r))
  typeArguments := inferInstanceAs (Yields words (typeArguments r))
  pattern := inferInstanceAs (Yields words (pattern r))
  tokenTree := inferInstanceAs (Yields words (tokenTree r))
  useTree := inferInstanceAs (Yields words (useTree r))
  declaration := inferInstanceAs (Yields words (declaration r))

end

/-! ## The whole grammar -/

theorem sound_refusing : Sound words Rules.refusing := by
  constructor <;> intros <;> exact ⟨fun _ _ => yielded_none⟩

instance sound_rules (depth : Nat) : Sound words (rules depth) := by
  induction depth with
  | zero => exact sound_refusing
  | succ depth ih =>
      unfold rules
      infer_instance

/-- **No root is made up.** The roots in a syntax tree are named by tokens of its text. -/
theorem named_of_parse {source : String} {items : List Item} (h : Item.parse? source = some items)
    {name : String} (hname : name ∈ (Facts.ofItems items).crateRoots) :
    ∃ tokens, Token.lex source = some tokens ∧ Named tokens name := by
  unfold Item.parse? at h
  cases hlex : Token.lex source with
  | none => simp [hlex] at h
  | some tokens =>
      refine ⟨tokens, rfl, ?_⟩
      have hmany : Yields tokens (many (statement (rules (4 * tokens.length + 4)) false)) :=
        inferInstance
      cases hread : many (statement (rules (4 * tokens.length + 4)) false) tokens with
      | none => simp [hlex, hread] at h
      | some read =>
          have hitems : read.1 = items := by
            simp [hlex, hread] at h
            exact h.2
          exact named_of_from (hitems ▸ (hmany.yielded tokens (List.Subset.refl _) _ hread).1)
            name hname

end RustScript.Source
