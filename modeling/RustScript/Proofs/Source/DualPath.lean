import RustScript.Proofs.Rust.Equality
import RustScript.Proofs.Source.Agree
import RustScript.Proofs.Source.Lines

/-!
# Both ways to read a script

A script whose items stand on lines of their own can be read from its syntax tree or from its text.
Both find the same crate roots and modules, and they find the same names but for what stands alone in
a use declaration: `::name` is a name in the tree only, and `super` or `crate` below a path is one in
the text only. `findFacts_agree_iff` says when this makes no difference.
-/

set_option autoImplicit false

namespace RustScript.Source

open RustScript.Rust RustScript.Text

/-! ## Where the two differ -/

/-- A lone `::name` binds its name in a syntax tree, and none in a text. -/
structure LoneName (name : String) (nested : Bool) (path : UsePath) : Prop where
  top : nested = false
  absolute : path.lead ≠ .relative
  first : path.first = .name name
  rest : path.rest = []
  other : name ≠ "self"

/-- A lone `super` or `crate` below a path is a name in a text, and none in a syntax tree. -/
structure LoneWord (word : String) (nested : Bool) (path : UsePath) : Prop where
  below : nested = true
  first : path.first = .keyword word
  rest : path.rest = []
  starts : word ∈ pathWords
  other : word ≠ "self"

theorem LoneName.mem_leafName {name : String} {nested : Bool} {path : UsePath}
    (h : LoneName name nested path) : name ∈ leafName nested path :=
  (mem_leafName_iff name nested path).mpr (.absolute h.rest h.first h.other h.absolute rfl)

theorem LoneWord.mem_textLeaf {word : String} {nested : Bool} {path : UsePath}
    (h : LoneWord word nested path) : word ∈ textLeaf nested path := by
  unfold textLeaf
  simp [h.rest, h.first, h.below, h.starts, h.other]

theorem mem_textLeaf_or {name : String} {nested : Bool} {path : UsePath}
    (h : name ∈ leafName nested path) :
    name ∈ textLeaf nested path ∨ LoneName name nested path := by
  unfold textLeaf
  cases (mem_leafName_iff name nested path).mp h with
  | last hlast hself => simp [hlast, hself]
  | nested hrest hfirst hself hnested => simp [hrest, hfirst, hself, hnested]
  | absolute hrest hfirst hself hlead _ =>
      cases nested with
      | true => simp [hrest, hfirst, hself]
      | false => exact .inr ⟨rfl, hlead, hfirst, hrest, hself⟩

theorem mem_leafName_or {name : String} {nested : Bool} {path : UsePath}
    (h : name ∈ textLeaf nested path) :
    name ∈ leafName nested path ∨ LoneWord name nested path := by
  unfold textLeaf at h
  split at h
  · next last _ hlast =>
      split at h
      · cases h
      · next hself =>
          rw [List.mem_singleton.mp h]
          exact .inl ((mem_leafName_iff _ _ _).mpr (.last hlast hself))
  · next text hrest hfirst =>
      split at h
      · next hcond =>
          rw [List.mem_singleton.mp h]
          simp only [Bool.and_eq_true, decide_eq_true_eq] at hcond
          have hnil := List.getLast?_eq_none_iff.mp hrest
          exact .inl ((mem_leafName_iff _ _ _).mpr (.nested hnil hfirst hcond.2 hcond.1))
      · cases h
  · next text hrest hfirst =>
      split at h
      · next hcond =>
          simp only [Bool.and_eq_true, decide_eq_true_eq] at hcond
          have hnil := List.getLast?_eq_none_iff.mp hrest
          rw [List.mem_singleton.mp h]
          exact .inr ⟨hcond.1.1, hfirst, hnil, hcond.1.2, hcond.2⟩
      · cases h
  · cases h

/-- A path of the tree is a leaf with the property. -/
inductive AtLeaf (P : Bool → UsePath → Prop) : Bool → UseTree → Prop
  | path {nested : Bool} {path : UsePath} : P nested path → AtLeaf P nested (.path path)
  | member {nested : Bool} {path : Option UsePath} {tree : UseTree} {trees : List UseTree} :
      tree ∈ trees → AtLeaf P (nested || path.isSome) tree → AtLeaf P nested (.group path trees)

theorem AtLeaf.exists_leaf {P : Bool → UsePath → Prop} {nested : Bool} {tree : UseTree}
    (h : AtLeaf P nested tree) : ∃ nested path, P nested path := by
  induction h with
  | path hpath => exact ⟨_, _, hpath⟩
  | member _ _ ih => exact ih

section

variable {name : String} {P : Bool → UsePath → Prop} {leaf other : Bool → UsePath → List String}

theorem AtLeaf.mem_bindingsBy (hleaf : ∀ nested path, P nested path → name ∈ leaf nested path)
    {nested : Bool} {tree : UseTree} (h : AtLeaf P nested tree) :
    name ∈ bindingsBy leaf nested tree := by
  induction h with
  | path hpath => exact hleaf _ _ hpath
  | member hmem _ ih =>
      rw [bindingsBy, bindingsOfBy_eq_flatMap]
      exact List.mem_flatMap.mpr ⟨_, hmem, ih⟩

mutual

theorem mem_bindingsBy_or
    (hleaf : ∀ nested path, name ∈ leaf nested path → name ∈ other nested path ∨ P nested path)
    (nested : Bool) (tree : UseTree) (h : name ∈ bindingsBy leaf nested tree) :
    name ∈ bindingsBy other nested tree ∨ AtLeaf P nested tree :=
  match tree with
  | .path path => (hleaf nested path h).imp_right .path
  | .renamed _ _ => .inl h
  | .glob _ => by cases h
  | .group path trees => by
      rcases mem_bindingsOfBy_or hleaf (nested || path.isSome) trees h with hmem | ⟨tree, hmem, hat⟩
      · exact .inl hmem
      · exact .inr (.member hmem hat)

theorem mem_bindingsOfBy_or
    (hleaf : ∀ nested path, name ∈ leaf nested path → name ∈ other nested path ∨ P nested path)
    (nested : Bool) (trees : List UseTree) (h : name ∈ bindingsOfBy leaf nested trees) :
    name ∈ bindingsOfBy other nested trees ∨ ∃ tree ∈ trees, AtLeaf P nested tree :=
  match trees with
  | [] => by cases h
  | tree :: rest => by
      rw [bindingsOfBy] at h ⊢
      rcases List.mem_append.mp h with hfirst | hrest
      · refine (mem_bindingsBy_or hleaf nested tree hfirst).imp (List.mem_append_left _) ?_
        exact fun hat => ⟨tree, List.mem_cons_self, hat⟩
      · refine (mem_bindingsOfBy_or hleaf nested rest hrest).imp (List.mem_append_right _) ?_
        exact fun ⟨other, hmem, hat⟩ => ⟨other, List.mem_cons_of_mem tree hmem, hat⟩

end

end

/-- The items have a use declaration with the name alone at a leaf. -/
def StandsAlone (P : String → Bool → UsePath → Prop) (items : List Item) (name : String) : Prop :=
  ∃ tree, .use tree ∈ items ∧ AtLeaf (P name) false tree

/-! ## What the items tell -/

theorem mem_itemUses_iff {items : List Item} {names : UseNames} :
    names ∈ items.flatMap itemUses ↔ ∃ tree, .use tree ∈ items ∧ names = textNames false tree := by
  rw [List.mem_flatMap]
  constructor
  · rintro ⟨item, hitem, hmem⟩
    cases item with
    | use tree => exact ⟨tree, hitem, List.mem_singleton.mp hmem⟩
    | externCrate _ _ => cases hmem
    | module _ _ => cases hmem
    | typeItem _ _ => cases hmem
    | function _ _ => cases hmem
    | other _ => cases hmem
  · rintro ⟨tree, htree, rfl⟩
    exact ⟨_, htree, List.mem_singleton_self _⟩

theorem mem_itemRoots_iff {items : List Item} {name : String} :
    name ∈ items.flatMap itemRoots ↔
      name ∈ items.flatMap itemCrates ∨ ∃ tree, .use tree ∈ items ∧ name ∈ treeRoots tree := by
  rw [List.mem_flatMap, List.mem_flatMap]
  constructor
  · rintro ⟨item, hitem, hmem⟩
    cases item with
    | use tree => exact .inr ⟨tree, hitem, hmem⟩
    | externCrate _ _ => exact .inl ⟨_, hitem, hmem⟩
    | module _ _ => cases hmem
    | typeItem _ _ => cases hmem
    | function _ _ => cases hmem
    | other _ => cases hmem
  · rintro (⟨item, hitem, hmem⟩ | ⟨tree, htree, hmem⟩)
    · cases item with
      | externCrate _ _ => exact ⟨_, hitem, hmem⟩
      | use _ => cases hmem
      | module _ _ => cases hmem
      | typeItem _ _ => cases hmem
      | function _ _ => cases hmem
      | other _ => cases hmem
    · exact ⟨_, htree, hmem⟩

theorem mem_itemNames_iff {items : List Item} {name : String} :
    name ∈ items.flatMap itemNames ↔ name ∈ items.flatMap itemTypes ∨
      ∃ tree, .use tree ∈ items ∧ name ∈ bindingsBy leafName false tree := by
  rw [List.mem_flatMap, List.mem_flatMap]
  constructor
  · rintro ⟨item, hitem, hmem⟩
    cases item with
    | use tree =>
        rw [itemNames, treeBindings_eq] at hmem
        exact .inr ⟨tree, hitem, hmem⟩
    | typeItem _ _ => exact .inl ⟨_, hitem, hmem⟩
    | externCrate _ _ => cases hmem
    | module _ _ => cases hmem
    | function _ _ => cases hmem
    | other _ => cases hmem
  · rintro (⟨item, hitem, hmem⟩ | ⟨tree, htree, hmem⟩)
    · cases item with
      | typeItem _ _ => exact ⟨_, hitem, hmem⟩
      | use _ => cases hmem
      | externCrate _ _ => cases hmem
      | module _ _ => cases hmem
      | function _ _ => cases hmem
      | other _ => cases hmem
    · exact ⟨_, htree, by rwa [itemNames, treeBindings_eq]⟩

section

variable {items : List Item} {cs : List Char} (h : Placed items (cutLines cs))

include h

/-- From the text the same roots are found. -/
theorem Placed.mem_roots_iff (name : String) :
    name ∈ items.flatMap itemRoots ↔
      name ∈ atLineStarts externCrate cs ++ (useDeclarations cs).roots := by
  unfold useDeclarations UseNames.concat
  rw [mem_itemRoots_iff, h.crates, h.uses, List.mem_append]
  refine or_congr_right ⟨fun ⟨tree, htree, hmem⟩ => ?_, fun hmem => ?_⟩
  · exact List.mem_flatMap.mpr ⟨_, mem_itemUses_iff.mpr ⟨tree, htree, rfl⟩, hmem⟩
  · obtain ⟨names, hnames, hmem⟩ := List.mem_flatMap.mp hmem
    obtain ⟨tree, htree, rfl⟩ := mem_itemUses_iff.mp hnames
    exact ⟨tree, htree, hmem⟩

/-- From the text the names are found that the leaves bind in it. -/
theorem Placed.mem_names_iff (name : String) :
    name ∈ atLineStarts typeDeclaration cs ++ (useDeclarations cs).bindings ↔
      name ∈ items.flatMap itemTypes ∨
        ∃ tree, .use tree ∈ items ∧ name ∈ bindingsBy textLeaf false tree := by
  unfold useDeclarations UseNames.concat
  rw [h.types, h.uses, List.mem_append]
  refine or_congr_right ⟨fun hmem => ?_, fun ⟨tree, htree, hmem⟩ => ?_⟩
  · obtain ⟨names, hnames, hmem⟩ := List.mem_flatMap.mp hmem
    obtain ⟨tree, htree, rfl⟩ := mem_itemUses_iff.mp hnames
    exact ⟨tree, htree, hmem⟩
  · exact List.mem_flatMap.mpr ⟨_, mem_itemUses_iff.mpr ⟨tree, htree, rfl⟩, hmem⟩

end

/-! ## The facts -/

theorem ofItems_of_loneName {items : List Item} {name : String}
    (hname : StandsAlone LoneName (Item.allOf items) name) :
    name ∈ (Facts.ofItems items).localNames := by
  obtain ⟨tree, htree, hlone⟩ := hname
  have hmem := hlone.mem_bindingsBy fun _ _ => LoneName.mem_leafName
  exact mem_itemNames_iff.mpr (.inr ⟨tree, htree, hmem⟩)

/-- A word that begins a path is never external, so it makes no difference to the crates. -/
theorem builtin_of_loneWord {items : List Item} {word : String}
    (h : StandsAlone LoneWord items word) : word ∈ builtinCrates := by
  have hall : ∀ word ∈ pathWords, word ∈ builtinCrates := by decide
  obtain ⟨tree, -, hlone⟩ := h
  obtain ⟨_, _, hpath⟩ := hlone.exists_leaf
  exact hall word hpath.starts

theorem externalCrates_congr {facts other : Facts}
    (h : ∀ name, name ∈ facts.externalCrates ↔ name ∈ other.externalCrates) :
    facts.externalCrates = other.externalCrates := by
  refine sortedNames_congr fun name => ?_
  have hname : name ∈ facts.externalCrates ↔ name ∈ other.externalCrates := h name
  unfold Facts.externalCrates at hname
  rwa [mem_sortedNames, mem_sortedNames] at hname

section

variable {source : String} {items : List Item}
  (h : Placed (Item.allOf items) (cutLines (removeComments source.toList)))

include h

theorem Placed.scan_roots (name : String) :
    name ∈ (Facts.ofItems items).crateRoots ↔ name ∈ (Facts.scan source).crateRoots :=
  h.mem_roots_iff name

theorem Placed.scan_modules :
    (Facts.ofItems items).localModules = (Facts.scan source).localModules :=
  h.modules.symm

/-- A name that only the tree tells of stands alone at a leaf. -/
theorem Placed.scan_names {name : String} (hname : name ∈ (Facts.ofItems items).localNames) :
    name ∈ (Facts.scan source).localNames ∨ StandsAlone LoneName (Item.allOf items) name := by
  rcases mem_itemNames_iff.mp hname with htype | ⟨tree, htree, hmem⟩
  · exact .inl ((h.mem_names_iff name).mpr (.inl htype))
  · rcases mem_bindingsBy_or (fun _ _ => mem_textLeaf_or) false tree hmem with hboth | hlone
    · exact .inl ((h.mem_names_iff name).mpr (.inr ⟨tree, htree, hboth⟩))
    · exact .inr ⟨tree, htree, hlone⟩

/-- A name that only the text tells of is a word that stands alone at a leaf. -/
theorem Placed.ofItems_names {name : String} (hname : name ∈ (Facts.scan source).localNames) :
    name ∈ (Facts.ofItems items).localNames ∨ StandsAlone LoneWord (Item.allOf items) name := by
  rcases (h.mem_names_iff name).mp hname with htype | ⟨tree, htree, hmem⟩
  · exact .inl (mem_itemNames_iff.mpr (.inl htype))
  · rcases mem_bindingsBy_or (fun _ _ => mem_leafName_or) false tree hmem with hboth | hlone
    · exact .inl (mem_itemNames_iff.mpr (.inr ⟨tree, htree, hboth⟩))
    · exact .inr ⟨tree, htree, hlone⟩

theorem Placed.scan_of_loneWord {word : String}
    (hword : StandsAlone LoneWord (Item.allOf items) word) :
    word ∈ (Facts.scan source).localNames := by
  obtain ⟨tree, htree, hlone⟩ := hword
  have hmem := hlone.mem_bindingsBy fun _ _ => LoneWord.mem_textLeaf
  exact (h.mem_names_iff word).mpr (.inr ⟨tree, htree, hmem⟩)

theorem Placed.names_agree_iff :
    (∀ name, name ∈ (Facts.ofItems items).localNames ↔ name ∈ (Facts.scan source).localNames) ↔
      (∀ name, StandsAlone LoneName (Item.allOf items) name →
        name ∈ (Facts.scan source).localNames) ∧
      ∀ word, StandsAlone LoneWord (Item.allOf items) word →
        word ∈ (Facts.ofItems items).localNames := by
  constructor
  · intro hsame
    exact ⟨fun name hname => (hsame name).mp (ofItems_of_loneName hname),
      fun word hword => (hsame word).mpr (h.scan_of_loneWord hword)⟩
  · rintro ⟨hnames, hwords⟩ name
    exact ⟨fun hmem => (h.scan_names hmem).elim id (hnames name),
      fun hmem => (h.ofItems_names hmem).elim id (hwords name)⟩

theorem Placed.externalCrates_eq_iff :
    (Facts.ofItems items).externalCrates = (Facts.scan source).externalCrates ↔
      ∀ name, StandsAlone LoneName (Item.allOf items) name →
        name ∉ (Facts.scan source).externalCrates := by
  constructor
  · intro hsame name hname hmem
    rw [← hsame] at hmem
    exact (mem_externalCrates.mp hmem).2.2.2 (ofItems_of_loneName hname)
  · intro hlone
    refine externalCrates_congr fun name => ?_
    constructor
    · intro hmem
      obtain ⟨hroot, hbuiltin, hmodule, hfree⟩ := mem_externalCrates.mp hmem
      rw [h.scan_roots] at hroot
      rw [h.scan_modules] at hmodule
      refine mem_externalCrates.mpr ⟨hroot, hbuiltin, hmodule, fun hname => ?_⟩
      exact (h.ofItems_names hname).elim hfree fun hword => hbuiltin (builtin_of_loneWord hword)
    · intro hmem
      obtain ⟨hroot, hbuiltin, hmodule, hfree⟩ := mem_externalCrates.mp hmem
      rw [← h.scan_roots] at hroot
      rw [← h.scan_modules] at hmodule
      refine mem_externalCrates.mpr ⟨hroot, hbuiltin, hmodule, fun hname => ?_⟩
      exact (h.scan_names hname).elim hfree fun hstands => hlone name hstands hmem

end

/-! ## Both ways -/

theorem findFacts_true {source : String} {items : List Item}
    (h : Item.parse? source = some items) :
    findFacts true source = (Facts.ofItems items, .structural) := by
  unfold findFacts
  rw [if_pos rfl, h]

/-- **Both ways to read a script find the same, but for what stands alone at a leaf.** A script has
one item on each line. Then its syntax tree and its text have the same crate roots and the same
modules. They have the same names if and only if each `::name` is a name in the text for another
reason too, and each lone word in the tree. And they need the same crates from a registry if and
only if no such `::name` is one of the crates that the text asks for. -/
theorem findFacts_agree_iff {source : String} {items : List Item} {structural textual : Facts}
    (hparse : Item.parse? source = some items)
    (hplaced : Placed (Item.allOf items) (cutLines (removeComments source.toList)))
    (hstructural : (findFacts true source).1 = structural)
    (htextual : (findFacts false source).1 = textual) :
    (∀ name, name ∈ structural.crateRoots ↔ name ∈ textual.crateRoots) ∧
      structural.localModules = textual.localModules ∧
      ((∀ name, name ∈ structural.localNames ↔ name ∈ textual.localNames) ↔
        (∀ name, StandsAlone LoneName (Item.allOf items) name → name ∈ textual.localNames) ∧
        ∀ word, StandsAlone LoneWord (Item.allOf items) word → word ∈ structural.localNames) ∧
      (structural.externalCrates = textual.externalCrates ↔
        ∀ name, StandsAlone LoneName (Item.allOf items) name →
          name ∉ textual.externalCrates) := by
  have htree : Facts.ofItems items = structural := by rw [← hstructural, findFacts_true hparse]
  have htext : Facts.scan source = textual := htextual
  rw [← htree, ← htext]
  exact ⟨hplaced.scan_roots, hplaced.scan_modules, hplaced.names_agree_iff,
    hplaced.externalCrates_eq_iff⟩

/-! ## Two scripts -/

theorem lineOf_path {path : UsePath} {text : List Char} (h : SpellsPath path text) :
    LineOf (.use (.path path)) ("use".toList ++ (' ' :: (text ++ [';']))) := by
  have hbody : Body (.use (.path path)) _ [] :=
    .use ⟨(by decide : allBlank [' ']), List.cons_ne_nil _ _⟩ (.path h) allBlank_nil
  have hline : LineOf (.use (.path path)) _ :=
    .declared rfl (.front allBlank_nil .inherited hbody)
  simpa only [List.append_assoc, List.nil_append, List.append_nil, List.cons_append] using hline

/-- A script with an external crate, an import from it and an entry point. -/
def importing : String := "extern crate rand;\nuse rand::Rng;\nfn main() \x7b\x7d\n"

/-- The items of `importing`. -/
def importingItems : List Item :=
  [.externCrate "rand" none, .use (.path (pairPath "rand" "Rng")), .function "main" []]

theorem parse_importing : Item.parse? importing = some importingItems := by decide +kernel

theorem placed_importing :
    Placed (Item.allOf importingItems) (cutLines (removeComments importing.toList)) := by
  have hgap : Gap [' '] := ⟨by decide, List.cons_ne_nil _ _⟩
  have hrand : IsName "rand" := ⟨by decide, by decide⟩
  have hcrate : LineOf (.externCrate "rand" none) ([] ++ ("extern".toList ++ ([' '] ++
      ("crate".toList ++ ([' '] ++ ("rand".toList ++ [';'])))))) :=
    .external allBlank_nil hgap hgap hrand (rfl : isAsciiWord ';' = false)
  have hpath : SpellsPath (pairPath "rand" "Rng") ([] ++ ("rand".toList ++
      ([] ++ ':' :: ':' :: ([] ++ ("Rng".toList ++ []))))) :=
    .segments .relative hrand (.cons allBlank_nil allBlank_nil ⟨by decide, by decide⟩ .nil)
  have hmain : LineOf (.function "main" []) ([] ++ ([] ++ ([] ++ ("fn".toList ++ ([' '] ++
      ("main".toList ++ "() \x7b\x7d".toList)))))) :=
    .function allBlank_nil .inherited (.plain .native) hgap ⟨by decide, by decide⟩
      (rfl : isAsciiWord '(' = false)
  rw [removeComments_of_not_mem (by decide)]
  exact .item hcrate (.item (lineOf_path hpath) (.item hmain (.idle (.blank allBlank_nil) .nil)))

/-- The crate is found both ways, and nothing else. -/
theorem findFacts_agree_importing :
    Item.parse? importing = some importingItems ∧
      Placed (Item.allOf importingItems) (cutLines (removeComments importing.toList)) ∧
      (∀ name, name ∈ (findFacts true importing).1.crateRoots ↔
        name ∈ (findFacts false importing).1.crateRoots) ∧
      (findFacts true importing).1.externalCrates = (findFacts false importing).1.externalCrates := by
  obtain ⟨hroots, -, -, hexternal⟩ := findFacts_agree_iff parse_importing placed_importing rfl rfl
  refine ⟨parse_importing, placed_importing, hroots, hexternal.mpr fun name hname => ?_⟩
  -- the one use declaration names an item below the crate
  obtain ⟨tree, htree, hlone⟩ := hname
  obtain rfl : tree = .path (pairPath "rand" "Rng") := by
    simpa [importingItems, Item.allOf, Item.all] using htree
  cases hlone with
  | path hpath => cases hpath.rest

/-- The path `::name`. -/
def absolutePath (name : String) : UsePath := ⟨.absolute, segmentOf name, []⟩

/-- **A crate that is imported by `::` and its name alone is lost to the syntax tree only.** The
script has one item on its line, but the two ways to read it find other names and other crates. -/
theorem absolute_name_differs :
    ∃ (source : String) (items : List Item), Item.parse? source = some items ∧
      Placed (Item.allOf items) (cutLines (removeComments source.toList)) ∧
      ("rand" ∈ (findFacts true source).1.localNames ∧
        "rand" ∉ (findFacts false source).1.localNames) ∧
      (findFacts true source).1.externalCrates = [] ∧
      (findFacts false source).1.externalCrates = ["rand"] := by
  have hpath : SpellsPath (absolutePath "rand") ([':', ':'] ++ ("rand".toList ++ [])) :=
    .segments (.absolute allBlank_nil) ⟨by decide, by decide⟩ .nil
  have hparse : Item.parse? "use ::rand;\n" = some [.use (.path (absolutePath "rand"))] := by
    decide +kernel
  have hplaced : Placed (Item.allOf [.use (.path (absolutePath "rand"))])
      (cutLines (removeComments "use ::rand;\n".toList)) := by
    rw [removeComments_of_not_mem (by decide)]
    exact .item (lineOf_path hpath) (.idle (.blank allBlank_nil) .nil)
  have hscan : (findFacts false "use ::rand;\n").1.localNames = [] ∧
      (findFacts false "use ::rand;\n").1.externalCrates = ["rand"] := by decide +kernel
  refine ⟨"use ::rand;\n", _, hparse, hplaced, ⟨?_, ?_⟩, ?_, hscan.2⟩
  · rw [findFacts_true hparse]
    decide +kernel
  · rw [hscan.1]
    exact List.not_mem_nil
  · rw [findFacts_true hparse]
    decide +kernel

end RustScript.Source
