import RustScript.Proofs.Rust.Equality
import RustScript.Proofs.Source.Inference

/-!
# Names that a script binds itself

A script binds names by its modules and types, and by the leaves and aliases of its imports. A
registry is to be asked for none of them, unless the name is bound by a declaration that starts from
a crate of this name. The facts tell of almost all of these names (`Collected`). They do not tell of
two kinds (`Missed`): the last segment of a path that `self` below it stands for, and the alias of an
external crate. `external_of_bound` says that these two make the only difference.
-/

set_option autoImplicit false

namespace RustScript.Rust

/-! ## Leaves of a use tree -/

/-- The segments of a path as they are written. -/
def UsePath.segments (path : UsePath) : List String := path.first.text :: path.rest

/-- The tree, which stands below the segments `above`, has the leaf, which stands below the segments
`below`. -/
inductive UseTree.HasLeaf : List String → UseTree → List String → UseTree → Prop
  | here {above : List String} {leaf : UseTree} : HasLeaf above leaf above leaf
  | member {above below : List String} {path : Option UsePath} {trees : List UseTree}
      {tree leaf : UseTree} :
      tree ∈ trees → HasLeaf (above ++ (path.map UsePath.segments).getD []) tree below leaf →
      HasLeaf above (.group path trees) below leaf

/-- The leaf, which stands below the segments `above`, binds `name`, and its path starts from
`root`. The word `self` binds the last segment of the path above. -/
inductive UseTree.Introduces (root name : String) (above : List String) : UseTree → Prop
  | last {path : UsePath} : path.rest.getLast? = some name → name ≠ "self" →
      (above ++ path.segments).head? = some root → Introduces root name above (.path path)
  | single {path : UsePath} : path.rest = [] → path.first = .name name → name ≠ "self" →
      (above ++ path.segments).head? = some root → Introduces root name above (.path path)
  | parent {path : UsePath} : path.first = .keyword "self" → path.rest = [] →
      above.head? = some root → above.getLast? = some name →
      Introduces root name above (.path path)
  | renamed {path : UsePath} : name ≠ "_" → (above ++ path.segments).head? = some root →
      Introduces root name above (.renamed path name)

/-- The leaf is `self`, and `name` is the last segment of the path above. -/
def UseTree.TakesParent (name : String) (above : List String) : UseTree → Prop
  | .path leaf => leaf.first = .keyword "self" ∧ leaf.rest = [] ∧ above.getLast? = some name
  | _ => False

end RustScript.Rust

namespace RustScript.Source

open RustScript.Rust RustScript.Text

variable {strategy : Strategy} {root name : String}

/-- What a leaf introduces from elsewhere it binds, unless it is `self`. -/
theorem binds_of_introduces {above : List String} {leaf : UseTree}
    (h : leaf.Introduces root name above) (hroot : root ≠ name) :
    leaf.Binds strategy name (!above.isEmpty) ∨ leaf.TakesParent name above := by
  cases h with
  | last hlast hself _ => exact .inl (.leaf (.last hlast hself))
  | @single path hrest hfirst hself hhead =>
      refine .inl (.leaf (.nested hrest hfirst hself ?_))
      cases above with
      | nil =>
          -- at the top a single name starts from itself
          have htext : path.first.text = root := Option.some.inj hhead
          rw [hfirst] at htext
          exact absurd htext.symm hroot
      | cons first above => rfl
  | parent hfirst hrest _ hlast => exact .inr ⟨hfirst, hrest, hlast⟩
  | renamed hname _ => exact .inl (.renamed hname)

/-- What a leaf binds the whole tree binds. -/
theorem binds_of_hasLeaf {above below : List String} {tree leaf : UseTree}
    (h : tree.HasLeaf above below leaf) (hbinds : leaf.Binds strategy name (!below.isEmpty)) :
    tree.Binds strategy name (!above.isEmpty) := by
  induction h with
  | here => exact hbinds
  | @member above below path trees tree leaf hmem _ ih =>
      have hnested : (!(above ++ (path.map UsePath.segments).getD []).isEmpty) =
          (!above.isEmpty || path.isSome) := by
        cases path <;> cases above <;> rfl
      have htree := ih hbinds
      rw [hnested] at htree
      exact .member hmem htree

/-! ## Names of a script -/

/-- One of the items binds `name`, and does not start from it. -/
inductive Bound (items : List Item) (name : String) : Prop
  | module {inner : List Item} : .module name inner ∈ items → Bound items name
  | type {inner : List Item} : .typeItem name inner ∈ items → Bound items name
  | imported {tree leaf : UseTree} {above : List String} {root : String} :
      .use tree ∈ items → tree.HasLeaf [] above leaf → leaf.Introduces root name above →
      root ≠ name → Bound items name
  | crate {crate : String} : .externCrate crate (some name) ∈ items → crate ≠ name →
      Bound items name

/-- The name is that of a module or of a type, or an import binds it as a leaf or as an alias. -/
inductive Collected (strategy : Strategy) (items : List Item) (name : String) : Prop
  | module {inner : List Item} : .module name inner ∈ items → Collected strategy items name
  | type {inner : List Item} : .typeItem name inner ∈ items → Collected strategy items name
  | imported {tree : UseTree} : .use tree ∈ items → tree.Binds strategy name false →
      Collected strategy items name

/-- The name is the last segment of a path with `self` below it, or the alias of an external
crate. -/
inductive Missed (items : List Item) (name : String) : Prop
  | parent {tree leaf : UseTree} {above : List String} :
      .use tree ∈ items → tree.HasLeaf [] above leaf → leaf.TakesParent name above →
      Missed items name
  | crate {crate : String} : .externCrate crate (some name) ∈ items → Missed items name

/-- **Every name that a script binds is collected or missed.** -/
theorem Bound.collected_or_missed {items : List Item} (h : Bound items name)
    (strategy : Strategy) : Collected strategy items name ∨ Missed items name := by
  cases h with
  | module hmem => exact .inl (.module hmem)
  | type hmem => exact .inl (.type hmem)
  | imported hmem hleaf hintroduces hroot =>
      rcases binds_of_introduces hintroduces hroot with hbinds | hparent
      · exact .inl (.imported hmem (binds_of_hasLeaf hleaf hbinds))
      · exact .inr (.parent hmem hleaf hparent)
  | crate hmem _ => exact .inr (.crate hmem)

/-! ## What the facts tell of -/

theorem module_mem_iff {items : List Item} :
    .module name ∈ items.filterMap declaration? ↔ ∃ inner, .module name inner ∈ items := by
  rw [List.mem_filterMap]
  constructor
  · rintro ⟨item, hitem, hsome⟩
    cases item with
    | module other inner =>
        cases hsome
        exact ⟨inner, hitem⟩
    | _ => cases hsome
  · rintro ⟨inner, hitem⟩
    exact ⟨_, hitem, rfl⟩

theorem type_mem_iff {items : List Item} :
    .type name ∈ items.filterMap declaration? ↔ ∃ inner, .typeItem name inner ∈ items := by
  rw [List.mem_filterMap]
  constructor
  · rintro ⟨item, hitem, hsome⟩
    cases item with
    | typeItem other inner =>
        cases hsome
        exact ⟨inner, hitem⟩
    | _ => cases hsome
  · rintro ⟨inner, hitem⟩
    exact ⟨_, hitem, rfl⟩

theorem collected_iff {items : List Item} : Collected strategy items name ↔
    .module name ∈ items.filterMap declaration? ∨ .type name ∈ items.filterMap declaration? ∨
      ∃ tree, .use tree ∈ items ∧ tree.Binds strategy name false := by
  rw [module_mem_iff, type_mem_iff]
  constructor
  · rintro (hmem | hmem | ⟨hmem, hbinds⟩)
    · exact .inl ⟨_, hmem⟩
    · exact .inr (.inl ⟨_, hmem⟩)
    · exact .inr (.inr ⟨_, hmem, hbinds⟩)
  · rintro (⟨_, hmem⟩ | ⟨_, hmem⟩ | ⟨_, hmem, hbinds⟩)
    · exact .module hmem
    · exact .type hmem
    · exact .imported hmem hbinds

theorem mem_itemModules_iff {item : Item} :
    name ∈ itemModules item ↔ ∃ inner, item = .module name inner := by
  cases item <;> simp [itemModules, eq_comm]

theorem mem_itemNames_iff_cases {item : Item} : name ∈ itemNames item ↔
    (∃ inner, item = .typeItem name inner) ∨
      ∃ tree, item = .use tree ∧ tree.Binds .structural name false := by
  cases item <;> simp [itemNames, mem_treeBindings_iff, eq_comm]

/-- The syntax tree tells of the names that are collected. -/
theorem mem_ofItems_iff {items : List Item} :
    name ∈ (Facts.ofItems items).localModules ∨ name ∈ (Facts.ofItems items).localNames ↔
      Collected .structural (Item.allOf items) name := by
  show name ∈ (Item.allOf items).flatMap itemModules ∨
    name ∈ (Item.allOf items).flatMap itemNames ↔ _
  simp only [List.mem_flatMap, mem_itemModules_iff, mem_itemNames_iff_cases]
  constructor
  · rintro (⟨_, hmem, inner, rfl⟩ | ⟨_, hmem, ⟨inner, rfl⟩ | ⟨tree, rfl, hbinds⟩⟩)
    · exact .module hmem
    · exact .type hmem
    · exact .imported hmem hbinds
  · rintro (hmem | hmem | ⟨hmem, hbinds⟩)
    · exact .inl ⟨_, hmem, _, rfl⟩
    · exact .inr ⟨_, hmem, .inl ⟨_, rfl⟩⟩
    · exact .inr ⟨_, hmem, .inr ⟨_, rfl, hbinds⟩⟩

/-- The text tells of the names that are collected, other than words that begin a path. -/
theorem mem_scan_iff {source : String} {items : List Item}
    (h : Laid (items.filterMap declaration?) (removeComments source.toList))
    (hpath : name ∉ pathWords) (has : name ≠ "as") :
    name ∈ (Facts.scan source).localModules ∨ name ∈ (Facts.scan source).localNames ↔
      Collected .textual items name := by
  have hbindings : name ∈ (useDeclarations (removeComments source.toList)).bindings ↔
      ∃ tree, .use tree ∈ items ∧ tree.Binds .textual name false := by
    rw [useDeclarations, useDeclarations_laid h]
    show name ∈ List.flatMap UseNames.bindings _ ↔ _
    simp only [List.mem_flatMap, List.mem_map, exists_exists_and_eq_and, mem_trees_iff,
      use_mem_iff, mem_textNames_iff hpath]
  show name ∈ atLineStarts moduleDeclaration (removeComments source.toList) ∨
    name ∈ atLineStarts typeDeclaration (removeComments source.toList) ++
      (useDeclarations (removeComments source.toList)).bindings ↔ _
  rw [collected_iff, List.mem_append, hbindings, mem_moduleDeclarations_laid h,
    mem_typeDeclarations_laid h has]

/-! ## What a registry is asked for -/

/-- The names that the facts tell of, whichever way the script is read. -/
theorem mem_findFacts_iff {structural : Bool} {source : String} {items : List Item}
    {facts : Facts} (hparse : Item.parse? source = some items)
    (hlaid : strategy = .textual →
      Laid ((Item.allOf items).filterMap declaration?) (removeComments source.toList))
    (hfacts : findFacts structural source = (facts, strategy)) (hpath : name ∉ pathWords)
    (has : name ≠ "as") :
    name ∈ facts.localModules ∨ name ∈ facts.localNames ↔
      Collected strategy (Item.allOf items) name := by
  cases structural with
  | true =>
      unfold findFacts at hfacts
      rw [if_pos rfl, hparse] at hfacts
      obtain ⟨rfl, rfl⟩ := Prod.mk.inj hfacts
      exact mem_ofItems_iff
  | false =>
      obtain ⟨rfl, rfl⟩ := Prod.mk.inj hfacts
      exact mem_scan_iff (hlaid rfl) hpath has

/-- **Which local names a registry is asked for.** It is asked for no name that is built in. Of the
names that a script binds by declarations that do not start from them, it is asked for those that
some path starts from, that are not built in, and that are not collected, and all of these are of the
two kinds that are missed. -/
theorem external_of_bound {structural : Bool} {source : String} {items : List Item}
    {facts : Facts} (hparse : Item.parse? source = some items)
    (hlaid : strategy = .textual →
      Laid ((Item.allOf items).filterMap declaration?) (removeComments source.toList))
    (hfacts : findFacts structural source = (facts, strategy)) :
    (∀ name ∈ builtinCrates, name ∉ facts.externalCrates) ∧
      ∀ name, name ≠ "as" → Bound (Item.allOf items) name →
        (name ∈ facts.externalCrates ↔ name ∈ facts.crateRoots ∧ name ∉ builtinCrates ∧
          ¬ Collected strategy (Item.allOf items) name) ∧
        (name ∈ facts.externalCrates → Missed (Item.allOf items) name) := by
  constructor
  · intro name hbuiltin hexternal
    exact (mem_externalCrates.mp hexternal).2.1 hbuiltin
  · intro name has hbound
    have hiff : name ∈ facts.externalCrates ↔ name ∈ facts.crateRoots ∧ name ∉ builtinCrates ∧
        ¬ Collected strategy (Item.allOf items) name := by
      rw [mem_externalCrates]
      refine and_congr_right fun _ => and_congr_right fun hbuiltin => ?_
      have hpath : name ∉ pathWords := by
        have hsub : ∀ w ∈ pathWords, w ∈ builtinCrates := by decide
        exact fun hmem => hbuiltin (hsub name hmem)
      rw [← mem_findFacts_iff hparse hlaid hfacts hpath has, not_or]
    refine ⟨hiff, fun hexternal => ?_⟩
    exact (hbound.collected_or_missed strategy).resolve_left (hiff.mp hexternal).2.2

/-- The import of an item binds its name, and no registry is asked for it. -/
theorem rng_not_mem_externalCrates :
    "Rng" ∉ (findFacts true "use rand::Rng;\n").1.externalCrates ∧
      "Rng" ∉ (findFacts false "use rand::Rng;\n").1.externalCrates := by
  have hparse : Item.parse? "use rand::Rng;\n" =
      some [.use (.path (pairPath "rand" "Rng"))] := by decide +kernel
  have hbound : Bound (Item.allOf [.use (.path (pairPath "rand" "Rng"))]) "Rng" :=
    .imported List.mem_cons_self .here (.last rfl (by decide) rfl)
      (show "rand" ≠ "Rng" by decide)
  have hmissed : ¬ Missed (Item.allOf [.use (.path (pairPath "rand" "Rng"))]) "Rng" := by
    rintro (⟨hmem, hleaf, hparent⟩ | hmem)
    · cases List.mem_singleton.mp hmem
      cases hleaf
      exact absurd hparent.1 (by decide)
    · cases List.mem_singleton.mp hmem
  have hboth : ∀ structural,
      "Rng" ∉ (findFacts structural "use rand::Rng;\n").1.externalCrates := by
    intro structural hexternal
    obtain ⟨-, hlocal⟩ := external_of_bound hparse (fun _ => declares_rand .textual)
      (findFacts_eq structural "use rand::Rng;\n")
    exact hmissed ((hlocal "Rng" (by decide) hbound).2 hexternal)
  exact ⟨hboth true, hboth false⟩

/-- A script that imports a module together with an item of it, and goes on from the module. -/
def importingParent : String := "use std::io::\x7bself, Read\x7d;\nuse io::Write;\n"

/-- A script that gives an external crate another name, and goes on from this name. -/
def renamingCrate : String := "extern crate serde as data;\nuse data::Serialize;\n"

/-- **Registries are asked for local names.** The path above `self` and the alias of an external
crate bind names, and do not start from them. -/
theorem bound_mem_externalCrates :
    (∃ items, Item.parse? importingParent = some items ∧ Bound (Item.allOf items) "io") ∧
      "io" ∈ (findFacts true importingParent).1.externalCrates ∧
      "io" ∈ (findFacts false importingParent).1.externalCrates ∧
      (∃ items, Item.parse? renamingCrate = some items ∧ Bound (Item.allOf items) "data") ∧
      "data" ∈ (findFacts true renamingCrate).1.externalCrates ∧
      "data" ∈ (findFacts false renamingCrate).1.externalCrates := by
  have hparent : Item.parse? importingParent = some
      [.use (.group (some ⟨.relative, .name "std", ["io"]⟩)
        [.path ⟨.relative, .keyword "self", []⟩, .path ⟨.relative, .name "Read", []⟩]),
        .use (.path (pairPath "io" "Write"))] := by decide +kernel
  have hrenamed : Item.parse? renamingCrate = some
      [.externCrate "serde" (some "data"), .use (.path (pairPath "data" "Serialize"))] := by
    decide +kernel
  refine ⟨⟨_, hparent, ?_⟩, by decide +kernel, by decide +kernel, ⟨_, hrenamed, ?_⟩,
    mem_externalCrates.mpr (by decide +kernel), mem_externalCrates.mpr (by decide +kernel)⟩
  · refine .imported List.mem_cons_self (.member List.mem_cons_self .here)
      (.parent rfl rfl rfl rfl) (show "std" ≠ "io" by decide)
  · exact .crate List.mem_cons_self (by decide)

end RustScript.Source
