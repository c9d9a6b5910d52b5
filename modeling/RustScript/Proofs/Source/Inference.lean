import RustScript.Proofs.Source.Scanned

/-!
# Which imported crates come from the registry

A crate that a use declaration starts from is external unless it is built in or the script declares
something of its name. What is bound by a use declaration counts as declared, and so it happens that
a declaration hides its own crate: `use anyhow::anyhow;` binds `anyhow` and starts from it. This is
the only way to lose a crate, and it is the same one on both ways to read a script, but for
`use ::anyhow;`, which the syntax tree takes to bind `anyhow` and the text does not.
-/

set_option autoImplicit false

namespace RustScript.Source

open RustScript.Rust RustScript.Text

/-! ## The declarations of a script -/

/-- The declaration that an item is. -/
def declaration? : Item → Option Declaration
  | .use tree => some (.use tree)
  | .module name _ => some (.module name)
  | .typeItem name _ => some (.type name)
  | _ => none

/-- The declarations of a script as a strategy meets them: those of the syntax tree, wherever they
stand, or those of a text without comments, each at the start of a line. -/
def Declares : Strategy → String → List Declaration → Prop
  | .structural, source, ds =>
      ∃ items, Item.parse? source = some items ∧ ds = (Item.allOf items).filterMap declaration?
  | .textual, source, ds => Laid ds (removeComments source.toList)

/-- The facts are those of the declarations, as far as they concern `name`. -/
structure Facts.Agrees (facts : Facts) (strategy : Strategy) (ds : List Declaration)
    (name : String) : Prop where
  roots : ∀ tree, .use tree ∈ ds → tree.StartsWith name → name ∈ facts.crateRoots
  modules : name ∈ facts.localModules → .module name ∈ ds
  names : name ∈ facts.localNames →
    .type name ∈ ds ∨ ∃ tree, .use tree ∈ ds ∧ tree.Binds strategy name false
  bindings : ∀ tree, .use tree ∈ ds → tree.Binds strategy name false → name ∈ facts.localNames

/-! ## The syntax tree -/

theorem use_mem_iff {tree : UseTree} {items : List Item} :
    .use tree ∈ items.filterMap declaration? ↔ .use tree ∈ items := by
  rw [List.mem_filterMap]
  constructor
  · rintro ⟨item, hitem, hsome⟩
    cases item with
    | use other =>
        cases hsome
        exact hitem
    | externCrate _ _ => cases hsome
    | module _ _ => cases hsome
    | typeItem _ _ => cases hsome
    | function _ _ => cases hsome
    | other _ => cases hsome
  · exact fun hitem => ⟨_, hitem, rfl⟩

theorem agrees_ofItems {items : List Item} {name : String} (hname : IsName name) :
    (Facts.ofItems items).Agrees .structural ((Item.allOf items).filterMap declaration?) name where
  roots tree htree hstart :=
    List.mem_flatMap.mpr ⟨_, use_mem_iff.mp htree,
      mem_treeRoots_of_startsWith hname.identifier hstart⟩
  modules hmem := by
    obtain ⟨item, hitem, hin⟩ := List.mem_flatMap.mp hmem
    refine List.mem_filterMap.mpr ⟨item, hitem, ?_⟩
    cases item with
    | module own _ => rw [List.mem_singleton.mp hin, declaration?]
    | use _ => cases hin
    | externCrate _ _ => cases hin
    | typeItem _ _ => cases hin
    | function _ _ => cases hin
    | other _ => cases hin
  names hmem := by
    obtain ⟨item, hitem, hin⟩ := List.mem_flatMap.mp hmem
    cases item with
    | use tree => exact Or.inr ⟨tree, use_mem_iff.mpr hitem, (mem_treeBindings_iff _ _ _).mp hin⟩
    | typeItem own _ =>
        rw [List.mem_singleton.mp hin]
        exact Or.inl (List.mem_filterMap.mpr ⟨_, hitem, rfl⟩)
    | externCrate _ _ => cases hin
    | module _ _ => cases hin
    | function _ _ => cases hin
    | other _ => cases hin
  bindings tree htree hbinds :=
    List.mem_flatMap.mpr ⟨_, use_mem_iff.mp htree, (mem_treeBindings_iff _ _ _).mpr hbinds⟩

/-! ## The text -/

theorem mem_trees_iff {tree : UseTree} {ds : List Declaration} :
    tree ∈ ds.filterMap Declaration.tree? ↔ .use tree ∈ ds := by
  rw [List.mem_filterMap]
  constructor
  · rintro ⟨d, hd, hsome⟩
    cases d with
    | use other =>
        cases hsome
        exact hd
    | module _ => cases hsome
    | type _ => cases hsome
  · exact fun hd => ⟨_, hd, rfl⟩

theorem agrees_scan {source : String} {ds : List Declaration} {name : String} (hname : IsName name)
    (hpath : name ∉ pathWords) (h : Laid ds (removeComments source.toList)) :
    (Facts.scan source).Agrees .textual ds name := by
  have huses : useDeclarations (removeComments source.toList) =
      .concat ((ds.filterMap Declaration.tree?).map (textNames false)) := by
    rw [useDeclarations, useDeclarations_laid h]
  have hroots : ∀ tree, .use tree ∈ ds → tree.StartsWith name →
      name ∈ (useDeclarations (removeComments source.toList)).roots := by
    intro tree htree hstart
    rw [huses]
    exact List.mem_flatMap.mpr ⟨_, List.mem_map_of_mem (mem_trees_iff.mpr htree),
      mem_treeRoots_of_startsWith hname.identifier hstart⟩
  have hbindings : name ∈ (useDeclarations (removeComments source.toList)).bindings ↔
      ∃ tree, .use tree ∈ ds ∧ tree.Binds .textual name false := by
    rw [huses, UseNames.concat, List.mem_flatMap]
    constructor
    · rintro ⟨names, hnames, hin⟩
      obtain ⟨tree, htree, rfl⟩ := List.mem_map.mp hnames
      exact ⟨tree, mem_trees_iff.mp htree, (mem_textNames_iff hpath false tree).mp hin⟩
    · rintro ⟨tree, htree, hbinds⟩
      exact ⟨_, List.mem_map_of_mem (mem_trees_iff.mpr htree),
        (mem_textNames_iff hpath false tree).mpr hbinds⟩
  exact {
    roots := fun tree htree hstart => List.mem_append_right _ (hroots tree htree hstart)
    modules := (mem_moduleDeclarations_laid h name).mp
    names := fun hmem => by
      rcases List.mem_append.mp hmem with htype | hbound
      · have has : name ≠ "as" := fun heq => hname.free (heq ▸ List.mem_cons_self)
        exact Or.inl ((mem_typeDeclarations_laid h has).mp htype)
      · exact Or.inr (hbindings.mp hbound)
    bindings := fun tree htree hbinds =>
      List.mem_append_right _ (hbindings.mpr ⟨tree, htree, hbinds⟩) }

/-! ## Both -/

theorem mem_externalCrates {facts : Facts} {name : String} :
    name ∈ facts.externalCrates ↔ name ∈ facts.crateRoots ∧ name ∉ builtinCrates ∧
      name ∉ facts.localModules ∧ name ∉ facts.localNames := by
  have hexternal : facts.isExternal name = true ↔ name ∈ facts.crateRoots ∧
      name ∉ builtinCrates ∧ name ∉ facts.localModules ∧ name ∉ facts.localNames := by
    simp [Facts.isExternal, and_assoc]
  unfold Facts.externalCrates
  rw [mem_sortedNames, List.mem_filter, hexternal]
  exact ⟨And.right, fun h => ⟨h.1, h⟩⟩

theorem agrees_findFacts {structural : Bool} {source : String} {facts : Facts}
    {strategy : Strategy} {ds : List Declaration} {name : String}
    (hfacts : findFacts structural source = (facts, strategy)) (hname : IsName name)
    (hpath : name ∉ pathWords) (h : Declares strategy source ds) :
    facts.Agrees strategy ds name := by
  unfold findFacts at hfacts
  split at hfacts
  · next items hitems =>
      obtain ⟨rfl, rfl⟩ := Prod.mk.inj hfacts
      obtain ⟨items', hparse, rfl⟩ := h
      -- the strategy is structural only if the tree was asked for and could be parsed
      have hsame : some items = some items' := by
        rw [← hitems, ← hparse]
        split at hitems
        · next hstructural => rw [if_pos hstructural]
        · cases hitems
      rw [← Option.some.inj hsame]
      exact agrees_ofItems hname
  · obtain ⟨rfl, rfl⟩ := Prod.mk.inj hfacts
    exact agrees_scan hname hpath h

/-! ## A script of one line -/

theorem removeBlockComments_of_not_mem {cs : List Char} (h : '/' ∉ cs) :
    removeBlockComments cs = cs := by
  induction cs with
  | nil => rw [removeBlockComments]
  | cons c rest ih =>
      have hc : c ≠ '/' := fun hc => h (hc ▸ List.mem_cons_self)
      rw [removeBlockComments, ih fun hmem => h (List.mem_cons_of_mem c hmem)]
      exact fun _ heq => absurd heq hc

theorem removeLineComments_of_not_mem {cs : List Char} (h : '/' ∉ cs) :
    removeLineComments false cs = cs := by
  induction cs with
  | nil => rfl
  | cons c rest ih =>
      have hc : c ≠ '/' := fun hc => h (hc ▸ List.mem_cons_self)
      rw [removeLineComments, ih fun hmem => h (List.mem_cons_of_mem c hmem)]
      · rfl
      · exact fun _ heq => absurd heq hc

theorem removeComments_of_not_mem {cs : List Char} (h : '/' ∉ cs) : removeComments cs = cs := by
  rw [removeComments, removeBlockComments_of_not_mem h, removeLineComments_of_not_mem h]

/-- The path that a script imports if this is all it does. -/
def onlyPath? : List Item → Option UsePath
  | [.use (.path path)] => some path
  | _ => none

/-- The path `first::last`. -/
def pairPath (first last : String) : UsePath := ⟨.relative, segmentOf first, [last]⟩

/-- A script that imports one item of a crate declares this, however it is read. -/
theorem declares_pair {source first last : String} (hfirst : IsName first) (hlast : IsName last)
    (hparse : (Item.parse? source).bind onlyPath? = some (pairPath first last))
    (hsource : source.toList = "use".toList ++
      ' ' :: (first.toList ++ ':' :: ':' :: (last.toList ++ [';', '\n'])))
    (hslash : '/' ∉ source.toList) (strategy : Strategy) :
    Declares strategy source [.use (.path (pairPath first last))] := by
  cases strategy with
  | structural =>
      obtain ⟨items, hitems, honly⟩ := Option.bind_eq_some_iff.mp hparse
      unfold onlyPath? at honly
      split at honly
      · obtain rfl := Option.some.inj honly
        exact ⟨_, hitems, rfl⟩
      · cases honly
  | textual =>
      have hpath : SpellsPath (pairPath first last) ([] ++ (first.toList ++
          ([] ++ ':' :: ':' :: ([] ++ (last.toList ++ []))))) :=
        .segments .relative hfirst (.cons allBlank_nil allBlank_nil hlast .nil)
      have hbody : Body (.use (.path (pairPath first last))) _ ['\n'] :=
        .use ⟨(by decide : allBlank [' ']), List.cons_ne_nil _ _⟩ (.path hpath) allBlank_nil
      have hlaid : Laid [.use (.path (pairPath first last))] _ :=
        .declared (.front allBlank_nil .inherited hbody) .nil
      show Laid _ (removeComments source.toList)
      rw [removeComments_of_not_mem hslash, hsource]
      simpa only [List.append_assoc, List.nil_append, List.cons_append, List.append_nil] using hlaid

theorem binds_pair_iff {strategy : Strategy} {name first last : String} (hself : last ≠ "self") :
    (UseTree.path (pairPath first last)).Binds strategy name false ↔ name = last := by
  constructor
  · intro h
    cases h with
    | leaf hpath =>
        cases hpath with
        | last hname _ => exact (Option.some.inj hname).symm
        | nested hnil _ _ _ => cases hnil
        | absolute hnil _ _ _ _ => cases hnil
  · rintro rfl
    exact .leaf (.last rfl hself)

/-! ## Lost crates -/

/-- **A crate is lost exactly if a use declaration binds its name.** A crate that a use declaration
starts from, that is not built in and whose name is neither that of a module nor that of a type of
the script, is external if and only if no use declaration binds its name, however the script is
read. -/
theorem mem_externalCrates_iff {structural : Bool} {source : String} {facts : Facts}
    {strategy : Strategy} {ds : List Declaration} {name : String}
    (hfacts : findFacts structural source = (facts, strategy))
    (hdeclares : Declares strategy source ds) (hname : IsName name)
    (hstart : ∃ tree, .use tree ∈ ds ∧ tree.StartsWith name) (hbuiltin : name ∉ builtinCrates)
    (hmodule : .module name ∉ ds) (htype : .type name ∉ ds) :
    name ∈ facts.externalCrates ↔
      ∀ tree, .use tree ∈ ds → ¬ tree.Binds strategy name false := by
  have hpath : name ∉ pathWords := by
    have hsub : ∀ w ∈ pathWords, w ∈ builtinCrates := by decide
    exact fun hmem => hbuiltin (hsub name hmem)
  have hagrees := agrees_findFacts hfacts hname hpath hdeclares
  rw [mem_externalCrates]
  constructor
  · rintro ⟨-, -, -, hfree⟩ tree htree hbinds
    exact hfree (hagrees.bindings tree htree hbinds)
  · intro hfree
    obtain ⟨tree, htree, hbegins⟩ := hstart
    refine ⟨hagrees.roots tree htree hbegins, hbuiltin, fun hmem => ?_, fun hmem => ?_⟩
    · exact hmodule (hagrees.modules hmem)
    · rcases hagrees.names hmem with hdeclared | ⟨other, hother, hbinds⟩
      · exact htype hdeclared
      · exact hfree other hother hbinds

theorem findFacts_eq (structural : Bool) (source : String) : findFacts structural source =
    ((findFacts structural source).1, (findFacts structural source).2) := rfl

theorem declares_rand (strategy : Strategy) :
    Declares strategy "use rand::Rng;\n" [.use (.path (pairPath "rand" "Rng"))] :=
  declares_pair ⟨by decide, by decide⟩ ⟨by decide, by decide⟩ (by decide +kernel) (by decide)
    (by decide) strategy

/-- The import of an item under another name than that of its crate leads to the crate. -/
theorem rand_mem_externalCrates :
    "rand" ∈ (findFacts true "use rand::Rng;\n").1.externalCrates ∧
      "rand" ∈ (findFacts false "use rand::Rng;\n").1.externalCrates := by
  have hfree : ∀ strategy tree, .use tree ∈ [Declaration.use (.path (pairPath "rand" "Rng"))] →
      ¬ tree.Binds strategy "rand" false := by
    intro strategy tree htree hbinds
    cases List.mem_singleton.mp htree
    exact absurd ((binds_pair_iff (by decide)).mp hbinds) (by decide)
  have hstart : ∃ tree, .use tree ∈ [Declaration.use (.path (pairPath "rand" "Rng"))] ∧
      tree.StartsWith "rand" := ⟨_, List.mem_singleton_self _, .path ⟨by decide, by decide⟩⟩
  have hmodule : Declaration.module "rand" ∉ [.use (.path (pairPath "rand" "Rng"))] := by simp
  have htype : Declaration.type "rand" ∉ [.use (.path (pairPath "rand" "Rng"))] := by simp
  have hboth : ∀ structural,
      "rand" ∈ (findFacts structural "use rand::Rng;\n").1.externalCrates := by
    intro structural
    have hfacts := findFacts_eq structural "use rand::Rng;\n"
    exact (mem_externalCrates_iff hfacts (declares_rand _) ⟨by decide, by decide⟩ hstart
      (by decide) hmodule htype).mpr (hfree _)
  exact ⟨hboth true, hboth false⟩

theorem declares_anyhow (strategy : Strategy) :
    Declares strategy "use anyhow::anyhow;\n" [.use (.path (pairPath "anyhow" "anyhow"))] :=
  declares_pair ⟨by decide, by decide⟩ ⟨by decide, by decide⟩ (by decide +kernel) (by decide)
    (by decide) strategy

/-- **An item hides its crate if it has the same name.** The one declaration of the script starts
from a crate that is neither built in nor declared, and no declaration that starts from elsewhere
binds the name of the crate, but the crate is not external. -/
theorem own_item_hides_crate :
    ∃ (source : String) (ds : List Declaration) (name : String), ∀ structural, ∃ facts strategy,
      findFacts structural source = (facts, strategy) ∧ Declares strategy source ds ∧
      IsName name ∧ (∃ tree, .use tree ∈ ds ∧ tree.StartsWith name) ∧ name ∉ builtinCrates ∧
      .module name ∉ ds ∧ .type name ∉ ds ∧
      (∀ tree, .use tree ∈ ds → tree.Binds strategy name false → tree.StartsWith name) ∧
      name ∉ facts.externalCrates := by
  have hname : IsName "anyhow" := ⟨by decide, by decide⟩
  have hstart : (UseTree.path (pairPath "anyhow" "anyhow")).StartsWith "anyhow" :=
    .path ⟨by decide, by decide⟩
  refine ⟨"use anyhow::anyhow;\n", [.use (.path (pairPath "anyhow" "anyhow"))], "anyhow",
    fun structural => ⟨_, _, findFacts_eq structural _, declares_anyhow _, hname,
      ⟨_, List.mem_singleton_self _, hstart⟩, by decide, by simp, by simp, ?_, ?_⟩⟩
  · intro tree htree _
    cases List.mem_singleton.mp htree
    exact hstart
  · intro hmem
    have hagrees := agrees_findFacts (findFacts_eq structural _) hname (by decide)
      (declares_anyhow _)
    exact (mem_externalCrates.mp hmem).2.2.2 (hagrees.bindings _ (List.mem_singleton_self _)
      ((binds_pair_iff (by decide)).mpr rfl))

end RustScript.Source
