import RustScript.Proofs.Source.Words
import RustScript.Source.Analysis

/-!
# What a use tree starts from and what it binds

`UseTree.StartsWith` and `UseTree.Binds` say it as relations, one constructor a shape. The lists
that the facts are gathered from hold exactly these names.

A lone segment such as `rand` names a crate and binds nothing, except below a path. The two ways
to read a script part over `::rand`: the syntax tree has it bind `rand`, the text does not. So
`Binds` depends on the strategy.
-/

set_option autoImplicit false

namespace RustScript.Rust

open RustScript.Source

/-! ## The relations -/

/-- The outermost segment of the path is `name`, and it can be read: no comment stands behind a
leading `::`. -/
def UsePath.StartsWith (name : String) (path : UsePath) : Prop :=
  path.lead ≠ .absoluteCommented ∧ path.first.text = name

/-- An outermost segment of the use tree is `name`. A group without a path has those of its
members. -/
inductive UseTree.StartsWith (name : String) : UseTree → Prop
  | path {path : UsePath} : path.StartsWith name → StartsWith name (.path path)
  | renamed {path : UsePath} {other : String} :
      path.StartsWith name → StartsWith name (.renamed path other)
  | glob {path : UsePath} : path.StartsWith name → StartsWith name (.glob (some path))
  | group {path : UsePath} {trees : List UseTree} :
      path.StartsWith name → StartsWith name (.group (some path) trees)
  | member {tree : UseTree} {trees : List UseTree} :
      tree ∈ trees → StartsWith name tree → StartsWith name (.group none trees)

/-- The path binds its last segment as a leaf: one behind another segment, or a lone one below a
path, and on the tree also a lone one behind `::`. The segment `self` binds nothing. -/
inductive UsePath.Binds (strategy : Strategy) (name : String) (nested : Bool) : UsePath → Prop
  | last {path : UsePath} : path.rest.getLast? = some name → name ≠ "self" →
      Binds strategy name nested path
  | nested {path : UsePath} : path.rest = [] → path.first = .name name → name ≠ "self" →
      nested → Binds strategy name nested path
  | absolute {path : UsePath} : path.rest = [] → path.first = .name name → name ≠ "self" →
      path.lead ≠ .relative → strategy = .structural → Binds strategy name nested path

/-- The use tree binds `name`, as a leaf or as an alias; `nested` says that it stands below a
path. -/
inductive UseTree.Binds (strategy : Strategy) (name : String) : Bool → UseTree → Prop
  | leaf {nested : Bool} {path : UsePath} :
      path.Binds strategy name nested → Binds strategy name nested (.path path)
  | renamed {nested : Bool} {path : UsePath} :
      name ≠ "_" → Binds strategy name nested (.renamed path name)
  | member {nested : Bool} {path : Option UsePath} {tree : UseTree} {trees : List UseTree} :
      tree ∈ trees → Binds strategy name (nested || path.isSome) tree →
      Binds strategy name nested (.group path trees)

end RustScript.Rust

namespace RustScript.Source

open RustScript.Rust

/-! ## Roots -/

theorem asciiHead_of_isIdentifier {name : String} (h : isIdentifier name.toList) :
    asciiHead name = some name := by
  unfold asciiHead
  cases hname : name.toList with
  | nil =>
      rw [hname] at h
      cases h
  | cons c rest =>
      rw [hname] at h
      obtain ⟨hc, hrest⟩ := Bool.and_eq_true_iff.mp h
      have htake : rest.takeWhile isAsciiWord = rest :=
        List.takeWhile_eq_self_iff.mpr (List.all_eq_true.mp hrest)
      show (if c.isAlpha || c = '_' then _ else none) = _
      rw [if_pos hc, htake, ← hname, String.ofList_toList]

theorem root?_of_startsWith {name : String} {path : UsePath} (hname : isIdentifier name.toList)
    (h : path.StartsWith name) : root? path = some name := by
  obtain ⟨hlead, htext⟩ := h
  unfold root?
  cases hcases : path.lead with
  | absoluteCommented => exact absurd hcases hlead
  | relative => exact htext ▸ asciiHead_of_isIdentifier (htext.symm ▸ hname)
  | absolute => exact htext ▸ asciiHead_of_isIdentifier (htext.symm ▸ hname)

theorem treeRootsOf_eq_flatMap (trees : List UseTree) :
    treeRootsOf trees = trees.flatMap treeRoots := by
  induction trees with
  | nil => rfl
  | cons tree rest ih => rw [treeRootsOf, ih, List.flatMap_cons]

/-- A use tree lists every name that it starts from. -/
theorem mem_treeRoots_of_startsWith {name : String} {tree : UseTree}
    (hname : isIdentifier name.toList) (h : tree.StartsWith name) : name ∈ treeRoots tree := by
  induction h with
  | path hpath => simp [treeRoots, root?_of_startsWith hname hpath]
  | renamed hpath => simp [treeRoots, root?_of_startsWith hname hpath]
  | glob hpath => simp [treeRoots, root?_of_startsWith hname hpath]
  | group hpath => simp [treeRoots, root?_of_startsWith hname hpath]
  | member hmem _ ih =>
      rw [treeRoots, treeRootsOf_eq_flatMap]
      exact List.mem_flatMap.mpr ⟨_, hmem, ih⟩

/-! ## Bindings -/

mutual

/-- The names that a use tree binds, given those that a path binds as a leaf. -/
def bindingsBy (leaf : Bool → UsePath → List String) (nested : Bool) : UseTree → List String
  | .path path => leaf nested path
  | .renamed _ name => if name = "_" then [] else [name]
  | .glob _ => []
  | .group path trees => bindingsOfBy leaf (nested || path.isSome) trees

/-- The names that several use trees bind. -/
def bindingsOfBy (leaf : Bool → UsePath → List String) (nested : Bool) :
    List UseTree → List String
  | [] => []
  | tree :: rest => bindingsBy leaf nested tree ++ bindingsOfBy leaf nested rest

end

theorem bindingsOfBy_eq_flatMap (leaf : Bool → UsePath → List String) (nested : Bool)
    (trees : List UseTree) :
    bindingsOfBy leaf nested trees = trees.flatMap (bindingsBy leaf nested) := by
  induction trees with
  | nil => rfl
  | cons tree rest ih => rw [bindingsOfBy, ih, List.flatMap_cons]

mutual

theorem treeBindings_eq (nested : Bool) (tree : UseTree) :
    treeBindings nested tree = bindingsBy leafName nested tree :=
  match tree with
  | .path _ => rfl
  | .renamed _ _ => rfl
  | .glob _ => rfl
  | .group path trees => by
      rw [treeBindings, bindingsBy, treeBindingsOf_eq (nested || path.isSome) trees]

theorem treeBindingsOf_eq (nested : Bool) (trees : List UseTree) :
    treeBindingsOf nested trees = bindingsOfBy leafName nested trees :=
  match trees with
  | [] => rfl
  | tree :: rest => by
      rw [treeBindingsOf, bindingsOfBy, treeBindings_eq nested tree, treeBindingsOf_eq nested rest]

end

section

variable {strategy : Strategy} {name : String} {leaf : Bool → UsePath → List String}

mutual

theorem binds_of_mem
    (hleaf : ∀ nested path, name ∈ leaf nested path → path.Binds strategy name nested)
    (nested : Bool) (tree : UseTree) (h : name ∈ bindingsBy leaf nested tree) :
    tree.Binds strategy name nested :=
  match tree with
  | .path path => .leaf (hleaf nested path h)
  | .renamed path other => by
      rw [bindingsBy] at h
      split at h
      · cases h
      · next hother =>
          rw [List.mem_singleton.mp h]
          exact .renamed hother
  | .glob _ => by cases h
  | .group path trees => by
      obtain ⟨tree, hmem, hbinds⟩ := binds_of_mem_of hleaf (nested || path.isSome) trees h
      exact .member hmem hbinds

theorem binds_of_mem_of
    (hleaf : ∀ nested path, name ∈ leaf nested path → path.Binds strategy name nested)
    (nested : Bool) (trees : List UseTree) (h : name ∈ bindingsOfBy leaf nested trees) :
    ∃ tree ∈ trees, tree.Binds strategy name nested :=
  match trees with
  | [] => by cases h
  | tree :: rest => by
      rw [bindingsOfBy] at h
      rcases List.mem_append.mp h with hfirst | hrest
      · exact ⟨tree, List.mem_cons_self, binds_of_mem hleaf nested tree hfirst⟩
      · obtain ⟨other, hmem, hbinds⟩ := binds_of_mem_of hleaf nested rest hrest
        exact ⟨other, List.mem_cons_of_mem tree hmem, hbinds⟩

end

/-- If the leaves list exactly the names that they bind, so does a use tree. -/
theorem mem_bindingsBy_iff
    (hleaf : ∀ nested path, name ∈ leaf nested path ↔ path.Binds strategy name nested)
    (nested : Bool) (tree : UseTree) :
    name ∈ bindingsBy leaf nested tree ↔ tree.Binds strategy name nested := by
  constructor
  · exact binds_of_mem (fun nested path => (hleaf nested path).mp) nested tree
  · intro h
    induction h with
    | leaf hpath => exact (hleaf _ _).mpr hpath
    | renamed hname =>
        rw [bindingsBy, if_neg hname]
        exact List.mem_singleton_self name
    | member hmem _ ih =>
        rw [bindingsBy, bindingsOfBy_eq_flatMap]
        exact List.mem_flatMap.mpr ⟨_, hmem, ih⟩

end

/-! ## The leaves of the syntax tree -/

theorem mem_leafName_iff (name : String) (nested : Bool) (path : UsePath) :
    name ∈ leafName nested path ↔ path.Binds .structural name nested := by
  constructor
  · intro h
    unfold leafName at h
    split at h
    · next last _ hlast =>
        split at h
        · cases h
        · next hself =>
            rw [List.mem_singleton.mp h]
            exact .last hlast hself
    · next text hrest hfirst =>
        split at h
        · next hcond =>
            have hrest' : path.rest = [] := List.getLast?_eq_none_iff.mp hrest
            rw [List.mem_singleton.mp h]
            simp only [Bool.and_eq_true, Bool.or_eq_true, decide_eq_true_eq] at hcond
            rcases hcond with ⟨hnested | hlead, hself⟩
            · exact .nested hrest' hfirst hself hnested
            · exact .absolute hrest' hfirst hself hlead rfl
        · cases h
    · cases h
  · intro h
    unfold leafName
    cases h with
    | last hlast hself => simp [hlast, hself]
    | nested hrest hfirst hself hnested => simp [hrest, hfirst, hself, hnested]
    | absolute hrest hfirst hself hlead _ => simp [hrest, hfirst, hself, hlead]

/-- On the syntax tree the bindings are exactly the names that the use tree binds. -/
theorem mem_treeBindings_iff (name : String) (nested : Bool) (tree : UseTree) :
    name ∈ treeBindings nested tree ↔ tree.Binds .structural name nested := by
  rw [treeBindings_eq]
  exact mem_bindingsBy_iff (mem_leafName_iff name) nested tree

end RustScript.Source
