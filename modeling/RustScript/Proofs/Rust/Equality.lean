import RustScript.Rust.Syntax

/-!
# Equality of syntax trees

Use trees and items hold lists of their own kind. Whether two of them are equal is decided by
comparing them side by side.
-/

set_option autoImplicit false

namespace RustScript.Rust

/-! ## Use trees -/

mutual

/-- The use trees are the same. -/
def UseTree.same : UseTree → UseTree → Bool
  | .path p, .path q => p = q
  | .renamed p name, .renamed q name' => p = q && name = name'
  | .glob p, .glob q => p = q
  | .group p trees, .group q trees' => p = q && UseTree.sameList trees trees'
  | _, _ => false

/-- The use trees are the same, one after the other. -/
def UseTree.sameList : List UseTree → List UseTree → Bool
  | [], [] => true
  | tree :: trees, tree' :: trees' => tree.same tree' && UseTree.sameList trees trees'
  | _, _ => false

end

mutual

theorem UseTree.same_iff (tree other : UseTree) : tree.same other = true ↔ tree = other :=
  match tree with
  | .path _ => by cases other <;> simp [UseTree.same]
  | .renamed _ _ => by cases other <;> simp [UseTree.same]
  | .glob _ => by cases other <;> simp [UseTree.same]
  | .group _ trees => by
      cases other with
      | group _ trees' => simp [UseTree.same, UseTree.sameList_iff trees trees']
      | _ => simp [UseTree.same]

theorem UseTree.sameList_iff (trees others : List UseTree) :
    UseTree.sameList trees others = true ↔ trees = others :=
  match trees with
  | [] => by cases others <;> simp [UseTree.sameList]
  | tree :: trees => by
      cases others with
      | nil => simp [UseTree.sameList]
      | cons other others =>
          simp [UseTree.sameList, UseTree.same_iff tree other, UseTree.sameList_iff trees others]

end

instance : DecidableEq UseTree := fun tree other => decidable_of_iff _ (tree.same_iff other)

/-! ## Items -/

mutual

/-- The items are the same. -/
def Item.same : Item → Item → Bool
  | .use tree, .use tree' => tree = tree'
  | .externCrate name renamed, .externCrate name' renamed' => name = name' && renamed = renamed'
  | .module name inner, .module name' inner' => name = name' && Item.sameList inner inner'
  | .typeItem name inner, .typeItem name' inner' => name = name' && Item.sameList inner inner'
  | .function name inner, .function name' inner' => name = name' && Item.sameList inner inner'
  | .other inner, .other inner' => Item.sameList inner inner'
  | _, _ => false

/-- The items are the same, one after the other. -/
def Item.sameList : List Item → List Item → Bool
  | [], [] => true
  | item :: items, item' :: items' => item.same item' && Item.sameList items items'
  | _, _ => false

end

mutual

theorem Item.same_iff (item other : Item) : item.same other = true ↔ item = other :=
  match item with
  | .use _ => by cases other <;> simp [Item.same]
  | .externCrate _ _ => by cases other <;> simp [Item.same]
  | .module _ inner => by
      cases other with
      | module _ inner' => simp [Item.same, Item.sameList_iff inner inner']
      | _ => simp [Item.same]
  | .typeItem _ inner => by
      cases other with
      | typeItem _ inner' => simp [Item.same, Item.sameList_iff inner inner']
      | _ => simp [Item.same]
  | .function _ inner => by
      cases other with
      | function _ inner' => simp [Item.same, Item.sameList_iff inner inner']
      | _ => simp [Item.same]
  | .other inner => by
      cases other with
      | other inner' => simp [Item.same, Item.sameList_iff inner inner']
      | _ => simp [Item.same]

theorem Item.sameList_iff (items others : List Item) :
    Item.sameList items others = true ↔ items = others :=
  match items with
  | [] => by cases others <;> simp [Item.sameList]
  | item :: items => by
      cases others with
      | nil => simp [Item.sameList]
      | cons other others =>
          simp [Item.sameList, Item.same_iff item other, Item.sameList_iff items others]

end

instance : DecidableEq Item := fun item other => decidable_of_iff _ (item.same_iff other)

end RustScript.Rust
