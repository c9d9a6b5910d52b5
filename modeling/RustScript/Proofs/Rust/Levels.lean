import RustScript.Rust.Syntax

/-!
# Levels of items

The items of a source with the depths at which they are nested. The items at the first level are
those of the source itself (`Item.countP_leveledOf`).
-/

set_option autoImplicit false

namespace RustScript.Rust

mutual

/-- An item and every item nested in it, each with its depth, in source order. -/
def Item.leveled (depth : Nat) : Item → List (Nat × Item)
  | .use tree => [(depth, .use tree)]
  | .externCrate name renamed => [(depth, .externCrate name renamed)]
  | .module name inner => (depth, .module name inner) :: Item.leveledOf (depth + 1) inner
  | .typeItem name inner => (depth, .typeItem name inner) :: Item.leveledOf (depth + 1) inner
  | .function name inner => (depth, .function name inner) :: Item.leveledOf (depth + 1) inner
  | .other inner => (depth, .other inner) :: Item.leveledOf (depth + 1) inner

/-- Every item of a list and every item nested in one, each with its depth. -/
def Item.leveledOf (depth : Nat) : List Item → List (Nat × Item)
  | [] => []
  | item :: rest => Item.leveled depth item ++ Item.leveledOf depth rest

end

mutual

theorem Item.le_of_mem_leveled {depth : Nat} {item : Item} {level : Nat × Item}
    (h : level ∈ item.leveled depth) : depth ≤ level.1 := by
  cases item with
  | use _ =>
      obtain rfl := List.mem_singleton.mp h
      exact Nat.le_refl depth
  | externCrate _ _ =>
      obtain rfl := List.mem_singleton.mp h
      exact Nat.le_refl depth
  | module _ inner =>
      rcases List.mem_cons.mp h with rfl | hmem
      · exact Nat.le_refl depth
      · exact Nat.le_of_succ_le (Item.le_of_mem_leveledOf hmem)
  | typeItem _ inner =>
      rcases List.mem_cons.mp h with rfl | hmem
      · exact Nat.le_refl depth
      · exact Nat.le_of_succ_le (Item.le_of_mem_leveledOf hmem)
  | function _ inner =>
      rcases List.mem_cons.mp h with rfl | hmem
      · exact Nat.le_refl depth
      · exact Nat.le_of_succ_le (Item.le_of_mem_leveledOf hmem)
  | other inner =>
      rcases List.mem_cons.mp h with rfl | hmem
      · exact Nat.le_refl depth
      · exact Nat.le_of_succ_le (Item.le_of_mem_leveledOf hmem)

theorem Item.le_of_mem_leveledOf {depth : Nat} {items : List Item} {level : Nat × Item}
    (h : level ∈ Item.leveledOf depth items) : depth ≤ level.1 := by
  cases items with
  | nil => exact absurd h List.not_mem_nil
  | cons item rest =>
      rcases List.mem_append.mp h with hmem | hmem
      · exact Item.le_of_mem_leveled hmem
      · exact Item.le_of_mem_leveledOf hmem

end

/-- The first level of an item is the item itself. -/
theorem Item.leveled_eq (depth : Nat) (item : Item) :
    ∃ inner, item.leveled depth = (depth, item) :: inner ∧ ∀ level ∈ inner, depth < level.1 := by
  cases item with
  | use _ => exact ⟨[], rfl, nofun⟩
  | externCrate _ _ => exact ⟨[], rfl, nofun⟩
  | module _ inner => exact ⟨_, rfl, fun _ hmem => Item.le_of_mem_leveledOf hmem⟩
  | typeItem _ inner => exact ⟨_, rfl, fun _ hmem => Item.le_of_mem_leveledOf hmem⟩
  | function _ inner => exact ⟨_, rfl, fun _ hmem => Item.le_of_mem_leveledOf hmem⟩
  | other inner => exact ⟨_, rfl, fun _ hmem => Item.le_of_mem_leveledOf hmem⟩

/-- The items at the first level are those of the list. -/
theorem Item.countP_leveledOf (depth : Nat) (items : List Item) (p : Item → Bool) :
    (Item.leveledOf depth items).countP (fun level => level.1 = depth && p level.2) =
      items.countP p := by
  induction items with
  | nil => rfl
  | cons item rest ih =>
      obtain ⟨inner, hlevels, hinner⟩ := Item.leveled_eq depth item
      have hdeeper : inner.countP (fun level => level.1 = depth && p level.2) = 0 := by
        refine List.countP_eq_zero.mpr fun level hlevel => ?_
        have hne : level.1 ≠ depth := Nat.ne_of_gt (hinner level hlevel)
        simp [hne]
      rw [Item.leveledOf, List.countP_append, ih, hlevels, List.countP_cons, hdeeper,
        List.countP_cons]
      simp [Nat.add_comm]

end RustScript.Rust
