import RustScript.Source.Facts

/-!
# Facts that agree

The lists of names in `Facts` stand for sets. Facts agree if their sets are the same, and then they
have the same external crates, in the same order.
-/

set_option autoImplicit false

namespace RustScript.Text

theorem nodup_eraseDups (names : List String) : names.eraseDups.Nodup := by
  induction hlength : names.length using Nat.strongRecOn generalizing names with
  | ind n ih =>
      cases names with
      | nil => exact List.nodup_nil
      | cons name rest =>
          have hshort : (rest.filter fun other => !other == name).length < n := by
            rw [← hlength, List.length_cons]
            exact Nat.lt_succ_of_le (List.length_filter_le _ _)
          rw [List.eraseDups_cons, List.nodup_cons]
          refine ⟨fun hmem => ?_, ih _ hshort _ rfl⟩
          simpa using (List.mem_filter.mp (List.mem_eraseDups.mp hmem)).2

theorem pairwise_sortedNames (names : List String) :
    (sortedNames names).Pairwise fun a b => a ≤ b := by
  have htrans : ∀ a b c : String, decide (a ≤ b) = true → decide (b ≤ c) = true →
      decide (a ≤ c) = true := fun a b c hab hbc =>
    decide_eq_true (String.le_trans (of_decide_eq_true hab) (of_decide_eq_true hbc))
  have htotal : ∀ a b : String, (decide (a ≤ b) || decide (b ≤ a)) = true := fun a b => by
    rcases String.le_total a b with hle | hle
    · rw [decide_eq_true hle, Bool.true_or]
    · rw [decide_eq_true hle, Bool.or_true]
  exact (List.pairwise_mergeSort htrans htotal names.eraseDups).imp of_decide_eq_true

/-- Lists with the same members are shown as the same list. -/
theorem sortedNames_congr {names others : List String} (h : ∀ name, name ∈ names ↔ name ∈ others) :
    sortedNames names = sortedNames others := by
  have hperm : names.eraseDups.Perm others.eraseDups :=
    (List.perm_ext_iff_of_nodup (nodup_eraseDups _) (nodup_eraseDups _)).mpr fun name => by
      rw [List.mem_eraseDups, List.mem_eraseDups, h]
  refine List.Perm.eq_of_pairwise ?_ (pairwise_sortedNames names) (pairwise_sortedNames others) ?_
  · exact fun a b _ _ => String.le_antisymm
  · exact (List.mergeSort_perm _ _).trans (hperm.trans (List.mergeSort_perm _ _).symm)

end RustScript.Text

namespace RustScript.Source

/-- The same names in the same sets. -/
structure Facts.Agree (facts other : Facts) : Prop where
  roots : ∀ name, name ∈ facts.crateRoots ↔ name ∈ other.crateRoots
  modules : ∀ name, name ∈ facts.localModules ↔ name ∈ other.localModules
  names : ∀ name, name ∈ facts.localNames ↔ name ∈ other.localNames

/-- **Facts that agree need the same crates from a registry.** -/
theorem Facts.Agree.externalCrates {facts other : Facts} (h : facts.Agree other) :
    facts.externalCrates = other.externalCrates := by
  have hcontains : ∀ {names others : List String}, (∀ name, name ∈ names ↔ name ∈ others) →
      ∀ name, names.contains name = others.contains name := by
    intro names others hnames name
    rw [Bool.eq_iff_iff, List.contains_iff_mem, List.contains_iff_mem, hnames]
  have hexternal : ∀ name, facts.isExternal name = other.isExternal name := by
    intro name
    unfold Facts.isExternal
    rw [hcontains h.roots, hcontains h.modules, hcontains h.names]
  refine Text.sortedNames_congr fun name => ?_
  rw [List.mem_filter, List.mem_filter, h.roots, hexternal]

end RustScript.Source
