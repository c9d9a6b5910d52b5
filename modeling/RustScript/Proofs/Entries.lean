import Mathlib
import RustScript.Entries

/-!
# Ordered entries

What is put to entries, and entries in which no key repeats. Such entries are determined by the
values of their keys, up to the order, and they look the same once they are sorted
(`Entries.sorted_congr`).
-/

set_option autoImplicit false

namespace RustScript.Entries

variable {α : Type}

/-! ## Entries put to others -/

theorem put_of_new {entries : Entries α} {key : String} (h : ∀ entry ∈ entries, entry.1 ≠ key)
    (value : α) : entries.put key value = entries ++ [(key, value)] := by
  induction entries with
  | nil => rfl
  | cons entry rest ih =>
      have hkey : (entry.1 == key) = false := by
        simpa using h entry List.mem_cons_self
      unfold put
      rw [hkey, ih fun other hother => h other (List.mem_cons_of_mem _ hother)]
      rfl

theorem mem_put {entries : Entries α} {key : String} {value : α} {entry : String × α}
    (h : entry ∈ entries.put key value) : entry ∈ entries ∨ entry = (key, value) := by
  induction entries with
  | nil => exact Or.inr (List.mem_singleton.mp h)
  | cons first rest ih =>
      unfold Entries.put at h
      split at h
      · next hkey =>
          rcases List.mem_cons.mp h with hfirst | hrest
          · rw [beq_iff_eq.mp hkey] at hfirst
            exact Or.inr hfirst
          · exact Or.inl (List.mem_cons_of_mem _ hrest)
      · rcases List.mem_cons.mp h with hfirst | hrest
        · exact Or.inl (hfirst ▸ List.mem_cons_self)
        · exact (ih hrest).imp_left (List.mem_cons_of_mem _)

theorem keys_put_of_mem {entries : Entries α} {key : String} (h : key ∈ entries.keys)
    (value : α) : (entries.put key value).keys = entries.keys := by
  induction entries with
  | nil => exact absurd h List.not_mem_nil
  | cons entry rest ih =>
      unfold put
      split
      · rfl
      · next hkey =>
          rcases List.mem_cons.mp h with hfirst | hrest
          · exact absurd (beq_iff_eq.mpr hfirst.symm) hkey
          · exact congrArg (entry.1 :: ·) (ih hrest)

/-- The entries with others put to them one after the other. -/
def putAll (entries others : Entries α) : Entries α :=
  others.foldl (fun found entry => found.put entry.1 entry.2) entries

theorem putAll_of_new {entries others : Entries α}
    (h : (entries ++ others).Pairwise fun a b => a.1 ≠ b.1) :
    entries.putAll others = entries ++ others := by
  induction others generalizing entries with
  | nil => rw [List.append_nil]; rfl
  | cons entry rest ih =>
      have hnew : ∀ other ∈ entries, other.1 ≠ entry.1 := fun other hother =>
        (List.pairwise_append.mp h).2.2 other hother entry List.mem_cons_self
      show (entries.put entry.1 entry.2).putAll rest = _
      rw [put_of_new hnew, ih]
      · rw [List.append_assoc]; rfl
      · rw [List.append_assoc]; exact h

theorem mem_putAll {entries others : Entries α} {entry : String × α}
    (h : entry ∈ entries.putAll others) : entry ∈ entries ∨ entry ∈ others := by
  induction others generalizing entries with
  | nil => exact .inl h
  | cons other rest ih =>
      rcases ih h with hput | hrest
      · exact (mem_put hput).imp_right fun heq : entry = other => heq ▸ List.mem_cons_self
      · exact .inr (List.mem_cons_of_mem _ hrest)

theorem mem_of_mem_ofList {pairs : List (String × α)} {entry : String × α}
    (h : entry ∈ Entries.ofList pairs) : entry ∈ pairs :=
  (mem_putAll h).resolve_left List.not_mem_nil

/-- The last value of a key. -/
def last? (entries : Entries α) (key : String) : Option α :=
  (entries.reverse.find? (·.1 == key)).map (·.2)

/-- What was put last counts. -/
theorem get?_putAll (entries others : Entries α) (key : String) :
    (entries.putAll others).get? key = (others.last? key).or (entries.get? key) := by
  induction others using List.reverseRecOn with
  | nil => rfl
  | append_singleton others entry ih =>
      have hput : entries.putAll (others ++ [entry]) =
          (entries.putAll others).put entry.1 entry.2 := by
        unfold putAll
        rw [List.foldl_append]
        rfl
      rw [hput, get?_put, ih]
      unfold last?
      by_cases hkey : entry.1 = key
      · simp [hkey]
      · simp [hkey]

/-! ## Distinct keys -/

theorem nodup_keys_put {entries : Entries α} (h : entries.keys.Nodup) (key : String) (value : α) :
    (entries.put key value).keys.Nodup := by
  by_cases hmem : key ∈ entries.keys
  · rwa [keys_put_of_mem hmem]
  · have hnew : ∀ entry ∈ entries, entry.1 ≠ key := fun entry hentry heq =>
      hmem (List.mem_map.mpr ⟨entry, hentry, heq⟩)
    rw [put_of_new hnew, keys, List.map_append]
    refine List.nodup_append.mpr ⟨h, List.nodup_singleton _, fun name hname other hother => ?_⟩
    obtain rfl := List.mem_singleton.mp hother
    exact fun heq => hmem (heq ▸ hname)

/-- Nothing gives way when no key repeats. -/
theorem ofList_of_nodup {pairs : Entries α} (h : pairs.keys.Nodup) :
    Entries.ofList pairs = pairs := by
  have hpairs : ([] ++ pairs : Entries α).Pairwise fun a b => a.1 ≠ b.1 := List.pairwise_map.mp h
  exact putAll_of_new hpairs

theorem mem_of_get? {entries : Entries α} {key : String} {value : α}
    (h : entries.get? key = some value) : (key, value) ∈ entries := by
  obtain ⟨entry, hfind, rfl⟩ := Option.map_eq_some_iff.mp h
  have hkey : entry.1 = key := beq_iff_eq.mp
    (@List.find?_some _ (fun entry : String × α => entry.1 == key) entry entries hfind)
  exact hkey ▸ List.mem_of_find?_eq_some hfind

theorem find?_of_nodup {entries : Entries α} (h : entries.keys.Nodup) {key : String} {value : α}
    (hmem : (key, value) ∈ entries) : entries.find? (·.1 == key) = some (key, value) := by
  induction entries with
  | nil => exact absurd hmem List.not_mem_nil
  | cons entry rest ih =>
      obtain ⟨hnew, hrest⟩ := List.nodup_cons.mp h
      rcases List.mem_cons.mp hmem with hfirst | hlater
      · rw [← hfirst]
        exact List.find?_cons_of_pos (beq_self_eq_true key)
      · have hne : (entry.1 == key) = false := Bool.eq_false_iff.mpr fun heq =>
          hnew (List.mem_map.mpr ⟨_, hlater, (beq_iff_eq.mp heq).symm⟩)
        rw [List.find?_cons, hne]
        exact ih hrest hlater

theorem get?_eq_some_iff {entries : Entries α} (h : entries.keys.Nodup) {key : String}
    {value : α} : entries.get? key = some value ↔ (key, value) ∈ entries := by
  refine ⟨mem_of_get?, fun hmem => ?_⟩
  unfold get?
  rw [find?_of_nodup h hmem]
  rfl

/-! ## Sorted entries -/

/-- The entries, sorted by key. -/
def sorted (entries : Entries α) : Entries α := entries.mergeSort fun a b => decide (a.1 ≤ b.1)

theorem sorted_perm (entries : Entries α) : entries.sorted.Perm entries :=
  List.mergeSort_perm _ _

/-- **The order of entries does not show once they are sorted**, when no key repeats. -/
theorem sorted_congr {entries others : Entries α} (h : entries.keys.Nodup)
    (hperm : entries.Perm others) : entries.sorted = others.sorted := by
  have htrans : ∀ a b c : String × α, decide (a.1 ≤ b.1) = true → decide (b.1 ≤ c.1) = true →
      decide (a.1 ≤ c.1) = true := fun a b c hab hbc =>
    decide_eq_true (String.le_trans (of_decide_eq_true hab) (of_decide_eq_true hbc))
  have htotal : ∀ a b : String × α, (decide (a.1 ≤ b.1) || decide (b.1 ≤ a.1)) = true :=
    fun a b => by
      rcases String.le_total a.1 b.1 with hle | hle
      · rw [decide_eq_true hle, Bool.true_or]
      · rw [decide_eq_true hle, Bool.or_true]
  have hsorted : ∀ list : Entries α,
      list.sorted.Pairwise fun a b => decide (a.1 ≤ b.1) = true := fun list =>
    List.pairwise_mergeSort htrans htotal list
  refine List.Perm.eq_of_pairwise ?_ (hsorted entries) (hsorted others) ?_
  · intro a b ha hb hab hba
    have hkey : a.1 = b.1 := String.le_antisymm (of_decide_eq_true hab) (of_decide_eq_true hba)
    have hmema : a ∈ entries := (sorted_perm entries).mem_iff.mp ha
    have hmemb : b ∈ entries := hperm.mem_iff.mpr ((sorted_perm others).mem_iff.mp hb)
    exact List.inj_on_of_nodup_map h hmema hmemb hkey
  · exact (sorted_perm entries).trans (hperm.trans (sorted_perm others).symm)

end RustScript.Entries
