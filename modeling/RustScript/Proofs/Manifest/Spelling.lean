import Mathlib.Data.List.Basic
import Mathlib.Data.List.Induction
import RustScript.Manifest.Merge

/-!
# Spellings of a crate

Names are compared by `Crate.equivalent`, which is an equivalence relation. A table of dependencies
may spell a crate in several ways; `spelled?` is the entry that counts, the first one. `keepFirst`
leaves exactly these entries, in their order, and warns once about every other one.
-/

set_option autoImplicit false

namespace RustScript.Crate

/-! ## Equivalence of names -/

theorem equivalent_iff {a b : String} : equivalent a b = true ↔ normalize a = normalize b := by
  simp [equivalent]

@[simp] theorem equivalent_self (a : String) : equivalent a a = true := by
  simp [equivalent]

theorem equivalent_comm (a b : String) : equivalent a b = equivalent b a := by
  rw [Bool.eq_iff_iff, equivalent_iff, equivalent_iff]
  exact eq_comm

theorem equivalent_congr_left {a b : String} (h : equivalent a b = true) (c : String) :
    equivalent a c = equivalent b c := by
  rw [Bool.eq_iff_iff, equivalent_iff, equivalent_iff, equivalent_iff.mp h]

theorem equivalent_congr_right {a b : String} (h : equivalent a b = true) (c : String) :
    equivalent c a = equivalent c b :=
  calc equivalent c a = equivalent a c := equivalent_comm c a
    _ = equivalent b c := equivalent_congr_left h c
    _ = equivalent c b := equivalent_comm b c

end RustScript.Crate

namespace RustScript.Manifest

open RustScript.Toml

/-! ## Looking up a spelling -/

/-- The first entry of a table that is a spelling of the crate `name`. -/
def spelled? (table : Table) (name : String) : Option (String × Value) :=
  table.find? fun entry => Crate.equivalent entry.1 name

theorem spelling?_eq (table : Table) (name : String) :
    spelling? table name = (spelled? table name).map (·.1) := rfl

theorem dependency?_eq (manifest : Manifest) (name : String) :
    manifest.dependency? name = (spelled? manifest.dependencies name).map (·.2) := rfl

theorem mem_of_spelled? {table : Table} {name : String} {entry : String × Value}
    (h : spelled? table name = some entry) : entry ∈ table :=
  List.mem_of_find?_eq_some h

theorem spelled?_eq_none_iff {table : Table} {name : String} :
    spelled? table name = none ↔ ∀ entry ∈ table, Crate.equivalent entry.1 name = false := by
  simp [spelled?]

theorem spelled?_congr (table : Table) {a b : String} (h : Crate.equivalent a b = true) :
    spelled? table a = spelled? table b := by
  have hsame : (fun entry : String × Value => Crate.equivalent entry.1 a) =
      fun entry => Crate.equivalent entry.1 b :=
    funext fun entry => Crate.equivalent_congr_right h entry.1
  unfold spelled?
  rw [hsame]

theorem spelled?_append (front rest : Table) (name : String) :
    spelled? (front ++ rest) name = (spelled? front name).or (spelled? rest name) := by
  unfold spelled?
  rw [List.find?_append]

/-! ## Tables without equivalent names -/

/-- No two entries of the table are spellings of one crate. -/
def Inequivalent (table : Table) : Prop :=
  table.Pairwise fun a b => Crate.equivalent a.1 b.1 = false

theorem inequivalent_append {front rest : Table} :
    Inequivalent (front ++ rest) ↔ Inequivalent front ∧ Inequivalent rest ∧
      ∀ a ∈ front, ∀ b ∈ rest, Crate.equivalent a.1 b.1 = false :=
  List.pairwise_append

/-- **One entry for a crate.** In a table without equivalent names the spellings of a crate are
the one entry that is looked up. -/
theorem filter_spellings {table : Table} (h : Inequivalent table) (name : String) :
    table.filter (fun entry => Crate.equivalent entry.1 name) = (spelled? table name).toList := by
  induction table with
  | nil => rfl
  | cons entry rest ih =>
      obtain ⟨hentry, hrest⟩ := List.pairwise_cons.mp h
      by_cases he : Crate.equivalent entry.1 name = true
      · have hother : rest.filter (fun other => Crate.equivalent other.1 name) = [] := by
          rw [List.filter_eq_nil_iff]
          intro other hmem
          rw [Crate.equivalent_comm, ← Crate.equivalent_congr_left he, hentry other hmem]
          simp
        rw [List.filter_cons, if_pos he, hother]
        simp [spelled?, he]
      · rw [List.filter_cons, if_neg he, ih hrest]
        simp [spelled?, he]

theorem spelled?_of_mem {table : Table} (h : Inequivalent table) {entry : String × Value}
    (hmem : entry ∈ table) {name : String} (he : Crate.equivalent entry.1 name = true) :
    spelled? table name = some entry := by
  have hfilter : entry ∈ table.filter fun other => Crate.equivalent other.1 name :=
    List.mem_filter.mpr ⟨hmem, he⟩
  rw [filter_spellings h] at hfilter
  simpa using hfilter

/-! ## Keeping the first spellings -/

theorem keepFirst_concat (declared : Table) (entry : String × Value) :
    keepFirst (declared ++ [entry]) =
      match spelling? (keepFirst declared).1 entry.1 with
      | some owner => ((keepFirst declared).1,
          (keepFirst declared).2 ++ [duplicateWarning entry.1 owner])
      | none => ((keepFirst declared).1 ++ [entry], (keepFirst declared).2) := by
  unfold keepFirst
  rw [List.foldl_append]
  rfl

theorem keepFirst_concat_new {declared : Table} {entry : String × Value}
    (h : spelled? (keepFirst declared).1 entry.1 = none) :
    keepFirst (declared ++ [entry]) =
      ((keepFirst declared).1 ++ [entry], (keepFirst declared).2) := by
  rw [keepFirst_concat, spelling?_eq, h]
  rfl

theorem keepFirst_concat_known {declared : Table} {entry owner : String × Value}
    (h : spelled? (keepFirst declared).1 entry.1 = some owner) :
    keepFirst (declared ++ [entry]) = ((keepFirst declared).1,
      (keepFirst declared).2 ++ [duplicateWarning entry.1 owner.1]) := by
  rw [keepFirst_concat, spelling?_eq, h]
  rfl

/-- What is looked up is the same before and after the later spellings are left out. -/
theorem spelled?_keepFirst (declared : Table) (name : String) :
    spelled? (keepFirst declared).1 name = spelled? declared name := by
  induction declared using List.reverseRecOn generalizing name with
  | nil => rfl
  | append_singleton declared entry ih =>
      cases hkept : spelled? (keepFirst declared).1 entry.1 with
      | none =>
          rw [keepFirst_concat_new hkept, spelled?_append, spelled?_append, ih]
      | some owner =>
          rw [keepFirst_concat_known hkept, spelled?_append, ih]
          by_cases he : Crate.equivalent entry.1 name = true
          · rw [← spelled?_congr declared he, ← ih, hkept]
            rfl
          · have hlast : spelled? [entry] name = none := by
              simp [spelled?, he]
            rw [hlast, Option.or_none]

/-- **What is kept has one entry for a crate.** -/
theorem inequivalent_keepFirst (declared : Table) : Inequivalent (keepFirst declared).1 := by
  induction declared using List.reverseRecOn with
  | nil => exact List.Pairwise.nil
  | append_singleton declared entry ih =>
      cases hkept : spelled? (keepFirst declared).1 entry.1 with
      | none =>
          rw [keepFirst_concat_new hkept, inequivalent_append]
          refine ⟨ih, List.pairwise_singleton _ _, ?_⟩
          intro a ha b hb
          rw [List.mem_singleton.mp hb]
          exact spelled?_eq_none_iff.mp hkept a ha
      | some owner =>
          rw [keepFirst_concat_known hkept]
          exact ih

/-- The warnings that a table of dependencies calls for: for every entry behind a spelling of the
same crate one that names it and the first such spelling. -/
def repeatWarnings (declared : Table) : List String :=
  declared.zipIdx.filterMap fun (entry, place) =>
    (spelling? (declared.take place) entry.1).map (duplicateWarning entry.1)

theorem repeatWarnings_concat (declared : Table) (entry : String × Value) :
    repeatWarnings (declared ++ [entry]) = repeatWarnings declared ++
      ((spelling? declared entry.1).map (duplicateWarning entry.1)).toList := by
  unfold repeatWarnings
  rw [List.zipIdx_append, List.filterMap_append]
  congr 1
  · -- the entries in front stand behind the same entries as before
    apply List.filterMap_congr
    rintro ⟨other, place⟩ hmem
    have hlt : place < declared.length := by
      have := List.snd_lt_of_mem_zipIdx hmem
      simpa using this
    show Option.map _ (spelling? (List.take place (declared ++ [entry])) other.1) = _
    rw [List.take_append_of_le_length (Nat.le_of_lt hlt)]
  · simp [List.take_left', List.filterMap_cons]
    cases spelling? declared entry.1 <;> rfl

/-- **One warning for every later spelling.** -/
theorem keepFirst_warnings (declared : Table) :
    (keepFirst declared).2 = repeatWarnings declared := by
  induction declared using List.reverseRecOn with
  | nil => rfl
  | append_singleton declared entry ih =>
      have hsame := spelled?_keepFirst declared entry.1
      rw [repeatWarnings_concat, spelling?_eq, ← hsame, ← ih]
      cases hkept : spelled? (keepFirst declared).1 entry.1 with
      | none =>
          rw [keepFirst_concat_new hkept]
          simp
      | some owner =>
          rw [keepFirst_concat_known hkept]
          rfl

end RustScript.Manifest
