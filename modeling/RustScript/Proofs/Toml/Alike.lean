import RustScript.Proofs.Entries
import RustScript.Toml.Reader
import RustScript.Toml.Writer

/-!
# Values up to the order of entries

Two values are alike if they are the same value once the entries of every table in them are sorted
by key. Being alike is an equivalence, and NaN is alike to itself. For values without NaN in whose
tables no key repeats it implies that they mean the same (`Value.Alike.same`).

A document is written with its lines first and its tables behind them, so that a reader finds a
document that is alike at best: it reads back (`ReadsBack`).
-/

set_option autoImplicit false

namespace RustScript.Toml

/-! ## What holds throughout a value -/

/-- The value and every value in it satisfy `P`. -/
inductive Value.Everywhere (P : Value → Prop) : Value → Prop
  | scalar {value : Value} : isComposite value = false → P value → Everywhere P value
  | array {elements : List Value} :
      P (.array elements) → (∀ element ∈ elements, Everywhere P element) →
      Everywhere P (.array elements)
  | table {entries : Table} :
      P (.table entries) → (∀ entry ∈ entries, Everywhere P entry.2) →
      Everywhere P (.table entries)

/-- No key repeats among the entries of the value, if it is a table. -/
def Keyed : Value → Prop
  | .table entries => (Entries.keys entries).Nodup
  | _ => True

/-- In no table of the value a key repeats. -/
abbrev Value.Distinct (value : Value) : Prop := value.Everywhere Keyed

/-- The value holds no NaN. -/
abbrev Value.NanFree (value : Value) : Prop := value.Everywhere (· ≠ .float .nan)

section

variable {P : Value → Prop}

theorem Value.Everywhere.of_array {elements : List Value}
    (h : (Value.array elements).Everywhere P) : ∀ element ∈ elements, element.Everywhere P := by
  cases h with
  | scalar hscalar _ => cases hscalar
  | array _ helements => exact helements

theorem Value.Everywhere.of_table {entries : Table} (h : (Value.table entries).Everywhere P) :
    ∀ entry ∈ entries, entry.2.Everywhere P := by
  cases h with
  | scalar hscalar _ => cases hscalar
  | table _ hentries => exact hentries

theorem Value.Everywhere.of_get? {entries : Table} (h : (Value.table entries).Everywhere P)
    {key : String} {value : Value} (hget : entries.get? key = some value) : value.Everywhere P :=
  h.of_table (key, value) (Entries.mem_of_get? hget)

theorem Value.Everywhere.nodup {entries : Table} (h : (Value.table entries).Everywhere Keyed) :
    entries.keys.Nodup := by
  cases h with
  | scalar hscalar _ => cases hscalar
  | table hkeys _ => exact hkeys

theorem distinct_scalar {value : Value} (h : isComposite value = false) : value.Distinct := by
  refine .scalar h ?_
  cases value with
  | table _ => cases h
  | _ => exact True.intro

end

/-! ## Sorted values -/

mutual

/-- The value with the entries of all its tables sorted by key. -/
def Value.sorted : Value → Value
  | .array elements => .array (sortedElements elements)
  | .table entries => .table (Entries.sorted (sortedValues entries))
  | value => value

/-- The elements, each sorted. -/
def sortedElements : List Value → List Value
  | [] => []
  | element :: rest => element.sorted :: sortedElements rest

/-- The entries, each with its value sorted. -/
def sortedValues : List (String × Value) → List (String × Value)
  | [] => []
  | (key, value) :: rest => (key, value.sorted) :: sortedValues rest

end

theorem sortedElements_eq (elements : List Value) :
    sortedElements elements = elements.map Value.sorted := by
  induction elements with
  | nil => rfl
  | cons element rest ih => rw [sortedElements, ih, List.map_cons]

theorem sortedValues_eq (entries : Table) :
    sortedValues entries = entries.map fun entry => (entry.1, entry.2.sorted) := by
  induction entries with
  | nil => rfl
  | cons entry rest ih => rw [sortedValues, ih, List.map_cons]

theorem keys_sortedValues (entries : Table) :
    Entries.keys (sortedValues entries) = entries.keys := by
  rw [sortedValues_eq]
  exact List.map_map

theorem sorted_scalar {value : Value} (h : isComposite value = false) : value.sorted = value := by
  cases value with
  | array _ => cases h
  | table _ => cases h
  | _ => rfl

/-! ## Alike values -/

/-- The values differ in the order of entries only. -/
def Value.Alike (value other : Value) : Prop := value.sorted = other.sorted

theorem Value.Alike.refl (value : Value) : value.Alike value := rfl

theorem Value.Alike.symm {value other : Value} (h : value.Alike other) : other.Alike value :=
  Eq.symm h

theorem Value.Alike.trans {value other third : Value} (h : value.Alike other)
    (hnext : other.Alike third) : value.Alike third :=
  Eq.trans h hnext

theorem Value.Alike.eq_scalar {value other : Value} (h : value.Alike other)
    (hscalar : isComposite value = false) : other = value := by
  have hsorted : value = other.sorted := (sorted_scalar hscalar).symm.trans h
  cases other with
  | array _ =>
      rw [hsorted] at hscalar
      cases hscalar
  | table _ =>
      rw [hsorted] at hscalar
      cases hscalar
  | _ => exact hsorted.symm

theorem Value.Alike.exists_array {elements : List Value} {other : Value}
    (h : (Value.array elements).Alike other) :
    ∃ others, other = .array others ∧ elements.map Value.sorted = others.map Value.sorted := by
  cases other with
  | array others =>
      have hmap : sortedElements elements = sortedElements others := Value.array.inj h
      rw [sortedElements_eq, sortedElements_eq] at hmap
      exact ⟨others, rfl, hmap⟩
  | _ => cases h

theorem alike_array {elements others : List Value}
    (h : elements.map Value.sorted = others.map Value.sorted) :
    (Value.array elements).Alike (.array others) := by
  show Value.array (sortedElements elements) = .array (sortedElements others)
  rw [sortedElements_eq, sortedElements_eq, h]

/-- Tables in which no key repeats are alike if one is a rearrangement of the other, up to the order
in their values. -/
theorem alike_table_iff {entries others : Table} (h : entries.keys.Nodup) :
    (Value.table entries).Alike (.table others) ↔
      (sortedValues entries).Perm (sortedValues others) := by
  constructor
  · intro halike
    have hsorted : Entries.sorted (sortedValues entries) = Entries.sorted (sortedValues others) :=
      Value.table.inj halike
    calc (sortedValues entries).Perm (Entries.sorted (sortedValues entries)) :=
          (Entries.sorted_perm _).symm
      _ = Entries.sorted (sortedValues others) := hsorted
      List.Perm _ (sortedValues others) := Entries.sorted_perm _
  · intro hperm
    have hkeys : (Entries.keys (sortedValues entries)).Nodup := by rwa [keys_sortedValues]
    exact congrArg Value.table (Entries.sorted_congr hkeys hperm)

theorem Value.Alike.exists_table {entries : Table} {other : Value}
    (h : (Value.table entries).Alike other) :
    ∃ others, other = .table others := by
  cases other with
  | table others => exact ⟨others, rfl⟩
  | _ => cases h

/-- Alike tables have alike values. -/
theorem Value.Alike.get? {entries others : Table} (h : (Value.table entries).Alike (.table others))
    (hentries : entries.keys.Nodup) (hothers : others.keys.Nodup) {key : String} {value : Value}
    (hget : entries.get? key = some value) :
    ∃ other, others.get? key = some other ∧ value.Alike other := by
  have hmem : (key, value.sorted) ∈ sortedValues entries := by
    rw [sortedValues_eq]
    exact List.mem_map.mpr ⟨(key, value), Entries.mem_of_get? hget, rfl⟩
  rw [((alike_table_iff hentries).mp h).mem_iff, sortedValues_eq] at hmem
  obtain ⟨other, hother, heq⟩ := List.mem_map.mp hmem
  obtain ⟨hkey, hvalue⟩ := Prod.mk.inj heq
  exact ⟨other.2, (Entries.get?_eq_some_iff hothers).mpr (hkey ▸ hother), hvalue.symm⟩

theorem Value.Alike.length {entries others : Table}
    (h : (Value.table entries).Alike (.table others)) (hentries : entries.keys.Nodup) :
    entries.length = others.length := by
  have hlength := ((alike_table_iff hentries).mp h).length_eq
  rwa [sortedValues_eq, sortedValues_eq, List.length_map, List.length_map] at hlength

/-- Alike tables are alike in the parts that are chosen by their keys. -/
theorem Value.Alike.filter {entries others : Table}
    (h : (Value.table entries).Alike (.table others)) (hentries : entries.keys.Nodup)
    (p : String → Bool) :
    (Value.table (entries.filter fun entry => p entry.1)).Alike
      (.table (others.filter fun entry => p entry.1)) := by
  have hvalues : ∀ table : Table, sortedValues (table.filter fun entry => p entry.1) =
      (sortedValues table).filter fun entry => p entry.1 := fun table => by
    rw [sortedValues_eq, sortedValues_eq, List.filter_map]
    rfl
  have hkeys : (Entries.keys (entries.filter fun entry => p entry.1)).Nodup :=
    hentries.sublist (List.filter_sublist.map _)
  rw [alike_table_iff hkeys, hvalues, hvalues]
  exact ((alike_table_iff hentries).mp h).filter _

/-! ## Alike values mean the same -/

theorem sameElements_of_sorted {elements others : List Value}
    (h : elements.map Value.sorted = others.map Value.sorted)
    (hsame : ∀ value ∈ elements, ∀ other ∈ others, value.Alike other → value.same other = true) :
    sameElements elements others = true := by
  induction elements generalizing others with
  | nil =>
      obtain rfl := List.map_eq_nil_iff.mp h.symm
      rfl
  | cons value rest ih =>
      cases others with
      | nil => cases h
      | cons other others =>
          obtain ⟨hfirst, hrest⟩ := List.cons.inj h
          rw [sameElements, hsame value List.mem_cons_self other List.mem_cons_self hfirst,
            ih hrest fun later hlater another hanother =>
              hsame later (List.mem_cons_of_mem _ hlater) another
                (List.mem_cons_of_mem _ hanother), Bool.and_self]

theorem sameEntries_of_forall {entries others : Table} (hothers : others.keys.Nodup)
    (h : ∀ entry ∈ entries, ∃ other, others.get? entry.1 = some other ∧
      entry.2.same other = true) :
    sameEntries entries others = true := by
  induction entries with
  | nil => rfl
  | cons entry rest ih =>
      obtain ⟨other, hget, hsame⟩ := h entry List.mem_cons_self
      have hfind := Entries.find?_of_nodup hothers (Entries.mem_of_get? hget)
      rw [sameEntries, hfind, ih fun later hlater => h later (List.mem_cons_of_mem _ hlater)]
      simp only [hsame, Bool.and_self]

/-- **Values that differ in the order of entries only mean the same**, if they hold no NaN and no
key repeats. -/
theorem Value.Alike.same {value other : Value} (h : value.Alike other) (hnan : value.NanFree)
    (hvalue : value.Distinct) (hother : other.Distinct) : value.same other = true := by
  induction hnan generalizing other with
  | @scalar value hscalar hnan =>
      rw [h.eq_scalar hscalar]
      cases value with
      | array _ => cases hscalar
      | table _ => cases hscalar
      | float x =>
          cases x with
          | nan => exact absurd rfl hnan
          | finite negative mantissa exponent =>
              cases mantissa with
              | zero => rfl
              | succ _ => exact beq_self_eq_true _
          | infinity _ => exact beq_self_eq_true _
      | _ => exact beq_self_eq_true _
  | @array elements _ _ ih =>
      obtain ⟨others, rfl, hmap⟩ := h.exists_array
      exact sameElements_of_sorted hmap fun element helement found hfound halike =>
        ih element helement halike (hvalue.of_array element helement)
          (hother.of_array found hfound)
  | @table entries _ _ ih =>
      obtain ⟨others, rfl⟩ := h.exists_table
      have hkeys := hvalue.nodup
      have hlength := h.length hkeys
      have hentries : sameEntries entries others = true := by
        refine sameEntries_of_forall hother.nodup fun entry hentry => ?_
        obtain ⟨found, hget, halike⟩ := h.get? hkeys hother.nodup
          ((Entries.get?_eq_some_iff hkeys).mpr hentry)
        exact ⟨found, hget, ih entry hentry halike (hvalue.of_table entry hentry)
          (hother.of_get? hget)⟩
      rw [Value.same, hentries, hlength, beq_self_eq_true, Bool.and_self]

/-! ## Reading back -/

/-- There is no number in the document that is too long to be written, and no text that no document
can hold. -/
def Writable (document : Table) : Prop :=
  (Value.table document).all isShort = true ∧ (Value.table document).all isWhole = true

/-- The document can be written, and a reader of what is written finds it, up to the order of
entries. -/
def ReadsBack (document : Table) : Prop :=
  Writable document ∧
    ∃ found, parse (write document) = .ok found ∧ (Value.table found).Alike (.table document)

end RustScript.Toml
