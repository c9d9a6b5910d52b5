import RustScript.Proofs.Toml.Alike

/-!
# Keys of a document that is read

A reader never enters a key twice: in no table of a document that it reads a key repeats
(`distinct_of_parse`). Each step of building a document keeps this of the table so far, and each
value that is read has it from the start.
-/

set_option autoImplicit false

namespace RustScript.Toml

/-! ## Results -/

/-- The result satisfies `P` if there is one. -/
def Ensures {ε α : Type} (P : α → Prop) (result : Except ε α) : Prop :=
  ∀ value, result = .ok value → P value

section

variable {ε ε' α β : Type} {P : α → Prop} {Q : β → Prop}

theorem ensures_ok {value : α} (h : P value) : Ensures P (.ok value : Except ε α) :=
  fun _ heq => Except.ok.inj heq ▸ h

theorem ensures_error (error : ε) : Ensures P (.error error : Except ε α) := nofun

theorem Ensures.mono {P' : α → Prop} {result : Except ε α} (h : Ensures P result)
    (himp : ∀ value, P value → P' value) : Ensures P' result :=
  fun value heq => himp value (h value heq)

theorem Ensures.bind {result : Except ε α} {next : α → Except ε β} (h : Ensures P result)
    (hnext : ∀ value, P value → Ensures Q (next value)) : Ensures Q (result >>= next) := by
  cases result with
  | error error => exact ensures_error error
  | ok value => exact hnext value (h value rfl)

theorem Ensures.map {result : Except ε α} {f : α → β} (h : Ensures P result)
    (hf : ∀ value, P value → Q (f value)) : Ensures Q (f <$> result) := by
  cases result with
  | error error => exact ensures_error error
  | ok value => exact ensures_ok (hf value (h value rfl))

/-- Nothing is known about the result. -/
theorem ensures_true (result : Except ε α) : Ensures (fun _ => True) result := fun _ _ => trivial

end

/-! ## Building tables -/

/-- In the table and in no table in it a key repeats. -/
abbrev DistinctTable (table : Table) : Prop := (Value.table table).Distinct

theorem distinct_nil : DistinctTable [] := .table List.nodup_nil nofun

theorem distinct_put {table : Table} (h : DistinctTable table) (key : String) {value : Value}
    (hvalue : value.Distinct) : DistinctTable (table.put key value) := by
  refine .table (Entries.nodup_keys_put h.nodup key value) fun entry hentry => ?_
  rcases Entries.mem_put hentry with hold | rfl
  · exact h.of_table entry hold
  · exact hvalue

theorem distinct_array {elements : List Value} (h : ∀ element ∈ elements, element.Distinct) :
    (Value.array elements).Distinct :=
  .array True.intro h

theorem ensures_addEntry {table : Table} (h : DistinctTable table) (occupied : Problem)
    (name : String) {value : Value} (hvalue : value.Distinct) :
    Ensures DistinctTable (addEntry occupied name value table) := by
  unfold addEntry
  split
  · exact ensures_error occupied
  · exact ensures_ok (distinct_put h name hvalue)

theorem ensures_addToArray {table : Table} (h : DistinctTable table) (name : String) :
    Ensures DistinctTable (addToArray name table) := by
  unfold addToArray
  split
  · refine ensures_ok (distinct_put h name (distinct_array fun element helement => ?_))
    exact List.mem_singleton.mp helement ▸ distinct_nil
  · next elements hget =>
      refine ensures_ok (distinct_put h name (distinct_array fun element helement => ?_))
      rcases List.mem_append.mp helement with hold | hnew
      · exact (h.of_get? hget).of_array element hold
      · exact List.mem_singleton.mp hnew ▸ distinct_nil
  · exact ensures_error _

/-- A change that keeps the keys of tables distinct does so behind a key. -/
theorem ensures_updateNest {change : Table → Except Problem Table}
    (hchange : ∀ table, DistinctTable table → Ensures DistinctTable (change table))
    (throughArrays : Bool) (key : Key) {table : Table} (h : DistinctTable table) :
    Ensures DistinctTable (updateNest throughArrays change key table) := by
  induction key generalizing table with
  | nil => exact hchange table h
  | cons part rest ih =>
      have hput : ∀ nested, nested.Distinct →
          Ensures DistinctTable (.ok (table.put part nested) : Except Problem Table) :=
        fun nested hnested => ensures_ok (distinct_put h part hnested)
      unfold updateNest
      cases hget : table.get? part with
      | none => exact (Ensures.map (Q := Value.Distinct) (ih distinct_nil) fun _ => id).bind hput
      | some value =>
          have hvalue := h.of_get? hget
          cases value with
          | table entries =>
              exact (Ensures.map (Q := Value.Distinct) (ih hvalue) fun _ => id).bind hput
          | array elements =>
              dsimp only
              split
              · next entries hlast =>
                  have hmem : Value.table entries ∈ elements := List.mem_of_getLast? hlast
                  refine ((ih (hvalue.of_array _ hmem)).map fun nested hnested =>
                    distinct_array fun element helement => ?_).bind hput
                  rcases List.mem_append.mp helement with hfront | hback
                  · exact hvalue.of_array element (List.mem_of_mem_dropLast hfront)
                  · exact List.mem_singleton.mp hback ▸ hnested
              · exact ensures_error _
          | _ => exact ensures_error _

/-! ## Values that are read -/

theorem ensures_located {α : Type} {P : α → Prop} {result : Except Problem α}
    (h : Ensures P result) (rest : List Char) : Ensures P (located rest result) := by
  cases result with
  | error problem => exact ensures_error _
  | ok value => exact ensures_ok (h value rfl)

theorem isComposite_based {cs : List Char} {found : Value × List Char}
    (h : based? cs = some found) : isComposite found.1 = false := by
  unfold based? at h
  split at h
  · obtain ⟨_, _, rfl⟩ := Option.map_eq_some_iff.mp h
    rfl
  · obtain ⟨_, _, rfl⟩ := Option.map_eq_some_iff.mp h
    rfl
  · obtain ⟨_, _, rfl⟩ := Option.map_eq_some_iff.mp h
    rfl
  · cases h

/-- The value read holds no other values. -/
abbrev ReadsPlain (result : Except Failure (Value × List Char)) : Prop :=
  Ensures (fun found => isComposite found.1 = false) result

theorem readsPlain_decimalInteger (negative : Bool) (digits rest : List Char) :
    ReadsPlain (decimalInteger negative digits rest) := by
  unfold decimalInteger
  split
  · exact ensures_error _
  · exact ensures_ok rfl

theorem readsPlain_of_ite {whole : Prop} [Decidable whole]
    {integer result : Except Failure (Value × List Char)} {x : Option Binary64} {rest : List Char}
    (hinteger : ReadsPlain integer)
    (h : (if whole then some integer else x >>= fun value =>
      some (.ok (Value.float value, rest))) = some result) : ReadsPlain result := by
  split at h
  · exact Option.some.inj h ▸ hinteger
  · obtain ⟨value, -, h⟩ := Option.bind_eq_some_iff.mp h
    rw [← Option.some.inj h]
    exact ensures_ok rfl

theorem readsPlain_decimal {negative : Bool} {cs : List Char}
    {result : Except Failure (Value × List Char)} (h : decimal? negative cs = some result) :
    ReadsPlain result := by
  unfold decimal? at h
  dsimp only at h
  -- a whole part that begins with zero is read apart
  split at h
  all_goals
    obtain ⟨whole, -, h⟩ := Option.bind_eq_some_iff.mp h
    split at h
    all_goals exact readsPlain_of_ite (readsPlain_decimalInteger _ _ _) h

theorem readsPlain_number {cs : List Char} {result : Except Failure (Value × List Char)}
    (h : number? cs = some result) : ReadsPlain result := by
  unfold number? at h
  dsimp only at h
  split at h
  · next based hbased =>
      rw [← Option.some.inj h]
      exact ensures_ok (isComposite_based hbased)
  · split at h
    · next decimal hdecimal =>
        rw [← Option.some.inj h]
        exact readsPlain_decimal hdecimal
    · split at h
      · rw [← Option.some.inj h]
        exact ensures_ok rfl
      · rw [← Option.some.inj h]
        exact ensures_ok rfl
      · cases h

theorem ensures_moment {cs : List Char} {result : Except Failure (Value × List Char)}
    (h : moment? cs = some result) : ReadsPlain result := by
  unfold moment? at h
  split at h
  · rw [← Option.some.inj h]
    split
    · exact ensures_error _
    · split
      · exact ensures_ok rfl
      · split
        · exact ensures_ok rfl
        · exact ensures_ok rfl
  · obtain ⟨_, _, rfl⟩ := Option.map_eq_some_iff.mp h
    exact ensures_ok rfl

theorem ensures_scalar (cs : List Char) :
    Ensures (fun found => found.1.Distinct) (scalar cs) := by
  have hscalar : ∀ found : Value × List Char, isComposite found.1 = false → found.1.Distinct :=
    fun _ => distinct_scalar
  unfold scalar
  split
  · exact ensures_ok (distinct_scalar rfl)
  · exact ensures_ok (distinct_scalar rfl)
  · split
    · exact (ensures_true _).map fun found _ => distinct_scalar rfl
    · split
      · next result hmoment => exact (ensures_moment hmoment).mono hscalar
      · split
        · next result hnumber => exact (readsPlain_number hnumber).mono hscalar
        · exact ensures_error _

theorem ensures_enterInline {table : Table} (h : DistinctTable table) (frozen : List Key)
    (key : Key) {value : Value} (hvalue : value.Distinct) :
    Ensures DistinctTable (enterInline frozen key value table) := by
  unfold enterInline
  split
  · exact ensures_error _
  · exact ensures_updateNest (fun _ htable => ensures_addEntry htable _ _ hvalue) false _ h

/-- Values, arrays and inline tables that are read, as deep as the fuel reaches. -/
theorem ensures_values (fuel : Nat) :
    (∀ room cs, Ensures (fun found => found.1.Distinct) (value fuel room cs)) ∧
    (∀ room cs, Ensures (fun found => ∀ element ∈ found.1, element.Distinct)
      (elements fuel room cs)) ∧
    (∀ room frozen table cs, DistinctTable table →
      Ensures (fun found => DistinctTable found.1) (inlineEntries fuel room frozen table cs)) := by
  induction fuel with
  | zero =>
      exact ⟨fun _ _ => ensures_error _, fun _ _ => ensures_error _,
        fun _ _ _ _ _ => ensures_error _⟩
  | succ fuel ih =>
      obtain ⟨hvalue, helements, hentries⟩ := ih
      refine ⟨fun room cs => ?_, fun room cs => ?_, fun room frozen table cs htable => ?_⟩
      · unfold value
        split
        · refine (ensures_true _).bind fun room _ => (ensures_true _).bind fun content _ => ?_
          split
          · exact ensures_ok (distinct_array nofun)
          · exact (helements room content).bind fun found hfound =>
              ensures_ok (distinct_array hfound)
        · refine (ensures_true _).bind fun room _ => ?_
          split
          · exact ensures_ok distinct_nil
          · exact (hentries room [] [] _ distinct_nil).bind fun found hfound => ensures_ok hfound
        · exact ensures_scalar cs
      · unfold elements
        refine (hvalue room cs).bind fun first hfirst => (ensures_true _).bind fun rest _ => ?_
        have hone : ∀ element ∈ [first.1], element.Distinct := fun element helement =>
          List.mem_singleton.mp helement ▸ hfirst
        split
        · exact ensures_ok hone
        · refine (ensures_true _).bind fun content _ => ?_
          split
          · exact ensures_ok hone
          · refine (helements room content).bind fun others hothers => ensures_ok ?_
            exact List.forall_mem_cons.mpr ⟨hfirst, hothers⟩
        · exact ensures_error _
      · unfold inlineEntries
        refine (ensures_true _).bind fun parts _ => (hvalue room _).bind fun entry hentry =>
          (ensures_located (ensures_enterInline htable frozen parts.1 hentry) _).bind
            fun table htable => ?_
        split
        · exact ensures_ok htable
        · exact hentries room _ table _ htable
        · exact ensures_error _

/-! ## Documents -/

theorem ensures_openTable {document : Document} (h : DistinctTable document.table) (key : Key) :
    Ensures (fun after => DistinctTable after.table) (document.openTable key) := by
  unfold Document.openTable
  split
  · exact ensures_error _
  · exact (ensures_updateNest (fun _ => ensures_ok) true key h).bind
      fun _ htable => ensures_ok htable

theorem ensures_openElement {document : Document} (h : DistinctTable document.table) (key : Key) :
    Ensures (fun after => DistinctTable after.table) (document.openElement key) := by
  unfold Document.openElement
  split
  · exact ensures_error _
  · exact (ensures_updateNest (fun _ htable => ensures_addToArray htable _) true _ h).bind
      fun _ htable => ensures_ok htable

theorem ensures_enter {document : Document} (h : DistinctTable document.table) (key : Key)
    {value : Value} (hvalue : value.Distinct) :
    Ensures (fun after => DistinctTable after.table) (document.enter key value) := by
  unfold Document.enter
  dsimp only
  split
  · exact ensures_error _
  · split
    · exact ensures_error _
    · exact (ensures_updateNest (fun _ htable => ensures_addEntry htable _ _ hvalue) true _ h).bind
        fun _ htable => ensures_ok htable

theorem ensures_headerStatement {document : Document} (h : DistinctTable document.table)
    (cs : List Char) :
    Ensures (fun found => DistinctTable found.1.table) (headerStatement document cs) := by
  have hclose : DistinctTable document.close.table := h
  unfold headerStatement
  split
  · refine (ensures_true _).bind fun parts _ =>
      (ensures_located (ensures_openElement hclose parts.1) _).bind fun after hafter => ?_
    split
    · exact ensures_ok hafter
    · exact ensures_error _
  · refine (ensures_true _).bind fun parts _ =>
      (ensures_located (ensures_openTable hclose parts.1) _).bind fun after hafter => ?_
    split
    · exact ensures_ok hafter
    · exact ensures_error _

theorem ensures_entryStatement {document : Document} (h : DistinctTable document.table)
    (cs : List Char) :
    Ensures (fun found => DistinctTable found.1.table) (entryStatement document cs) := by
  unfold entryStatement
  exact (ensures_true _).bind fun parts _ => ((ensures_values _).1 _ _).bind fun entry hentry =>
    (ensures_located (ensures_enter h parts.1 hentry) _).bind
      fun _ htable => ensures_ok htable

theorem ensures_statements (fuel : Nat) {document : Document} (h : DistinctTable document.table)
    (cs : List Char) :
    Ensures (fun after => DistinctTable after.table) (statements fuel document cs) := by
  induction fuel generalizing document cs with
  | zero => exact ensures_ok h
  | succ fuel ih =>
      unfold statements
      split
      · exact ensures_ok h
      · exact ih h _
      -- whatever the statement is, what stands behind it ends the text or its line
      · split
        on_goal 1 => refine (ensures_entryStatement h _).bind fun found hfound => ?_
        on_goal 2 => split
        on_goal 2 => refine (ensures_headerStatement h _).bind fun found hfound => ?_
        on_goal 3 => split
        on_goal 3 =>
          refine Ensures.bind (P := fun found => DistinctTable found.1.table) (ensures_ok h)
            fun found hfound => ?_
        on_goal 4 => exact ensures_error _
        all_goals
          refine (ensures_true _).bind fun ending _ => ?_
          split
          · exact ensures_ok hfound
          · exact ih hfound _
          · exact ensures_error _

/-- **In no table of a document that is read a key repeats.** -/
theorem distinct_of_parse {text : String} {table : Table} (h : parse text = .ok table) :
    DistinctTable table := by
  unfold parse at h
  dsimp only at h
  split at h
  · next document hdocument =>
      rw [← Except.ok.inj h]
      exact ensures_statements _ (distinct_nil : DistinctTable Document.empty.table) _ document
        hdocument
  · cases h

end RustScript.Toml
