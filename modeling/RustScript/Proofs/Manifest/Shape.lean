import RustScript.Proofs.Manifest.Sound

/-!
# Documents that have the shape of a manifest

Reading a manifest takes more for granted than a document has to keep to: that binaries can be gone
through, and that dependencies are a table or pairs of a name and a value. A document that names no
package is refused as malformed (`ofTable_of_unnamed`); one that does is read unless another part is
`Misshapen` (`ofTable_of_shapely`), and then the error is none of a malformed document
(`ofTable_of_misshapen`).
-/

set_option autoImplicit false

namespace RustScript.Manifest

open RustScript.Toml

/-! ## Shapes of values -/

/-- A value that can be gone through. -/
inductive GoneThrough : Value → Prop
  | array (elements : List Value) : GoneThrough (.array elements)
  | text (text : String) : GoneThrough (.string text)
  | table (entries : Table) : GoneThrough (.table entries)

/-- A value that may be the name of a dependency. -/
def MayName : Value → Prop
  | .array _ => False
  | .table _ => False
  | _ => True

/-- A value that gives a name and a value: an array of both, a text of two characters, or a table
of two entries. -/
inductive GivesPair : Value → Prop
  | array {name : Value} (value : Value) : MayName name → GivesPair (.array [name, value])
  | text {text : String} : text.toList.length = 2 → GivesPair (.string text)
  | table {entries : Table} : entries.length = 2 → GivesPair (.table entries)

/-- A value that gives dependencies: a table, the empty text, or an array of pairs. -/
inductive GivesDependencies : Value → Prop
  | table (entries : Table) : GivesDependencies (.table entries)
  | empty : GivesDependencies (.string "")
  | array {elements : List Value} : (∀ element ∈ elements, GivesPair element) →
      GivesDependencies (.array elements)

/-- The package of the document has a name. -/
def NamesPackage (table : Table) : Prop :=
  ∃ (entries : Table) (name : Value),
    table.get? "package" = some (.table entries) ∧ entries.get? "name" = some name

/-- A part of the document is not in the shape that reading takes for granted. -/
inductive Misshapen (table : Table) : Prop
  | binaries {value : Value} : table.get? "bin" = some value → ¬ GoneThrough value → Misshapen table
  | dependencies {value : Value} : table.get? "dependencies" = some value →
      ¬ GivesDependencies value → Misshapen table

theorem isSome_parts?_iff (value : Value) : (parts? value).isSome ↔ GoneThrough value := by
  constructor
  · intro h
    cases value with
    | array elements => exact .array elements
    | string text => exact .text text
    | table entries => exact .table entries
    | _ => cases h
  · rintro (_ | _ | _) <;> rfl

theorem isOk_pairOf_of_parts {element : Value} {parts : List Value}
    (h : parts? element = some parts) :
    (pairOf element).isOk = true ↔ ∃ name value, parts = [name, value] ∧ MayName name := by
  unfold pairOf
  rw [h]
  match parts with
  | [] => simp [Except.isOk, Except.toBool]
  | [single] => simp [Except.isOk, Except.toBool]
  | [name, value] => cases name <;> simp [Except.isOk, Except.toBool, MayName]
  | first :: second :: third :: rest => simp [Except.isOk, Except.toBool]

/-- Names that come from a list of texts may be names. -/
theorem exists_texts_iff {α : Type} (text : α → String) (values : List α) :
    (∃ name value, values.map (fun entry => Value.string (text entry)) = [name, value] ∧
      MayName name) ↔ values.length = 2 := by
  match values with
  | [] => simp
  | [single] => simp
  | [first, second] => simp [MayName]
  | first :: second :: third :: rest => simp

theorem isOk_pairOf_iff (element : Value) :
    (pairOf element).isOk = true ↔ GivesPair element := by
  cases hparts : parts? element with
  | none =>
      unfold pairOf
      rw [hparts]
      refine ⟨nofun, fun h => ?_⟩
      cases h <;> cases hparts
  | some parts =>
      rw [isOk_pairOf_of_parts hparts]
      cases element with
      | array elements =>
          obtain rfl := Option.some.inj hparts
          constructor
          · rintro ⟨name, value, rfl, hname⟩
            exact .array value hname
          · rintro (⟨value, hname⟩ | _ | _)
            exact ⟨_, value, rfl, hname⟩
      | string text =>
          obtain rfl := Option.some.inj hparts
          rw [exists_texts_iff]
          constructor
          · exact .text
          · rintro (_ | hlength | _)
            exact hlength
      | table entries =>
          obtain rfl := Option.some.inj hparts
          rw [exists_texts_iff]
          constructor
          · exact .table
          · rintro (_ | _ | hlength)
            exact hlength
      | _ => cases hparts

theorem isOk_mapM_iff {ε α β : Type} (f : α → Except ε β) (values : List α) :
    (values.mapM f).isOk = true ↔ ∀ value ∈ values, (f value).isOk = true := by
  induction values with
  | nil => simp [pure, Except.pure, Except.isOk, Except.toBool]
  | cons value rest ih =>
      rw [List.mapM_cons, List.forall_mem_cons, ← ih]
      cases f value <;> cases rest.mapM f <;>
        simp [bind, Except.bind, pure, Except.pure, Except.isOk, Except.toBool]

theorem isOk_iff {ε α : Type} {result : Except ε α} :
    result.isOk = true ↔ ∃ value, result = .ok value := by
  cases result <;> simp [Except.isOk, Except.toBool]

/-! ## Shapes of documents -/

theorem isOk_readPackage_iff (table : Table) :
    (readPackage table).isOk = true ↔ NamesPackage table := by
  unfold readPackage NamesPackage
  cases hpackage : table.get? "package" with
  | none => simp [Except.isOk, Except.toBool]
  | some package =>
      cases package with
      | table entries =>
          have hentries : (some (Value.table entries) >>= Value.table?) = some entries := rfl
          rw [hentries]
          dsimp only
          cases hname : Entries.get? entries "name" with
          | none => simp [Except.isOk, Except.toBool, hname]
          | some name => simp [Except.isOk, Except.toBool, hname]
      | _ => simp [Value.table?, Except.isOk, Except.toBool]

theorem isOk_readBinaries_iff (table : Table) : (readBinaries table).isOk = true ↔
    ∀ value, table.get? "bin" = some value → GoneThrough value := by
  unfold readBinaries
  cases hfound : table.get? "bin" with
  | none => simp [Except.isOk, Except.toBool]
  | some value =>
      simp only [Option.some.injEq, forall_eq', ← isSome_parts?_iff]
      cases parts? value <;> simp [Except.isOk, Except.toBool]

/-- No character of a text is a pair. -/
theorem isOk_pairs_text_iff (text : String) :
    ((text.toList.map fun c => Value.string (String.singleton c)).mapM pairOf).isOk = true ↔
      text = "" := by
  rw [isOk_mapM_iff, List.forall_mem_map]
  constructor
  · intro h
    by_contra hne
    obtain ⟨c, hc⟩ := List.exists_mem_of_ne_nil text.toList (by simpa using hne)
    have hpair := (isOk_pairOf_iff _).mp (h c hc)
    cases hpair with
    | text hlength => simp at hlength
  · rintro rfl c hc
    simp at hc

theorem isOk_readDependencies_iff (table : Table) : (readDependencies table).isOk = true ↔
    ∀ value, table.get? "dependencies" = some value → GivesDependencies value := by
  unfold readDependencies
  cases hfound : table.get? "dependencies" with
  | none => simp [Except.isOk, Except.toBool]
  | some value =>
      simp only [Option.some.injEq, forall_eq']
      -- once the pairs are read, collecting them cannot fail
      have hbind : ∀ elements : List Value, (do
          let pairs ← elements.mapM pairOf
          return pairs.foldl addPair ([], []) : Except ReadError _).isOk =
            (elements.mapM pairOf).isOk := fun elements => by
        cases elements.mapM pairOf <;> rfl
      cases value with
      | table entries => exact ⟨fun _ => .table entries, fun _ => rfl⟩
      | array elements =>
          dsimp only [parts?]
          rw [hbind, isOk_mapM_iff]
          simp only [isOk_pairOf_iff]
          constructor
          · exact .array
          · rintro (_ | _ | hpairs)
            exact hpairs
      | string text =>
          dsimp only [parts?]
          rw [hbind, isOk_pairs_text_iff]
          constructor
          · rintro rfl
            exact .empty
          · rintro (_ | _ | _)
            rfl
      | _ => exact ⟨nofun, nofun⟩

theorem not_misshapen_iff (table : Table) : ¬ Misshapen table ↔
    (readBinaries table).isOk = true ∧ (readDependencies table).isOk = true := by
  rw [isOk_readBinaries_iff, isOk_readDependencies_iff]
  constructor
  · intro h
    refine ⟨fun value hvalue => ?_, fun value hvalue => ?_⟩
    · by_contra hshape
      exact h (.binaries hvalue hshape)
    · by_contra hshape
      exact h (.dependencies hvalue hshape)
  · rintro ⟨hbinaries, hdependencies⟩ (⟨hvalue, hshape⟩ | ⟨hvalue, hshape⟩)
    · exact hshape (hbinaries _ hvalue)
    · exact hshape (hdependencies _ hvalue)

/-! ## Reading -/

/-- A document without the name of a package is refused as malformed. -/
theorem ofTable_of_unnamed {table : Table} (h : ¬ NamesPackage table) :
    ofTable table = .error (.malformed .missingPackageName) := by
  rw [← isOk_readPackage_iff] at h
  have hpackage : readPackage table = .error (.malformed .missingPackageName) := by
    unfold readPackage at h ⊢
    split at h
    · rfl
    · split at h
      · rfl
      · exact absurd rfl h
  unfold ofTable
  rw [hpackage]
  rfl

theorem pairOf_ne_malformed (element : Value) (cause : Malformed) :
    pairOf element ≠ .error (.malformed cause) := by
  unfold pairOf
  split <;> simp

theorem readBinaries_ne_malformed (table : Table) (cause : Malformed) :
    readBinaries table ≠ .error (.malformed cause) := by
  unfold readBinaries
  split
  · simp
  · split <;> simp

theorem mapM_ne_error {ε α β : Type} {f : α → Except ε β} {error : ε}
    (h : ∀ value, f value ≠ .error error) (values : List α) : values.mapM f ≠ .error error := by
  induction values with
  | nil => exact nofun
  | cons value rest ih =>
      rw [List.mapM_cons]
      cases hfirst : f value with
      | error other => exact fun heq => h value (by rw [hfirst, Except.error.inj heq])
      | ok first =>
          cases hrest : rest.mapM f with
          | error other => exact fun heq => ih (hrest.trans heq)
          | ok others => exact nofun

theorem readDependencies_ne_malformed (table : Table) (cause : Malformed) :
    readDependencies table ≠ .error (.malformed cause) := by
  unfold readDependencies
  split
  · exact nofun
  · exact nofun
  · next value _ _ =>
      cases hparts : parts? value with
      | none => exact nofun
      | some elements =>
          have hpairs := mapM_ne_error (fun element => pairOf_ne_malformed element cause) elements
          dsimp only
          cases hmap : elements.mapM pairOf with
          | error other => exact fun heq => hpairs (by rw [hmap, Except.error.inj heq])
          | ok pairs => exact nofun

section

variable {table : Table} (hname : NamesPackage table)

include hname

theorem ofTable_of_shapely (h : ¬ Misshapen table) : ∃ manifest, ofTable table = .ok manifest := by
  obtain ⟨hbinaries, hdependencies⟩ := (not_misshapen_iff table).mp h
  obtain ⟨package, hpackage⟩ := isOk_iff.mp ((isOk_readPackage_iff table).mpr hname)
  obtain ⟨binaries, hbinaries⟩ := isOk_iff.mp hbinaries
  obtain ⟨dependencies, hdependencies⟩ := isOk_iff.mp hdependencies
  unfold ofTable
  rw [hpackage, hbinaries, hdependencies]
  exact ⟨_, rfl⟩

theorem ofTable_of_misshapen (h : Misshapen table) :
    ∃ error, ofTable table = .error error ∧ ∀ cause, error ≠ .malformed cause := by
  obtain ⟨package, hpackage⟩ := isOk_iff.mp ((isOk_readPackage_iff table).mpr hname)
  unfold ofTable
  rw [hpackage]
  cases hbinaries : readBinaries table with
  | error error =>
      refine ⟨error, rfl, ?_⟩
      rintro cause rfl
      exact readBinaries_ne_malformed table cause hbinaries
  | ok binaries =>
      cases hdependencies : readDependencies table with
      | error error =>
          refine ⟨error, rfl, ?_⟩
          rintro cause rfl
          exact readDependencies_ne_malformed table cause hdependencies
      | ok dependencies =>
          refine absurd h ((not_misshapen_iff table).mpr ?_)
          rw [hbinaries, hdependencies]
          exact ⟨rfl, rfl⟩

end

end RustScript.Manifest
