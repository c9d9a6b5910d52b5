import RustScript.Source.Analysis

/-!
# What an analysis gives

An analysis is refused because of the first manifest block and for no other reason
(`analyze_eq_error_iff`), and what it finds otherwise is a function of the body of the script
(`analyze_eq_ok_iff`). A block is refused as malformed if it is no TOML document, or one whose
dependencies are no table (`exists_foreseen_iff`); besides, a decimal integer in it may be too long to
be read, or values may stand too deep inside each other (`excess_iff`).
-/

set_option autoImplicit false

namespace RustScript.Manifest

open RustScript.Toml

/-- The reader comes to something of which there is too much. -/
def Exceeds (text : String) (excess : Excess) : Prop :=
  ∃ error, Toml.parse text = .error error ∧ error.excess? = some excess

/-- The text is no manifest fragment. -/
inductive Unsound (text : String) : Prop
  | notToml {error : SyntaxError} : Toml.parse text = .error error → error.excess? = none →
      Unsound text
  | notTable {document : Table} {value : Value} : Toml.parse text = .ok document →
      document.get? "dependencies" = some value → value.table? = none → Unsound text

variable {text : String}

theorem declaredDependencies_eq (document : Table) :
    declaredDependencies document = match document.get? "dependencies" with
      | none => .ok []
      | some value => match value.table? with
        | some entries => .ok entries
        | none => .error .dependenciesNotTable := by
  unfold declaredDependencies
  cases document.get? "dependencies" with
  | none => rfl
  | some value => cases value <;> rfl

theorem fragment_of_error {error : SyntaxError} (h : Toml.parse text = .error error) :
    fragment text = .error (.ofToml error) := by
  have hdocument : document text = .error (.ofToml error) :=
    congrArg (Except.mapError Malformed.ofToml) h
  rw [fragment, hdocument]
  rfl

theorem fragment_of_ok {table : Table} (h : Toml.parse text = .ok table) :
    fragment text = (declaredDependencies table).map fun _ => table := by
  have hdocument : document text = .ok table := congrArg (Except.mapError Malformed.ofToml) h
  rw [fragment, hdocument]
  show ((declaredDependencies table).bind fun _ => .ok table) = _
  cases declaredDependencies table <;> rfl

theorem ofToml_of_excess {error : SyntaxError} {excess : Excess} (h : error.excess? = some excess) :
    Malformed.ofToml error = .excessive excess := by
  unfold Malformed.ofToml
  rw [h]

theorem ofToml_of_none {error : SyntaxError} (h : error.excess? = none) :
    Malformed.ofToml error = .notToml error := by
  unfold Malformed.ofToml
  rw [h]

theorem ofToml_eq_excessive_iff {error : SyntaxError} {excess : Excess} :
    Malformed.ofToml error = .excessive excess ↔ error.excess? = some excess := by
  cases hexcess : error.excess? with
  | none => simp [ofToml_of_none hexcess]
  | some _ => simp [ofToml_of_excess hexcess]

theorem fragment_of_notTable {table : Table} {value : Value} (h : Toml.parse text = .ok table)
    (hvalue : table.get? "dependencies" = some value) (htable : value.table? = none) :
    fragment text = .error .dependenciesNotTable := by
  rw [fragment_of_ok h, declaredDependencies_eq, hvalue]
  dsimp only
  rw [htable]
  rfl

/-- A document whose dependencies are a table, if there are any, is a fragment. -/
theorem fragment_eq_ok_or {table : Table} (h : Toml.parse text = .ok table) :
    fragment text = .ok table ∨
      ∃ value, table.get? "dependencies" = some value ∧ value.table? = none := by
  rw [fragment_of_ok h, declaredDependencies_eq]
  cases hvalue : table.get? "dependencies" with
  | none => exact .inl rfl
  | some value =>
      cases htable : value.table? with
      | none => exact .inr ⟨value, rfl, htable⟩
      | some entries =>
          left
          dsimp only
          rw [htable]
          rfl

/-- **A fragment is refused as malformed** exactly if it is no document, or its dependencies are no
table. -/
theorem exists_foreseen_iff :
    (∃ cause, cause.isForeseen = true ∧ fragment text = .error cause) ↔ Unsound text := by
  constructor
  · rintro ⟨cause, hforeseen, hcause⟩
    cases hparse : Toml.parse text with
    | error error =>
        rw [fragment_of_error hparse] at hcause
        obtain rfl := Except.error.inj hcause
        refine .notToml hparse ?_
        cases hexcess : error.excess? with
        | none => rfl
        | some excess =>
            rw [ofToml_of_excess hexcess] at hforeseen
            cases hforeseen
    | ok table =>
        obtain hok | ⟨value, hvalue, htable⟩ := fragment_eq_ok_or hparse
        · rw [hok] at hcause
          cases hcause
        · exact .notTable hparse hvalue htable
  · rintro (⟨hparse, hexcess⟩ | ⟨hparse, hvalue, htable⟩)
    · refine ⟨_, ?_, fragment_of_error hparse⟩
      rw [ofToml_of_none hexcess]
      rfl
    · exact ⟨_, rfl, fragment_of_notTable hparse hvalue htable⟩

/-- **A fragment cannot be read** for an excess exactly if the reader comes to it. -/
theorem excess_iff {excess : Excess} :
    fragment text = .error (.excessive excess) ↔ Exceeds text excess := by
  unfold Exceeds
  cases hparse : Toml.parse text with
  | error error =>
      rw [fragment_of_error hparse, Except.error.injEq, ofToml_eq_excessive_iff]
      simp
  | ok table =>
      obtain hok | ⟨value, hvalue, htable⟩ := fragment_eq_ok_or hparse
      · simp [hok]
      · simp [fragment_of_notTable hparse hvalue htable]

end RustScript.Manifest

namespace RustScript.Source

variable {structural : Bool} {text : String}

theorem stripShebang_of_not {cs : List Char} (h : hasShebang cs = false) :
    stripShebang (String.ofList cs) = (String.ofList cs, none) := by
  rw [stripShebang, String.toList_ofList, if_neg (by rw [h]; exact Bool.false_ne_true)]

/-- Without a tree, the facts are those of the scan. -/
theorem findFacts_false (body : String) : findFacts false body = (Facts.scan body, .textual) := rfl

/-- What an analysis finds in the body of a script, if it is not refused. -/
def findings (structural : Bool) (body : String) : Metadata where
  body
  directives := directives body
  description := description body
  embedded := (manifestBlocks body).head?
  inferred := (findFacts structural body).1.externalCrates
  mainCount := (findFacts structural body).1.mainCount
  strategy := (findFacts structural body).2
  warnings := (manifestBlocks body).tail.map extraBlockWarning

/-- The first block decides whether an analysis is refused, and nothing else. -/
theorem analyze_eq (structural : Bool) (text : String) : analyze structural text =
    match (findings structural (stripShebang text).1).embedded.map Manifest.fragment with
    | some (.error cause) => .error cause
    | _ => .ok (findings structural (stripShebang text).1) := by
  unfold analyze findings
  dsimp only
  cases (manifestBlocks (stripShebang text).1).head? with
  | none => rfl
  | some block =>
      cases hfragment : Manifest.fragment block <;>
        simp [hfragment, bind, Except.bind, pure, Except.pure]

/-- **An analysis fails** exactly if the first manifest block is refused. -/
theorem analyze_eq_error_iff {cause : Manifest.Malformed} : analyze structural text = .error cause ↔
    ∃ block ∈ (manifestBlocks (stripShebang text).1).head?,
      Manifest.fragment block = .error cause := by
  rw [analyze_eq]
  unfold findings
  cases (manifestBlocks (stripShebang text).1).head? with
  | none => simp
  | some block => cases hfragment : Manifest.fragment block <;> simp [hfragment]

/-- **What an analysis gives** is what it finds in the body, unless the first block is refused. -/
theorem analyze_eq_ok_iff {metadata : Metadata} : analyze structural text = .ok metadata ↔
    (∀ block ∈ (manifestBlocks (stripShebang text).1).head?,
      ∃ document, Manifest.fragment block = .ok document) ∧
      metadata = findings structural (stripShebang text).1 := by
  rw [analyze_eq]
  unfold findings
  cases (manifestBlocks (stripShebang text).1).head? with
  | none => simp [eq_comm]
  | some block => cases hfragment : Manifest.fragment block <;> simp [hfragment, eq_comm]

end RustScript.Source
