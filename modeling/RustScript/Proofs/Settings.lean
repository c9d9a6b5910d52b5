import RustScript.Proofs.Number.Numeral
import RustScript.Settings

/-!
# Timeouts from the environment

A timeout is absent if its variable is unset or empty, and otherwise it is the number that the
variable spells. A variable that spells no number, or one that is not greater than zero, is refused by
name (`ofEnvironment_timeouts`). The undefined number is neither, and it is accepted.
-/

set_option autoImplicit false

namespace RustScript.Settings

open RustScript.Binary64

/-! ## One variable -/

/-- The variable is unset or empty. -/
def Silent (environment : Entries String) (key : String) : Prop :=
  environment.get? key = none ∨ environment.get? key = some ""

/-- The variable holds the text, which is not empty. -/
def Says (environment : Entries String) (key text : String) : Prop :=
  environment.get? key = some text ∧ text ≠ ""

/-- The timeout that a variable gives. -/
inductive Timeout (environment : Entries String) (key : String) : Option Binary64 → Prop
  | absent : Silent environment key → Timeout environment key none
  | positive {text : String} {n : Numeral} : Says environment key text → Spells n text.toList →
      n.Positive → Timeout environment key (some n.nearest)
  | undefined {text : String} : Says environment key text → Spells .undefined text.toList →
      Timeout environment key (some .nan)

/-- Why a variable gives no timeout. -/
inductive Refusal (environment : Entries String) (key : String) : SettingsError → Prop
  | notNumber {text : String} : Says environment key text → (∀ n, ¬ Spells n text.toList) →
      Refusal environment key (.notNumber key text)
  | notPositive {text : String} {n : Numeral} : Says environment key text → Spells n text.toList →
      n ≠ .undefined → ¬ n.Positive → Refusal environment key (.notPositive key text)

variable {environment : Entries String} {key text : String}

theorem filled?_eq_none_iff : filled? environment key = none ↔ Silent environment key := by
  unfold filled? Silent
  cases environment.get? key with
  | none => simp
  | some text => simp

theorem filled?_eq_some_iff : filled? environment key = some text ↔ Says environment key text := by
  unfold filled? Says
  rw [Option.filter_eq_some_iff]
  simp

theorem Says.unique (h : Says environment key text) {other : String}
    (hother : Says environment key other) : other = text :=
  Option.some.inj (hother.1.symm.trans h.1)

theorem Says.not_silent (h : Says environment key text) : ¬ Silent environment key := by
  rintro (hnone | hempty)
  · exact absurd (hnone.symm.trans h.1) nofun
  · exact h.2 (Option.some.inj (hempty.symm.trans h.1)).symm

theorem seconds_of_silent (h : Silent environment key) : seconds environment key = .ok none := by
  rw [seconds, filled?_eq_none_iff.mpr h]

theorem seconds_of_text (h : Says environment key text) : seconds environment key =
    (readLoose? text).elim (.error (.notNumber key text)) fun number =>
      if number.isNonpositive then .error (.notPositive key text) else .ok (some number) := by
  have hfilled := filled?_eq_some_iff.mpr h
  cases hread : readLoose? text <;> simp [seconds, hfilled, hread]

/-- **What a variable gives**, a timeout or a refusal, it gives for one of these reasons. -/
theorem seconds_cases (environment : Entries String) (key : String) :
    (∃ timeout, seconds environment key = .ok timeout ∧ Timeout environment key timeout) ∨
      ∃ error, seconds environment key = .error error ∧ Refusal environment key error := by
  cases hfilled : filled? environment key with
  | none =>
      have hsilent := filled?_eq_none_iff.mp hfilled
      exact .inl ⟨none, seconds_of_silent hsilent, .absent hsilent⟩
  | some text =>
      have hset := filled?_eq_some_iff.mp hfilled
      rw [seconds_of_text hset]
      cases hread : readLoose? text with
      | none =>
          refine .inr ⟨_, rfl, .notNumber hset fun n hn => ?_⟩
          rw [readLoose?_eq_some_iff.mpr ⟨n, hn, rfl⟩] at hread
          cases hread
      | some x =>
          obtain ⟨n, hn, rfl⟩ := readLoose?_eq_some_iff.mp hread
          rw [Option.elim_some]
          -- the undefined number is not refused by this comparison
          by_cases hnonpositive : n.nearest.isNonpositive = true
          · obtain ⟨hdefined, hpositive⟩ := n.isNonpositive_nearest_iff.mp hnonpositive
            rw [if_pos hnonpositive]
            exact .inr ⟨_, rfl, .notPositive hset hn hdefined hpositive⟩
          · rw [if_neg hnonpositive]
            refine .inl ⟨_, rfl, ?_⟩
            by_cases hdefined : n = .undefined
            · subst hdefined
              exact .undefined hset hn
            · refine .positive hset hn (not_not.mp fun hpositive => hnonpositive ?_)
              exact n.isNonpositive_nearest_iff.mpr ⟨hdefined, hpositive⟩

theorem Timeout.seconds_eq {timeout : Option Binary64} (h : Timeout environment key timeout) :
    seconds environment key = .ok timeout := by
  cases h with
  | absent hsilent => exact seconds_of_silent hsilent
  | @positive text n hset hn hpositive =>
      have hnonpositive : ¬ n.nearest.isNonpositive = true := fun h =>
        (n.isNonpositive_nearest_iff.mp h).2 hpositive
      rw [seconds_of_text hset, readLoose?_eq_some_iff.mpr ⟨n, hn, rfl⟩]
      exact if_neg hnonpositive
  | undefined hset hn =>
      rw [seconds_of_text hset, readLoose?_eq_some_iff.mpr ⟨_, hn, rfl⟩]
      rfl

theorem Refusal.seconds_eq {error : SettingsError} (h : Refusal environment key error) :
    seconds environment key = .error error := by
  cases h with
  | notNumber hset hnone =>
      rw [seconds_of_text hset]
      cases hread : readLoose? _ with
      | none => rfl
      | some x =>
          obtain ⟨n, hn, -⟩ := readLoose?_eq_some_iff.mp hread
          exact absurd hn (hnone n)
  | @notPositive text n hset hn hdefined hpositive =>
      rw [seconds_of_text hset, readLoose?_eq_some_iff.mpr ⟨n, hn, rfl⟩]
      exact if_pos (n.isNonpositive_nearest_iff.mpr ⟨hdefined, hpositive⟩)

theorem seconds_eq_ok_iff {timeout : Option Binary64} :
    seconds environment key = .ok timeout ↔ Timeout environment key timeout := by
  refine ⟨fun h => ?_, Timeout.seconds_eq⟩
  obtain ⟨other, hother, htimeout⟩ | ⟨error, herror, -⟩ := seconds_cases environment key
  · rw [Except.ok.inj (h.symm.trans hother)]
    exact htimeout
  · rw [h] at herror
    cases herror

theorem seconds_eq_error_iff {error : SettingsError} :
    seconds environment key = .error error ↔ Refusal environment key error := by
  refine ⟨fun h => ?_, Refusal.seconds_eq⟩
  obtain ⟨timeout, htimeout, -⟩ | ⟨other, hother, hrefusal⟩ := seconds_cases environment key
  · rw [h] at htimeout
    cases htimeout
  · rw [Except.error.inj (h.symm.trans hother)]
    exact hrefusal

/-- A refusal names the variable. -/
theorem Refusal.names {error : SettingsError} (h : Refusal environment key error) :
    ∃ reason, error.message = key ++ reason := by
  cases h with
  | @notNumber text =>
      refine ⟨" must be a number of seconds, got '" ++ text ++ "'", ?_⟩
      change key ++ " must be a number of seconds, got '" ++ text ++ "'" = _
      simp only [String.append_assoc]
  | @notPositive text =>
      refine ⟨" must be positive, got '" ++ text ++ "'", ?_⟩
      change key ++ " must be positive, got '" ++ text ++ "'" = _
      simp only [String.append_assoc]

/-- A timeout is greater than zero unless the variable spells the undefined number. -/
theorem Timeout.isPositive_iff {timeout : Option Binary64} (h : Timeout environment key timeout) :
    (∀ x ∈ timeout, x.isPositive = true) ↔
      ¬ ∃ text, Says environment key text ∧ Spells .undefined text.toList := by
  cases h with
  | absent hsilent => exact iff_of_true nofun fun ⟨_, hset, _⟩ => hset.not_silent hsilent
  | @positive text n hset hn hpositive =>
      refine iff_of_true (fun x hx => ?_) ?_
      · rw [← Option.some.inj hx]
        exact n.isPositive_nearest_iff.mpr hpositive
      · -- a text that spells two numbers is read as both, and no positive one is undefined
        rintro ⟨other, hother, hundefined⟩
        rw [hset.unique hother] at hundefined
        have hsame := (readLoose?_eq_some_iff.mpr ⟨n, hn, rfl⟩).symm.trans
          (readLoose?_eq_some_iff.mpr ⟨_, hundefined, rfl⟩)
        rw [n.nearest_eq_nan_iff.mp (Option.some.inj hsame)] at hpositive
        exact hpositive
  | undefined hset hn =>
      exact iff_of_false (fun h => absurd (h _ rfl) (by decide)) fun h => h ⟨_, hset, hn⟩

/-- There is a timeout for each variable that holds a text, and for no other. -/
theorem Timeout.eq_none_iff {timeout : Option Binary64} (h : Timeout environment key timeout) :
    timeout = none ↔ Silent environment key := by
  cases h with
  | absent hsilent => exact iff_of_true rfl hsilent
  | positive hset => exact iff_of_false nofun hset.not_silent
  | undefined hset => exact iff_of_false nofun hset.not_silent

/-! ## All variables -/

/-- The name of the registry that an environment chooses. -/
def chosenRegistry (environment : Entries String) : String :=
  Text.lower ((environment.get? "RSRUN_REGISTRY").getD Backend.search.name)

theorem ofName?_eq_some_iff {name : String} {registry : Backend} :
    Backend.ofName? name = some registry ↔ registry.name = name := by
  constructor
  · intro h
    rw [Backend.ofName?] at h
    have hbeq := List.find?_some h
    exact eq_of_beq hbeq
  · rintro rfl
    cases registry <;> decide

theorem backend_eq_ok_iff {name : String} {registry : Backend} :
    backend name = .ok registry ↔ registry.name = name := by
  rw [← ofName?_eq_some_iff, backend]
  cases Backend.ofName? name with
  | none => exact iff_of_false nofun nofun
  | some known => simp

theorem backend_eq_error_iff {name : String} {error : SettingsError} :
    backend name = .error error ↔
      (∀ registry : Backend, registry.name ≠ name) ∧ error = .unknownBackend name := by
  simp only [ne_eq, ← ofName?_eq_some_iff, backend]
  cases Backend.ofName? name with
  | none => simp [eq_comm]
  | some known => simp

/-- The settings of an environment are made of the two timeouts and the registry that it gives. -/
theorem exists_of_ofEnvironment_eq_ok {temporary : Path} {settings : Settings}
    (h : ofEnvironment temporary environment = .ok settings) :
    seconds environment "RSRUN_BUILD_TIMEOUT" = .ok settings.buildTimeout ∧
      seconds environment "RSRUN_RUN_TIMEOUT" = .ok settings.runTimeout ∧
      backend (chosenRegistry environment) = .ok settings.registry := by
  unfold ofEnvironment at h
  rw [chosenRegistry]
  cases hbuild : seconds environment "RSRUN_BUILD_TIMEOUT" with
  | error error =>
      rw [hbuild] at h
      cases h
  | ok buildTimeout =>
      cases hrun : seconds environment "RSRUN_RUN_TIMEOUT" with
      | error error =>
          rw [hbuild, hrun] at h
          cases h
      | ok runTimeout =>
          cases hregistry : backend (Text.lower
            ((environment.get? "RSRUN_REGISTRY").getD Backend.search.name)) with
          | error error =>
              rw [hbuild, hrun, hregistry] at h
              cases h
          | ok registry =>
              rw [hbuild, hrun, hregistry] at h
              cases h
              exact ⟨rfl, rfl, rfl⟩

/-- An environment is refused for the first of the three that it does not give. -/
theorem ofEnvironment_eq_error_iff {temporary : Path} {error : SettingsError} :
    ofEnvironment temporary environment = .error error ↔
      seconds environment "RSRUN_BUILD_TIMEOUT" = .error error ∨
      (∃ timeout, seconds environment "RSRUN_BUILD_TIMEOUT" = .ok timeout) ∧
        (seconds environment "RSRUN_RUN_TIMEOUT" = .error error ∨
        (∃ timeout, seconds environment "RSRUN_RUN_TIMEOUT" = .ok timeout) ∧
          backend (chosenRegistry environment) = .error error) := by
  unfold ofEnvironment chosenRegistry
  cases seconds environment "RSRUN_BUILD_TIMEOUT" with
  | error first => simp [bind, Except.bind]
  | ok buildTimeout =>
      cases seconds environment "RSRUN_RUN_TIMEOUT" with
      | error second => simp [bind, Except.bind]
      | ok runTimeout =>
          cases backend (Text.lower
            ((environment.get? "RSRUN_REGISTRY").getD Backend.search.name)) with
          | error third => simp [bind, Except.bind]
          | ok registry => simp [bind, Except.bind, pure, Except.pure]

/-- **Timeouts are numbers greater than zero**, but for the undefined number. Settings have a known
registry, and each timeout is absent exactly if its variable is unset or empty, and greater than zero
exactly if the variable does not spell the undefined number. An environment is refused because of a
variable that spells no number or one that is zero or less (the variable for builds before the one
for runs), or else because of its registry, and a refused variable is named. -/
theorem ofEnvironment_timeouts (temporary : Path) (environment : Entries String) :
    (∀ settings, ofEnvironment temporary environment = .ok settings →
      settings.registry.name = chosenRegistry environment ∧
      Timeout environment "RSRUN_BUILD_TIMEOUT" settings.buildTimeout ∧
      Timeout environment "RSRUN_RUN_TIMEOUT" settings.runTimeout) ∧
    (∀ error, ofEnvironment temporary environment = .error error ↔
      Refusal environment "RSRUN_BUILD_TIMEOUT" error ∨
      (∃ timeout, Timeout environment "RSRUN_BUILD_TIMEOUT" timeout) ∧
        (Refusal environment "RSRUN_RUN_TIMEOUT" error ∨
        (∃ timeout, Timeout environment "RSRUN_RUN_TIMEOUT" timeout) ∧
          (∀ registry : Backend, registry.name ≠ chosenRegistry environment) ∧
          error = .unknownBackend (chosenRegistry environment))) ∧
    (∀ key error, Refusal environment key error → ∃ reason, error.message = key ++ reason) ∧
    ∀ key timeout, Timeout environment key timeout →
      (timeout = none ↔ Silent environment key) ∧
      ((∀ x ∈ timeout, x.isPositive = true) ↔
        ¬ ∃ text, Says environment key text ∧ Spells .undefined text.toList) := by
  refine ⟨fun settings h => ?_, fun error => ?_, fun key error h => h.names, fun key timeout h =>
    ⟨h.eq_none_iff, h.isPositive_iff⟩⟩
  · obtain ⟨hbuild, hrun, hregistry⟩ := exists_of_ofEnvironment_eq_ok h
    exact ⟨backend_eq_ok_iff.mp hregistry, seconds_eq_ok_iff.mp hbuild, seconds_eq_ok_iff.mp hrun⟩
  · rw [ofEnvironment_eq_error_iff, backend_eq_error_iff]
    simp only [seconds_eq_ok_iff, seconds_eq_error_iff]

/-- The undefined number gets through: it is a number, and it is not compared with zero as one that is
zero or less, but it is not greater than zero either. -/
theorem ofEnvironment_undefined_timeout :
    ∃ settings, ofEnvironment (Path.ofString "/tmp") [("RSRUN_BUILD_TIMEOUT", "nan")] = .ok settings ∧
      settings.buildTimeout = some .nan ∧ Binary64.nan.isPositive = false :=
  ⟨{ standard ((Path.ofString "/tmp").child "rsrun") with buildTimeout := some .nan },
    by decide +kernel, rfl, rfl⟩

end RustScript.Settings
