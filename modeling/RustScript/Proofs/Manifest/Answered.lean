import RustScript.Failure
import RustScript.Proofs.Manifest.Merge

/-!
# Merges with a registry that answers

A resolver answers if every look-up gives a release under some text or an error about the name that
was asked for. With such a resolver and a sound fragment a merge fails for nothing but such an error
and a number that is too long (`merge_eq_error`), and a manifest that it gives has texts for names
(`write_of_merge`).
-/

set_option autoImplicit false

namespace RustScript

/-- Every look-up gives a release under some text, or an error about the name. -/
def Registry.Resolver.Answers {σ : Type} (resolver : Registry.Resolver σ) : Prop :=
  ∀ name world,
    (∃ text version, (resolver.resolve name world).1 = .ok ⟨.string text, version⟩) ∨
      ∃ error, (resolver.resolve name world).1 = .error error ∧ error.isAnswer = true

namespace Manifest

open RustScript.Toml RustScript.Registry RustScript.Source

variable {σ : Type}

/-- The answer is a release under some text, or an error about the name that was asked for. -/
def Usable : Answer → Prop
  | .ok pair => ∃ name version, pair = (.ofRaw name, .ofRaw version)
  | .error error => error.isAnswer = true

theorem readAnswer_of_answers {resolver : Resolver σ} (h : resolver.Answers) (name : String)
    (world : World σ) :
    ∃ answer, readAnswer (resolver.resolve name world).1 = .ok answer ∧ Usable answer := by
  rcases h name world with ⟨text, version, hanswer⟩ | ⟨error, hanswer, hkind⟩
  · refine ⟨.ok (.ofRaw text, .ofRaw version), ?_, text, version, rfl⟩
    rw [hanswer]
    rfl
  · refine ⟨.error error, ?_, hkind⟩
    rw [hanswer]
    show (if error.isAnswer then _ else _) = _
    rw [if_pos hkind]

theorem lookUpAll_of_answers {resolver : Resolver σ} (h : resolver.Answers) (names : List String)
    (world : World σ) :
    ∃ answers, (lookUpAll resolver names world).1 = .ok answers ∧
      ∀ answer ∈ answers, Usable answer := by
  induction names generalizing world with
  | nil => exact ⟨[], rfl, fun _ hmem => absurd hmem List.not_mem_nil⟩
  | cons name rest ih =>
      obtain ⟨answer, hanswer, husable⟩ := readAnswer_of_answers h name world
      obtain ⟨answers, hanswers, hall⟩ := ih (resolver.resolve name world).2
      refine ⟨answer :: answers, ?_, List.forall_mem_cons.mpr ⟨husable, hall⟩⟩
      rw [lookUpAll_cons, hanswer, hanswers]
      rfl

/-- Of several answers the first error counts. -/
theorem mapM_id_eq_error_iff {ε β : Type} {answers : List (Except ε β)} {error : ε} :
    answers.mapM id = .error error ↔ ∃ before later,
      answers = before ++ .error error :: later ∧ ∀ answer ∈ before, ∃ value, answer = .ok value := by
  constructor
  · intro h
    induction answers with
    | nil => cases h
    | cons answer rest ih =>
        rw [List.mapM_cons] at h
        cases answer with
        | error other =>
            have hsame : other = error := Except.error.inj h
            exact ⟨[], rest, by rw [hsame]; rfl, fun _ hmem => absurd hmem List.not_mem_nil⟩
        | ok first =>
            cases hrest : rest.mapM id with
            | error other =>
                rw [hrest] at h
                have hsame : other = error := Except.error.inj h
                obtain ⟨before, later, hsplit, hbefore⟩ := ih (hrest.trans (by rw [hsame]))
                exact ⟨.ok first :: before, later, by rw [hsplit]; rfl,
                  List.forall_mem_cons.mpr ⟨⟨first, rfl⟩, hbefore⟩⟩
            | ok others =>
                rw [hrest] at h
                cases h
  · rintro ⟨before, later, rfl, hbefore⟩
    induction before with
    | nil => rfl
    | cons answer rest ih =>
        obtain ⟨⟨value, rfl⟩, hrest⟩ := List.forall_mem_cons.mp hbefore
        rw [List.cons_append, List.mapM_cons, ih hrest]
        rfl

theorem collect_eq_error_iff {answers : List Answer} {error : MergeError} :
    collect answers = .error error ↔ ∃ cause, error = .lookup cause ∧
      ∃ before later, answers = before ++ .error cause :: later ∧
        ∀ answer ∈ before, ∃ value, answer = .ok value := by
  simp only [← mapM_id_eq_error_iff]
  unfold collect
  cases answers.mapM id with
  | ok found => simp [Except.mapError]
  | error cause => simp [Except.mapError, eq_comm]

/-! ## Names -/

/-- Only what has no text for a name stands apart. -/
theorem mem_foldl_addPair_snd {found : Table × List (Value × Value)} {pairs : List (Value × Value)}
    {entry : Value × Value} (h : entry ∈ (pairs.foldl addPair found).2) :
    entry ∈ found.2 ∨ entry ∈ pairs ∧ textPair? entry = none := by
  induction pairs generalizing found with
  | nil => exact .inl h
  | cons pair rest ih =>
      rcases ih h with hmem | ⟨hmem, hname⟩
      · obtain ⟨name, value⟩ := pair
        cases name with
        | string text => exact .inl hmem
        | _ =>
            rcases List.mem_append.mp hmem with hold | hnew
            · exact .inl (List.mem_filter.mp hold).1
            · rw [List.mem_singleton.mp hnew]
              exact .inr ⟨List.mem_cons_self, rfl⟩
      · exact .inr ⟨List.mem_cons_of_mem _ hmem, hname⟩

/-- A text from outside that is no text for a name has surrogates in it. -/
theorem not_isWhole_of_textPair? {name : RawText} {value : Value}
    (h : textPair? (.ofRaw name, value) = none) : isWhole (.ofRaw name) = false := by
  cases htext : name.toString? with
  | none => rw [Value.ofRaw_of_none htext]; rfl
  | some text =>
      rw [Value.ofRaw_of_toString? htext] at h
      cases h

theorem write_ne_badName {manifest : Manifest}
    (h : ∀ entry ∈ manifest.unnamed, isWhole entry.1 = false) (reason : String) :
    manifest.write ≠ .error (.badName reason) := by
  have hnone : (manifest.unnamed.find? fun entry => isWhole entry.1) = none :=
    List.find?_eq_none.mpr fun entry hentry => by rw [h entry hentry]; exact Bool.false_ne_true
  unfold write
  rw [hnone]
  dsimp only
  split
  · nofun
  · split <;> nofun

section

variable {resolver : Resolver σ} (hresolver : resolver.Answers) {version edition stem : String}
  {metadata : Metadata} {binary : Path} {world : World σ}

include hresolver

/-- **A merge fails for nothing but an answer** if the fragment is sound and its package can be
shown. -/
theorem merge_eq_error {declared : Table} {error : MergeError}
    (hdeclared : declaredBy metadata.embedded = .ok declared)
    (h : (merge resolver version edition metadata stem binary world).1.2 = .error error) :
    (error = .longNumber ∧ showsPackage metadata.embedded = false) ∨
      ∃ cause, error = .lookup cause ∧ cause.isAnswer = true := by
  obtain ⟨kept, hdeclare, -⟩ :=
    declare_of_declaredBy (basic stem binary.toString version edition) hdeclared rfl
  obtain ⟨answers, hanswers, husable⟩ :=
    lookUpAll_of_answers hresolver (missing metadata.inferred kept.dependencies) world
  rw [merge_eq, hdeclare] at h
  dsimp only at h
  by_cases hshows : showsPackage metadata.embedded = true
  · rw [if_pos hshows, hanswers] at h
    cases hcollect : collect answers with
    | ok found =>
        simp only [bind, Except.bind, hcollect, Except.map] at h
        cases h
    | error other =>
        simp only [bind, Except.bind, hcollect, Except.map] at h
        obtain ⟨cause, hcause, before, later, hsplit, -⟩ := collect_eq_error_iff.mp hcollect
        have hmem : .error cause ∈ answers := by
          rw [hsplit]
          exact List.mem_append_right before List.mem_cons_self
        exact .inr ⟨cause, (Except.error.inj h).symm.trans hcause, husable _ hmem⟩
  · rw [if_neg hshows] at h
    exact .inl ⟨(Except.error.inj h).symm, Bool.not_eq_true _ ▸ hshows⟩

/-- **Texts name all dependencies that a merge gives.** -/
theorem write_of_merge {metadata' : Metadata} {manifest : Manifest} {after : World σ}
    (h : merge resolver version edition metadata stem binary world =
      ((metadata', .ok manifest), after)) (reason : String) :
    manifest.write ≠ .error (.badName reason) := by
  obtain ⟨kept, warnings, answers, found, hdeclare, -, -, hlooked, hcollect, rfl⟩ := merge_eq_ok h
  obtain ⟨others, hothers, husable⟩ :=
    lookUpAll_of_answers hresolver (missing metadata.inferred kept.dependencies) world
  rw [hlooked] at hothers
  rw [← Except.ok.inj hothers, collect_eq_ok_iff.mp hcollect] at husable
  obtain ⟨-, -, -, -, hunnamed⟩ := declare_eq_ok hdeclare rfl
  apply write_ne_badName
  intro entry hentry
  rcases mem_foldl_addPair_snd hentry with hold | ⟨hpair, hname⟩
  · rw [hunnamed] at hold
    exact absurd hold List.not_mem_nil
  · obtain ⟨name, value, rfl⟩ := husable (.ok entry) (List.mem_map_of_mem hpair)
    exact not_isWhole_of_textPair? hname

end

end Manifest

end RustScript
