import Mathlib
import RustScript.Proofs.Entries
import RustScript.Proofs.Manifest.Lookup

/-!
# What a merge gives

The manifest of a script holds the dependencies that its fragment declares, each under its first
spelling, and behind them those that were looked up. `MergeLaw` says what that amounts to: every
crate has one entry, a declared one stands as it was declared, a needed one can be found, nothing
else is there, and the registry was asked once for every needed crate that is not declared.
-/

set_option autoImplicit false

namespace RustScript

namespace Manifest

open RustScript.Toml RustScript.Registry RustScript.Source

variable {σ : Type}

/-! ## Answers as dependencies -/

/-- A dependency with a text for a name. -/
def textPair? : Value × Value → Option (String × Value)
  | (.string name, value) => some (name, value)
  | _ => none

/-- The dependency that a look-up gives. -/
def callPair? (call : String × Except LookupError Release) : Option (String × Value) :=
  match readAnswer call.2 with
  | .ok (.ok pair) => textPair? pair
  | _ => none

/-- The dependencies that look-ups give, in order. -/
def lookedUp (calls : Transcript) : Table := calls.filterMap callPair?

theorem addPair_fst (found : Table × List (Value × Value)) (pair : Value × Value) :
    (addPair found pair).1 = found.1.putAll (textPair? pair).toList := by
  rcases pair with ⟨name, value⟩
  cases name <;> rfl

theorem foldl_addPair_fst (found : Table × List (Value × Value)) (pairs : List (Value × Value)) :
    (pairs.foldl addPair found).1 = found.1.putAll (pairs.filterMap textPair?) := by
  induction pairs generalizing found with
  | nil => rfl
  | cons pair rest ih =>
      rw [List.foldl_cons, ih, addPair_fst, List.filterMap_cons]
      cases textPair? pair <;> rfl

/-- The answers are collected when all of them are good. -/
theorem mapM_id_eq_ok_iff {ε β : Type} {answers : List (Except ε β)} {found : List β} :
    answers.mapM id = .ok found ↔ answers = found.map .ok := by
  induction answers generalizing found with
  | nil => cases found <;> simp [pure, Except.pure]
  | cons answer rest ih =>
      rw [List.mapM_cons]
      cases answer with
      | error error => cases found <;> simp [bind, Except.bind]
      | ok first =>
          cases hrest : rest.mapM id with
          | error error =>
              have hne : ∀ others : List β, rest ≠ others.map .ok := fun others h => by
                rw [ih.mpr h] at hrest
                cases hrest
              cases found <;> simp [bind, Except.bind, hne]
          | ok others =>
              rw [ih.mp hrest]
              cases found with
              | nil => simp [bind, Except.bind, pure, Except.pure]
              | cons head tail =>
                  have hinj : others.map (Except.ok : β → Except ε β) = tail.map .ok ↔
                      others = tail :=
                    (List.map_injective_iff.mpr fun _ _ h => Except.ok.inj h).eq_iff
                  simp [bind, Except.bind, pure, Except.pure, hinj]

theorem collect_eq_ok_iff {answers : List Answer} {found : List (Value × Value)} :
    collect answers = .ok found ↔ answers = found.map .ok := by
  rw [← mapM_id_eq_ok_iff]
  unfold collect
  cases answers.mapM id <;> simp [Except.mapError]

/-- The dependencies that were found, and those that the look-ups give. -/
theorem lookedUp_eq {calls : Transcript} {found : List (Value × Value)}
    (h : calls.map (fun call => readAnswer call.2) = (found.map .ok).map .ok) :
    lookedUp calls = found.filterMap textPair? := by
  induction calls generalizing found with
  | nil =>
      cases found with
      | nil => rfl
      | cons pair rest => cases h
  | cons call rest ih =>
      cases found with
      | nil => cases h
      | cons pair others =>
          rw [List.map_cons, List.map_cons, List.map_cons, List.cons.injEq] at h
          have hentry : callPair? call = textPair? pair := by
            unfold callPair?
            rw [h.1]
          unfold lookedUp at ih ⊢
          rw [List.filterMap_cons, List.filterMap_cons, hentry, ih h.2]

theorem release_of_readAnswer {answer : Except LookupError Release} {pair : Value × Value}
    (h : readAnswer answer = .ok (.ok pair)) : ∃ release, answer = .ok release := by
  cases answer with
  | ok release => exact ⟨release, rfl⟩
  | error error =>
      unfold readAnswer at h
      dsimp only at h
      split at h <;> cases h

section

variable {calls : Transcript} {found : List (Value × Value)}
  (h : calls.map (fun call => readAnswer call.2) = (found.map .ok).map .ok)

include h

theorem answered_of_reads {call : String × Except LookupError Release} (hcall : call ∈ calls) :
    ∃ release, call.2 = .ok release := by
  have hmem : readAnswer call.2 ∈ (found.map .ok).map .ok := by
    rw [← h]
    exact List.mem_map_of_mem hcall
  obtain ⟨answer, hanswer, hread⟩ := List.mem_map.mp hmem
  obtain ⟨pair, -, rfl⟩ := List.mem_map.mp hanswer
  exact release_of_readAnswer hread.symm

theorem textPair_of_reads (htexts : ∀ call ∈ calls, (callPair? call).isSome)
    {pair : Value × Value} (hpair : pair ∈ found) : (textPair? pair).isSome := by
  have hmem : Except.ok (Except.ok pair) ∈ calls.map fun call => readAnswer call.2 := by
    rw [h]
    exact List.mem_map_of_mem (List.mem_map_of_mem hpair)
  obtain ⟨call, hcall, hread⟩ := List.mem_map.mp hmem
  have htext := htexts call hcall
  unfold callPair? at htext
  rw [hread] at htext
  exact htext

end

/-! ## The steps of a merge -/

/-- The dependencies that a fragment declares, if there is one. -/
def declaredBy (embedded : Option String) : Except Malformed Table :=
  match embedded with
  | none => .ok []
  | some text => do declaredDependencies (← fragment text)

theorem declare_eq_ok {manifest declared : Manifest} {embedded : Option String}
    {warnings : List String} (h : declare manifest embedded = .ok (declared, warnings))
    (hnone : manifest.dependencies = []) :
    ∃ table, declaredBy embedded = .ok table ∧ declared.dependencies = (keepFirst table).1 ∧
      warnings = (keepFirst table).2 ∧ declared.unnamed = manifest.unnamed := by
  cases embedded with
  | none =>
      injection h with h
      injection h with hmanifest hwarnings
      rw [← hmanifest, ← hwarnings]
      exact ⟨[], rfl, hnone, rfl, rfl⟩
  | some text =>
      unfold declare at h
      cases hfragment : fragment text with
      | error cause => simp [hfragment, bind, Except.bind] at h
      | ok document =>
          cases htable : declaredDependencies document with
          | error cause => simp [hfragment, htable, bind, Except.bind] at h
          | ok table =>
              simp only [hfragment, htable, bind, Except.bind, pure, Except.pure,
                Except.ok.injEq, Prod.mk.injEq] at h
              obtain ⟨rfl, rfl⟩ := h
              refine ⟨table, ?_, rfl, rfl, rfl⟩
              simp [declaredBy, hfragment, htable, bind, Except.bind]

/-- Nothing but the fragment can keep a script from being declared. -/
theorem declare_of_declaredBy (manifest : Manifest) {embedded : Option String} {table : Table}
    (h : declaredBy embedded = .ok table) (hnone : manifest.dependencies = []) :
    ∃ declared, declare manifest embedded = .ok (declared, (keepFirst table).2) ∧
      declared.dependencies = (keepFirst table).1 := by
  cases embedded with
  | none =>
      rw [← Except.ok.inj h]
      exact ⟨manifest, rfl, hnone⟩
  | some text =>
      unfold declare
      cases hfragment : fragment text with
      | error cause => simp [declaredBy, hfragment, bind, Except.bind] at h
      | ok document =>
          have htable : declaredDependencies document = .ok table := by
            simpa [declaredBy, hfragment, bind, Except.bind] using h
          refine ⟨{ manifest with
            package := Package.withDeclared manifest.package (document.get? "package")
            dependencies := (keepFirst table).1
            extra := extraParts document }, ?_, rfl⟩
          simp only [hfragment, htable, bind, Except.bind, pure, Except.pure]

theorem merge_eq (resolver : Resolver σ) (version edition : String) (metadata : Metadata)
    (stem : String) (binary : Path) (world : World σ) :
    merge resolver version edition metadata stem binary world =
      match declare (basic stem binary.toString version edition) metadata.embedded with
      | .error cause => ((metadata, Except.error (.malformed cause)), world)
      | .ok (manifest, warnings) =>
          if showsPackage metadata.embedded then
            (({ metadata with warnings := metadata.warnings ++ warnings },
              ((lookUpAll resolver (missing metadata.inferred manifest.dependencies) world).1 >>=
                collect).map (addDependencies manifest)),
              (lookUpAll resolver (missing metadata.inferred manifest.dependencies) world).2)
          else (({ metadata with warnings := metadata.warnings ++ warnings },
            .error .longNumber), world) := by
  unfold merge
  cases declare (basic stem binary.toString version edition) metadata.embedded with
  | error cause => rfl
  | ok declared =>
      obtain ⟨manifest, warnings⟩ := declared
      dsimp only
      cases showsPackage metadata.embedded <;> rfl

/-- What a merge that gives a manifest has done: `calls` are its look-ups. -/
structure MergeRun (resolver : Resolver σ) (start : World σ) (declared : Table)
    (inferred : List String) (calls : Transcript) (manifest : Manifest) : Prop where
  /-- The answers are those of the resolver. -/
  genuine : ∀ call ∈ calls, Genuine resolver start call
  /-- The missing crates were looked up, in order. -/
  asked : calls.map (·.1) = missing inferred (keepFirst declared).1
  /-- Every look-up gave a release. -/
  answered : ∀ call ∈ calls, ∃ release, call.2 = .ok release
  /-- The dependencies are those that were kept, with those that were looked up put to them. -/
  dependencies : manifest.dependencies = Entries.putAll (keepFirst declared).1 (lookedUp calls)
  /-- Texts name all dependencies if they name all that were looked up. -/
  unnamed : (∀ call ∈ calls, (callPair? call).isSome) → manifest.unnamed = []

theorem foldl_addPair_snd {pairs : List (Value × Value)}
    (h : ∀ pair ∈ pairs, (textPair? pair).isSome) (found : Table × List (Value × Value)) :
    (pairs.foldl addPair found).2 = found.2 := by
  induction pairs generalizing found with
  | nil => rfl
  | cons pair rest ih =>
      rw [List.foldl_cons, ih fun other hother => h other (List.mem_cons_of_mem _ hother)]
      have hpair := h pair List.mem_cons_self
      rcases pair with ⟨name, value⟩
      cases name with
      | string text => rfl
      | _ => simp [textPair?] at hpair

/-- What a merge went through that gave a manifest. -/
theorem merge_eq_ok {resolver : Resolver σ} {version edition stem : String}
    {metadata metadata' : Metadata} {binary : Path} {world after : World σ} {manifest : Manifest}
    (h : merge resolver version edition metadata stem binary world =
      ((metadata', .ok manifest), after)) :
    ∃ kept warnings answers found,
      declare (basic stem binary.toString version edition) metadata.embedded =
        .ok (kept, warnings) ∧
      showsPackage metadata.embedded = true ∧
      metadata' = { metadata with warnings := metadata.warnings ++ warnings } ∧
      lookUpAll resolver (missing metadata.inferred kept.dependencies) world =
        (.ok answers, after) ∧
      collect answers = .ok found ∧ manifest = addDependencies kept found := by
  rw [merge_eq] at h
  cases hdeclare : declare (basic stem binary.toString version edition) metadata.embedded with
  | error cause =>
      rw [hdeclare] at h
      injection h with h
      injection h with _ h
      cases h
  | ok declared =>
      obtain ⟨kept, warnings⟩ := declared
      rw [hdeclare] at h
      dsimp only at h
      have hshows : showsPackage metadata.embedded = true := by
        by_contra hshows
        rw [if_neg hshows] at h
        cases h
      rw [if_pos hshows] at h
      injection h with h hafter
      injection h with hmetadata hmanifest
      cases hanswers :
          (lookUpAll resolver (missing metadata.inferred kept.dependencies) world).1 with
      | error error =>
          rw [hanswers] at hmanifest
          cases hmanifest
      | ok answers =>
          rw [hanswers] at hmanifest
          cases hcollect : collect answers with
          | error error => simp [bind, Except.bind, hcollect, Except.map] at hmanifest
          | ok found =>
              simp only [bind, Except.bind, hcollect, Except.map, Except.ok.injEq] at hmanifest
              exact ⟨kept, warnings, answers, found, rfl, hshows, hmetadata.symm,
                Prod.ext hanswers hafter, hcollect, hmanifest.symm⟩

/-- **A merge that gives a manifest**, and the same merge with its look-ups on record. -/
theorem mergeRun_of_merge {resolver : Resolver σ} {version edition stem : String}
    {metadata metadata' : Metadata} {binary : Path} {world after : World σ} {manifest : Manifest}
    (h : merge resolver version edition metadata stem binary world =
      ((metadata', .ok manifest), after)) :
    ∃ declared calls, declaredBy metadata.embedded = .ok declared ∧
      metadata' = { metadata with warnings := metadata.warnings ++ repeatWarnings declared } ∧
      merge (recording resolver) version edition metadata stem binary (world.keeping []) =
        ((metadata', .ok manifest), after.keeping calls) ∧
      MergeRun resolver world declared metadata.inferred calls manifest := by
  obtain ⟨kept, warnings, answers, found, hdeclare, hshows, hmetadata, hlooked, hcollect,
    hmanifest⟩ := merge_eq_ok h
  obtain ⟨table, htable, hdependencies, hwarnings, hunnamed⟩ := declare_eq_ok hdeclare rfl
  obtain ⟨calls, hrecorded, hnoted⟩ := lookUpAll_recording resolver
    (missing metadata.inferred kept.dependencies) world []
  rw [hlooked] at hrecorded hnoted
  obtain ⟨hcalls, hreads⟩ := hnoted.complete answers rfl
  rw [collect_eq_ok_iff.mp hcollect] at hreads
  refine ⟨table, calls, htable, ?_, ?_, {
    genuine := hnoted.genuine
    asked := by rw [hcalls, hdependencies]
    answered := fun _ hcall => answered_of_reads hreads hcall
    dependencies := ?_
    unnamed := fun htexts => ?_ }⟩
  · rw [hmetadata, hwarnings, keepFirst_warnings]
  · rw [merge_eq, hdeclare]
    dsimp only
    rw [if_pos hshows, hrecorded, List.nil_append, hmetadata, hmanifest]
    simp only [bind, Except.bind, hcollect, Except.map]
  · rw [hmanifest, lookedUp_eq hreads, ← hdependencies]
    exact foldl_addPair_fst (kept.dependencies, kept.unnamed) found
  · rw [hmanifest]
    show (found.foldl addPair (kept.dependencies, kept.unnamed)).2 = []
    rw [foldl_addPair_snd fun _ => textPair_of_reads hreads htexts, hunnamed]
    rfl

/-- **A merge gives a manifest** if its fragment can be read, its package can be shown, and the
resolver gives a release under some text for each missing crate. -/
theorem merge_complete {resolver : Resolver σ} (version edition : String) {metadata : Metadata}
    (stem : String) (binary : Path) {declared : Table}
    (hdeclared : declaredBy metadata.embedded = .ok declared)
    (hshows : showsPackage metadata.embedded = true)
    (hanswers : ∀ name ∈ missing metadata.inferred (keepFirst declared).1, ∀ world,
      ∃ text number, (resolver.resolve name world).1 = .ok ⟨.string text, number⟩)
    (world : World σ) :
    ∃ manifest after, merge resolver version edition metadata stem binary world =
      (({ metadata with warnings := metadata.warnings ++ (keepFirst declared).2 },
        .ok manifest), after) := by
  obtain ⟨kept, hdeclare, hkept⟩ := declare_of_declaredBy
    (basic stem binary.toString version edition) hdeclared rfl
  obtain ⟨found, hfound⟩ := lookUpAll_complete hanswers world
  rw [merge_eq, hdeclare]
  dsimp only
  rw [if_pos hshows, hkept, hfound]
  refine ⟨addDependencies kept found,
    (lookUpAll resolver (missing metadata.inferred (keepFirst declared).1) world).2, ?_⟩
  simp [bind, Except.bind, Except.map, collect_eq_ok_iff.mpr rfl]

/-! ## The law of merging -/

theorem callPair?_of_isOf {name : String} {release : Release} (h : release.IsOf name) :
    ∃ text, callPair? (name, .ok release) = some (text, .ofRaw release.version) ∧
      Crate.equivalent text name = true := by
  obtain ⟨text, hname, hsame⟩ := h
  refine ⟨text, ?_, hsame⟩
  unfold callPair? readAnswer dependencyName
  dsimp only
  rw [hname]
  dsimp only
  rw [Value.ofRaw_ofString]
  rfl

/-- **What merging does**, given what is declared, what is needed, and the look-ups made. -/
structure MergeLaw (declared : Table) (inferred : List String) (calls : Transcript)
    (manifest : Manifest) : Prop where
  /-- No two dependencies are spellings of one crate. -/
  inequivalent : Inequivalent manifest.dependencies
  /-- Texts name all dependencies. -/
  named : manifest.unnamed = []
  /-- The first spelling of a declared crate stands as declared, and alone. -/
  kept : ∀ entry, spelled? declared entry.1 = some entry →
    manifest.dependencies.filter (fun other => Crate.equivalent other.1 entry.1) = [entry]
  /-- A needed crate that is declared is found as declared. -/
  foundDeclared : ∀ name ∈ inferred, ∀ entry, spelled? declared name = some entry →
    manifest.dependency? name = some entry.2
  /-- Any other needed crate is found with the version that a look-up gave. -/
  foundLookedUp : ∀ name ∈ inferred, spelled? declared name = none →
    ∃ asked release, (asked, .ok release) ∈ calls ∧ Crate.equivalent asked name = true ∧
      manifest.dependency? name = some (.ofRaw release.version)
  /-- Every dependency is a spelling of a declared or of a needed crate. -/
  origin : ∀ entry ∈ manifest.dependencies,
    (∃ other ∈ declared, Crate.equivalent entry.1 other.1 = true) ∨
      ∃ name ∈ inferred, Crate.equivalent entry.1 name = true
  /-- Every needed crate was looked up once if it is not declared, and never if it is. -/
  askedOnce : ∀ name ∈ inferred, calls.countP (fun call => Crate.equivalent call.1 name) =
    if (spelled? declared name).isSome then 0 else 1
  /-- Nothing else was looked up. -/
  askedNeeded : ∀ call ∈ calls, call.1 ∈ inferred

section

variable {resolver : Resolver σ} {start : World σ} {declared : Table} {inferred : List String}
  {calls : Transcript} {manifest : Manifest}
  (hrun : MergeRun resolver start declared inferred calls manifest) (hhonest : calls.Honest)

include hrun

theorem mem_missing_of_call {call : String × Except LookupError Release} (h : call ∈ calls) :
    call.1 ∈ inferred ∧ spelled? declared call.1 = none := by
  have hpicked := picked_missing inferred (keepFirst declared).1
  have hmem : call.1 ∈ missing inferred (keepFirst declared).1 := by
    rw [← hrun.asked]
    exact List.mem_map_of_mem h
  obtain ⟨hinferred, hdeclared⟩ := hpicked.candidate call.1 hmem
  exact ⟨hinferred, by rwa [spelled?_keepFirst] at hdeclared⟩

include hhonest

/-- A dependency that was looked up is one of the crate that was asked for. -/
theorem release_of_callPair? {call : String × Except LookupError Release} (hcall : call ∈ calls) :
    ∃ release text, call.2 = .ok release ∧
      callPair? call = some (text, .ofRaw release.version) ∧
        Crate.equivalent text call.1 = true := by
  obtain ⟨name, answer⟩ := call
  obtain ⟨release, hanswer⟩ := hrun.answered _ hcall
  dsimp only at hanswer
  subst hanswer
  obtain ⟨text, htext, hsame⟩ := callPair?_of_isOf (hhonest name release hcall)
  exact ⟨release, text, rfl, htext, hsame⟩

theorem equivalent_of_callPair? {call : String × Except LookupError Release} (hcall : call ∈ calls)
    {entry : String × Value} (hentry : callPair? call = some entry) :
    Crate.equivalent entry.1 call.1 = true := by
  obtain ⟨_, text, -, htext, hsame⟩ := release_of_callPair? hrun hhonest hcall
  rw [← Option.some.inj (htext.symm.trans hentry)]
  exact hsame

/-- **One entry for a crate** among what was kept and what was looked up. -/
theorem inequivalent_kept_lookedUp : Inequivalent ((keepFirst declared).1 ++ lookedUp calls) := by
  rw [inequivalent_append]
  refine ⟨inequivalent_keepFirst declared, ?_, ?_⟩
  · have hcalls : calls.Pairwise fun a b => Crate.equivalent a.1 b.1 = false := by
      have hnames := (picked_missing inferred (keepFirst declared).1).inequivalent
      rw [← hrun.asked, List.pairwise_map] at hnames
      exact hnames
    unfold Inequivalent lookedUp
    rw [List.pairwise_filterMap]
    refine hcalls.imp_of_mem ?_
    intro a b ha hb hdiffer first hfirst second hsecond
    rw [Crate.equivalent_congr_left (equivalent_of_callPair? hrun hhonest ha hfirst),
      Crate.equivalent_congr_right (equivalent_of_callPair? hrun hhonest hb hsecond)]
    exact hdiffer
  · intro kept hkept entry hentry
    obtain ⟨call, hcall, hfound⟩ := List.mem_filterMap.mp hentry
    have hnone := (mem_missing_of_call hrun hcall).2
    rw [← spelled?_keepFirst] at hnone
    rw [Crate.equivalent_congr_right (equivalent_of_callPair? hrun hhonest hcall hfound)]
    exact spelled?_eq_none_iff.mp hnone kept hkept

/-- The dependencies of a merge whose look-ups were honest: those kept, then those looked up. -/
theorem dependencies_eq : manifest.dependencies = (keepFirst declared).1 ++ lookedUp calls := by
  rw [hrun.dependencies]
  apply Entries.putAll_of_new
  refine (inequivalent_kept_lookedUp hrun hhonest).imp ?_
  intro a b hdiffer hsame
  rw [hsame, Crate.equivalent_self] at hdiffer
  cases hdiffer

theorem mergeLaw_of_run : MergeLaw declared inferred calls manifest := by
  have hall := inequivalent_kept_lookedUp hrun hhonest
  have hdependencies := dependencies_eq hrun hhonest
  have hspelled : ∀ name, spelled? manifest.dependencies name =
      (spelled? declared name).or (spelled? (lookedUp calls) name) := by
    intro name
    calc spelled? manifest.dependencies name
        = (spelled? (keepFirst declared).1 name).or (spelled? (lookedUp calls) name) := by
          rw [hdependencies, spelled?_append]
      _ = (spelled? declared name).or (spelled? (lookedUp calls) name) := by
          rw [spelled?_keepFirst]
  have hpicked := picked_missing inferred (keepFirst declared).1
  constructor
  case inequivalent =>
    rw [hdependencies]
    exact hall
  case named =>
    apply hrun.unnamed
    intro call hcall
    obtain ⟨_, _, -, hentry, -⟩ := release_of_callPair? hrun hhonest hcall
    rw [hentry]
    rfl
  case kept =>
    intro entry hentry
    rw [hdependencies, filter_spellings hall, ← hdependencies, hspelled, hentry]
    rfl
  case foundDeclared =>
    intro name _ entry hentry
    rw [dependency?_eq, hspelled, hentry]
    rfl
  case foundLookedUp =>
    intro name hname hnone
    obtain ⟨asked, hasked, hsame⟩ := hpicked.covers name hname (by rwa [spelled?_keepFirst])
    rw [← hrun.asked] at hasked
    obtain ⟨call, hcall, rfl⟩ := List.mem_map.mp hasked
    obtain ⟨release, text, hanswer, hentry, htext⟩ := release_of_callPair? hrun hhonest hcall
    have hmem : (text, Value.ofRaw release.version) ∈ manifest.dependencies := by
      rw [hdependencies]
      exact List.mem_append_right _ (List.mem_filterMap.mpr ⟨call, hcall, hentry⟩)
    have hname : Crate.equivalent text name = true := by
      rw [Crate.equivalent_congr_left htext]
      exact hsame
    refine ⟨call.1, release, ?_, hsame, ?_⟩
    · rw [← hanswer]
      exact hcall
    · rw [dependency?_eq, spelled?_of_mem (hdependencies ▸ hall) hmem hname]
      rfl
  case origin =>
    intro entry hentry
    rw [hdependencies] at hentry
    rcases List.mem_append.mp hentry with hkept | hlooked
    · refine Or.inl ⟨entry, ?_, Crate.equivalent_self _⟩
      have hfirst := spelled?_of_mem (inequivalent_keepFirst declared) hkept
        (Crate.equivalent_self _)
      rw [spelled?_keepFirst] at hfirst
      exact mem_of_spelled? hfirst
    · obtain ⟨call, hcall, hfound⟩ := List.mem_filterMap.mp hlooked
      exact Or.inr ⟨call.1, (mem_missing_of_call hrun hcall).1,
        equivalent_of_callPair? hrun hhonest hcall hfound⟩
  case askedOnce =>
    intro name hname
    have hcount := hpicked.countP hname
    rw [← hrun.asked, List.countP_map, spelled?_keepFirst] at hcount
    exact hcount
  case askedNeeded =>
    intro call hcall
    exact (mem_missing_of_call hrun hcall).1

end

/-- **The merge law.** If the resolver gives only releases of the crates that it is asked for, a
merge that gives a manifest obeys `MergeLaw`, where `calls` are the look-ups that are on record
after the same merge with a resolver that notes them. Of what is known about the script only the
warnings grow, by one for every declared dependency that repeats an earlier crate. -/
theorem merge_law {resolver : Resolver σ} (hresolver : resolver.Honours)
    {version edition stem : String} {metadata metadata' : Metadata} {binary : Path}
    {world after : World σ} {manifest : Manifest}
    (hmerge : merge resolver version edition metadata stem binary world =
      ((metadata', .ok manifest), after)) :
    ∃ declared calls, declaredBy metadata.embedded = .ok declared ∧
      merge (recording resolver) version edition metadata stem binary (world.keeping []) =
        ((metadata', .ok manifest), after.keeping calls) ∧
      metadata' = { metadata with warnings := metadata.warnings ++ repeatWarnings declared } ∧
      MergeLaw declared metadata.inferred calls manifest := by
  obtain ⟨declared, calls, hdeclared, hmetadata, hrecorded, hrun⟩ := mergeRun_of_merge hmerge
  refine ⟨declared, calls, hdeclared, hrecorded, hmetadata, mergeLaw_of_run hrun ?_⟩
  intro name release hcall
  obtain ⟨before, -, hanswer⟩ := hrun.genuine _ hcall
  exact hresolver name before release hanswer

/-- What a script declares that has `serde` under two spellings. -/
def serdeTwice : Table := [("serde", .string "1"), ("Serde", .string "2")]

theorem spelled?_serdeTwice : spelled? serdeTwice "serde" = some ("serde", .string "1") := by
  have hself := Crate.equivalent_self "serde"
  unfold spelled? serdeTwice
  rw [List.find?_cons, hself]

/-- A script that declares `serde` twice. -/
def declaringTwice (inferred : List String) : Metadata :=
  ⟨"", [], none, some "[dependencies]\nserde = \"1\"\nSerde = \"2\"\n", inferred, 0, .structural, []⟩

theorem declaredBy_declaringTwice (inferred : List String) :
    declaredBy (declaringTwice inferred).embedded = .ok serdeTwice := by
  cbv

theorem showsPackage_declaringTwice (inferred : List String) :
    showsPackage (declaringTwice inferred).embedded = true := by
  cbv

theorem merge_law_declaringTwice :
    ∃ calls metadata manifest after,
      merge (Rehearsal.fixedResolver [("nu-ansi-term", "0.50.1")]) "0.0.1" "2021"
          (declaringTwice ["nu_ansi_term", "serde"]) "demo" (Path.ofString "demo.rs")
          (World.untouched .empty) = ((metadata, .ok manifest), after) ∧
      MergeLaw serdeTwice ["nu_ansi_term", "serde"] calls manifest := by
  have hshelf : (Rehearsal.shelf [("nu-ansi-term", "0.50.1")]).get?
      (Crate.normalize "nu_ansi_term") = some ("nu-ansi-term", "0.50.1") := by
    cbv
  have hanswers : ∀ name ∈ missing ["nu_ansi_term", "serde"] (keepFirst serdeTwice).1,
      ∀ world, ∃ text number,
        ((Rehearsal.fixedResolver [("nu-ansi-term", "0.50.1")]).resolve name world).1 =
          .ok ⟨.string text, number⟩ := by
    intro name hname world
    obtain ⟨hneeded, hnew⟩ := (picked_missing _ _).candidate name hname
    rw [spelled?_keepFirst] at hnew
    rcases List.mem_cons.mp hneeded with rfl | hserde
    · exact ⟨"nu-ansi-term", "0.50.1", by rw [fixedResolver_resolve, hshelf]⟩
    · rw [List.mem_singleton.mp hserde, spelled?_serdeTwice] at hnew
      cases hnew
  obtain ⟨manifest, after, hmerge⟩ := merge_complete "0.0.1" "2021" "demo" (Path.ofString "demo.rs")
    (declaredBy_declaringTwice _) (showsPackage_declaringTwice _) hanswers (World.untouched .empty)
  obtain ⟨declared, calls, hdeclares, -, -, hlaw⟩ :=
    merge_law (honours_fixedResolver _) hmerge
  rw [declaredBy_declaringTwice] at hdeclares
  rw [← Except.ok.inj hdeclares] at hlaw
  exact ⟨calls, _, manifest, after, hmerge, hlaw⟩

end Manifest

end RustScript
