import RustScript.Proofs.Registry.Contract

/-!
# The look-ups of a merge

Which crates a merge asks a registry for, and what it makes of the answers. `missing` has one
spelling of every needed crate that no declared dependency is a spelling of. The resolver
`recording` notes every look-up with its answer and is otherwise the resolver that it is made of;
`lookUpAll_recording` says that a merge that comes to its end has looked up the missing crates, each
once and in order.
-/

set_option autoImplicit false

namespace RustScript.Manifest

open RustScript.Toml RustScript.Registry

variable {σ : Type}

/-! ## Which crates are missing -/

/-- The names picked so far with one more candidate, unless it is declared or picked already. -/
def pickMissing (declared : Table) (names : List String) (candidate : String) : List String :=
  if (spelling? declared candidate).isSome || names.any (Crate.equivalent candidate) then names
  else names ++ [candidate]

theorem missing_eq_foldl (inferred : List String) (declared : Table) :
    missing inferred declared =
      (Text.sortedNames inferred).foldl (pickMissing declared) [] := rfl

theorem pickMissing_of_known {declared : Table} {names : List String} {candidate : String}
    (h : spelled? declared candidate ≠ none ∨
      ∃ name ∈ names, Crate.equivalent candidate name = true) :
    pickMissing declared names candidate = names := by
  unfold pickMissing
  rw [if_pos]
  rw [spelling?_eq, Bool.or_eq_true, Option.isSome_map, List.any_eq_true]
  exact h.imp Option.isSome_iff_ne_none.mpr id

theorem pickMissing_of_new {declared : Table} {names : List String} {candidate : String}
    (hdeclared : spelled? declared candidate = none)
    (hnames : ∀ name ∈ names, Crate.equivalent candidate name = false) :
    pickMissing declared names candidate = names ++ [candidate] := by
  unfold pickMissing
  rw [if_neg]
  rw [spelling?_eq, hdeclared]
  simpa using hnames

/-- A candidate is passed over, or it is new and comes last. -/
theorem pickMissing_cases (declared : Table) (names : List String) (candidate : String) :
    ((spelled? declared candidate ≠ none ∨
        ∃ name ∈ names, Crate.equivalent candidate name = true) ∧
      pickMissing declared names candidate = names) ∨
    (spelled? declared candidate = none ∧
      (∀ name ∈ names, Crate.equivalent candidate name = false) ∧
      pickMissing declared names candidate = names ++ [candidate]) := by
  by_cases hknown : spelled? declared candidate ≠ none ∨
      ∃ name ∈ names, Crate.equivalent candidate name = true
  · exact .inl ⟨hknown, pickMissing_of_known hknown⟩
  · rw [not_or, not_not] at hknown
    obtain ⟨hdeclared, hnone⟩ := hknown
    have hnew : ∀ name ∈ names, Crate.equivalent candidate name = false := by
      intro name hname
      rw [← Bool.not_eq_true]
      exact fun hsame => hnone ⟨name, hname, hsame⟩
    exact .inr ⟨hdeclared, hnew, pickMissing_of_new hdeclared hnew⟩

/-- What picking missing crates from a list of candidates keeps true. -/
structure Picked (declared : Table) (candidates names : List String) : Prop where
  /-- Every name is a candidate that is not declared. -/
  candidate : ∀ name ∈ names, name ∈ candidates ∧ spelled? declared name = none
  /-- No crate is named twice. -/
  inequivalent : names.Pairwise fun a b => Crate.equivalent a b = false
  /-- Every candidate that is not declared has a spelling among the names. -/
  covers : ∀ name ∈ candidates, spelled? declared name = none →
    ∃ found ∈ names, Crate.equivalent found name = true

theorem countP_equivalent_le_one {names : List String}
    (h : names.Pairwise fun a b => Crate.equivalent a b = false) (name : String) :
    names.countP (fun other => Crate.equivalent other name) ≤ 1 := by
  induction names with
  | nil => exact Nat.zero_le 1
  | cons first rest ih =>
      obtain ⟨hfirst, hrest⟩ := List.pairwise_cons.mp h
      by_cases hsame : Crate.equivalent first name = true
      · have hnone : rest.countP (fun other => Crate.equivalent other name) = 0 := by
          rw [List.countP_eq_zero]
          intro other hother
          have hdiffer : Crate.equivalent other name = false :=
            calc Crate.equivalent other name = Crate.equivalent name other :=
                  Crate.equivalent_comm other name
              _ = Crate.equivalent first other := (Crate.equivalent_congr_left hsame other).symm
              _ = false := hfirst other hother
          rw [hdiffer]
          exact Bool.false_ne_true
        have hone : (first :: rest).countP (fun other => Crate.equivalent other name) = 1 := by
          rw [List.countP_cons, hnone, if_pos hsame]
        exact Nat.le_of_eq hone
      · rw [List.countP_cons, if_neg hsame]
        exact ih hrest

/-- A candidate has one spelling among the picked names if it is not declared, and none if it is. -/
theorem Picked.countP {declared : Table} {candidates names : List String}
    (h : Picked declared candidates names) {name : String} (hname : name ∈ candidates) :
    names.countP (fun other => Crate.equivalent other name) =
      if (spelled? declared name).isSome then 0 else 1 := by
  cases hspelled : spelled? declared name with
  | some entry =>
      rw [Option.isSome_some, if_pos rfl, List.countP_eq_zero]
      intro other hother hsame
      have hnone := (h.candidate other hother).2
      rw [spelled?_congr declared hsame, hspelled] at hnone
      cases hnone
  | none =>
      obtain ⟨found, hfound, hsame⟩ := h.covers name hname hspelled
      have hpos : 0 < names.countP fun other => Crate.equivalent other name := by
        rw [List.countP_pos_iff]
        exact ⟨found, hfound, hsame⟩
      have hle := countP_equivalent_le_one h.inequivalent name
      rw [Option.isSome_none, if_neg Bool.false_ne_true]
      omega

theorem picked_foldl (declared : Table) (candidates : List String) :
    Picked declared candidates (candidates.foldl (pickMissing declared) []) := by
  induction candidates using List.reverseRecOn with
  | nil =>
      exact ⟨fun _ h => absurd h List.not_mem_nil, List.Pairwise.nil,
        fun _ h => absurd h List.not_mem_nil⟩
  | append_singleton candidates last ih =>
      rw [List.foldl_append, List.foldl_cons, List.foldl_nil]
      set names := candidates.foldl (pickMissing declared) []
      have hold : ∀ name ∈ names, name ∈ candidates ++ [last] ∧ spelled? declared name = none :=
        fun name hname => ⟨List.mem_append_left _ (ih.candidate name hname).1,
          (ih.candidate name hname).2⟩
      -- the last candidate adds a name unless it is declared or has one already
      rcases pickMissing_cases declared names last with ⟨hknown, hpick⟩ | ⟨hdeclared, hnew, hpick⟩
      · rw [hpick]
        refine ⟨hold, ih.inequivalent, ?_⟩
        intro name hname hmissing
        rcases List.mem_append.mp hname with hfront | hlast
        · exact ih.covers name hfront hmissing
        · rw [List.mem_singleton.mp hlast] at hmissing ⊢
          obtain ⟨found, hfound, hsame⟩ := hknown.resolve_left (not_not.mpr hmissing)
          exact ⟨found, hfound, by rwa [Crate.equivalent_comm]⟩
      · rw [hpick]
        refine ⟨?_, ?_, ?_⟩
        · intro name hname
          rcases List.mem_append.mp hname with hfront | hlast
          · exact hold name hfront
          · rw [List.mem_singleton.mp hlast]
            exact ⟨List.mem_append_right _ (List.mem_singleton.mpr rfl), hdeclared⟩
        · rw [List.pairwise_append]
          refine ⟨ih.inequivalent, List.pairwise_singleton _ _, ?_⟩
          intro a ha b hb
          rw [List.mem_singleton.mp hb, Crate.equivalent_comm]
          exact hnew a ha
        · intro name hname hmissing
          rcases List.mem_append.mp hname with hfront | hlast
          · obtain ⟨found, hfound, hsame⟩ := ih.covers name hfront hmissing
            exact ⟨found, List.mem_append_left _ hfound, hsame⟩
          · rw [List.mem_singleton.mp hlast]
            exact ⟨last, List.mem_append_right _ (List.mem_singleton.mpr rfl),
              Crate.equivalent_self last⟩

/-- **The missing crates**: the needed ones that are not declared, each once. -/
theorem picked_missing (inferred : List String) (declared : Table) :
    Picked declared inferred (missing inferred declared) := by
  rw [missing_eq_foldl]
  have h := picked_foldl declared (Text.sortedNames inferred)
  refine ⟨?_, h.inequivalent, ?_⟩
  · intro name hname
    obtain ⟨hmem, hdeclared⟩ := h.candidate name hname
    exact ⟨Text.mem_sortedNames.mp hmem, hdeclared⟩
  · intro name hname
    exact h.covers name (Text.mem_sortedNames.mpr hname)

theorem missing_singleton {name : String} {declared : Table}
    (h : spelled? declared name = none) : missing [name] declared = [name] := by
  have hsorted : Text.sortedNames [name] = [name] := by
    unfold Text.sortedNames List.eraseDups
    exact List.mergeSort_singleton name
  unfold missing
  rw [hsorted, List.foldl_cons, spelling?_eq, h]
  rfl

/-! ## Look-ups and their answers -/

theorem lookUpAll_cons (resolver : Resolver σ) (name : String) (rest : List String)
    (world : World σ) :
    lookUpAll resolver (name :: rest) world =
      match readAnswer (resolver.resolve name world).1 with
      | .error error => (Except.error error, (resolver.resolve name world).2)
      | .ok answer =>
          ((lookUpAll resolver rest (resolver.resolve name world).2).1.map (answer :: ·),
            (lookUpAll resolver rest (resolver.resolve name world).2).2) := by
  show (match readAnswer (resolver.resolve name world).1 with
    | .error error => (pure (Except.error error) : Act σ _)
    | .ok answer => do return (← lookUpAll resolver rest).map (answer :: ·)) _ = _
  cases readAnswer (resolver.resolve name world).1 <;> rfl

/-- Look-ups come to their end if each of them gives a release under some text. -/
theorem lookUpAll_complete {resolver : Resolver σ} {names : List String}
    (h : ∀ name ∈ names, ∀ world, ∃ text number,
      (resolver.resolve name world).1 = .ok ⟨.string text, number⟩) (world : World σ) :
    ∃ found : List (Value × Value),
      (lookUpAll resolver names world).1 = .ok (found.map .ok) := by
  induction names generalizing world with
  | nil => exact ⟨[], rfl⟩
  | cons name rest ih =>
      obtain ⟨text, number, hanswer⟩ := h name List.mem_cons_self world
      obtain ⟨found, hfound⟩ := ih (fun other hother => h other (List.mem_cons_of_mem _ hother))
        (resolver.resolve name world).2
      have hread : readAnswer (resolver.resolve name world).1 =
          .ok (.ok (.ofRaw text, .ofRaw number)) := by
        rw [hanswer]
        rfl
      refine ⟨(.ofRaw text, .ofRaw number) :: found, ?_⟩
      rw [lookUpAll_cons, hread]
      dsimp only
      rw [hfound]
      rfl

/-- The call is a look-up with its answer in a world that look-ups from `start` lead to. -/
def Genuine (resolver : Resolver σ) (start : World σ) (call : String × Except LookupError Release) :
    Prop :=
  ∃ world, resolver.Reaches start world ∧ (resolver.resolve call.1 world).1 = call.2

/-- What a run of look-ups has noted: answers of the resolver and, if it came to its end with
`result`, one for every name, in order. -/
structure Noted (resolver : Resolver σ) (start : World σ) (names : List String)
    (calls : Transcript) (result : Except MergeError (List Answer)) : Prop where
  /-- Every note is an answer that the resolver gave. -/
  genuine : ∀ call ∈ calls, Genuine resolver start call
  /-- All names have been looked up, each as often as it stands in the list. -/
  complete : ∀ answers, result = .ok answers →
    calls.map (·.1) = names ∧ calls.map (fun call => readAnswer call.2) = answers.map .ok

/-- **Noting look-ups changes nothing about them.** -/
theorem lookUpAll_recording (resolver : Resolver σ) (names : List String) (world : World σ)
    (before : Transcript) :
    ∃ calls, lookUpAll (recording resolver) names (world.keeping before) =
        ((lookUpAll resolver names world).1,
          (lookUpAll resolver names world).2.keeping (before ++ calls)) ∧
      Noted resolver world names calls (lookUpAll resolver names world).1 := by
  induction names generalizing world before with
  | nil =>
      refine ⟨[], by rw [List.append_nil]; rfl, ⟨fun _ h => absurd h List.not_mem_nil, ?_⟩⟩
      intro answers h
      injection h with h
      rw [← h]
      exact ⟨rfl, rfl⟩
  | cons name rest ih =>
      -- the first answer is noted whether or not the look-ups go on behind it
      set answer := (resolver.resolve name world).1 with hanswer
      set after := (resolver.resolve name world).2 with hafter
      have hgenuine : ∀ call ∈ [(name, answer)], Genuine resolver world call := by
        intro call hcall
        rw [List.mem_singleton.mp hcall]
        exact ⟨world, .start, rfl⟩
      rw [lookUpAll_cons, lookUpAll_cons, recording_resolve, ← hanswer, ← hafter]
      cases hread : readAnswer answer with
      | error error =>
          exact ⟨[(name, answer)], rfl, hgenuine, fun answers h => by cases h⟩
      | ok given =>
          obtain ⟨calls, hrun, hnoted⟩ := ih after (before ++ [(name, answer)])
          refine ⟨(name, answer) :: calls, ?_, ?_, ?_⟩
          · dsimp only
            rw [hrun, List.append_assoc]
            rfl
          · intro call hcall
            rcases List.mem_cons.mp hcall with hhead | htail
            · exact hgenuine call (List.mem_singleton.mpr hhead)
            · obtain ⟨later, hreaches, hlater⟩ := hnoted.genuine call htail
              exact ⟨later, hreaches.first name, hlater⟩
          · intro answers hanswers
            cases hresult : (lookUpAll resolver rest after).1 with
            | error error =>
                rw [hresult] at hanswers
                cases hanswers
            | ok others =>
                rw [hresult] at hanswers
                injection hanswers with hanswers
                obtain ⟨hnames, hreads⟩ := hnoted.complete others hresult
                rw [← hanswers, List.map_cons, List.map_cons, List.map_cons, hnames, hreads, hread]
                exact ⟨rfl, rfl⟩

end RustScript.Manifest
