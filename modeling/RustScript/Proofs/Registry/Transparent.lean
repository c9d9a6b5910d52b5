import RustScript.Proofs.Registry.Contract

/-!
# What a cache changes

A resolver with a cache is used by look-ups and by emptying the cache, in any order. `observed` runs
such a sequence and takes down, for every look-up, its answer and what the resolver behind the cache
was asked for meanwhile. `remembering_transparent` says what can be seen: a look-up is answered from
what was found since the cache was emptied (`Found`), or else it is passed on as it is, and the
resolver behind the cache does what it does without one. If its releases depend on the crate alone,
the cache changes no answer.
-/

set_option autoImplicit false

namespace RustScript.Registry

variable {σ : Type}

/-! ## Events -/

/-- What happens in one step of a resolver with a cache. -/
inductive Event
  /-- A crate is looked up with this answer, and the resolver behind the cache has `passed`
  look-ups meanwhile. -/
  | asked (name : String) (answer : Except LookupError Release) (passed : Transcript)
  /-- The cache is emptied. -/
  | emptied

/-- The step in which the event happens. -/
def Event.step : Event → CacheStep
  | .asked name _ _ => .ask name
  | .emptied => .forget

/-- The look-up that the event is. -/
def Event.lookup : Event → Transcript
  | .asked name answer _ => [(name, answer)]
  | .emptied => []

/-- The look-ups of the resolver behind the cache. -/
def Event.passed : Event → Transcript
  | .asked _ _ passed => passed
  | .emptied => []

/-- The events of a sequence of steps. What the resolver behind the cache is asked for is read off
the transcript that it writes. -/
def observed (inner : Resolver σ) : List CacheStep → Act (Cache × Transcript × σ) (List Event)
  | [] => pure []
  | .ask name :: rest => do
      let before := (← get).outside.2.1
      let answer ← (remembering (recording inner)).resolve name
      let passed := (← get).outside.2.1.drop before.length
      return .asked name answer passed :: (← observed inner rest)
  | .forget :: rest => do
      forget
      return .emptied :: (← observed inner rest)

/-- A resolver is asked for several names. -/
def asks (inner : Resolver σ) : List String → Act σ Transcript
  | [] => pure []
  | name :: rest => do
      let answer ← inner.resolve name
      return (name, answer) :: (← asks inner rest)

/-- The crate of which `name` is a spelling has been found as `release` since the cache was emptied
last. -/
def Found (past : List Event) (name : String) (release : Release) : Prop :=
  ∃ before asked passed since, past = before ++ .asked asked (.ok release) passed :: since ∧
    .emptied ∉ since ∧ Crate.equivalent asked name = true

/-- How a look-up goes after the events of the past: if the crate has been found, this is the answer
and the resolver behind the cache is not asked; otherwise it is asked for the name itself, and its
answer is given. -/
inductive Answers (past : List Event) (name : String) :
    Except LookupError Release → Transcript → Prop
  | remembered {release : Release} : Found past name release →
      (∀ other, Found past name other → other = release) → Answers past name (.ok release) []
  | passed {answer : Except LookupError Release} : (∀ release, ¬ Found past name release) →
      Answers past name answer [(name, answer)]

/-! ## What has been found -/

theorem not_found_nil (name : String) (release : Release) : ¬ Found [] name release := by
  rintro ⟨before, asked, passed, since, hpast, -, -⟩
  cases before <;> cases hpast

theorem not_found_emptied (past : List Event) (name : String) (release : Release) :
    ¬ Found (past ++ [.emptied]) name release := by
  rintro ⟨before, asked, passed, since, hpast, hsince, -⟩
  rcases since.eq_nil_or_concat' with rfl | ⟨since, last, rfl⟩
  · cases (List.append_inj' hpast rfl).2
  · rw [← List.cons_append, ← List.append_assoc] at hpast
    obtain rfl := List.singleton_inj.mp (List.append_inj' hpast rfl).2
    exact hsince (List.mem_append_right since List.mem_cons_self)

/-- A look-up finds a crate, or the crate has been found before. -/
theorem found_asked_iff {past : List Event} {asked : String}
    {answer : Except LookupError Release} {passed : Transcript} {name : String}
    {release : Release} :
    Found (past ++ [.asked asked answer passed]) name release ↔
      (answer = .ok release ∧ Crate.equivalent asked name = true) ∨ Found past name release := by
  constructor
  · rintro ⟨before, other, passed', since, hpast, hsince, hname⟩
    rcases since.eq_nil_or_concat' with rfl | ⟨since, last, rfl⟩
    · have hevent := List.singleton_inj.mp (List.append_inj' hpast rfl).2
      injection hevent with hasked hanswer
      exact .inl ⟨hanswer, hasked ▸ hname⟩
    · rw [← List.cons_append, ← List.append_assoc] at hpast
      refine .inr ⟨before, other, passed', since, (List.append_inj' hpast rfl).1, ?_, hname⟩
      exact fun hmem => hsince (List.mem_append_left _ hmem)
  · rintro (⟨rfl, hname⟩ | ⟨before, other, passed', since, rfl, hsince, hname⟩)
    · exact ⟨past, asked, passed, [], rfl, List.not_mem_nil, hname⟩
    · refine ⟨before, other, passed', since ++ [.asked asked answer passed], ?_, ?_, hname⟩
      · rw [List.append_assoc, List.cons_append]
      · simpa using hsince

/-- The cache after a look-up that it did not answer holds the release that was found, if any, and
what it held before. -/
theorem get?_after_iff {cache : Cache} {name : String}
    (hnew : cache.get? (Crate.normalize name) = none) {answer : Except LookupError Release}
    {other : String} {release : Release} :
    (cache.after name answer).get? (Crate.normalize other) = some release ↔
      (answer = .ok release ∧ Crate.equivalent name other = true) ∨
        cache.get? (Crate.normalize other) = some release := by
  cases answer with
  | error error => exact ⟨.inr, fun h => h.resolve_left fun hleft => nomatch hleft.1⟩
  | ok found =>
      show Entries.get? (Entries.put cache _ found) _ = _ ↔ _
      rw [Entries.get?_put, Crate.equivalent_iff]
      by_cases hsame : Crate.normalize name = Crate.normalize other
      · rw [if_pos hsame, ← hsame, hnew]
        simp
      · simp [hsame]

/-- The cache holds what has been found. -/
def Remembers (past : List Event) (cache : Cache) : Prop :=
  ∀ name release, cache.get? (Crate.normalize name) = some release ↔ Found past name release

theorem Remembers.emptied (past : List Event) : Remembers (past ++ [.emptied]) [] :=
  fun name release => ⟨nofun, fun h => absurd h (not_found_emptied past name release)⟩

section

variable {past : List Event} {cache : Cache} (h : Remembers past cache)

include h

/-- A look-up that the cache answers leaves it as it is. -/
theorem Remembers.hit {name : String} {release : Release}
    (hkept : cache.get? (Crate.normalize name) = some release) :
    Answers past name (.ok release) [] ∧
      Remembers (past ++ [.asked name (.ok release) []]) cache := by
  constructor
  · refine .remembered ((h name release).mp hkept) fun other hother => ?_
    rw [(h name other).mpr hother] at hkept
    exact Option.some.inj hkept
  · intro other found
    rw [found_asked_iff, ← h other found]
    constructor
    · exact .inr
    · rintro (⟨hfound, hname⟩ | hfound)
      · rw [← Crate.equivalent_iff.mp hname, hkept, Except.ok.inj hfound]
      · exact hfound

/-- A look-up that the cache does not answer is passed on, and a release that it gives is kept. -/
theorem Remembers.miss {name : String} (hkept : cache.get? (Crate.normalize name) = none)
    (answer : Except LookupError Release) :
    Answers past name answer [(name, answer)] ∧
      Remembers (past ++ [.asked name answer [(name, answer)]]) (cache.after name answer) := by
  have hnew : ∀ release, ¬ Found past name release := by
    intro release hfound
    rw [(h name release).mpr hfound] at hkept
    cases hkept
  refine ⟨.passed hnew, fun other found => ?_⟩
  rw [found_asked_iff, ← h other found]
  exact get?_after_iff hkept

end

/-! ## Runs -/

section

variable (inner : Resolver σ) (name : String) (rest : List CacheStep) {cache : Cache}
  {calls : Transcript} {world : World σ}

theorem observed_hit {release : Release}
    (h : cache.get? (Crate.normalize name) = some release) :
    observed inner (.ask name :: rest) ((world.keeping calls).keeping cache) =
      (.asked name (.ok release) [] ::
        (observed inner rest ((world.keeping calls).keeping cache)).1,
        (observed inner rest ((world.keeping calls).keeping cache)).2) := by
  have hresolve := remembering_resolve (recording inner) name (world.keeping calls) cache
  rw [h] at hresolve
  have hpassed : calls.drop calls.length = [] := List.drop_length
  conv_lhs => unfold observed
  simp only [bind, StateT.bind, get, getThe, MonadStateOf.get, StateT.get, pure]
  rw [hresolve]
  show (Event.asked name (.ok release) (calls.drop calls.length) :: _, _) = _
  rw [hpassed]

theorem observed_miss (h : cache.get? (Crate.normalize name) = none) :
    observed inner (.ask name :: rest) ((world.keeping calls).keeping cache) =
      (.asked name (inner.resolve name world).1 [(name, (inner.resolve name world).1)] ::
        (observed inner rest (((inner.resolve name world).2.keeping
          (calls ++ [(name, (inner.resolve name world).1)])).keeping
            (cache.after name (inner.resolve name world).1))).1,
        (observed inner rest (((inner.resolve name world).2.keeping
          (calls ++ [(name, (inner.resolve name world).1)])).keeping
            (cache.after name (inner.resolve name world).1))).2) := by
  have hresolve := remembering_resolve (recording inner) name (world.keeping calls) cache
  rw [h] at hresolve
  dsimp only at hresolve
  rw [recording_resolve] at hresolve
  have hpassed : (calls ++ [(name, (inner.resolve name world).1)]).drop calls.length =
      [(name, (inner.resolve name world).1)] := List.drop_left
  conv_lhs => unfold observed
  simp only [bind, StateT.bind, get, getThe, MonadStateOf.get, StateT.get, pure]
  rw [hresolve]
  show (Event.asked name (inner.resolve name world).1
    ((calls ++ [(name, (inner.resolve name world).1)]).drop calls.length) :: _, _) = _
  rw [hpassed]

theorem cachedRun_ask :
    cachedRun inner (.ask name :: rest) (world.keeping cache) =
      ((name, ((remembering inner).resolve name (world.keeping cache)).1) ::
        (cachedRun inner rest ((remembering inner).resolve name (world.keeping cache)).2).1,
        (cachedRun inner rest ((remembering inner).resolve name (world.keeping cache)).2).2) := rfl

end

/-- What can be seen of a run through a cache, from what happened before it. -/
structure Transparent (inner : Resolver σ) (past : List Event) (steps : List CacheStep)
    (world : World σ) (events : List Event) (after : World σ) : Prop where
  /-- There is one event for each step. -/
  steps : events.map Event.step = steps
  /-- Every look-up is answered from the past, or else passed on as it is. -/
  answers : ∀ before name answer passed later,
    events = before ++ .asked name answer passed :: later →
      Answers (past ++ before) name answer passed
  /-- The resolver behind the cache does what it does when it is asked for the same names on its
  own. -/
  passed : asks inner ((events.flatMap Event.passed).map (·.1)) world =
    (events.flatMap Event.passed, after)

section

variable {inner : Resolver σ} {past : List Event} {steps : List CacheStep} {world after : World σ}
  {events : List Event}

theorem Transparent.nil : Transparent inner past [] world [] world where
  steps := rfl
  answers before _ _ _ _ h := by cases before <;> cases h
  passed := rfl

theorem Transparent.emptied (h : Transparent inner (past ++ [.emptied]) steps world events after) :
    Transparent inner past (.forget :: steps) world (.emptied :: events) after where
  steps := by rw [List.map_cons, h.steps]; rfl
  answers before name answer passed later hevents := by
    cases before with
    | nil => cases hevents
    | cons first before =>
        obtain ⟨rfl, htail⟩ := List.cons.inj hevents
        have hanswers := h.answers before name answer passed later htail
        rwa [List.append_assoc] at hanswers
  passed := h.passed

/-- A look-up in front of a run. -/
theorem Transparent.asked {name : String} {answer : Except LookupError Release}
    {passed : Transcript} {between : World σ} (hanswers : Answers past name answer passed)
    (hpassed : asks inner (passed.map (·.1)) world = (passed, between))
    (h : Transparent inner (past ++ [.asked name answer passed]) steps between events after) :
    Transparent inner past (.ask name :: steps) world (.asked name answer passed :: events)
      after where
  steps := by rw [List.map_cons, h.steps]; rfl
  answers before name' answer' passed' later hevents := by
    cases before with
    | nil =>
        obtain ⟨hevent, -⟩ := List.cons.inj hevents
        obtain ⟨rfl, rfl, rfl⟩ := Event.asked.inj hevent
        rwa [List.append_nil]
    | cons first before =>
        obtain ⟨rfl, htail⟩ := List.cons.inj hevents
        have hlater := h.answers before name' answer' passed' later htail
        rwa [List.append_assoc] at hlater
  passed := by
    cases hanswers with
    | remembered _ _ =>
        obtain rfl : world = between := (Prod.mk.inj hpassed).2
        exact h.passed
    | passed _ =>
        obtain ⟨hanswer, hbetween⟩ := Prod.mk.inj hpassed
        have hown : (inner.resolve name world).1 = answer := by
          injection (List.cons.inj hanswer).1
        show (((name, (inner.resolve name world).1) ::
          (asks inner ((events.flatMap Event.passed).map (·.1)) (inner.resolve name world).2).1,
          (asks inner ((events.flatMap Event.passed).map (·.1))
            (inner.resolve name world).2).2) : Transcript × World σ) = _
        rw [show (inner.resolve name world).2 = between from hbetween, h.passed, hown]
        rfl

end

/-- **A run through a cache is transparent**, if the cache holds what has been found before it. Notes
about the resolver behind the cache change nothing. -/
theorem observed_transparent (inner : Resolver σ) (steps : List CacheStep) {past : List Event}
    {cache : Cache} (h : Remembers past cache) (world : World σ) (calls : Transcript) :
    ∃ events after kept, Transparent inner past steps world events after ∧
      observed inner steps ((world.keeping calls).keeping cache) =
        (events, (after.keeping (calls ++ events.flatMap Event.passed)).keeping kept) ∧
      cachedRun inner steps (world.keeping cache) =
        (events.flatMap Event.lookup, after.keeping kept) := by
  -- from step to step the cache holds what the events so far have found
  induction steps generalizing past cache world calls with
  | nil => exact ⟨[], world, cache, .nil, by rw [List.flatMap_nil, List.append_nil]; rfl, rfl⟩
  | cons step rest ih =>
      cases step with
      | forget =>
          obtain ⟨events, after, kept, htransparent, hobserved, hrun⟩ :=
            ih (Remembers.emptied past) world calls
          refine ⟨.emptied :: events, after, kept, htransparent.emptied, ?_, hrun⟩
          show (Event.emptied :: (observed inner rest ((world.keeping calls).keeping [])).1,
            (observed inner rest ((world.keeping calls).keeping [])).2) = _
          rw [hobserved]
          rfl
      | ask name =>
          cases hkept : cache.get? (Crate.normalize name) with
          | some release =>
              obtain ⟨hanswers, hremembers⟩ := h.hit hkept
              obtain ⟨events, after, kept, htransparent, hobserved, hrun⟩ :=
                ih hremembers world calls
              refine ⟨.asked name (.ok release) [] :: events, after, kept,
                htransparent.asked hanswers rfl, ?_, ?_⟩
              · rw [observed_hit inner name rest hkept, hobserved]
                rfl
              · rw [cachedRun_ask, remembering_resolve, hkept]
                dsimp only
                rw [hrun]
                rfl
          | none =>
              obtain ⟨hanswers, hremembers⟩ := h.miss hkept (inner.resolve name world).1
              obtain ⟨events, after, kept, htransparent, hobserved, hrun⟩ :=
                ih hremembers (inner.resolve name world).2
                  (calls ++ [(name, (inner.resolve name world).1)])
              refine ⟨.asked name (inner.resolve name world).1
                [(name, (inner.resolve name world).1)] :: events, after, kept,
                htransparent.asked hanswers rfl, ?_, ?_⟩
              · rw [observed_miss inner name rest hkept, hobserved, List.append_assoc]
                rfl
              · rw [cachedRun_ask, remembering_resolve, hkept]
                dsimp only
                rw [hrun]
                rfl

/-- Between two emptyings of the cache a crate is found at most once by the resolver behind it. -/
theorem Transparent.once {inner : Resolver σ} {steps : List CacheStep} {world after : World σ}
    {events past since later : List Event} (h : Transparent inner [] steps world events after)
    {name other : String} {answer answer' : Except LookupError Release}
    {passed passed' : Transcript}
    (hevents : events =
      past ++ .asked name answer passed :: (since ++ .asked other answer' passed' :: later))
    (hsince : .emptied ∉ since) (hsame : Crate.equivalent name other = true) {release : Release}
    (hfirst : (name, .ok release) ∈ passed) : passed' = [] := by
  have hanswers := h.answers past name answer passed _ hevents
  have hlast := h.answers (past ++ .asked name answer passed :: since) other answer' passed' later
    (by rw [hevents, List.append_assoc, List.cons_append])
  cases hanswers with
  | remembered _ _ => cases hfirst
  | passed _ =>
      obtain ⟨-, rfl⟩ := Prod.mk.inj (List.mem_singleton.mp hfirst)
      cases hlast with
      | remembered _ _ => rfl
      | passed hnew =>
          exact absurd ⟨past, name, _, since, rfl, hsince, hsame⟩ (hnew release)

/-! ## Releases that depend on the crate alone -/

/-- The names that a sequence of steps asks for. -/
def askedNames (steps : List CacheStep) : List String :=
  steps.filterMap fun
    | .ask name => some name
    | .forget => none

section

variable {inner : Resolver σ} {answers : String → Except LookupError Release}
  (hinner : ∀ name world, (inner.resolve name world).1 = answers name)

include hinner

theorem asks_of_answers (names : List String) (world : World σ) :
    (asks inner names world).1 = names.map fun name => (name, answers name) := by
  induction names generalizing world with
  | nil => rfl
  | cons name rest ih =>
      show (name, (inner.resolve name world).1) :: (asks inner rest _).1 = _
      rw [hinner, ih, List.map_cons]

theorem cachedRun_of_answers
    (hsame : ∀ name other release, Crate.equivalent name other = true →
      answers name = .ok release → answers other = .ok release)
    (steps : List CacheStep) {cache : Cache}
    (hcache : ∀ name release, cache.get? (Crate.normalize name) = some release →
      answers name = .ok release) (world : World σ) :
    (cachedRun inner steps (world.keeping cache)).1 =
      (askedNames steps).map fun name => (name, answers name) := by
  induction steps generalizing cache world with
  | nil => rfl
  | cons step rest ih =>
      cases step with
      | forget =>
          have hempty : ∀ name release, Entries.get? ([] : Cache) (Crate.normalize name) =
              some release → answers name = .ok release := nofun
          exact ih hempty world
      | ask name =>
          rw [cachedRun_ask, remembering_resolve]
          cases hkept : cache.get? (Crate.normalize name) with
          | some release =>
              dsimp only
              rw [ih hcache, ← hcache name release hkept]
              rfl
          | none =>
              dsimp only
              rw [hinner, ih]
              · rfl
              · intro other found hfound
                rcases (get?_after_iff hkept).mp hfound with ⟨hanswer, hequivalent⟩ | hbefore
                · exact hsame name other found hequivalent hanswer
                · exact hcache other found hbefore

end

/-- **A cache is transparent.** In every sequence of look-ups and emptyings, each look-up of a crate
that has been found since the cache was emptied gives this release and asks for nothing; every other
look-up is passed on with the name itself, and what the resolver behind the cache answers is given,
an error as well as a release. So the resolver does what it does when it is asked for these names on
its own, and no crate is found twice between two emptyings. If its releases depend on the crate
alone, the run gives what the resolver gives on its own for all the names. -/
theorem remembering_transparent (inner : Resolver σ) (steps : List CacheStep) (world : World σ) :
    ∃ events after kept, Transparent inner [] steps world events after ∧
      observed inner steps ((world.keeping []).keeping []) =
        (events, (after.keeping (events.flatMap Event.passed)).keeping kept) ∧
      cachedRun inner steps (world.keeping []) =
        (events.flatMap Event.lookup, after.keeping kept) ∧
      (∀ past name answer passed since other answer' passed' later release,
        events =
          past ++ .asked name answer passed :: (since ++ .asked other answer' passed' :: later) →
        .emptied ∉ since → Crate.equivalent name other = true →
        (name, .ok release) ∈ passed → passed' = []) ∧
      ∀ answers : String → Except LookupError Release,
        (∀ name world, (inner.resolve name world).1 = answers name) →
        (∀ name other release, Crate.equivalent name other = true →
          answers name = .ok release → answers other = .ok release) →
        events.flatMap Event.lookup = (asks inner (askedNames steps) world).1 := by
  have hempty : Remembers [] [] := fun name release =>
    ⟨nofun, fun h => absurd h (not_found_nil name release)⟩
  obtain ⟨events, after, kept, htransparent, hobserved, hrun⟩ :=
    observed_transparent inner steps hempty world []
  refine ⟨events, after, kept, htransparent, hobserved, hrun, ?_, ?_⟩
  · intro past name answer passed since other answer' passed' later release hevents hsince hsame
      hfirst
    exact htransparent.once hevents hsince hsame hfirst
  · intro answers hinner hsame
    have hkept : ∀ name release, Entries.get? ([] : Cache) (Crate.normalize name) =
        some release → answers name = .ok release := nofun
    have hanswers := cachedRun_of_answers hinner hsame steps hkept world
    rw [hrun] at hanswers
    exact hanswers.trans (asks_of_answers hinner _ world).symm

/-- Another spelling of a crate that has been found is not looked up; a crate that is missing is. -/
theorem observed_serde :
    (observed (Rehearsal.fixedResolver [("serde", "1.0.203")])
      [.ask "serde", .ask "Serde", .ask "rand"]
      (((World.untouched .empty).keeping []).keeping [])).1 =
    [.asked "serde" (.ok ⟨.string "serde", "1.0.203"⟩)
        [("serde", .ok ⟨.string "serde", "1.0.203"⟩)],
      .asked "Serde" (.ok ⟨.string "serde", "1.0.203"⟩) [],
      .asked "rand" (.error (.notFound "rand")) [("rand", .error (.notFound "rand"))]] := by
  cbv

/-- The answers of a resolver that knows one crate are those of the resolver on its own. -/
theorem remembering_transparent_serde :
    ∃ events after, Transparent (Rehearsal.fixedResolver [("serde", "1.0.203")]) []
        [.ask "serde", .ask "Serde", .ask "rand"] (World.untouched .empty) events after ∧
      (∃ first second later, events = first :: .asked "Serde" second [] :: later ∧
        (∀ passed, events = first :: .asked "Serde" second passed :: later → passed = [])) ∧
      events.flatMap Event.lookup =
        (asks (Rehearsal.fixedResolver [("serde", "1.0.203")]) ["serde", "Serde", "rand"]
          (World.untouched .empty)).1 := by
  obtain ⟨events, after, kept, htransparent, hobserved, -, honce, halone⟩ :=
    remembering_transparent (Rehearsal.fixedResolver [("serde", "1.0.203")])
      [.ask "serde", .ask "Serde", .ask "rand"] (World.untouched .empty)
  have hevents := (congrArg Prod.fst hobserved).symm.trans observed_serde
  refine ⟨events, after, htransparent, ⟨_, _, _, hevents, ?_⟩, ?_⟩
  · intro passed hsecond
    have hsame : Crate.equivalent "serde" "Serde" = true := by cbv
    exact honce [] "serde" _ _ [] "Serde" _ passed _ _ hsecond List.not_mem_nil hsame
      List.mem_cons_self
  · have hasked : askedNames [.ask "serde", .ask "Serde", .ask "rand"] =
        ["serde", "Serde", "rand"] := rfl
    rw [← hasked]
    refine halone _ (fixedResolver_resolve _) ?_
    intro name other release hsame hanswer
    rw [Crate.equivalent_iff.mp hsame] at hanswer
    cases hfound : (Rehearsal.shelf [("serde", "1.0.203")]).get? (Crate.normalize other) with
    | none =>
        rw [hfound] at hanswer
        cases hanswer
    | some known =>
        rw [hfound] at hanswer
        exact hanswer

end RustScript.Registry
