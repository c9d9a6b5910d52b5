import RustScript.Proofs.Entries
import RustScript.Proofs.Manifest.Spelling
import RustScript.Proofs.Text.CodePoint
import RustScript.Registry.Cache
import RustScript.Rehearsal.Basic
import RustScript.Settings

/-!
# What a resolver owes

A resolver is asked for a crate and should give a release of that crate: `Release.IsOf` says that
the name of the release is a text and a spelling of the name that was asked for. The search command
is checked for this and always answers so; a registry on the web is trusted, so that its answers are
as good as the names in its replies (`honours_resolver_iff`). A cache in front of either changes
nothing, because it keeps releases by normalized name and equivalent names share their entry
(`honest_cachedRun_iff`).
-/

set_option autoImplicit false

namespace RustScript

/-- The world with something more kept outside. -/
def World.keeping {σ κ : Type} (world : World σ) (kept : κ) : World (κ × σ) :=
  ⟨world.files, world.clock, world.readings, (kept, world.outside)⟩

/-- The world without the first of what is kept outside. -/
def World.behind {σ κ : Type} (world : World (κ × σ)) : World σ :=
  ⟨world.files, world.clock, world.readings, world.outside.2⟩

/-- A world without files, whose clock shows no time. -/
def World.untouched {σ : Type} (outside : σ) : World σ := ⟨⟨[], []⟩, fun _ => .nan, 0, outside⟩

theorem Act.beside_keeping {σ κ α : Type} (action : Act σ α) (world : World σ) (kept : κ) :
    action.beside (world.keeping kept) = ((action world).1, (action world).2.keeping kept) := rfl

namespace Registry

variable {σ : Type}

/-- The release is one of the crate `name`. -/
def Release.IsOf (release : Release) (name : String) : Prop :=
  ∃ text : String, release.name = .string text ∧ Crate.equivalent text name = true

theorem Release.isOf_congr (release : Release) {a b : String}
    (h : Crate.equivalent a b = true) : release.IsOf a ↔ release.IsOf b := by
  unfold Release.IsOf
  constructor
  · rintro ⟨text, hname, htext⟩
    exact ⟨text, hname, by rwa [← Crate.equivalent_congr_right h]⟩
  · rintro ⟨text, hname, htext⟩
    exact ⟨text, hname, by rwa [Crate.equivalent_congr_right h]⟩

/-- Every release that the resolver gives is one of the crate that it was asked for. -/
def Resolver.Honours (resolver : Resolver σ) : Prop :=
  ∀ name world release, (resolver.resolve name world).1 = .ok release → release.IsOf name

/-- The worlds that look-ups lead to. -/
inductive Resolver.Reaches (resolver : Resolver σ) (start : World σ) : World σ → Prop
  | start : resolver.Reaches start start
  | ask {world : World σ} (name : String) (h : resolver.Reaches start world) :
      resolver.Reaches start (resolver.resolve name world).2

theorem Resolver.Reaches.first {resolver : Resolver σ} {start world : World σ} (name : String)
    (h : resolver.Reaches (resolver.resolve name start).2 world) :
    resolver.Reaches start world := by
  induction h with
  | start => exact .ask name .start
  | ask name _ ih => exact .ask name ih

/-! ## Look-ups on record -/

/-- The look-ups that were made, with their answers, in order. -/
abbrev Transcript := List (String × Except LookupError Release)

/-- Every release in the transcript is one of the crate that was asked for. -/
def Transcript.Honest (calls : Transcript) : Prop :=
  ∀ name release, (name, .ok release) ∈ calls → release.IsOf name

/-- The resolver with a note of every look-up and its answer kept outside. -/
def recording (resolver : Resolver σ) : Resolver (Transcript × σ) where
  resolve name := do
    let answer ← (resolver.resolve name).beside
    Act.outside fun kept => (kept.1 ++ [(name, answer)], kept.2)
    return answer
  close := resolver.close.beside

theorem recording_resolve (resolver : Resolver σ) (name : String) (world : World σ)
    (calls : Transcript) :
    (recording resolver).resolve name (world.keeping calls) =
      ((resolver.resolve name world).1, (resolver.resolve name world).2.keeping
        (calls ++ [(name, (resolver.resolve name world).1)])) := rfl

/-! ## The search command -/

theorem isOf_of_interpretSearch {name : String} {outcome : Except Command.Fault Command.Output}
    {release : Release} (h : interpretSearch name outcome = .ok release) :
    release.IsOf name := by
  unfold interpretSearch at h
  split at h
  · cases h
  · cases h
  · split at h
    · cases h
    · split at h
      · cases h
      · split at h
        · cases h
        · split at h
          · next hsame =>
              injection h with h
              exact ⟨_, by rw [← h], hsame⟩
          · cases h

theorem honours_searching (runner : Runner σ) (cargo : String) (timeout : Option Binary64) :
    (searching runner cargo timeout).Honours :=
  fun _ _ _ h => isOf_of_interpretSearch h

/-! ## The registry on the web -/

/-- The reply describes a crate: it is no error, and its body holds a description with a version. -/
def Reply.Describes (room : Nat) (reply : Reply) (description : Json) : Prop :=
  reply.status < 400 ∧ (∃ answer, Json.ofBytes room reply.body = .ok answer ∧
    description? answer = some description) ∧ (pickVersion? description).isSome

/-- The name that a description gives: its `name`, or else its `id`. -/
def givenName? (description : Json) : Option Json :=
  ((description.field? "name").filter Json.isPresent).or
    ((description.field? "id").filter Json.isPresent)

/-- A name that the reply gives for a crate is a spelling of `name`. -/
def Reply.Names (room : Nat) (reply : Reply) (name : String) : Prop :=
  ∀ description, reply.Describes room description → ∀ given, givenName? description = some given →
    ∃ text : String, given = .string text ∧ Crate.equivalent text name = true

theorem pickName_eq (description : Json) (name : String) :
    pickName description name = (givenName? description).getD (.string name) := rfl

/-- A description gives its own name to the release, or leaves it the name that was asked for. -/
theorem isOf_pickName_iff {description : Json} {name : String} {version : RawText} :
    Release.IsOf ⟨pickName description name, version⟩ name ↔
      ∀ given, givenName? description = some given →
        ∃ text : String, given = .string text ∧ Crate.equivalent text name = true := by
  unfold Release.IsOf
  rw [pickName_eq]
  cases hgiven : givenName? description with
  | none =>
      constructor
      · intro _ given hnone
        cases hnone
      · intro _
        exact ⟨name, rfl, Crate.equivalent_self name⟩
  | some given =>
      constructor
      · intro h other hsome
        injection hsome with hsame
        rw [← hsame]
        exact h
      · intro h
        exact h given rfl

theorem interpretAnswer_eq_ok_iff {name : String} {answer : Json} {release : Release} :
    interpretAnswer name answer = .ok release ↔ ∃ description version,
      description? answer = some description ∧ pickVersion? description = some version ∧
        release = ⟨pickName description name, version⟩ := by
  unfold interpretAnswer
  constructor
  · intro h
    split at h
    · cases h
    · next description hdescription =>
      split at h
      · cases h
      · next version hversion =>
        injection h with h
        exact ⟨description, version, hdescription, hversion, h.symm⟩
  · rintro ⟨description, version, hdescription, hversion, rfl⟩
    simp only [hdescription, hversion]

/-- A release comes from an answer that is no error, whose body is read. -/
theorem interpretReply_eq_ok_iff_answer {room : Nat} {name : String} {reply : Reply}
    {release : Release} :
    interpretReply room name (.ok reply) = .ok release ↔ reply.status < 400 ∧ ∃ answer,
      Json.ofBytes room reply.body = .ok answer ∧ interpretAnswer name answer = .ok release := by
  unfold interpretReply
  dsimp only
  constructor
  · intro h
    split at h
    · cases h
    · split at h
      · cases h
      · next hstatus =>
        split at h
        · cases h
        · cases h
        · next answer hbody => exact ⟨by omega, answer, hbody, h⟩
  · rintro ⟨hstatus, answer, hbody, hanswer⟩
    rw [if_neg (by omega), if_neg (by omega), hbody]
    exact hanswer

theorem interpretReply_eq_ok_iff {room : Nat} {name : String} {reply : Reply}
    {release : Release} :
    interpretReply room name (.ok reply) = .ok release ↔ ∃ description version,
      reply.Describes room description ∧ pickVersion? description = some version ∧
        release = ⟨pickName description name, version⟩ := by
  rw [interpretReply_eq_ok_iff_answer]
  constructor
  · rintro ⟨hstatus, answer, hbody, hanswer⟩
    obtain ⟨description, version, hdescription, hversion, rfl⟩ :=
      interpretAnswer_eq_ok_iff.mp hanswer
    exact ⟨description, version, ⟨hstatus, ⟨answer, hbody, hdescription⟩, by simp [hversion]⟩,
      hversion, rfl⟩
  · rintro ⟨description, version, ⟨hstatus, ⟨answer, hbody, hdescription⟩, -⟩, hversion, rfl⟩
    exact ⟨hstatus, answer, hbody,
      interpretAnswer_eq_ok_iff.mpr ⟨description, version, hdescription, hversion, rfl⟩⟩

/-- **A release from the web is as good as its reply.** -/
theorem isOf_interpretReply_iff {room : Nat} {name : String} {reply : Reply} :
    (∀ release, interpretReply room name (.ok reply) = .ok release → release.IsOf name) ↔
      reply.Names room name := by
  constructor
  · intro h description hdescribes
    obtain ⟨version, hversion⟩ := Option.isSome_iff_exists.mp hdescribes.2.2
    refine isOf_pickName_iff.mp (h ⟨pickName description name, version⟩ ?_)
    exact interpretReply_eq_ok_iff.mpr ⟨description, version, hdescribes, hversion, rfl⟩
  · intro h release hrelease
    obtain ⟨description, version, hdescribes, -, rfl⟩ := interpretReply_eq_ok_iff.mp hrelease
    exact isOf_pickName_iff.mpr (h description hdescribes)

/-- The address at which a registry on the web is asked for a crate. -/
def crateAddress? (base name : String) : Option Address :=
  (Address.ofText? (dropSlashes base ++ "/" ++ name).toList).filter Address.isAbsolute

/-- Every reply of the registry at `base` names the crate that it is about. -/
def Client.NamesCrates (client : Client σ) (base : String) : Prop :=
  ∀ name address, crateAddress? base name = some address → ∀ world reply,
    (client.fetch address.requested world).1 = .ok reply → reply.Names client.room name

/-- The answer of a registry on the web, in terms of what it sent. -/
theorem browsing_resolve (client : Client σ) (base name : String) (world : World σ) :
    ((browsing client base).resolve name world).1 =
      match Address.ofText? (dropSlashes base ++ "/" ++ name).toList with
      | none => .error .invalidAddress
      | some address =>
          match (client.fetch address.requested world).1 with
          | .ok reply =>
              if address.isAbsolute then interpretReply client.room name (.ok reply)
              else .error .relativeAddress
          | .error error => interpretReply client.room name (.error error) := by
  unfold browsing
  dsimp only
  cases Address.ofText? (dropSlashes base ++ "/" ++ name).toList with
  | none => rfl
  | some address =>
      simp only [bind, StateT.bind]
      rcases client.fetch address.requested world with ⟨error | reply, after⟩ <;> rfl

theorem interpretReply_error_ne_ok (room : Nat) (name : String) (error : FetchError)
    (release : Release) : interpretReply room name (.error error) ≠ .ok release := by
  cases error <;> simp [interpretReply]

/-- A release comes from a reply that was fetched at the address of the crate. -/
theorem browsing_resolve_eq_ok_iff {client : Client σ} {base name : String} {world : World σ}
    {release : Release} :
    ((browsing client base).resolve name world).1 = .ok release ↔ ∃ address reply,
      crateAddress? base name = some address ∧
        (client.fetch address.requested world).1 = .ok reply ∧
          interpretReply client.room name (.ok reply) = .ok release := by
  rw [browsing_resolve]
  unfold crateAddress?
  cases Address.ofText? (dropSlashes base ++ "/" ++ name).toList with
  | none => simp
  | some address =>
      by_cases habsolute : address.isAbsolute = true
      · cases hfetch : (client.fetch address.requested world).1 with
        | error error => simp [Option.filter, habsolute, hfetch, interpretReply_error_ne_ok]
        | ok reply => simp [Option.filter, habsolute, hfetch]
      · cases hfetch : (client.fetch address.requested world).1 with
        | error error => simp [Option.filter, habsolute, hfetch, interpretReply_error_ne_ok]
        | ok reply => simp [Option.filter, habsolute, hfetch]

theorem honours_browsing_iff (client : Client σ) (base : String) :
    (browsing client base).Honours ↔ client.NamesCrates base := by
  constructor
  · intro h name address haddress world reply hreply
    refine isOf_interpretReply_iff.mp fun release hrelease => ?_
    exact h name world release (browsing_resolve_eq_ok_iff.mpr
      ⟨address, reply, haddress, hreply, hrelease⟩)
  · intro h name world release hrelease
    obtain ⟨address, reply, haddress, hreply, hinterpret⟩ :=
      browsing_resolve_eq_ok_iff.mp hrelease
    exact isOf_interpretReply_iff.mpr (h name address haddress world reply hreply) release
      hinterpret

/-- **Which resolvers honour the contract**: the search command does, a registry on the web exactly
if its replies name the crates that they are about. -/
theorem honours_resolver_iff (settings : Settings) (runner : Runner σ) (client : Client σ) :
    (settings.resolver runner client).Honours ↔
      settings.registry = .search ∨ client.NamesCrates settings.registryAddress := by
  unfold Settings.resolver
  cases settings.registry with
  | search =>
      simp only [true_or, iff_true]
      exact honours_searching runner settings.cargo none
  | web =>
      simp only [reduceCtorEq, false_or]
      exact honours_browsing_iff client settings.registryAddress

/-! ## The cache -/

/-- Every release that is kept is one of the crate under whose normalized name it is kept. -/
def Cache.Sound (cache : Cache) : Prop :=
  ∀ name release, cache.get? (Crate.normalize name) = some release → release.IsOf name

theorem Cache.sound_nil : Cache.Sound [] := by
  intro name release h
  cases h

theorem Cache.Sound.put {cache : Cache} (h : cache.Sound) {name : String} {release : Release}
    (hrelease : release.IsOf name) :
    Cache.Sound (Entries.put cache (Crate.normalize name) release) := by
  intro other found hfound
  rw [Entries.get?_put] at hfound
  split at hfound
  · next hsame =>
      injection hfound with hfound
      rw [← hfound]
      exact (release.isOf_congr (Crate.equivalent_iff.mpr hsame)).mp hrelease
  · exact h other found hfound

/-- What the cache holds after an answer. -/
def Cache.after (cache : Cache) (name : String) : Except LookupError Release → Cache
  | .ok release => cache.put (Crate.normalize name) release
  | .error _ => cache

theorem remembering_resolve (inner : Resolver σ) (name : String) (world : World σ)
    (cache : Cache) :
    (remembering inner).resolve name (world.keeping cache) =
      match cache.get? (Crate.normalize name) with
      | some release => (.ok release, world.keeping cache)
      | none => ((inner.resolve name world).1,
          (inner.resolve name world).2.keeping (cache.after name (inner.resolve name world).1)) := by
  unfold remembering
  simp only [bind, StateT.bind, get, getThe, MonadStateOf.get, StateT.get, pure]
  show (match cache.get? (Crate.normalize name) with
    | some release => (StateT.pure (Except.ok release) : Act (Cache × σ) _)
    | none => _) (world.keeping cache) = _
  cases cache.get? (Crate.normalize name) with
  | some release => rfl
  | none =>
      dsimp only
      unfold StateT.bind
      rw [Act.beside_keeping]
      cases (inner.resolve name world).1 <;> rfl

/-- A look-up through a cache in any world. -/
theorem remembering_apply (inner : Resolver σ) (name : String) (world : World (Cache × σ)) :
    (remembering inner).resolve name world =
      match world.outside.1.get? (Crate.normalize name) with
      | some release => (.ok release, world)
      | none => ((inner.resolve name world.behind).1, (inner.resolve name world.behind).2.keeping
          (world.outside.1.after name (inner.resolve name world.behind).1)) :=
  remembering_resolve inner name world.behind world.outside.1

theorem files_remembering {inner : Resolver σ}
    (h : ∀ name world, (inner.resolve name world).2.files = world.files) (name : String)
    (world : World (Cache × σ)) :
    ((remembering inner).resolve name world).2.files = world.files := by
  rw [remembering_apply]
  cases world.outside.1.get? (Crate.normalize name) with
  | some release => rfl
  | none => exact h name _

/-- **The cache keeps the contract.** If the cache is sound and the resolver behind it honours the
contract, the release is one of the crate that was asked for, and the cache stays sound. -/
theorem remembering_sound {inner : Resolver σ} (hinner : inner.Honours) {cache : Cache}
    (hcache : cache.Sound) (name : String) (world : World σ) :
    (∀ release, ((remembering inner).resolve name (world.keeping cache)).1 = .ok release →
      release.IsOf name) ∧
    ∃ after kept, ((remembering inner).resolve name (world.keeping cache)).2 =
      World.keeping after kept ∧ Cache.Sound kept := by
  rw [remembering_resolve]
  cases hkept : cache.get? (Crate.normalize name) with
  | some found =>
      refine ⟨?_, world, cache, rfl, hcache⟩
      intro release hrelease
      injection hrelease with hrelease
      rw [← hrelease]
      exact hcache name found hkept
  | none =>
      refine ⟨fun release h => hinner name world release h, _, _, rfl, ?_⟩
      cases hanswer : (inner.resolve name world).1 with
      | error error => exact hcache
      | ok release => exact hcache.put (hinner name world release hanswer)

/-- The cache is sound in every world that look-ups through it lead to. -/
theorem sound_of_reaches {inner : Resolver σ} (hinner : inner.Honours)
    {start world : World (Cache × σ)} (hstart : start.outside.1.Sound)
    (h : (remembering inner).Reaches start world) : world.outside.1.Sound := by
  induction h with
  | start => exact hstart
  | @ask world name _ ih =>
      obtain ⟨-, after, kept, hafter, hkept⟩ := remembering_sound hinner ih name world.behind
      have hnext : ((remembering inner).resolve name world).2 = after.keeping kept := hafter
      rw [hnext]
      exact hkept

/-- What is asked of a resolver with a cache. -/
inductive CacheStep
  | ask (name : String)
  /-- The cache is emptied. -/
  | forget

/-- The look-ups of a sequence of steps through a cache. -/
def cachedRun (inner : Resolver σ) : List CacheStep → Act (Cache × σ) Transcript
  | [] => pure []
  | .ask name :: rest => do
      let answer ← (remembering inner).resolve name
      return (name, answer) :: (← cachedRun inner rest)
  | .forget :: rest => do
      forget
      cachedRun inner rest

/-- **The contract holds in every run through a cache**, and the cache stays sound. -/
theorem cachedRun_sound {inner : Resolver σ} (hinner : inner.Honours) (steps : List CacheStep)
    {cache : Cache} (hcache : cache.Sound) (world : World σ) :
    Transcript.Honest (cachedRun inner steps (world.keeping cache)).1 ∧
      Cache.Sound (cachedRun inner steps (world.keeping cache)).2.outside.1 := by
  induction steps generalizing cache world with
  | nil => exact ⟨fun name release h => absurd h List.not_mem_nil, hcache⟩
  | cons step rest ih =>
      cases step with
      | forget => exact ih Cache.sound_nil world
      | ask asked =>
          obtain ⟨hrelease, after, kept, hafter, hkept⟩ :=
            remembering_sound hinner hcache asked world
          have hrun : cachedRun inner (.ask asked :: rest) (world.keeping cache) =
              ((asked, ((remembering inner).resolve asked (world.keeping cache)).1) ::
                (cachedRun inner rest (after.keeping kept)).1,
                (cachedRun inner rest (after.keeping kept)).2) := by
            rw [← hafter]
            rfl
          obtain ⟨hhonest, hsound⟩ := ih hkept after
          rw [hrun]
          refine ⟨?_, hsound⟩
          intro name release hmem
          rcases List.mem_cons.mp hmem with hhead | htail
          · injection hhead with hname hanswer
            rw [hname]
            exact hrelease release hanswer.symm
          · exact hhonest name release htail

/-- **A cache in front of a resolver neither adds nor hides a breach of the contract.** -/
theorem honest_cachedRun_iff (inner : Resolver σ) :
    (∀ steps, ∀ world : World σ, Transcript.Honest (cachedRun inner steps (world.keeping [])).1) ↔
      inner.Honours := by
  constructor
  · intro h name world release hrelease
    refine h [.ask name] world name release ?_
    have hrun : (cachedRun inner [.ask name] (world.keeping [])).1 =
        [(name, ((remembering inner).resolve name (world.keeping [])).1)] := rfl
    rw [hrun, remembering_resolve]
    simp [Entries.get?, hrelease]
  · intro h steps world
    exact (cachedRun_sound h steps Cache.sound_nil world).1

/-! ## A resolver that knows some releases -/

theorem fixedResolver_resolve (versions : List (String × String)) (name : String)
    (world : World Rehearsal.Trace) :
    ((Rehearsal.fixedResolver versions).resolve name world).1 =
      match (Rehearsal.shelf versions).get? (Crate.normalize name) with
      | some (found, version) => .ok ⟨.string found, version⟩
      | none => .error (.notFound name) := by
  show ((match (Rehearsal.shelf versions).get? (Crate.normalize name) with
    | some (found, version) =>
        (pure (Except.ok (Release.mk (.string found) version)) : Act Rehearsal.Trace _)
    | none => pure (Except.error (LookupError.notFound name))) _).1 = _
  cases (Rehearsal.shelf versions).get? (Crate.normalize name) <;> rfl

theorem files_fixedResolver (versions : List (String × String)) (name : String)
    (world : World Rehearsal.Trace) :
    ((Rehearsal.fixedResolver versions).resolve name world).2.files = world.files := by
  show ((match (Rehearsal.shelf versions).get? (Crate.normalize name) with
    | some (found, version) =>
        (pure (Except.ok (Release.mk (.string found) version)) : Act Rehearsal.Trace _)
    | none => pure (Except.error (LookupError.notFound name))) _).2.files = world.files
  cases (Rehearsal.shelf versions).get? (Crate.normalize name) <;> rfl

theorem honours_fixedResolver (versions : List (String × String)) :
    (Rehearsal.fixedResolver versions).Honours := by
  intro name world release h
  rw [fixedResolver_resolve] at h
  cases hfound : (Rehearsal.shelf versions).get? (Crate.normalize name) with
  | none =>
      rw [hfound] at h
      cases h
  | some known =>
      obtain ⟨found, version⟩ := known
      rw [hfound] at h
      have hrelease := Except.ok.inj h
      obtain ⟨⟨key, _⟩, hentry, hknown⟩ := Option.map_eq_some_iff.mp hfound
      have hkey : key = Crate.normalize name := by
        simpa using List.find?_some hentry
      obtain ⟨pair, -, hpair⟩ := List.mem_map.mp
        (Entries.mem_of_mem_ofList (List.mem_of_find?_eq_some hentry))
      refine ⟨found, by rw [← hrelease], ?_⟩
      rw [Crate.equivalent_iff, ← hkey]
      have hpairkey : Crate.normalize pair.1 = key := (Prod.mk.inj hpair).1
      have hpairfound : pair.1 = found :=
        (Prod.mk.inj ((Prod.mk.inj hpair).2.trans hknown)).1
      rw [← hpairkey, hpairfound]

end Registry

end RustScript
