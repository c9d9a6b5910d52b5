import RustScript.Proofs.Pipeline.Frame
import RustScript.Proofs.Registry.Contract

/-!
# What a call asks of its collaborators

A pipeline asks its resolver for crates and its runner to run commands. The pipeline `noting` notes
every such request before it is passed on, and is otherwise the pipeline that it is made of. `Mirrors`
says so of a single action: the noting action gives the same result and leaves the same state, with
further requests noted, about which something is known. This is closed under sequencing, so that
what is known about a stage is put together from what is known about its parts (`notes_track`).
-/

set_option autoImplicit false

namespace RustScript

/-! ## Requests -/

/-- What the pipeline asks of its collaborators. -/
inductive Request
  /-- The resolver is asked for a crate. -/
  | lookUp (name : String)
  /-- The runner is called. -/
  | command (call : Command.Call)
  deriving DecidableEq, Repr

/-- The request is one for a crate. -/
def Request.IsLookUp (request : Request) : Prop := ∃ name, request = .lookUp name

/-- Notes a request. -/
def Request.take {σ : Type} (request : Request) : Act (List Request × σ) Unit :=
  Act.outside fun kept => (kept.1 ++ [request], kept.2)

/-- The runner that notes the calls. -/
def Runner.noting {σ : Type} (runner : Runner σ) : Runner (List Request × σ) := fun call => do
  (Request.command call).take
  runner.beside call

/-- The resolver that notes the crates that it is asked for. -/
def Registry.Resolver.noting {σ : Type} (resolver : Registry.Resolver σ) :
    Registry.Resolver (List Request × σ) where
  resolve name := do
    (Request.lookUp name).take
    resolver.beside.resolve name
  close := resolver.beside.close

/-- The store beside something more that is kept outside. -/
def Log.Store.beside {σ κ : Type} (store : Log.Store σ) : Log.Store (κ × σ) where
  save stem stage output := (store.save stem stage output).beside
  load stem stage := (store.load stem stage).beside
  append stem event := (store.append stem event).beside
  events stem := (store.events stem).beside
  delete stem := (store.delete stem).beside

/-- The pipeline that notes what it asks of its resolver and of its runner. -/
def Pipeline.noting {σ : Type} (pipeline : Pipeline σ) : Pipeline (List Request × σ) where
  settings := pipeline.settings
  resolver := pipeline.resolver.noting
  runner := pipeline.runner.noting
  store := pipeline.store.map Log.Store.beside
  structural := pipeline.structural

/-! ## Actions beside their notes -/

section

variable {ω ω' α β : Type} {keep : ω → List Request → ω'}

/-- The noting action does what `action` does, and notes requests besides; `effect` holds of the
state before, the result, the state after and these requests. -/
def MirrorsAt (keep : ω → List Request → ω') (effect : ω → α → ω → List Request → Prop)
    (action : StateM ω α) (noting : StateM ω' α) (state : ω) (before : List Request) : Prop :=
  ∃ asked,
    noting (keep state before) = ((action state).1, keep (action state).2 (before ++ asked)) ∧
      effect state (action state).1 (action state).2 asked

/-- The noting action mirrors `action` wherever it is started. -/
def Mirrors (keep : ω → List Request → ω') (effect : ω → α → ω → List Request → Prop)
    (action : StateM ω α) (noting : StateM ω' α) : Prop :=
  ∀ state before, MirrorsAt keep effect action noting state before

theorem Mirrors.mono {effect effect' : ω → α → ω → List Request → Prop} {action : StateM ω α}
    {noting : StateM ω' α} (h : Mirrors keep effect action noting)
    (hmono : ∀ state result after asked, effect state result after asked →
      effect' state result after asked) : Mirrors keep effect' action noting := by
  intro state before
  obtain ⟨asked, hrun, heffect⟩ := h state before
  exact ⟨asked, hrun, hmono _ _ _ _ heffect⟩

/-- What is known about the result of an action can be added to its effect. -/
theorem Mirrors.and {effect : ω → α → ω → List Request → Prop} {action : StateM ω α}
    {noting : StateM ω' α} (h : Mirrors keep effect action noting) {known : ω → α → ω → Prop}
    (hknown : ∀ state, known state (action state).1 (action state).2) :
    Mirrors keep (fun state result after asked =>
      effect state result after asked ∧ known state result after) action noting := by
  intro state before
  obtain ⟨asked, hrun, heffect⟩ := h state before
  exact ⟨asked, hrun, heffect, hknown state⟩

theorem mirrors_pure {effect : ω → α → ω → List Request → Prop} {value : α}
    (h : ∀ state, effect state value state []) :
    Mirrors keep effect (pure value : StateM ω α) (pure value : StateM ω' α) := by
  intro state before
  refine ⟨[], ?_, h state⟩
  rw [List.append_nil]
  rfl

/-- The value is returned and nothing else happens. -/
def Returns (value : α) (before : ω) (result : α) (after : ω) (asked : List Request) : Prop :=
  result = value ∧ after = before ∧ asked = []

theorem mirrors_return (value : α) :
    Mirrors keep (Returns value) (pure value : StateM ω α) (pure value : StateM ω' α) :=
  mirrors_pure fun _ => ⟨rfl, rfl, rfl⟩

/-- What two actions do one after the other. -/
def Then (first : ω → α → ω → List Request → Prop) (second : α → ω → β → ω → List Request → Prop)
    (state : ω) (result : β) (after : ω) (asked : List Request) : Prop :=
  ∃ value between early late, first state value between early ∧
    second value between result after late ∧ asked = early ++ late

theorem Mirrors.bind {first : ω → α → ω → List Request → Prop}
    {second : α → ω → β → ω → List Request → Prop} {action : StateM ω α} {noting : StateM ω' α}
    {next : α → StateM ω β} {next' : α → StateM ω' β} (haction : Mirrors keep first action noting)
    (hnext : ∀ value, Mirrors keep (second value) (next value) (next' value)) :
    Mirrors keep (Then first second) (action >>= next) (noting >>= next') := by
  intro state before
  obtain ⟨early, hearly, hfirst⟩ := haction state before
  obtain ⟨late, hlate, hsecond⟩ := hnext (action state).1 (action state).2 (before ++ early)
  refine ⟨early ++ late, ?_, (action state).1, (action state).2, early, late, hfirst, hsecond, rfl⟩
  rw [Frame.stateBind_apply, Frame.stateBind_apply, hearly, hlate, List.append_assoc]

theorem Mirrors.map {effect : ω → α → ω → List Request → Prop} {action : StateM ω α}
    {noting : StateM ω' α} (h : Mirrors keep effect action noting) (f : α → β) :
    Mirrors keep (fun state result after asked => ∃ value, effect state value after asked ∧
        result = f value) (action >>= fun value => pure (f value))
      (noting >>= fun value => pure (f value)) := by
  intro state before
  obtain ⟨asked, hrun, heffect⟩ := h state before
  refine ⟨asked, ?_, (action state).1, heffect, rfl⟩
  rw [Frame.stateBind_apply, Frame.stateBind_apply, hrun]
  rfl

/-- An action that looks at its state first. -/
theorem mirrors_get_bind {effect : ω → α → ω → List Request → Prop} {next : ω → StateM ω α}
    {next' : ω' → StateM ω' α}
    (h : ∀ state before,
      MirrorsAt keep effect (next state) (next' (keep state before)) state before) :
    Mirrors keep effect (get >>= next) (get >>= next') := h

/-- All requests are of some kind. -/
def Asks (kind : Request → Prop) (_ : ω) (_ : α) (_ : ω) (asked : List Request) : Prop :=
  ∀ request ∈ asked, kind request

/-- Nothing is asked for. -/
def Quiet (_ : ω) (_ : α) (_ : ω) (asked : List Request) : Prop := asked = []

theorem mirrors_pure_quiet (value : α) :
    Mirrors keep Quiet (pure value : StateM ω α) (pure value : StateM ω' α) :=
  mirrors_pure fun _ => rfl

theorem Mirrors.bind_quiet {action : StateM ω α} {noting : StateM ω' α} {next : α → StateM ω β}
    {next' : α → StateM ω' β} (haction : Mirrors keep Quiet action noting)
    (hnext : ∀ value, Mirrors keep Quiet (next value) (next' value)) :
    Mirrors keep Quiet (action >>= next) (noting >>= next') := by
  refine (haction.bind hnext).mono ?_
  rintro _ _ _ asked ⟨_, _, early, late, hearly, hlate, rfl⟩
  rw [hearly, hlate]
  rfl

theorem mirrors_pure_asks {kind : Request → Prop} (value : α) :
    Mirrors keep (Asks kind) (pure value : StateM ω α) (pure value : StateM ω' α) :=
  mirrors_pure fun _ _ h => absurd h List.not_mem_nil

theorem Mirrors.asks {kind : Request → Prop} {action : StateM ω α} {noting : StateM ω' α}
    (h : Mirrors keep Quiet action noting) : Mirrors keep (Asks kind) action noting :=
  h.mono fun _ _ _ _ hquiet request hrequest => by
    rw [hquiet] at hrequest
    exact absurd hrequest List.not_mem_nil

theorem Mirrors.bind_asks {kind : Request → Prop} {action : StateM ω α} {noting : StateM ω' α}
    {next : α → StateM ω β} {next' : α → StateM ω' β}
    (haction : Mirrors keep (Asks kind) action noting)
    (hnext : ∀ value, Mirrors keep (Asks kind) (next value) (next' value)) :
    Mirrors keep (Asks kind) (action >>= next) (noting >>= next') := by
  refine (haction.bind hnext).mono ?_
  rintro _ _ _ asked ⟨_, _, early, late, hearly, hlate, rfl⟩ request hrequest
  exact (List.mem_append.mp hrequest).elim (hearly request) (hlate request)

end

/-! ## Actions on the world -/

namespace Act

variable {σ α : Type}

/-- What an action on the world asks for. -/
abbrev Notes (effect : World σ → α → World σ → List Request → Prop) (action : Act σ α)
    (noting : Act (List Request × σ) α) : Prop :=
  Mirrors World.keeping effect action noting

theorem notes_beside (action : Act σ α) : Notes Quiet action action.beside := by
  intro world before
  refine ⟨[], ?_, rfl⟩
  rw [beside_keeping, List.append_nil]

theorem notes_files (action : FileAction α) : Notes Quiet (files action : Act σ _) (files action) :=
  notes_beside (files action)

theorem notes_look (view : FileSystem → α) : Notes Quiet (look view : Act σ _) (look view) :=
  notes_beside (look view)

theorem notes_now : Notes Quiet (now : Act σ _) now := notes_beside now

theorem notes_readText (path : Path) : Notes Quiet (readText path : Act σ _) (readText path) :=
  (notes_files _).bind_quiet fun content => by cases content <;> exact mirrors_pure_quiet _

/-- A call is noted before it is passed on. -/
theorem notes_runner (runner : Runner σ) (call : Command.Call) :
    Notes (fun _ result _ asked => asked = [.command call] ∧
      ∃ world, (runner call world).1 = result) (runner call) (runner.noting call) :=
  fun world _ => ⟨[.command call], rfl, rfl, world, rfl⟩

variable (resolver : Registry.Resolver σ)

/-- A look-up is noted before it is passed on. -/
theorem notes_resolve (name : String) :
    Notes (Asks Request.IsLookUp) (resolver.resolve name) (resolver.noting.resolve name) :=
  fun _ _ => ⟨[.lookUp name], rfl, fun _ h => ⟨name, List.mem_singleton.mp h⟩⟩

theorem notes_lookUpAll (names : List String) :
    Notes (Asks Request.IsLookUp) (Manifest.lookUpAll resolver names)
      (Manifest.lookUpAll resolver.noting names) := by
  induction names with
  | nil => exact mirrors_pure_asks _
  | cons name rest ih =>
      refine (notes_resolve resolver name).bind_asks fun answer => ?_
      cases Manifest.readAnswer answer with
      | error error => exact mirrors_pure_asks _
      | ok given => exact ih.bind_asks fun _ => mirrors_pure_asks _

/-- A merge asks for nothing but crates. -/
theorem notes_merge (version edition : String) (metadata : Source.Metadata) (stem : String)
    (binary : Path) :
    Notes (Asks Request.IsLookUp)
      (Manifest.merge resolver version edition metadata stem binary)
      (Manifest.merge resolver.noting version edition metadata stem binary) := by
  unfold Manifest.merge
  split
  · exact mirrors_pure_asks _
  · dsimp only
    split
    · exact mirrors_pure_asks _
    · exact (notes_lookUpAll resolver _).bind_asks fun _ => mirrors_pure_asks _

end Act

/-! ## Tracked stages -/

/-- The session with something more kept outside. -/
def Session.keeping {σ κ : Type} (session : Session σ) (kept : κ) : Session (κ × σ) :=
  ⟨session.world.keeping kept, session.subject⟩

namespace Pipeline

open RustScript.Progress

variable {σ κ α : Type}

/-- An action on the session beside something more that is kept outside. -/
def besideSession (action : StateM (Session σ) α) : StateM (Session (κ × σ)) α := fun session =>
  let world := session.world
  let (result, after) :=
    action ⟨⟨world.files, world.clock, world.readings, world.outside.2⟩, session.subject⟩
  (result, after.keeping world.outside.1)

theorem besideSession_keeping (action : StateM (Session σ) α) (session : Session σ) (kept : κ) :
    besideSession action (session.keeping kept) =
      ((action session).1, (action session).2.keeping kept) := rfl

theorem journal_apply (store : Log.Store σ) (record : Record) (session : Session σ) :
    journal store record session =
      match session.subject with
      | none => (.ok (), session)
      | some stem =>
          if stem.isEmpty then (.ok (), session)
          else ((store.append stem (note record) session.world).1.mapError SystemError.message,
            ⟨(store.append stem (note record) session.world).2, session.subject⟩) := by
  obtain ⟨world, subject⟩ := session
  cases subject with
  | none => rfl
  | some stem =>
      unfold journal
      rw [Frame.stateBind_apply]
      show (if stem.isEmpty then _ else _ : StateM (Session σ) _) _ =
        if stem.isEmpty then _ else _
      split <;> rfl

theorem journal_beside (store : Log.Store σ) (record : Record) :
    journal (store.beside : Log.Store (κ × σ)) record = besideSession (journal store record) := by
  funext session
  obtain ⟨⟨files, clock, readings, kept, outside⟩, subject⟩ := session
  set session : Session σ := ⟨⟨files, clock, readings, outside⟩, subject⟩
  show journal (store.beside : Log.Store (κ × σ)) record (session.keeping kept) =
    besideSession (journal store record) (session.keeping kept)
  rw [besideSession_keeping, journal_apply, journal_apply]
  cases subject with
  | none => rfl
  | some stem =>
      by_cases hempty : stem.isEmpty = true
      · simp only [session, Session.keeping, hempty, if_true]
      · simp only [session, Session.keeping, hempty]
        rfl

end Pipeline

/-! ## Actions under a tracker -/

/-- The tracker with something more kept outside; its listeners do not mind. -/
def Progress.Tracker.keeping {σ κ : Type} (tracker : Progress.Tracker (Session σ)) (kept : κ) :
    Progress.Tracker (Session (κ × σ)) :=
  ⟨tracker.records,
    tracker.listeners.map fun listener record => Pipeline.besideSession (listener record),
    tracker.state.keeping kept⟩

namespace Pipeline

open RustScript.Progress

variable {σ α β ε : Type}

/-- What an action of the pipeline asks for. -/
abbrev Notes (effect : Tracker (Session σ) → α → Tracker (Session σ) → List Request → Prop)
    (action : Run σ α) (noting : Run (List Request × σ) α) : Prop :=
  Mirrors Tracker.keeping effect action noting

/-- The records stay as they are. -/
def Leaves (effect : α → List Request → Prop) (before : Tracker (Session σ)) (result : α)
    (after : Tracker (Session σ)) (asked : List Request) : Prop :=
  after.records = before.records ∧ effect result asked

/-- One record is added behind the others. -/
def Adds (effect : α → Record → List Request → Prop) (before : Tracker (Session σ)) (result : α)
    (after : Tracker (Session σ)) (asked : List Request) : Prop :=
  ∃ record, after.records = before.records ++ [record] ∧ effect result record asked

/-- The record at a place is changed, but stays one of the same stage. -/
def Amends (place : Nat) (effect : α → List Request → Prop) (before : Tracker (Session σ))
    (result : α) (after : Tracker (Session σ)) (asked : List Request) : Prop :=
  (∃ change : Record → Record, (∀ record, (change record).stage = record.stage) ∧
    after.records = before.records.modify place change) ∧ effect result asked

theorem notes_onState {effect : α → List Request → Prop} {action : StateM (Session σ) α}
    {noting : StateM (Session (List Request × σ)) α}
    (h : Mirrors Session.keeping (fun _ result _ asked => effect result asked) action noting) :
    Notes (Leaves effect) (onState action) (onState noting) := by
  intro tracker before
  obtain ⟨asked, hrun, heffect⟩ := h tracker.state before
  refine ⟨asked, ?_, rfl, heffect⟩
  show ((noting (tracker.state.keeping before)).1,
    Tracker.mk _ _ (noting (tracker.state.keeping before)).2) = _
  rw [hrun]
  rfl

theorem mirrors_inSession {effect : α → List Request → Prop} {action : Act σ α}
    {noting : Act (List Request × σ) α}
    (h : Act.Notes (fun _ result _ asked => effect result asked) action noting) :
    Mirrors Session.keeping (fun _ result _ asked => effect result asked) (inSession action)
      (inSession noting) := by
  intro session before
  obtain ⟨asked, hrun, heffect⟩ := h session.world before
  refine ⟨asked, ?_, heffect⟩
  show ((noting (session.world.keeping before)).1,
    Session.mk (noting (session.world.keeping before)).2 _) = _
  rw [hrun]
  rfl

theorem notes_onWorld {effect : α → List Request → Prop} {action : Act σ α}
    {noting : Act (List Request × σ) α}
    (h : Act.Notes (fun _ result _ asked => effect result asked) action noting) :
    Notes (Leaves effect) (onWorld action) (onWorld noting) :=
  notes_onState (mirrors_inSession h)

/-- Reading the clock asks for nothing. -/
theorem mirrors_now : Mirrors Session.keeping Quiet (now : StateM (Session σ) Binary64) now :=
  mirrors_inSession Act.notes_now

theorem notes_pure {effect : α → List Request → Prop} {value : α} (h : effect value []) :
    Notes (Leaves effect) (pure value : Run σ α) (pure value) :=
  mirrors_pure fun _ => ⟨rfl, h⟩

/-- What is asked for first comes before the rest. -/
theorem notes_bind {first : α → List Request → Prop} {second : α → β → List Request → Prop}
    {action : Run σ α} {noting : Run (List Request × σ) α} {next : α → Run σ β}
    {next' : α → Run (List Request × σ) β} (haction : Notes (Leaves first) action noting)
    (hnext : ∀ value, Notes (Leaves (second value)) (next value) (next' value)) :
    Notes (Leaves fun result asked => ∃ value early late, first value early ∧
      second value result late ∧ asked = early ++ late) (action >>= next) (noting >>= next') := by
  refine (haction.bind hnext).mono ?_
  rintro before result after asked ⟨value, between, early, late, ⟨hbetween, hearly⟩,
    ⟨hafter, hlate⟩, hasked⟩
  exact ⟨hafter.trans hbetween, value, early, late, hearly, hlate, hasked⟩

/-- An action that asks for nothing can stand in front of others. -/
theorem notes_bind_of_quiet {effect : β → List Request → Prop} {action : Run σ α}
    {noting : Run (List Request × σ) α} {next : α → Run σ β}
    {next' : α → Run (List Request × σ) β}
    (haction : Notes (Leaves fun _ asked => asked = []) action noting)
    (hnext : ∀ value, Notes (Leaves effect) (next value) (next' value)) :
    Notes (Leaves effect) (action >>= next) (noting >>= next') := by
  refine (notes_bind haction hnext).mono ?_
  rintro before result after _ ⟨hrecords, _, _, asked, rfl, heffect, rfl⟩
  exact ⟨hrecords, heffect⟩

/-- An action that asks for nothing can stand in front of a stage. -/
theorem notes_adds_of_quiet {effect : β → Record → List Request → Prop} {action : Run σ α}
    {noting : Run (List Request × σ) α} {next : α → Run σ β}
    {next' : α → Run (List Request × σ) β}
    (haction : Notes (Leaves fun _ asked => asked = []) action noting)
    (hnext : ∀ value, Notes (Adds effect) (next value) (next' value)) :
    Notes (Adds effect) (action >>= next) (noting >>= next') := by
  refine (haction.bind hnext).mono ?_
  rintro before result after _ ⟨_, between, _, asked, ⟨hbetween, rfl⟩,
    ⟨record, hrecords, heffect⟩, rfl⟩
  exact ⟨record, by rw [hrecords, hbetween], heffect⟩

theorem notes_adds_map {effect : α → Record → List Request → Prop} {action : Run σ α}
    {noting : Run (List Request × σ) α} (h : Notes (Adds effect) action noting) (f : α → β) :
    Notes (Adds fun result record asked => ∃ value, effect value record asked ∧ result = f value)
      (action >>= fun value => pure (f value)) (noting >>= fun value => pure (f value)) := by
  refine (h.map f).mono ?_
  rintro before result after asked ⟨value, ⟨record, hrecords, heffect⟩, hresult⟩
  exact ⟨record, hrecords, value, heffect, hresult⟩

theorem tellAll_beside (record : Record) (listeners : List (Listener (Session σ)))
    (session : Session σ) (kept : List Request) :
    tellAll record (listeners.map fun listener record => besideSession (listener record))
        (session.keeping kept) =
      ((), (tellAll record listeners session).2.keeping kept) := by
  induction listeners generalizing session with
  | nil => rfl
  | cons listener rest ih => exact ih (listener record session).2

theorem notes_tell (record : Record) :
    Notes (Leaves fun _ asked => asked = []) (tell record : Run σ Unit) (tell record) := by
  intro tracker before
  refine ⟨[], ?_, rfl, rfl⟩
  show (_, Tracker.mk _ _ (tellAll record
    (tracker.listeners.map fun listener record => besideSession (listener record))
    (tracker.state.keeping before)).2) = _
  rw [tellAll_beside, List.append_nil]
  rfl

theorem notes_start (record : Record) :
    Notes (fun before place after asked => place = before.records.length ∧
      after.records = before.records ++ [record] ∧ asked = []) (start record : Run σ Nat)
      (start record) := by
  intro tracker before
  set added : Tracker (Session σ) :=
    ⟨tracker.records ++ [record], tracker.listeners, tracker.state⟩
  obtain ⟨asked, hrun, hrecords, hasked⟩ := notes_tell record added before
  refine ⟨asked, ?_, rfl, hrecords, hasked⟩
  show (tracker.records.length, (tell record (added.keeping before)).2) = _
  rw [hrun]
  rfl

theorem notes_amend (place : Nat) (change : Record → Record) :
    Notes (fun before _ after asked =>
      after.records = before.records.modify place change ∧ asked = [])
      (amend place change : Run σ Unit) (amend place change) := by
  intro tracker before
  refine ⟨[], ?_, rfl, rfl⟩
  rw [List.append_nil]
  rfl

theorem notes_skip (stage reason : String) :
    Notes (Adds fun _ record asked => record = .skip stage reason ∧ asked = [])
      (skip stage reason : Run σ Unit) (skip stage reason) := by
  intro tracker before
  obtain ⟨asked, hrun, -, hrecords, hasked⟩ := notes_start (.skip stage reason) tracker before
  refine ⟨asked, ?_, _, hrecords, rfl, hasked⟩
  show ((), (start (.skip stage reason) (tracker.keeping before)).2) = _
  rw [hrun]
  rfl

/-- Tells the listeners about the record at a place, if there is one. -/
theorem notes_tellAt (place : Nat) :
    Notes (Leaves fun _ asked => asked = [])
      (do if let some record := (← get).records[place]? then tell record : Run σ Unit)
      (do if let some record := (← get).records[place]? then tell record) := by
  refine mirrors_get_bind fun tracker before => ?_
  show MirrorsAt Tracker.keeping _ (match tracker.records[place]? with
    | some record => tell record
    | _ => pure ()) (match tracker.records[place]? with
    | some record => tell record
    | _ => pure ()) tracker before
  cases tracker.records[place]? with
  | none => exact mirrors_pure (fun _ => ⟨rfl, rfl⟩) tracker before
  | some record => exact notes_tell record tracker before

/-- A stage is finished in its record. -/
theorem notes_finish {now : StateM (Session σ) Binary64}
    {now' : StateM (Session (List Request × σ)) Binary64}
    (hnow : Mirrors Session.keeping Quiet now now') (place : Nat) (error : Option String) :
    Notes (fun before _ after asked => (∃ reading, after.records =
        before.records.modify place fun record => record.finish reading error) ∧ asked = [])
      (finish now place error) (finish now' place error) := by
  have hreading : Notes (Leaves fun _ asked => asked = []) (onState now) (onState now') :=
    notes_onState hnow
  refine (hreading.bind fun reading => (notes_amend place fun record =>
    record.finish reading error).bind fun _ => notes_tellAt place).mono ?_
  rintro before _ after _ ⟨reading, read, _, _, ⟨hread, rfl⟩,
    ⟨_, amended, _, _, ⟨hamended, rfl⟩, ⟨htold, rfl⟩, rfl⟩, rfl⟩
  refine ⟨⟨reading, ?_⟩, rfl⟩
  rw [htold, hamended, hread]

theorem modify_last (records : List Record) (record : Record) (change : Record → Record) :
    (records ++ [record]).modify records.length change = records ++ [change record] := by
  rw [List.modify_eq_set_getElem?]
  simp

/-- The status of a stage that ended with a result. -/
def statusOf : Except ε α → Status
  | .ok _ => .completed
  | .error _ => .failed

/-- The error of a stage that ended with a result, in words. -/
def errorOf (describe : ε → String) : Except ε α → Option String
  | .ok _ => none
  | .error error => some (describe error)

/-- The record says how the stage ended. -/
structure Ended (stage : String) (describe : ε → String) (result : Except ε α) (record : Record) :
    Prop where
  stage : record.stage = stage
  status : record.status = statusOf result
  error : record.error = errorOf describe result

/-- **A tracked stage** adds one record, which says how it ended, and asks for what its body asks
for. -/
theorem notes_track {now : StateM (Session σ) Binary64}
    {now' : StateM (Session (List Request × σ)) Binary64}
    (hnow : Mirrors Session.keeping Quiet now now') (stage : String) (describe : ε → String)
    {effect : Except ε α → List Request → Prop} {body : Nat → Run σ (Except ε α)}
    {body' : Nat → Run (List Request × σ) (Except ε α)}
    (hbody : ∀ place, Notes (Amends place effect) (body place) (body' place)) :
    Notes (Adds fun result record asked => Ended stage describe result record ∧
        effect result asked) (track now stage describe body) (track now' stage describe body') := by
  have hreading : Notes (Leaves fun _ asked => asked = []) (onState now) (onState now') :=
    notes_onState hnow
  refine (hreading.bind fun reading => (notes_start (.begin stage reading)).bind fun place =>
    (hbody place).bind fun result => (notes_finish hnow place _).bind fun _ =>
      mirrors_return result).mono ?_
  rintro before result after _ ⟨reading, read, _, _, ⟨hread, rfl⟩,
    ⟨place, started, _, _, ⟨rfl, hstarted, rfl⟩,
      ⟨_, ran, asked, _, ⟨⟨change, hstage, hran⟩, heffect⟩,
        ⟨_, finished, _, _, ⟨⟨ending, hfinished⟩, rfl⟩, ⟨rfl, rfl, rfl⟩, rfl⟩, rfl⟩, rfl⟩, rfl⟩
  refine ⟨(change (.begin stage reading)).finish ending (errorOf describe result), ?_,
    ⟨hstage _, ?_, rfl⟩, ?_⟩
  · rw [hfinished, hran, hstarted, modify_last, modify_last, hread]
    cases result <;> rfl
  · cases result <;> rfl
  · simpa using heffect

end Pipeline

end RustScript
