import RustScript.Progress.Board
import RustScript.Proofs.Pipeline.Requests
import RustScript.Proofs.Progress.Reliable

/-!
# The story that records tell

Stages are timed and left out on a board, one after the other or one inside another; they end well or
with an error, what is done on the way may have hold of every record and of the list of listeners, and
so may the listeners, of whom each may fail whenever it is told something. A `Story` is what has
happened in such a `Use`, stage by stage. If whoever has hold of a record changes nothing but its
detail, and nobody touches the list of listeners (`Discreet`), the records are the stages of the story
in the order in which they began, every listener hears the changes of the story in the order in which
they occurred, and whatever is done on the way finds the story so far (`story_of_use`). Meddlers break
the story (`meddlers_told`).
-/

set_option autoImplicit false

namespace RustScript.Progress

variable {ω ε α β : Type}

/-! ## Uses of a board -/

/-- A way to use a board. -/
inductive Use (ω ε : Type) : Type → Type 1
  /-- Return a value, or raise an error. -/
  | done {α : Type} (result : Except ε α) : Use ω ε α
  /-- Do anything to the board. -/
  | act {α β : Type} (action : Shared ω β) (next : β → Use ω ε α) : Use ω ε α
  /-- Leave a stage out, and go on with its record. -/
  | skip {α : Type} (stage reason : String) (next : Nat → Use ω ε α) : Use ω ε α
  /-- Time a stage that has hold of its record, and go on from what it gives or from the error that it
  ends with. -/
  | track {α β : Type} (stage : String) (body : Nat → Use ω ε β) (next : Except ε β → Use ω ε α) :
      Use ω ε α

/-- Uses a board before an audience. -/
def Use.run {α : Type} (audience : Audience ω) (now : StateM ω Binary64) (words : ε → String) :
    Use ω ε α → Shared ω (Except ε α)
  | .done result => pure result
  | .act action next => do (next (← action)).run audience now words
  | .skip stage reason next => do
      (next (← Board.skip audience stage reason)).run audience now words
  | .track stage body next => do
      let result ← Board.track audience now stage words fun place =>
        (body place).run audience now words
      (next result).run audience now words

/-- The record without its detail. -/
def Record.undetailed (record : Record) : Record := { record with detail := "" }

/-- The action returns, leaves the list of listeners and the list of records alone, and changes nothing
of a record but its detail. -/
def Discreet (action : Shared ω α) : Prop :=
  ∀ board, ∃ value after, action board = some (value, after) ∧
    after.listeners = board.listeners ∧ after.kept = board.kept ∧
    after.made.map Record.undetailed = board.made.map Record.undetailed

/-- Whatever is done on the way is discreet. -/
def Use.Discreet {α : Type} : Use ω ε α → Prop
  | .done _ => True
  | .act action next => Progress.Discreet action ∧ ∀ value, (next value).Discreet
  | .skip _ _ next => ∀ place, (next place).Discreet
  | .track _ body next => (∀ place, (body place).Discreet) ∧ ∀ result, (next result).Discreet

/-- One action after the other. -/
theorem sharedBind_apply (action : Shared ω α) (next : α → Shared ω β) (board : Board ω) :
    (action >>= next) board = (action board).bind fun done => next done.1 done.2 := rfl

theorem shared_get (board : Board ω) : (get : Shared ω (Board ω)) board = some (board, board) := rfl

theorem discreet_pure (value : α) : Discreet (pure value : Shared ω α) := fun board =>
  ⟨value, board, rfl, rfl, rfl, rfl⟩

theorem discreet_onState (action : StateM ω α) : Discreet (Board.onState action) := fun board =>
  ⟨(action board.state).1, { board with state := (action board.state).2 }, rfl, rfl, rfl, rfl⟩

/-- Saying more about a stage is discreet. -/
theorem discreet_describe (place : Nat) (detail : String) :
    Discreet (Board.describe place detail : Shared ω Unit) := by
  intro board
  refine ⟨(), _, rfl, rfl, rfl, ?_⟩
  apply List.ext_getElem?
  intro index
  show ((board.made.modify place _).map _)[index]? = _
  rw [List.getElem?_map, List.getElem?_map, List.getElem?_modify]
  cases board.made[index]? with
  | none => simp
  | some record => by_cases h : place = index <;> simp [h, Record.undetailed]

theorem Discreet.bind {action : Shared ω α} {next : α → Shared ω β} (h : Discreet action)
    (hnext : ∀ value, Discreet (next value)) : Discreet (action >>= next) := by
  intro board
  obtain ⟨value, between, hrun, hlisteners, hkept, hmade⟩ := h board
  obtain ⟨last, after, hlast, hlastListeners, hlastKept, hlastMade⟩ := hnext value between
  refine ⟨last, after, ?_, hlastListeners.trans hlisteners, hlastKept.trans hkept,
    hlastMade.trans hmade⟩
  rw [sharedBind_apply, hrun]
  exact hlast

/-! ## Stories -/

/-- What has happened: the first thing, and then the rest. -/
inductive Story
  | nothing
  | skipped (stage : String) (rest : Story)
  /-- A stage was timed; `inner` happened meanwhile, and it took `elapsed` seconds. -/
  | tracked (stage : String) (inner : Story) (elapsed : Binary64) (error : Option String)
      (rest : Story)

/-- A change of a record. -/
inductive Change
  | begun (stage : String)
  | ended (stage : String) (elapsed : Binary64) (error : Option String)
  | skipped (stage : String)

/-- The changes in the order in which they occur. -/
def Story.changes : Story → List Change
  | .nothing => []
  | .skipped stage rest => .skipped stage :: rest.changes
  | .tracked stage inner elapsed error rest =>
      .begun stage :: (inner.changes ++ .ended stage elapsed error :: rest.changes)

/-- The last change of each stage, in the order in which the stages began. -/
def Story.stages : Story → List Change
  | .nothing => []
  | .skipped stage rest => .skipped stage :: rest.stages
  | .tracked stage inner elapsed error rest =>
      .ended stage elapsed error :: (inner.stages ++ rest.stages)

/-- The record is as the change leaves it. A stage that has ended is one that failed exactly if there
was an error. -/
def Change.Shows : Change → Record → Prop
  | .begun stage, record =>
      record.stage = stage ∧ record.status = .running ∧ record.started.isSome = true ∧
        record.elapsed = none ∧ record.error = none
  | .ended stage elapsed error, record =>
      record.stage = stage ∧ record.finished = true ∧ record.elapsed = some elapsed ∧
        record.status = (if error.isSome then .failed else .completed) ∧ record.error = error
  | .skipped stage, record =>
      record.stage = stage ∧ record.status = .skipped ∧ record.started = none ∧
        record.elapsed = none ∧ record.error = none

/-- The board keeps a record for each of the changes, in their order. -/
structure Board.Shows (past : List Change) (board : Board ω) : Prop where
  kept : board.kept = List.range board.made.length
  made : List.Forall₂ Change.Shows past board.made

/-! ## What a use comes to -/

/-- The story is one of the use, which comes to `result`; so far, the stages are as in `past`. Whatever
is done to the board finds it so. A stage gets hold of its record, and what it gives, or the error
that it ends with, is what the use goes on from. -/
inductive Tells (words : ε → String) :
    {α : Type} → List Change → Use ω ε α → Story → Except ε α → Prop
  | done {α : Type} {past : List Change} {result : Except ε α} :
      Tells words past (.done result) .nothing result
  | act {α β : Type} {past : List Change} {action : Shared ω β} {next : β → Use ω ε α}
      {story : Story} {result : Except ε α} {board after : Board ω} {value : β} :
      board.Shows past → Reliable board.records → action board = some (value, after) →
      Tells words past (next value) story result → Tells words past (.act action next) story result
  | skip {α : Type} {past : List Change} {stage reason : String} {next : Nat → Use ω ε α}
      {rest : Story} {result : Except ε α} :
      Tells words (past ++ [.skipped stage]) (next past.length) rest result →
      Tells words past (.skip stage reason next) (.skipped stage rest) result
  | track {α β : Type} {past : List Change} {stage : String} {body : Nat → Use ω ε β}
      {next : Except ε β → Use ω ε α} {inner rest : Story} {elapsed : Binary64}
      {given : Except ε β} {result : Except ε α} :
      Tells words (past ++ [.begun stage]) (body past.length) inner given →
      Tells words (past ++ .ended stage elapsed (Pipeline.errorOf words given) :: inner.stages)
        (next given) rest result →
      Tells words past (.track stage body next)
        (.tracked stage inner elapsed (Pipeline.errorOf words given) rest) result

/-! ## What listeners hear -/

/-- What was told to listeners, with the record as it was when the listener was told of it. -/
abbrev Heard := List (Nat × Record)

/-- What the listener of a number has heard. -/
def Heard.by (heard : Heard) (number : Nat) : List Record :=
  (heard.filter fun told => told.1 == number).map Prod.snd

/-- What listeners are to be told: each of the changes to one after the other. -/
def dueTo (listeners : List Nat) (changes : List Change) : List (Nat × Change) :=
  changes.flatMap fun change => listeners.map fun listener => (listener, change)

/-- What is due was told. -/
def Told (due : Nat × Change) (told : Nat × Record) : Prop := told.1 = due.1 ∧ due.2.Shows told.2

/-- The board beside what listeners have heard. -/
def Board.hearing (board : Board ω) (heard : Heard) : Board (ω × Heard) :=
  ⟨board.made, board.kept, board.listeners, (board.state, heard)⟩

/-- The board without what listeners have heard. -/
def Board.unheard (board : Board (ω × Heard)) : Board ω :=
  ⟨board.made, board.kept, board.listeners, board.state.1⟩

/-- An action on the board beside what listeners have heard. -/
def besideHeard (action : Shared ω α) : Shared (ω × Heard) α := fun board =>
  (action board.unheard).map fun done => (done.1, done.2.hearing board.state.2)

/-- An action on the state beside what listeners have heard. -/
def stateBeside (action : StateM ω α) : StateM (ω × Heard) α := fun state =>
  ((action state.1).1, ((action state.1).2, state.2))

/-- The audience that takes down what it hears. -/
def takingDown (audience : Audience ω) : Audience (ω × Heard) := fun listener place board =>
  let told := (board.made[place]?.map fun record => (listener, record)).toList
  besideHeard (audience listener place) (board.unheard.hearing (board.state.2 ++ told))

/-- The use of a board beside what listeners hear. -/
def Use.hearing {α : Type} : Use ω ε α → Use (ω × Heard) ε α
  | .done result => .done result
  | .act action next => .act (besideHeard action) fun value => (next value).hearing
  | .skip stage reason next => .skip stage reason fun place => (next place).hearing
  | .track stage body next =>
      .track stage (fun place => (body place).hearing) fun result => (next result).hearing

theorem dueTo_append (listeners : List Nat) (changes later : List Change) :
    dueTo listeners (changes ++ later) = dueTo listeners changes ++ dueTo listeners later :=
  List.flatMap_append

theorem dueTo_cons (listeners : List Nat) (change : Change) (changes : List Change) :
    dueTo listeners (change :: changes) =
      (listeners.map fun listener => (listener, change)) ++ dueTo listeners changes :=
  List.flatMap_cons

/-- What is due to a listener who stands on the list once. -/
theorem filter_dueTo {listeners : List Nat} {listener : Nat} (h : listeners.count listener = 1)
    (changes : List Change) :
    (dueTo listeners changes).filter (fun due => due.1 == listener) =
      changes.map fun change => (listener, change) := by
  induction changes with
  | nil => rfl
  | cons change rest ih =>
      have hone : (listeners.map fun listener => (listener, change)).filter
          (fun due => due.1 == listener) = [(listener, change)] := by
        rw [List.filter_map]
        show (listeners.filter (· == listener)).map _ = _
        rw [List.filter_beq, h]
        rfl
      rw [dueTo_cons, List.filter_append, hone, ih]
      rfl

/-- If everything that is due was told, a listener who stands on the list once has heard of every
change. -/
theorem shows_by {listeners : List Nat} {changes : List Change} {heard : Heard}
    (h : List.Forall₂ Told (dueTo listeners changes) heard) {listener : Nat}
    (hone : listeners.count listener = 1) :
    List.Forall₂ Change.Shows changes (heard.by listener) := by
  have hfiltered : List.Forall₂ Told ((dueTo listeners changes).filter fun due => due.1 == listener)
      (heard.filter fun told => told.1 == listener) := by
    refine List.rel_filter ?_ h
    intro due told htold
    show (due.1 == listener) = true ↔ (told.1 == listener) = true
    rw [htold.1]
  rw [filter_dueTo hone, List.forall₂_map_left_iff] at hfiltered
  unfold Heard.by
  rw [List.forall₂_map_right_iff]
  exact hfiltered.imp fun _ _ htold => htold.2

/-! ## What is done to a board -/

/-- The action gives a value and leaves a board, and on the way the listeners are told what is due.
That they take it down makes no difference. -/
structure Comes (action : Shared ω α) (heeded : Shared (ω × Heard) α) (board : Board ω) (value : α)
    (after : Board ω) (due : List (Nat × Change)) : Prop where
  run : action board = some (value, after)
  listeners : after.listeners = board.listeners
  heard : ∀ heard, ∃ more, List.Forall₂ Told due more ∧
    heeded (board.hearing heard) = some (value, after.hearing (heard ++ more))

section

variable {board between after : Board ω} {due later : List (Nat × Change)}

theorem Comes.bind {action : Shared ω α} {heeded : Shared (ω × Heard) α} {value : α} {last : β}
    (h : Comes action heeded board value between due) (next : α → Shared ω β)
    (next' : α → Shared (ω × Heard) β)
    (hnext : Comes (next value) (next' value) between last after later) :
    Comes (action >>= next) (heeded >>= next') board last after (due ++ later) := by
  refine ⟨?_, hnext.listeners.trans h.listeners, ?_⟩
  · rw [sharedBind_apply, h.run]
    exact hnext.run
  · intro heard
    obtain ⟨told, htold, hheeded⟩ := h.heard heard
    obtain ⟨more, hmore, hlast⟩ := hnext.heard (heard ++ told)
    refine ⟨told ++ more, List.rel_append htold hmore, ?_⟩
    rw [sharedBind_apply, hheeded, ← List.append_assoc]
    exact hlast

/-- An action of which nobody is told. -/
theorem comes_silent {action : Shared ω α} {heeded : Shared (ω × Heard) α} {value : α}
    (hrun : action board = some (value, after)) (hlisteners : after.listeners = board.listeners)
    (hheeded : ∀ heard, heeded (board.hearing heard) = some (value, after.hearing heard)) :
    Comes action heeded board value after [] := by
  refine ⟨hrun, hlisteners, fun heard => ⟨[], .nil, ?_⟩⟩
  rw [List.append_nil]
  exact hheeded heard

theorem comes_pure (value : α) (board : Board ω) :
    Comes (pure value : Shared ω α) (pure value) board value board [] :=
  comes_silent rfl rfl fun _ => rfl

theorem comes_onState (action : StateM ω α) (board : Board ω) :
    Comes (Board.onState action) (Board.onState (stateBeside action)) board (action board.state).1
      { board with state := (action board.state).2 } [] :=
  comes_silent rfl rfl fun _ => rfl

end

/-! ## Boards that show what has happened -/

/-- What a record shows does not depend on its detail. -/
theorem Change.shows_undetailed {change : Change} {record : Record} :
    change.Shows record.undetailed ↔ change.Shows record := by
  cases change <;> exact Iff.rfl

/-- The record of a stage that ends. -/
theorem Change.Shows.tells {change : Change} {record : Record} (h : change.Shows record) :
    record.Tells := by
  intro hfinished
  match change, h with
  | .begun stage, h => simp [Record.finished, h.2.1] at hfinished
  | .ended stage elapsed error, h =>
      have hskipped : record.status ≠ .skipped := by
        rw [h.2.2.2.1]
        cases error <;> simp
      simp [h.2.2.1, hskipped]
  | .skipped stage, h => simp [h.2.1, h.2.2.2.1]

/-- The records that show what has happened can be relied on. -/
theorem reliable_of_shows {past : List Change} {records : List Record}
    (h : List.Forall₂ Change.Shows past records) : Reliable records := by
  apply reliable_of_tells
  induction h with
  | nil => simp
  | cons hshows _ ih =>
      intro record hrecord
      obtain rfl | hlater := List.mem_cons.mp hrecord
      · exact hshows.tells
      · exact ih record hlater

/-- If the list of records is as they were made, they are all kept. -/
theorem Board.Shows.records {past : List Change} {board : Board ω} (h : board.Shows past) :
    board.records = board.made := by
  have hall : (List.range board.made.length).map (board.made[·]?) = board.made.map some := by
    apply List.ext_getElem <;> simp
  calc board.records = (List.range board.made.length).filterMap (board.made[·]?) := by
        unfold Board.records
        rw [h.kept]
    _ = ((List.range board.made.length).map (board.made[·]?)).filterMap id := by
        rw [List.filterMap_map]
        rfl
    _ = board.made := by
        rw [hall, List.filterMap_map]
        exact List.filterMap_some

theorem Board.Shows.reliable {past : List Change} {board : Board ω} (h : board.Shows past) :
    Reliable board.records := by
  rw [h.records]
  exact reliable_of_shows h.made

theorem Board.Shows.length {past : List Change} {board : Board ω} (h : board.Shows past) :
    board.made.length = past.length := h.made.length_eq.symm

/-- What records show does not depend on their details. -/
theorem forall₂_shows_undetailed {past : List Change} {records : List Record} :
    List.Forall₂ Change.Shows past (records.map Record.undetailed) ↔
      List.Forall₂ Change.Shows past records := by
  rw [List.forall₂_map_right_iff]
  simp only [Change.shows_undetailed]

/-- The record at the place of a change among others. -/
theorem shows_append_cons {before after : List Change} {change : Change} {records : List Record}
    (h : List.Forall₂ Change.Shows (before ++ change :: after) records) :
    ∃ earlier record later, records = earlier ++ record :: later ∧
      List.Forall₂ Change.Shows before earlier ∧ change.Shows record ∧
      List.Forall₂ Change.Shows after later := by
  induction before generalizing records with
  | nil =>
      obtain ⟨record, later, hrecord, hlater, rfl⟩ := List.forall₂_cons_left_iff.mp h
      exact ⟨[], record, later, rfl, .nil, hrecord, hlater⟩
  | cons first before ih =>
      obtain ⟨shown, rest, hshown, hrest, rfl⟩ := List.forall₂_cons_left_iff.mp h
      obtain ⟨earlier, record, later, rfl, hearlier, hrecord, hlater⟩ := ih hrest
      exact ⟨shown :: earlier, record, later, rfl, .cons hshown hearlier, hrecord, hlater⟩

/-! ## Steps -/

section

variable {audience : Audience ω} {now : StateM ω Binary64} {board : Board ω} {past : List Change}

/-- A discreet action keeps what the board shows. -/
theorem shows_of_discreet {after : Board ω} (hpast : board.Shows past)
    (hkept : after.kept = board.kept)
    (hmade : after.made.map Record.undetailed = board.made.map Record.undetailed) :
    after.Shows past := by
  have hlength : after.made.length = board.made.length := by
    simpa using congrArg List.length hmade
  refine ⟨?_, ?_⟩
  · rw [hkept, hpast.kept, hlength]
  · rw [← forall₂_shows_undetailed, hmade, forall₂_shows_undetailed]
    exact hpast.made

theorem comes_discreet {action : Shared ω α} (h : Discreet action) (hpast : board.Shows past) :
    ∃ value after, Comes action (besideHeard action) board value after [] ∧ after.Shows past := by
  obtain ⟨value, after, hrun, hlisteners, hkept, hmade⟩ := h board
  refine ⟨value, after, comes_silent hrun hlisteners ?_, shows_of_discreet hpast hkept hmade⟩
  intro heard
  show (action board).map _ = _
  rw [hrun]
  rfl

/-- A discreet listener who is told of a record takes it down as the change has left it. -/
theorem comes_takingDown {listener place : Nat} (h : Discreet (audience listener place))
    {before later : List Change} {change : Change} (hplace : place = before.length)
    (hpast : board.Shows (before ++ change :: later)) :
    ∃ value after, Comes (audience listener place) (takingDown audience listener place) board value
      after [(listener, change)] ∧ after.Shows (before ++ change :: later) := by
  obtain ⟨value, after, hrun, hlisteners, hkept, hmade⟩ := h board
  obtain ⟨earlier, record, others, hrecords, hearlier, hrecord, -⟩ := shows_append_cons hpast.made
  have hfound : board.made[place]? = some record := by
    rw [hrecords, hplace, hearlier.length_eq]
    simp
  refine ⟨value, after, ⟨hrun, hlisteners, ?_⟩, shows_of_discreet hpast hkept hmade⟩
  intro heard
  refine ⟨[(listener, record)], .cons ⟨rfl, hrecord⟩ .nil, ?_⟩
  show (audience listener place board).map (fun done => (done.1, done.2.hearing (heard ++
    (board.made[place]?.map fun record => (listener, record)).toList))) = _
  rw [hrun, hfound]
  rfl

theorem tellFrom_of_end (audience : Audience ω) (board : Board ω) (place room : Nat) {index : Nat}
    (h : board.listeners[index]? = none) :
    Board.tellFrom audience place (room + 1) index board = some ((), board) := by
  rw [Board.tellFrom, sharedBind_apply, shared_get, Option.bind_some, h]
  rfl

theorem tellFrom_of_next (audience : Audience ω) (board : Board ω) (place room : Nat)
    {index listener : Nat} (h : board.listeners[index]? = some listener) :
    Board.tellFrom audience place (room + 1) index board =
      (audience listener place >>= fun _ => Board.tellFrom audience place room (index + 1)) board := by
  rw [Board.tellFrom, sharedBind_apply, shared_get, Option.bind_some, h]

/-- By induction on the listeners who are still to be told: the list that is gone through stays as it
is, since nobody touches it. -/
theorem comes_tellFrom (haudience : ∀ listener place, Discreet (audience listener place))
    {place room : Nat} {before later : List Change} {change : Change} (hplace : place = before.length)
    {told rest : List Nat} (hroom : rest.length < room) (hlisteners : board.listeners = told ++ rest)
    (hpast : board.Shows (before ++ change :: later)) :
    ∃ after, Comes (Board.tellFrom audience place room told.length)
      (Board.tellFrom (takingDown audience) place room told.length) board () after
      (rest.map fun listener => (listener, change)) ∧ after.Shows (before ++ change :: later) := by
  induction rest generalizing told room board with
  | nil =>
      obtain ⟨room, rfl⟩ : ∃ less, room = less + 1 := ⟨room - 1, by omega⟩
      have hend : board.listeners[told.length]? = none := by
        rw [hlisteners]
        simp
      refine ⟨board, comes_silent (tellFrom_of_end audience board place room hend) rfl ?_, hpast⟩
      intro heard
      exact tellFrom_of_end (takingDown audience) (board.hearing heard) place room hend
  | cons listener rest ih =>
      rw [List.length_cons] at hroom
      obtain ⟨room, rfl⟩ : ∃ less, room = less + 1 := ⟨room - 1, by omega⟩
      have hnext : board.listeners[told.length]? = some listener := by
        rw [hlisteners]
        simp
      obtain ⟨value, between, hfirst, hbetween⟩ :=
        comes_takingDown (haudience listener place) hplace hpast
      have hstill : between.listeners = (told ++ [listener]) ++ rest := by
        rw [hfirst.listeners, hlisteners]
        simp
      obtain ⟨after, hrest, hafter⟩ := ih (Nat.lt_of_succ_lt_succ hroom) hstill hbetween
      rw [List.length_append, List.length_singleton] at hrest
      have hcomes := hfirst.bind (fun _ => Board.tellFrom audience place room (told.length + 1))
        (fun _ => Board.tellFrom (takingDown audience) place room (told.length + 1)) hrest
      refine ⟨after, ⟨?_, hcomes.listeners, ?_⟩, hafter⟩
      · rw [tellFrom_of_next audience board place room hnext]
        exact hcomes.run
      · intro heard
        rw [tellFrom_of_next (takingDown audience) (board.hearing heard) place room hnext]
        exact hcomes.heard heard

/-- There is room for all listeners. -/
theorem length_lt_room (listeners : List Nat) :
    listeners.length < listeners.length + Board.placeLimit :=
  Nat.lt_add_of_pos_right (by decide)

/-- The listeners are told of a record, each as the change has left it. -/
theorem comes_tell (haudience : ∀ listener place, Discreet (audience listener place))
    {before later : List Change} {change : Change} (board : Board ω)
    (hpast : board.Shows (before ++ change :: later)) :
    ∃ after, Comes (Board.tell audience before.length)
      (Board.tell (takingDown audience) before.length) board () after
      (dueTo board.listeners [change]) ∧ after.Shows (before ++ change :: later) := by
  have hlisteners : board.listeners = [] ++ board.listeners := rfl
  obtain ⟨after, htold, hafter⟩ :=
    comes_tellFrom haudience rfl (length_lt_room board.listeners) hlisteners hpast
  unfold Board.tell
  refine ⟨after, ⟨htold.run, htold.listeners, ?_⟩, hafter⟩
  rw [dueTo_cons, dueTo, List.flatMap_nil, List.append_nil]
  exact htold.heard

/-- Starting a record adds it to those that are kept, and the listeners are told of it. -/
theorem comes_start (haudience : ∀ listener place, Discreet (audience listener place))
    {record : Record} {change : Change} (hrecord : change.Shows record) (hpast : board.Shows past) :
    ∃ after, Comes (Board.start audience record) (Board.start (takingDown audience) record) board
      past.length after (dueTo board.listeners [change]) ∧ after.Shows (past ++ [change]) := by
  set added : Board ω :=
    { board with made := board.made ++ [record], kept := board.kept ++ [board.made.length] }
  have hadded : added.Shows (past ++ [change]) := by
    refine ⟨?_, List.rel_append hpast.made (.cons hrecord .nil)⟩
    show board.kept ++ [board.made.length] = List.range (board.made ++ [record]).length
    rw [hpast.kept, List.length_append, List.length_singleton, List.range_succ]
  have hkeep : Comes (Board.keep record) (Board.keep record) board past.length added [] := by
    refine comes_silent ?_ rfl fun heard => ?_
    · rw [← hpast.length]
      rfl
    · rw [← hpast.length]
      rfl
  obtain ⟨after, htell, hafter⟩ := comes_tell haudience added hadded
  refine ⟨after, ?_, hafter⟩
  have hstart := hkeep.bind (fun place => Board.tell audience place >>= fun _ => pure place)
    (fun place => Board.tell (takingDown audience) place >>= fun _ => pure place)
    (htell.bind (fun _ => pure past.length) (fun _ => pure past.length)
      (comes_pure past.length after))
  rw [List.nil_append, List.append_nil] at hstart
  exact hstart

theorem modify_append_cons (earlier later : List Record) (record : Record)
    (change : Record → Record) :
    (earlier ++ record :: later).modify earlier.length change =
      earlier ++ change record :: later := by
  rw [List.modify_eq_set_getElem?]
  simp

/-- Changing the record at a place among others. -/
theorem amend_apply (board : Board ω) {earlier later : List Record} {record : Record}
    (hmade : board.made = earlier ++ record :: later) (change : Record → Record) :
    Board.amend earlier.length change board =
      some ((), { board with made := earlier ++ change record :: later }) := by
  show some ((), { board with made := board.made.modify earlier.length change }) = _
  rw [hmade, modify_append_cons]

/-- Noting the time of a stage that began. -/
theorem time_apply (now : StateM ω Binary64) (board : Board ω) {earlier later : List Record}
    {record : Record} {started : Binary64} (hmade : board.made = earlier ++ record :: later)
    (hstarted : record.started = some started) :
    Board.time now earlier.length board = some ((), { board with
      made := earlier ++ { record with
        elapsed := some ((now board.state).1.sub started).roundThousandth } :: later
      state := (now board.state).2 }) := by
  have hfound : (board.made[earlier.length]? >>= Record.started) = some started := by
    rw [hmade, List.getElem?_append_right (Nat.le_refl _), Nat.sub_self]
    exact hstarted
  unfold Board.time
  rw [hfound]
  set read : Board ω := { board with state := (now board.state).2 }
  exact amend_apply read hmade _

/-- Finishing a record concludes it and notes the time. -/
theorem finish_of_started {record : Record} {started : Binary64} (h : record.started = some started)
    (reading : Binary64) (error : Option String) :
    record.finish reading error = { record.conclude error with
      elapsed := some (reading.sub started).roundThousandth } := by
  have helapsed : record.started.map (fun started => (reading.sub started).roundThousandth) =
      some (reading.sub started).roundThousandth := by rw [h]; rfl
  unfold Record.finish
  rw [helapsed]
  rfl

/-- Finishing the record of a stage that began ends it, and the listeners are told of that. -/
theorem comes_finish (haudience : ∀ listener place, Discreet (audience listener place))
    (now : StateM ω Binary64) (error : Option String) {before later : List Change} {stage : String}
    (hpast : board.Shows (before ++ .begun stage :: later)) :
    ∃ elapsed after, Comes (Board.finish audience now before.length error)
      (Board.finish (takingDown audience) (stateBeside now) before.length error) board () after
      (dueTo board.listeners [.ended stage elapsed error]) ∧
      after.Shows (before ++ .ended stage elapsed error :: later) := by
  obtain ⟨earlier, record, others, hmade, hearlier, hrecord, hothers⟩ := shows_append_cons hpast.made
  obtain ⟨started, hstarted⟩ := Option.isSome_iff_exists.mp hrecord.2.2.1
  set elapsed := ((now board.state).1.sub started).roundThousandth
  set concluded : Board ω := { board with
    made := earlier ++ record.finish (now board.state).1 error :: others
    state := (now board.state).2 }
  have hended : (Change.ended stage elapsed error).Shows
      (record.finish (now board.state).1 error) := by
    refine ⟨hrecord.1, ?_, ?_, rfl, rfl⟩
    · cases error <;> rfl
    · show record.started.map _ = _
      rw [hstarted]
      rfl
  set between : Board ω := { board with made := earlier ++ record.conclude error :: others }
  have hamend : Comes (Board.amend before.length (Record.conclude error))
      (Board.amend before.length (Record.conclude error)) board () between [] := by
    rw [hearlier.length_eq]
    exact comes_silent (amend_apply board hmade _) rfl fun heard =>
      amend_apply (board.hearing heard) hmade _
  have htime : Comes (Board.time now before.length) (Board.time (stateBeside now) before.length)
      between () concluded [] := by
    have hconcluded : concluded = { between with
        made := earlier ++ { record.conclude error with elapsed := some elapsed } :: others
        state := (now between.state).2 } := by
      rw [← finish_of_started hstarted]
    rw [hearlier.length_eq, hconcluded]
    exact comes_silent (time_apply now between rfl hstarted) rfl fun heard =>
      time_apply (stateBeside now) (between.hearing heard) rfl hstarted
  have hconcluded : concluded.Shows (before ++ .ended stage elapsed error :: later) := by
    refine ⟨?_, List.rel_append hearlier (.cons hended hothers)⟩
    show board.kept = List.range (earlier ++ _ :: others).length
    rw [hpast.kept, hmade, List.length_append, List.length_append, List.length_cons,
      List.length_cons]
  obtain ⟨after, htell, hafter⟩ := comes_tell haudience concluded hconcluded
  refine ⟨elapsed, after, ?_, hafter⟩
  exact hamend.bind
    (fun _ => Board.time now before.length >>= fun _ => Board.tell audience before.length)
    (fun _ => Board.time (stateBeside now) before.length >>= fun _ =>
      Board.tell (takingDown audience) before.length)
    (htime.bind (fun _ => Board.tell audience before.length)
      (fun _ => Board.tell (takingDown audience) before.length) htell)

end

/-! ## Any use -/

/-- The use comes to a story, if so far the stages are as in `past`: what it gives, the board
afterwards and what listeners hear are those of the story. -/
def HasStory (audience : Audience ω) (now : StateM ω Binary64) (words : ε → String) {α : Type}
    (use : Use ω ε α) (past : List Change) (board : Board ω) : Prop :=
  ∃ story result after, Tells words past use story result ∧ after.Shows (past ++ story.stages) ∧
    Comes (use.run audience now words)
      (use.hearing.run (takingDown audience) (stateBeside now) words) board result after
      (dueTo board.listeners story.changes)

section

variable {audience : Audience ω} {now : StateM ω Binary64} {words : ε → String} {board : Board ω}
  {past : List Change}

theorem hasStory_done (result : Except ε α) (hpast : board.Shows past) :
    HasStory audience now words (.done result) past board := by
  refine ⟨.nothing, result, board, .done, ?_, comes_pure result board⟩
  show board.Shows (past ++ [])
  rw [List.append_nil]
  exact hpast

theorem hasStory_act {action : Shared ω β} {next : β → Use ω ε α} (haction : Discreet action)
    (hpast : board.Shows past)
    (ih : ∀ value (after : Board ω), after.Shows past →
      HasStory audience now words (next value) past after) :
    HasStory audience now words (.act action next) past board := by
  obtain ⟨value, between, hcomes, hbetween⟩ := comes_discreet haction hpast
  obtain ⟨story, result, after, htells, hafter, hrest⟩ := ih value between hbetween
  rw [hcomes.listeners] at hrest
  refine ⟨story, result, after, .act hpast hpast.reliable hcomes.run htells, hafter, ?_⟩
  exact hcomes.bind (fun value => (next value).run audience now words)
    (fun value => (next value).hearing.run (takingDown audience) (stateBeside now) words) hrest

/-- A stage that is left out adds its record, of which the listeners hear once. -/
theorem hasStory_skip (haudience : ∀ listener place, Discreet (audience listener place))
    {stage reason : String} {next : Nat → Use ω ε α} (hpast : board.Shows past)
    (ih : ∀ place (after : Board ω), after.Shows (past ++ [.skipped stage]) →
      HasStory audience now words (next place) (past ++ [.skipped stage]) after) :
    HasStory audience now words (.skip stage reason next) past board := by
  have hskipped : (Change.skipped stage).Shows (.skip stage reason) := ⟨rfl, rfl, rfl, rfl, rfl⟩
  obtain ⟨between, hstart, hbetween⟩ := comes_start haudience hskipped hpast
  obtain ⟨rest, result, after, htells, hafter, hrest⟩ := ih past.length between hbetween
  rw [List.append_assoc] at hafter
  refine ⟨.skipped stage rest, result, after, .skip htells, hafter, ?_⟩
  rw [hstart.listeners] at hrest
  show Comes _ _ board result after (dueTo board.listeners ([.skipped stage] ++ rest.changes))
  rw [dueTo_append]
  exact hstart.bind (fun place => (next place).run audience now words)
    (fun place => (next place).hearing.run (takingDown audience) (stateBeside now) words) hrest

/-- Timing a stage: the clock is read, the record begins, the body runs, the record is finished, and
what the body gave is given. -/
theorem track_eq {ω : Type} (audience : Audience ω) (now : StateM ω Binary64) (stage : String)
    (words : ε → String) (body : Nat → Shared ω (Except ε β)) :
    Board.track audience now stage words body = (Board.onState now >>= fun reading =>
      Board.start audience (.begin stage reading) >>= fun place => body place >>= fun given =>
        Board.finish audience now place (Pipeline.errorOf words given) >>= fun _ => pure given) := rfl

/-- Timing a stage is put together from its parts. -/
theorem comes_track (words : ε → String) {stage : String} {place : Nat} {reading : Binary64}
    (body : Nat → Shared ω (Except ε β)) (body' : Nat → Shared (ω × Heard) (Except ε β))
    {given : Except ε β} {read begun worked ended : Board ω} {first inner last : List (Nat × Change)}
    (hread : Comes (Board.onState now) (Board.onState (stateBeside now)) board reading read [])
    (hstart : Comes (Board.start audience (.begin stage reading))
      (Board.start (takingDown audience) (.begin stage reading)) read place begun first)
    (hbody : Comes (body place) (body' place) begun given worked inner)
    (hfinish : Comes (Board.finish audience now place (Pipeline.errorOf words given))
      (Board.finish (takingDown audience) (stateBeside now) place (Pipeline.errorOf words given))
      worked () ended last) :
    Comes (Board.track audience now stage words body)
      (Board.track (takingDown audience) (stateBeside now) stage words body') board given ended
      (first ++ (inner ++ last)) := by
  have hend := hfinish.bind (fun _ => pure given) (fun _ => pure given) (comes_pure given ended)
  rw [List.append_nil] at hend
  have hwork := hbody.bind
    (fun given => Board.finish audience now place (Pipeline.errorOf words given) >>= fun _ =>
      pure given)
    (fun given => Board.finish (takingDown audience) (stateBeside now) place
      (Pipeline.errorOf words given) >>= fun _ => pure given) hend
  have hstage := hstart.bind
    (fun place => body place >>= fun given =>
      Board.finish audience now place (Pipeline.errorOf words given) >>= fun _ => pure given)
    (fun place => body' place >>= fun given => Board.finish (takingDown audience) (stateBeside now)
      place (Pipeline.errorOf words given) >>= fun _ => pure given) hwork
  rw [track_eq, track_eq]
  exact hread.bind _ _ hstage

/-- A stage that is timed adds its record, and what listeners hear of its body comes between its
beginning and its end. -/
theorem hasStory_track (haudience : ∀ listener place, Discreet (audience listener place))
    {stage : String} {body : Nat → Use ω ε β} {next : Except ε β → Use ω ε α}
    (hpast : board.Shows past)
    (ihBody : ∀ place (after : Board ω), after.Shows (past ++ [.begun stage]) →
      HasStory audience now words (body place) (past ++ [.begun stage]) after)
    (ihNext : ∀ given later (after : Board ω), after.Shows (past ++ later) →
      HasStory audience now words (next given) (past ++ later) after) :
    HasStory audience now words (.track stage body next) past board := by
  have hbegun : (Change.begun stage).Shows (.begin stage (now board.state).1) :=
    ⟨rfl, rfl, rfl, rfl, rfl⟩
  set read : Board ω := { board with state := (now board.state).2 }
  have hread : Comes (Board.onState now) (Board.onState (stateBeside now)) board
      (now board.state).1 read [] := comes_onState now board
  have hreadShows : read.Shows past := ⟨hpast.kept, hpast.made⟩
  obtain ⟨begun, hstart, hbegunShows⟩ := comes_start haudience hbegun hreadShows
  obtain ⟨inner, given, worked, hinner, hworked, hbody⟩ := ihBody past.length begun hbegunShows
  -- the record of the stage stands where it was added, whatever the body has added after it
  rw [List.append_assoc] at hworked
  obtain ⟨elapsed, ended, hfinish, hended⟩ :=
    comes_finish haudience now (Pipeline.errorOf words given) hworked
  obtain ⟨rest, result, after, htells, hafter, hrest⟩ := ihNext given _ ended hended
  have hbegunListeners : begun.listeners = board.listeners := hstart.listeners
  have hworkedListeners : worked.listeners = board.listeners :=
    hbody.listeners.trans hbegunListeners
  have hendedListeners : ended.listeners = board.listeners :=
    hfinish.listeners.trans hworkedListeners
  rw [hbegunListeners] at hbody
  rw [hworkedListeners] at hfinish
  rw [hendedListeners] at hrest
  have htrack := comes_track words (fun place => (body place).run audience now words)
    (fun place => (body place).hearing.run (takingDown audience) (stateBeside now) words)
    hread hstart hbody hfinish
  have hdue : dueTo board.listeners
      (Story.tracked stage inner elapsed (Pipeline.errorOf words given) rest).changes =
        (dueTo board.listeners [.begun stage] ++ (dueTo board.listeners inner.changes ++
          dueTo board.listeners [.ended stage elapsed (Pipeline.errorOf words given)])) ++
        dueTo board.listeners rest.changes := by
    rw [← dueTo_append, ← dueTo_append, ← dueTo_append]
    simp [Story.changes]
  refine ⟨.tracked stage inner elapsed (Pipeline.errorOf words given) rest, result, after,
    .track hinner htells, ?_, ?_⟩
  · rw [List.append_assoc] at hafter
    exact hafter
  · rw [hdue]
    exact htrack.bind (fun given => (next given).run audience now words)
      (fun given => (next given).hearing.run (takingDown audience) (stateBeside now) words) hrest

end

/-- By induction on the use, while what has happened so far varies. -/
theorem hasStory {audience : Audience ω}
    (haudience : ∀ listener place, Discreet (audience listener place)) (now : StateM ω Binary64)
    (words : ε → String) {α : Type} (use : Use ω ε α) (huse : use.Discreet) (past : List Change)
    (board : Board ω) (hpast : board.Shows past) :
    HasStory audience now words use past board := by
  induction use generalizing past board with
  | done result => exact hasStory_done result hpast
  | act action next ih =>
      apply hasStory_act huse.1 hpast
      intro value after hafter
      exact ih value (huse.2 value) past after hafter
  | skip stage reason next ih =>
      apply hasStory_skip haudience hpast
      intro place after hafter
      exact ih place (huse place) _ after hafter
  | track stage body next ihBody ihNext =>
      apply hasStory_track haudience hpast
      · intro place after hafter
        exact ihBody place (huse.1 place) _ after hafter
      · intro given later after hafter
        exact ihNext given (huse.2 given) _ after hafter

/-- **The records tell the story of any discreet use.** Whatever is timed and left out, one after the
other or one inside another, and however the stages end, the use comes to an end, and there is a story
of it. Each stage of it ended with the error that its body ended with, and the use goes on with just
that; whatever is done on the way finds the board telling the story so far, in the order in which the
stages began, and so does the board in the end. The listeners hear, one after the other, of the changes
of the story in the order in which they occurred, whether or not they fail, and that they take them
down changes nothing. -/
theorem story_of_use (audience : Audience ω) (now : StateM ω Binary64) (words : ε → String) {α : Type}
    (use : Use ω ε α) (listeners : List Nat) (state : ω)
    (haudience : ∀ listener place, Discreet (audience listener place)) (huse : use.Discreet) :
    ∃ (story : Story) (result : Except ε α) (board : Board ω) (heard : Heard),
      use.run audience now words (.fresh listeners state) = some (result, board) ∧
      Tells words [] use story result ∧ board.Shows story.stages ∧ Reliable board.records ∧
      List.Forall₂ Told (dueTo listeners story.changes) heard ∧
      (∀ listener, listeners.count listener = 1 →
        List.Forall₂ Change.Shows story.changes (heard.by listener)) ∧
      use.hearing.run (takingDown audience) (stateBeside now) words
          (Board.hearing (.fresh listeners state) []) = some (result, board.hearing heard) := by
  obtain ⟨story, result, board, htells, hshows, hcomes⟩ :=
    hasStory haudience now words use huse [] (.fresh listeners state) ⟨rfl, .nil⟩
  obtain ⟨heard, htold, hheeded⟩ := hcomes.heard []
  exact ⟨story, result, board, heard, hcomes.run, htells, hshows, hshows.reliable, htold,
    fun listener hone => shows_by htold hone, hheeded⟩

/-- Listeners who count what they hear and note in the record that they were there. The one of number 0
fails. -/
def counting : Audience Nat := fun listener place => do
  Board.onState (modify (· + 1))
  Board.describe place "counted"
  return if listener = 0 then .error "no more" else .ok ()

theorem discreet_counting (listener place : Nat) : Discreet (counting listener place) :=
  (discreet_onState _).bind fun _ => (discreet_describe place "counted").bind fun _ => discreet_pure _

/-- A stage that fails after another one was left out, and is tried again. -/
def retried : Use Nat String Nat :=
  .track "build" (fun place => .act (Board.describe place "first try") fun _ =>
      .skip "test" "not wanted" fun _ => .done (.error "no luck")) fun _ : Except String Unit =>
    .track "build" (fun _ => .act (Board.onState get) fun heard => .done (.ok heard)) .done

theorem discreet_retried : retried.Discreet :=
  ⟨fun place => ⟨discreet_describe place "first try", fun _ _ => trivial⟩, fun _ =>
    ⟨fun _ => ⟨discreet_onState get, fun _ => trivial⟩, fun _ => trivial⟩⟩

theorem story_of_use_retried :
    (∀ listener place, Discreet (counting listener place)) ∧ retried.Discreet ∧
      ∃ (story : Story) (result : Except String Nat) (board : Board Nat) (heard : Heard),
        retried.run counting (fun state => (.zero, state)) id (.fresh [0, 1] 0) =
          some (result, board) ∧
        Tells id [] retried story result ∧ board.Shows story.stages ∧ Reliable board.records ∧
        List.Forall₂ Told (dueTo [0, 1] story.changes) heard ∧
        (∀ listener, [0, 1].count listener = 1 →
          List.Forall₂ Change.Shows story.changes (heard.by listener)) ∧
        retried.hearing.run (takingDown counting) (stateBeside fun state => (.zero, state)) id
          (Board.hearing (.fresh [0, 1] 0) []) = some (result, board.hearing heard) :=
  ⟨discreet_counting, discreet_retried,
    story_of_use counting (fun state => (.zero, state)) id retried [0, 1] 0 discreet_counting
      discreet_retried⟩

/-! ## Meddlers -/

/-- What the listener of a number hears in a use, status by status. -/
def statusesHeard (audience : Audience Unit) (use : Use Unit String Unit) (listeners : List Nat)
    (number : Nat) : Option (List Status) :=
  (use.hearing.run (takingDown audience) (stateBeside fun _ => (.zero, ())) id
    (Board.hearing (.fresh listeners ()) [])).map fun done =>
      (Heard.by done.2.state.2 number).map Record.status

/-- The listener of number 0 leaves as soon as it is told of something. -/
def leaving : Audience Unit := fun listener _ board =>
  some (.ok (), if listener = 0 then { board with listeners := board.listeners.erase 0 } else board)

/-- The listener of number 0 calls every stage skipped of which it is told. -/
def rewriting : Audience Unit := fun listener place board =>
  (Board.amend place (if listener = 0 then ({ · with status := .skipped }) else id) board).map
    fun done => (.ok (), done.2)

/-- A stage of which the listeners are told. -/
def oneStage : Use Unit String Unit := .track "build" (fun _ => .done (.ok ())) .done

/-- A stage that invites the listener of number 2. -/
def inviting : Use Unit String Unit :=
  .track "build" (fun _ => .act (fun board => some ((), { board with listeners := [2] })) fun _ =>
    .done (.ok ())) .done

/-- Nobody but the discreet hear a story: the one after a listener who leaves is passed over, the one
after a listener who rewrites a record is told what that one wrote, and a listener who comes while a
stage is under way hears of nothing but its end. -/
theorem meddlers_told :
    statusesHeard leaving oneStage [0, 1] 1 = some [.completed] ∧
      statusesHeard rewriting oneStage [0, 1] 1 = some [.skipped, .skipped] ∧
      statusesHeard leaving inviting [] 2 = some [.completed] := by
  refine ⟨?_, ?_, ?_⟩ <;> decide +kernel

end RustScript.Progress
