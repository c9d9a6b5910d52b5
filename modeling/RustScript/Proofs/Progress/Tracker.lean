import RustScript.Progress.Tracker
import RustScript.Proofs.Progress.Story

/-!
# Trackers are boards

The listeners of a tracker get a copy of the record and act on nothing but the state. They are the
discreet audience `attending` of a board, on which every stage comes to what it comes to under the
tracker, record by record (`follows_track`).
-/

set_option autoImplicit false

namespace RustScript.Progress

variable {ω ε α β : Type}

/-! ## Stages under a tracker -/

/-- The tracker in which the body of a stage runs. -/
def Tracker.begun (now : StateM ω Binary64) (stage : String) (tracker : Tracker ω) : Tracker ω :=
  (start (.begin stage (now tracker.state).1) (onState now tracker).2).2

/-- Finishing a record tells of it as it then is. -/
theorem finish_of_found (now : StateM ω Binary64) (error : Option String) (tracker : Tracker ω)
    {place : Nat} {record : Record} (h : tracker.records[place]? = some record) :
    finish now place error tracker = tell (record.finish (now tracker.state).1 error)
      ⟨tracker.records.modify place fun record => record.finish (now tracker.state).1 error,
        tracker.listeners, (now tracker.state).2⟩ := by
  -- what is told of is read back from the tracker whose record has been amended
  have hfound : ((get : Tracked ω (Tracker ω)) (amend place (fun record =>
      record.finish (onState now tracker).1 error) (onState now tracker).2).2).1.records[place]? =
        some (record.finish (now tracker.state).1 error) := by
    change (tracker.records.modify place _)[place]? = _
    rw [List.getElem?_modify_eq, h]
    rfl
  unfold finish
  rw [Frame.stateBind_apply, Frame.stateBind_apply, Frame.stateBind_apply, hfound]
  rfl

/-- Finishing a record changes no other one, and keeps the listeners. -/
theorem finish_keeps (now : StateM ω Binary64) (place : Nat) (error : Option String)
    (tracker : Tracker ω) :
    (finish now place error tracker).2.listeners = tracker.listeners ∧
      (finish now place error tracker).2.records =
        tracker.records.modify place fun record => record.finish (now tracker.state).1 error := by
  unfold finish
  rw [Frame.stateBind_apply, Frame.stateBind_apply, Frame.stateBind_apply]
  cases ((get : Tracked ω (Tracker ω)) (amend place (fun record =>
      record.finish (onState now tracker).1 error) (onState now tracker).2).2).1.records[place]? <;>
    exact ⟨rfl, rfl⟩

/-! ## The board of a tracker -/

/-- The board of a tracker, whose listeners are numbered in their order. -/
def Tracker.board (tracker : Tracker ω) : Board ω :=
  ⟨tracker.records, List.range tracker.records.length, List.range tracker.listeners.length,
    tracker.state⟩

/-- The audience of listeners who are told of copies and act on nothing but the state. -/
def attending (listeners : List (Listener ω)) : Audience ω := fun number place board =>
  match listeners[number]?, board.made[place]? with
  | some listener, some record => Board.onState (listener record) board
  | _, _ => some (.ok (), board)

theorem discreet_attending (listeners : List (Listener ω)) (number place : Nat) :
    Discreet (attending listeners number place) := by
  intro board
  unfold attending
  cases listeners[number]? with
  | none => exact discreet_pure _ board
  | some listener =>
      cases board.made[place]? with
      | none => exact discreet_pure _ board
      | some record => exact discreet_onState (listener record) board

section

variable {listeners : List (Listener ω)}

/-- By induction on the listeners who are still to be told. -/
theorem tellFrom_attending {place room : Nat} {record : Record} {told rest : List (Listener ω)}
    (hroom : rest.length < room) (hlisteners : listeners = told ++ rest) (board : Board ω)
    (hboard : board.listeners = List.range listeners.length)
    (hrecord : board.made[place]? = some record) :
    Board.tellFrom (attending listeners) place room told.length board =
      some ((), { board with state := (tellAll record rest board.state).2 }) := by
  induction rest generalizing told room board with
  | nil =>
      obtain ⟨room, rfl⟩ : ∃ less, room = less + 1 := ⟨room - 1, by omega⟩
      have hend : board.listeners[told.length]? = none := by
        rw [hboard, hlisteners]
        simp
      exact tellFrom_of_end _ board place room hend
  | cons listener rest ih =>
      rw [List.length_cons] at hroom
      obtain ⟨room, rfl⟩ : ∃ less, room = less + 1 := ⟨room - 1, by omega⟩
      have hnext : board.listeners[told.length]? = some told.length := by
        rw [hboard, hlisteners]
        simp
      have hlistener : listeners[told.length]? = some listener := by
        rw [hlisteners]
        simp
      have hattends : attending listeners told.length place board =
          Board.onState (listener record) board := by
        unfold attending
        rw [hlistener, hrecord]
      have hrest : listeners = (told ++ [listener]) ++ rest := by
        rw [hlisteners]
        simp
      have hlater := ih (Nat.lt_of_succ_lt_succ hroom) hrest
        { board with state := (listener record board.state).2 } hboard hrecord
      rw [List.length_append, List.length_singleton] at hlater
      rw [tellFrom_of_next _ board place room hnext, sharedBind_apply, hattends]
      exact hlater

theorem tell_attending (tracker : Tracker ω) (h : tracker.listeners = listeners) {place : Nat}
    {record : Record} (hrecord : tracker.records[place]? = some record) :
    Board.tell (attending listeners) place tracker.board =
      some ((), (tell record tracker).2.board) := by
  subst h
  have hroom : tracker.listeners.length < tracker.board.listeners.length + Board.placeLimit := by
    have hlength : tracker.board.listeners.length = tracker.listeners.length := List.length_range
    rw [← hlength]
    exact length_lt_room _
  unfold Board.tell
  exact tellFrom_attending hroom (List.nil_append _).symm tracker.board rfl hrecord

theorem start_attending (tracker : Tracker ω) (h : tracker.listeners = listeners)
    (record : Record) :
    Board.start (attending listeners) record tracker.board =
      some ((start record tracker).1, (start record tracker).2.board) := by
  set added : Tracker ω := { tracker with records := tracker.records ++ [record] }
  have hkeep : Board.keep record tracker.board = some (tracker.records.length, added.board) := by
    have hplaces : List.range (tracker.records ++ [record]).length =
        List.range tracker.records.length ++ [tracker.records.length] := by
      rw [List.length_append, List.length_singleton, List.range_succ]
    show _ = some (_, (⟨_, List.range (tracker.records ++ [record]).length, _, _⟩ : Board ω))
    rw [hplaces]
    rfl
  have htell := tell_attending added h (List.getElem?_concat_length : _ = some record)
  unfold Board.start
  rw [sharedBind_apply, hkeep, Option.bind_some, sharedBind_apply, htell]
  rfl

/-- A record is finished step by step. -/
theorem finish_of_steps {audience : Audience ω} {now : StateM ω Binary64} {place : Nat}
    {error : Option String} {board amended timed told : Board ω}
    (hamend : Board.amend place (Record.conclude error) board = some ((), amended))
    (htime : Board.time now place amended = some ((), timed))
    (htell : Board.tell audience place timed = some ((), told)) :
    Board.finish audience now place error board = some ((), told) := by
  unfold Board.finish
  rw [sharedBind_apply, hamend, Option.bind_some, sharedBind_apply, htime, Option.bind_some, htell]

theorem finish_attending (now : StateM ω Binary64) (tracker : Tracker ω)
    (h : tracker.listeners = listeners) {place : Nat} {record : Record} {started : Binary64}
    (hrecord : tracker.records[place]? = some record) (hstarted : record.started = some started)
    (error : Option String) :
    Board.finish (attending listeners) now place error tracker.board =
      some ((), (finish now place error tracker).2.board) := by
  obtain ⟨hplace, hget⟩ := List.getElem?_eq_some_iff.mp hrecord
  obtain ⟨earlier, later, hrecords, rfl⟩ : ∃ earlier later,
      tracker.records = earlier ++ record :: later ∧ earlier.length = place := by
    refine ⟨tracker.records.take place, tracker.records.drop (place + 1), ?_,
      List.length_take_of_le hplace.le⟩
    rw [← hget, List.getElem_cons_drop, List.take_append_drop]
  set reading := (now tracker.state).1
  set finished : Tracker ω := ⟨tracker.records.modify earlier.length fun record =>
    record.finish reading error, tracker.listeners, (now tracker.state).2⟩
  have hfinished : finished.records = earlier ++ record.finish reading error :: later := by
    show tracker.records.modify earlier.length _ = _
    rw [hrecords, modify_append_cons]
  have htold : finished.records[earlier.length]? = some (record.finish reading error) := by
    rw [hfinished]
    simp
  have hboard : finished.board = { tracker.board with
      made := earlier ++ record.finish reading error :: later
      state := (now tracker.state).2 } := by
    have hplaces : List.range finished.records.length = List.range tracker.records.length :=
      congrArg List.range (List.length_modify ..)
    show (⟨_, List.range finished.records.length, _, _⟩ : Board ω) = _
    rw [hplaces, hfinished]
    rfl
  have htell : Board.tell (attending listeners) earlier.length finished.board =
      some ((), (finish now earlier.length error tracker).2.board) := by
    rw [tell_attending finished h htold, finish_of_found now error tracker hrecord]
  rw [hboard, finish_of_started hstarted] at htell
  exact finish_of_steps (amend_apply tracker.board hrecords _) (time_apply now _ rfl hstarted) htell

/-! ## Whatever is put together of the steps of a tracker -/

/-- When the record at a place says that its stage began. -/
def startedAt? (records : List Record) (place : Nat) : Option Binary64 :=
  records[place]? >>= Record.started

/-- The shared action does to the board of a tracker what the other one does to the tracker. The
listeners stay, and so does what records say about when their stages began. -/
structure Follows (listeners : List (Listener ω)) (action : Tracked ω α) (shared : Shared ω α) :
    Prop where
  same : ∀ tracker, tracker.listeners = listeners →
    shared tracker.board = some ((action tracker).1, (action tracker).2.board)
  listeners : ∀ tracker, (action tracker).2.listeners = tracker.listeners
  started : ∀ (tracker : Tracker ω) (place : Nat) (started : Binary64),
    startedAt? tracker.records place = some started →
      startedAt? (action tracker).2.records place = some started

theorem follows_pure (value : α) : Follows listeners (pure value) (pure value) :=
  ⟨fun _ _ => rfl, fun _ => rfl, fun _ _ _ h => h⟩

theorem follows_onState (action : StateM ω α) :
    Follows listeners (onState action) (Board.onState action) :=
  ⟨fun _ _ => rfl, fun _ => rfl, fun _ _ _ h => h⟩

theorem Follows.bind {action : Tracked ω α} {shared : Shared ω α} {next : α → Tracked ω β}
    {next' : α → Shared ω β} (h : Follows listeners action shared)
    (hnext : ∀ value, Follows listeners (next value) (next' value)) :
    Follows listeners (action >>= next) (shared >>= next') where
  same tracker hlisteners := by
    rw [sharedBind_apply, h.same tracker hlisteners]
    exact (hnext (action tracker).1).same _ ((h.listeners tracker).trans hlisteners)
  listeners tracker := ((hnext (action tracker).1).listeners _).trans (h.listeners tracker)
  started tracker place started hstarted :=
    (hnext (action tracker).1).started _ place started (h.started tracker place started hstarted)

/-- Changing a record in a way that keeps when its stage began. -/
theorem startedAt?_modify {records : List Record} {place other : Nat} {started : Binary64}
    {change : Record → Record} (hchange : ∀ record, (change record).started = record.started)
    (h : startedAt? records other = some started) :
    startedAt? (records.modify place change) other = some started := by
  obtain ⟨record, hrecord, hstarted⟩ := Option.bind_eq_some_iff.mp h
  unfold startedAt?
  rw [List.getElem?_modify, hrecord]
  by_cases hsame : place = other
  · simpa [hsame, hchange] using hstarted
  · simpa [hsame] using hstarted

theorem startedAt?_append {records : List Record} {place : Nat} {started : Binary64}
    (h : startedAt? records place = some started) (record : Record) :
    startedAt? (records ++ [record]) place = some started := by
  obtain ⟨found, hfound, hstarted⟩ := Option.bind_eq_some_iff.mp h
  unfold startedAt?
  rw [List.getElem?_append_left (List.getElem?_eq_some_iff.mp hfound).1, hfound]
  exact hstarted

/-- Saying more about a stage. -/
theorem follows_describe (place : Nat) (detail : String) :
    Follows listeners (amend place fun record => { record with detail })
      (Board.describe place detail) := by
  refine ⟨fun tracker _ => ?_, fun _ => rfl, fun _ _ _ h => startedAt?_modify (fun _ => rfl) h⟩
  show some ((), (⟨_, List.range tracker.records.length, _, _⟩ : Board ω)) =
    some ((), (⟨_, List.range (tracker.records.modify place _).length, _, _⟩ : Board ω))
  rw [List.length_modify]
  rfl

/-- Starting a record, as that of a stage that is left out. -/
theorem follows_start (record : Record) :
    Follows listeners (start record) (Board.start (attending listeners) record) :=
  ⟨fun tracker h => start_attending tracker h record, fun _ => rfl,
    fun _ _ _ h => startedAt?_append h record⟩

/-- A stage is timed step by step. -/
theorem track_of_steps {audience : Audience ω} {now : StateM ω Binary64} {stage : String}
    (words : ε → String) {body : Nat → Shared ω (Except ε α)} {board read begun worked ended : Board ω}
    {reading : Binary64} {place : Nat} {given : Except ε α}
    (hread : Board.onState now board = some (reading, read))
    (hstart : Board.start audience (.begin stage reading) read = some (place, begun))
    (hbody : body place begun = some (given, worked))
    (hfinish : Board.finish audience now place (Pipeline.errorOf words given) worked =
      some ((), ended)) :
    Board.track audience now stage words body board = some (given, ended) := by
  rw [track_eq, sharedBind_apply, hread, Option.bind_some, sharedBind_apply, hstart,
    Option.bind_some, sharedBind_apply, hbody, Option.bind_some, sharedBind_apply, hfinish]
  rfl

/-- **A stage comes to the same** under a tracker and on its board, if its body does. -/
theorem follows_track (now : StateM ω Binary64) (stage : String) (words : ε → String)
    {body : Nat → Tracked ω (Except ε α)} {body' : Nat → Shared ω (Except ε α)}
    (h : ∀ place, Follows listeners (body place) (body' place)) :
    Follows listeners (track now stage words body)
      (Board.track (attending listeners) now stage words body') := by
  refine ⟨fun tracker hlisteners => ?_, fun tracker => ?_, fun tracker place started hstarted => ?_⟩
  · set begun := tracker.begun now stage
    set worked := (body tracker.records.length begun).2
    set given := (body tracker.records.length begun).1
    -- the body has not changed when the stage began, so that its record is there to be timed
    have hbegun : startedAt? begun.records tracker.records.length =
        some (now tracker.state).1 := by
      show (tracker.records ++ [_])[tracker.records.length]?.bind _ = _
      rw [List.getElem?_concat_length]
      rfl
    obtain ⟨record, hrecord, hstarted⟩ := Option.bind_eq_some_iff.mp
      ((h tracker.records.length).started begun _ _ hbegun)
    have hworked : worked.listeners = listeners :=
      ((h tracker.records.length).listeners begun).trans hlisteners
    have hbody : body' tracker.records.length begun.board = some (given, worked.board) :=
      (h tracker.records.length).same begun hlisteners
    have hfinish := finish_attending now worked hworked hrecord hstarted
      (Pipeline.errorOf words given)
    have hstart := start_attending (onState now tracker).2 hlisteners
      (.begin stage (now tracker.state).1)
    exact track_of_steps words rfl hstart hbody hfinish
  · show (finish now _ _ _).2.listeners = _
    rw [(finish_keeps now _ _ _).1]
    exact (h tracker.records.length).listeners (tracker.begun now stage)
  · show startedAt? (finish now _ _ _).2.records place = _
    rw [(finish_keeps now _ _ _).2]
    refine startedAt?_modify (fun _ => rfl) ?_
    refine (h tracker.records.length).started (tracker.begun now stage) place started ?_
    exact startedAt?_append hstarted (.begin stage (now tracker.state).1)

end

end RustScript.Progress
