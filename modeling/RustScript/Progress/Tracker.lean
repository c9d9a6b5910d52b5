import RustScript.Progress.Basic

/-!
# Tracking stages

`track` times a stage: it begins a record, runs the stage and finishes the record, whether the
stage succeeds or fails. Listeners hear of every change of a record. A listener that fails changes
nothing for the stage and for the other listeners.

The listeners of a call only take down what they hear: one who is told of a record acts on nothing but
the state. What those could do who changed the record, or the list of listeners, is said of a `Board`.
-/

set_option autoImplicit false

namespace RustScript.Progress

/-- Something that hears of changes of records; it acts on a state `ω` and may fail. -/
abbrev Listener (ω : Type) := Record → StateM ω (Except String Unit)

/-- The records of a call, who hears of them, and the state that stages act on. -/
structure Tracker (ω : Type) where
  records : List Record
  listeners : List (Listener ω)
  state : ω

/-- An action under a tracker. -/
abbrev Tracked (ω : Type) := StateM (Tracker ω)

variable {ω α ε : Type}

/-- An action on the state as one under a tracker. -/
def onState (action : StateM ω α) : Tracked ω α := fun tracker =>
  let (result, state) := action tracker.state
  (result, { tracker with state })

/-- Tells the listeners about a record. -/
def tellAll (record : Record) : List (Listener ω) → StateM ω Unit
  | [] => pure ()
  | listener :: rest => do
      let _ ← listener record
      tellAll record rest

/-- Tells the listeners of the tracker about a record. -/
def tell (record : Record) : Tracked ω Unit := do
  onState (tellAll record (← get).listeners)

/-- Adds a record, tells of it, and gives its place. -/
def start (record : Record) : Tracked ω Nat := do
  let place := (← get).records.length
  modify fun tracker => { tracker with records := tracker.records ++ [record] }
  tell record
  return place

/-- Changes the record at a place. -/
def amend (place : Nat) (change : Record → Record) : Tracked ω Unit :=
  modify fun tracker => { tracker with records := tracker.records.modify place change }

/-- Finishes the record at a place and tells of it. -/
def finish (now : StateM ω Binary64) (place : Nat) (error : Option String) : Tracked ω Unit := do
  let reading ← onState now
  amend place fun record => record.finish reading error
  if let some record := (← get).records[place]? then tell record

/-- Notes that a stage is left out. -/
def skip (stage reason : String) : Tracked ω Unit := do
  let _ ← start (.skip stage reason)

/-- Times a stage, which gets the place of its record; `describe` puts its error into words. -/
def track (now : StateM ω Binary64) (stage : String) (describe : ε → String)
    (body : Nat → Tracked ω (Except ε α)) : Tracked ω (Except ε α) := do
  let place ← start (.begin stage (← onState now))
  let result ← body place
  finish now place (match result with
    | .ok _ => none
    | .error error => some (describe error))
  return result

end RustScript.Progress
