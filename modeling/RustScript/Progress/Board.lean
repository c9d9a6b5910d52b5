import RustScript.Progress.Basic

/-!
# Records in many hands

A record is in the hands of the body of its stage and of everyone who is told of it, and whoever has
hold of it may change it: the next listener who is told finds the record as the one before has left
it. The list of listeners, too, is at hand while they are told, one after the other by their places in
it: a listener who leaves it makes the next one move up and be passed over, and while listeners are
added there is no end before there is no place left for them.

A `Tracker` is a board whose listeners act on nothing but the state.
-/

set_option autoImplicit false

namespace RustScript.Progress

/-- The records of a call, who hears of them, and the state that stages act on. -/
structure Board (ω : Type) where
  /-- Every record that was ever begun. -/
  made : List Record
  /-- The places in `made` of the records that are kept. -/
  kept : List Nat
  /-- The numbers of those who hear of records. -/
  listeners : List Nat
  state : ω

/-- An action on a board, which may never return. -/
abbrev Shared (ω : Type) := StateT (Board ω) Option

/-- What listeners do when they are told of the record at a place: the one of a number may do anything
to the board, and may fail. -/
abbrev Audience (ω : Type) := Nat → Nat → Shared ω (Except String Unit)

/-- The record with how its stage ended. -/
def Record.conclude (error : Option String) (record : Record) : Record :=
  { record with status := if error.isSome then .failed else .completed, error }

namespace Board

variable {ω α ε : Type}

/-- The board on which nothing has happened. -/
def fresh (listeners : List Nat) (state : ω) : Board ω := ⟨[], [], listeners, state⟩

/-- The records that are kept. -/
def records (board : Board ω) : List Record := board.kept.filterMap (board.made[·]?)

/-- An action on the state as one on the board. -/
def onState (action : StateM ω α) : Shared ω α := fun board =>
  let (result, state) := action board.state
  some (result, { board with state })

/-- Changes the record at a place. -/
def amend (place : Nat) (change : Record → Record) : Shared ω Unit :=
  modify fun board => { board with made := board.made.modify place change }

/-- Says more about the stage of the record at a place. -/
def describe (place : Nat) (detail : String) : Shared ω Unit :=
  amend place fun record => { record with detail }

/-- No list has so many places. -/
def placeLimit : Nat := Nat.pow 2 63

/-- Tells the listeners from a place of their list on of the record at a place, as long as there is
`room` for more of them. -/
def tellFrom (audience : Audience ω) (place : Nat) : (room index : Nat) → Shared ω Unit
  | 0, _ => fun _ => none
  | room + 1, index => do
      match (← get).listeners[index]? with
      | none => pure ()
      | some listener =>
          let _ ← audience listener place
          tellFrom audience place room (index + 1)

/-- Tells the listeners of the record at a place. It does not return if there is no place left for
those who are added. -/
def tell (audience : Audience ω) (place : Nat) : Shared ω Unit := fun board =>
  tellFrom audience place (board.listeners.length + placeLimit) 0 board

/-- Keeps a new record and gives its place. -/
def keep (record : Record) : Shared ω Nat := fun board =>
  let place := board.made.length
  some (place, { board with made := board.made ++ [record], kept := board.kept ++ [place] })

/-- Keeps a new record, tells of it, and gives its place. -/
def start (audience : Audience ω) (record : Record) : Shared ω Nat := do
  let place ← keep record
  tell audience place
  return place

/-- Notes in the record at a place the time that its stage took, if it says when the stage began. -/
def time (now : StateM ω Binary64) (place : Nat) : Shared ω Unit := fun board =>
  match board.made[place]? >>= Record.started with
  | none => some ((), board)
  | some started => (do
      let reading ← onState now
      amend place fun record =>
        { record with elapsed := some (reading.sub started).roundThousandth }) board

/-- Finishes the record at a place and tells of it. -/
def finish (audience : Audience ω) (now : StateM ω Binary64) (place : Nat)
    (error : Option String) : Shared ω Unit := do
  amend place (Record.conclude error)
  time now place
  tell audience place

/-- Notes that a stage is left out, and gives the place of its record. -/
def skip (audience : Audience ω) (stage reason : String) : Shared ω Nat :=
  start audience (.skip stage reason)

/-- Times a stage, which gets the place of its record; `describe` puts its error into words. -/
def track (audience : Audience ω) (now : StateM ω Binary64) (stage : String) (describe : ε → String)
    (body : Nat → Shared ω (Except ε α)) : Shared ω (Except ε α) := do
  let place ← start audience (.begin stage (← onState now))
  let result ← body place
  finish audience now place (match result with
    | .ok _ => none
    | .error error => some (describe error))
  return result

end Board

end RustScript.Progress
