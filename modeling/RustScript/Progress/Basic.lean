import RustScript.Entries
import RustScript.Number.Shortest

/-!
# Records of stages

What is known about the stages of one call of the program: which were run or skipped, how they
ended and how long they took.
-/

set_option autoImplicit false

namespace RustScript.Progress

/-- How far a stage has come. -/
inductive Status
  | running
  | completed
  | failed
  | skipped
  deriving DecidableEq, Repr

/-- The name of a status. -/
def Status.name : Status → String
  | .running => "running"
  | .completed => "completed"
  | .failed => "failed"
  | .skipped => "skipped"

/-- The record of one stage. -/
structure Record where
  stage : String
  status : Status
  /-- The reading of the clock when the stage began. -/
  started : Option Binary64
  /-- The seconds that the stage took. -/
  elapsed : Option Binary64
  detail : String
  error : Option String
  deriving DecidableEq, Repr

/-- The stage is over, or was never begun. -/
def Record.finished (record : Record) : Bool := record.status ≠ .running

/-- The record of a stage that begins. -/
def Record.begin (stage : String) (now : Binary64) : Record :=
  ⟨stage, .running, some now, none, "", none⟩

/-- The record of a stage that is left out. -/
def Record.skip (stage reason : String) : Record := ⟨stage, .skipped, none, none, reason, none⟩

/-- The record of the stage when it is over: with the time that it took, in thousandths of a
second, and the error that it ended with. -/
def Record.finish (record : Record) (now : Binary64) (error : Option String) : Record :=
  { record with
    status := if error.isSome then .failed else .completed
    elapsed := record.started.map fun started => (now.sub started).roundThousandth
    error }

/-- The latest record of a stage. -/
def latest? (records : List Record) (stage : String) : Option Record :=
  records.reverse.find? (·.stage == stage)

/-- The seconds of every stage that is over and was timed. -/
def timings (records : List Record) : Entries Binary64 :=
  Entries.ofList (records.filterMap fun record =>
    if record.finished then record.elapsed.map fun elapsed => (record.stage, elapsed) else none)

/-- The seconds that a record adds to the total. -/
def Record.share (record : Record) : Binary64 :=
  match record.elapsed with
  | none => .zero
  | some (.finite _ 0 _) => .zero
  | some elapsed => elapsed

/-- The seconds of all stages together. -/
def total (records : List Record) : Binary64 :=
  (records.foldl (fun sum record => sum.add record.share) Binary64.zero).roundThousandth

end RustScript.Progress
