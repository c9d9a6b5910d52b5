import RustScript.Failure
import RustScript.Log.Store
import RustScript.Progress.Tracker
import RustScript.Project

/-!
# The pipeline

A script goes through stages: it is analyzed, its project is generated, built and run. Here is what
the stages share: the collaborators, the records of the current call, and the journal in which the
changes of every record are noted for the script at hand. `inStage` runs a stage on a project and
keeps what the record of the stage says in the project.
-/

set_option autoImplicit false

namespace RustScript

open RustScript.Progress

/-- The collaborators of the pipeline. -/
structure Pipeline (σ : Type) where
  settings : Settings
  /-- Finds the releases of crates. -/
  resolver : Registry.Resolver σ
  /-- Runs the build command and scripts. -/
  runner : Runner σ
  /-- Keeps outputs and journals, if they are kept. -/
  store : Option (Log.Store σ)
  /-- Scripts are analyzed by their syntax trees as far as they have one. -/
  structural : Bool

/-- What the stages act on. -/
structure Session (σ : Type) where
  world : World σ
  /-- The stem of the script whose journal takes the notes. -/
  subject : Option String

/-- An action of the pipeline. -/
abbrev Run (σ : Type) := Tracked (Session σ)

namespace Pipeline

variable {σ α : Type}

/-! ## Acting on the session -/

/-- An action on the world as one on the session. -/
def inSession (action : Act σ α) : StateM (Session σ) α := fun session =>
  let (result, world) := action session.world
  (result, { session with world })

/-- An action on the world as one of the pipeline. -/
def onWorld (action : Act σ α) : Run σ α := onState (inSession action)

/-- Reads the clock. -/
def now : StateM (Session σ) Binary64 := inSession Act.now

/-- From here on notes go to the journal of the script `stem`. -/
def about (stem : String) : Run σ Unit :=
  onState (modify fun session => { session with subject := some stem })

/-! ## The journal -/

/-- The note about a change of a record. -/
def note (record : Record) : String :=
  let elapsed := (record.elapsed.map fun seconds => s!" {seconds.fixed}s").getD ""
  let detail := if record.detail.isEmpty then "" else s!" {record.detail}"
  let error := ((record.error.filter fun text => !text.isEmpty).map fun text =>
    s!" error={text}").getD ""
  s!"{record.stage} {record.status.name}{elapsed}{detail}{error}"

/-- The listener that notes changes in a store. -/
def journal (store : Log.Store σ) : Listener (Session σ) := fun record => do
  match (← get).subject with
  | none => return .ok ()
  | some stem =>
      if stem.isEmpty then return .ok ()
      else return (← inSession (store.append stem (note record))).mapError SystemError.message

/-- Who hears of changes of records. -/
def listeners (pipeline : Pipeline σ) : List (Listener (Session σ)) :=
  pipeline.store.toList.map journal

/-- The state in which nothing has been recorded yet. -/
def opened (pipeline : Pipeline σ) (world : World σ) : Tracker (Session σ) :=
  ⟨[], pipeline.listeners, ⟨world, none⟩⟩

/-- Begins new records. -/
def renew (pipeline : Pipeline σ) : Run σ Unit :=
  modify fun tracker => { tracker with records := [], listeners := pipeline.listeners }

/-- Keeps the output of a stage, as far as that is possible. -/
def keepOutput (pipeline : Pipeline σ) (stem stage : String) (output : Command.Output) :
    Run σ Unit := do
  if let some store := pipeline.store then
    let _ ← onWorld (store.save stem stage output)

/-- Gives up the connection to the registry. -/
def close (pipeline : Pipeline σ) : Run σ Unit := onWorld pipeline.resolver.close

/-! ## Stages on projects -/

/-- The result of a stage that succeeded. -/
structure Step (α : Type) where
  /-- What the record says about it. -/
  detail : String
  /-- The project after the stage. -/
  project : Project
  /-- What the stage gives. -/
  value : α

/-- The output of a stage that ran a command. -/
structure StageOutput where
  stage : String
  status : Int
  stdout : String
  stderr : String
  elapsed : Option Binary64
  deriving DecidableEq, Repr

/-- The output of a command as the output of a stage, with the time that the project says. -/
def StageOutput.ofCommand (stage : String) (project : Project) (output : Command.Output) :
    StageOutput :=
  ⟨stage, output.status, output.stdout, output.stderr, project.timings.get? stage⟩

/-- Runs a stage under a record, and notes the detail that it gives. -/
def recorded (stage : String) (body : Run σ (Except Failure (Step α))) :
    Run σ (Except Failure (Step α)) :=
  track now stage Failure.message fun place => do
    let result ← body
    if let .ok step := result then
      amend place fun record => { record with detail := step.detail }
    return result

/-- Runs a stage on a project. The project gets the time that the stage took, and is marked when
the stage fails. -/
def inStage (stage : String) (project : Project) (body : Run σ (Except Failure (Step α))) :
    Run σ (Project × Except Failure α) := do
  let place := (← get).records.length
  let result ← recorded stage body
  let elapsed := (← get).records[place]? >>= Record.elapsed
  match result with
  | .ok step => return (step.project.withTiming stage elapsed, .ok step.value)
  | .error failure => return ((project.withTiming stage elapsed).markFailed stage, .error failure)

end Pipeline

end RustScript
