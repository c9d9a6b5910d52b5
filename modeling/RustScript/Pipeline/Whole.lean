import RustScript.Pipeline.Stages

/-!
# Several stages in one call

A call runs any of the stages generate, build and run, in this order, and stops at the first one
that fails. Without generating, it goes on from what an earlier call left.
-/

set_option autoImplicit false

namespace RustScript.Pipeline

open RustScript.Progress

variable {σ : Type}

/-- Which stages a call runs. -/
structure Selection where
  generate : Bool
  build : Bool
  run : Bool
  deriving DecidableEq, Repr

/-- All stages. -/
def Selection.all : Selection := ⟨true, true, true⟩

/-- The selection, or all stages if none is selected. -/
def Selection.orAll (selection : Selection) : Selection :=
  if selection = ⟨false, false, false⟩ then .all else selection

/-- What a call made. -/
structure Outcome where
  project : Project
  metadata : Option Source.Metadata
  buildOutput : Option StageOutput
  runOutput : Option StageOutput

/-- The reason for which a stage that was not selected is left out. -/
def notRequested : String := "not requested"

/-- Builds the project of a call if that is selected. -/
def buildIf (pipeline : Pipeline σ) (selected : Bool) (outcome : Outcome) :
    Run σ (Except Failure Outcome) := do
  if selected then
    let (project, result) ← pipeline.build outcome.project
    return result.map fun output => { outcome with project, buildOutput := some output }
  else
    skip "build" notRequested
    return .ok outcome

/-- Runs what was built if that is selected. -/
def runIf (pipeline : Pipeline σ) (selected : Bool) (args : List String) (capture : Bool)
    (outcome : Outcome) : Run σ (Except Failure Outcome) := do
  if selected then
    let (project, result) ← pipeline.run outcome.project args capture
    return result.map fun output => { outcome with project, runOutput := some output }
  else
    skip "run" notRequested
    return .ok outcome

/-- Builds and runs what is selected. -/
def buildAndRun (pipeline : Pipeline σ) (selection : Selection) (args : List String)
    (capture : Bool) (outcome : Outcome) : Run σ (Except Failure Outcome) := do
  match ← pipeline.buildIf selection.build outcome with
  | .error failure => return .error failure
  | .ok outcome => pipeline.runIf selection.run args capture outcome

/-- Generates the project of a script that has been analyzed. -/
def generateFrom (pipeline : Pipeline σ) (stem : String) (source : Option Path)
    (analysis : Except Failure Source.Metadata) : Run σ (Except Failure Outcome) := do
  match analysis with
  | .error failure => return .error failure
  | .ok metadata =>
      return (← pipeline.generate metadata stem source).map fun (project, metadata) =>
        ⟨project, some metadata, none, none⟩

/-- Goes on from what an earlier generation left. -/
def resume (pipeline : Pipeline σ) (stem : String) (source : Option Path) :
    Run σ (Except Failure Outcome) := do
  skip "generate" notRequested
  return (← onWorld (pipeline.existingProject stem source)).map fun project =>
    ⟨project, none, none, none⟩

/-- Runs the selected stages for a script in a file. -/
def runScript (pipeline : Pipeline σ) (source : Path) (selection : Selection)
    (args : List String) (capture : Bool) : Run σ (Except Failure Outcome) := do
  pipeline.renew
  let begun ← if selection.generate then do
      pipeline.generateFrom source.stem (some source) (← pipeline.analyze source)
    else pipeline.resume source.stem (some source)
  match begun with
  | .error failure => return .error failure
  | .ok outcome => pipeline.buildAndRun selection args capture outcome

/-- The stem of what is given as text. -/
def textStem : String := "rsrun_expr"

/-- Runs the selected stages for a script that is given as text. -/
def runText (pipeline : Pipeline σ) (text : String) (selection : Selection)
    (args : List String) (capture : Bool) : Run σ (Except Failure Outcome) := do
  pipeline.renew
  about textStem
  let begun ← if selection.generate then do
      let analysis ← track now "analyze" Failure.message fun _ =>
        pure (pipeline.analyzeText text)
      pipeline.generateFrom textStem none analysis
    else pipeline.resume textStem none
  match begun with
  | .error failure => return .error failure
  | .ok outcome => pipeline.buildAndRun selection args capture outcome

/-! ## Housekeeping -/

/-- What the directory of a project holds, sorted. -/
def list (project : Project) : Act σ (List Path) :=
  Act.look fun files =>
    if files.isDirectory project.directory then
      (files.entries project.directory).map fun name =>
        ⟨project.directory.slashes, project.directory.names ++ [name]⟩
    else []

/-- Removes the directory of a project, if there is one, and the logs of the script. -/
def removeAll (pipeline : Pipeline σ) (project : Project) (present : Bool) :
    Act σ (Except SystemError Unit) := do
  match ← (if present then Act.files (FileAction.removeTree project.directory)
      else pure (.ok ())) with
  | .error error => return .error error
  | .ok () =>
      match pipeline.store with
      | none => return .ok ()
      | some store => store.delete project.stem

/-- Cleans up after a script. Tells whether there was a project. -/
def clean (pipeline : Pipeline σ) (project : Project) :
    Act σ (Project × Except Failure Bool) := do
  let present ← Act.look (·.exists project.directory)
  match ← pipeline.removeAll project present with
  | .error error =>
      return (project, .error (.file (.cannotDelete error.reason) project.directory.toString))
  | .ok () => return (project.cleaned, .ok present)

end RustScript.Pipeline
