import RustScript.Pipeline.Basic
import RustScript.Snippet

/-!
# The stages

Analyzing a script, generating its project, building the project and running what was built. Nothing
of a project is written before its manifest is complete, and a manifest file that would not change
is left alone.
-/

set_option autoImplicit false

namespace RustScript.Pipeline

open RustScript.Progress

variable {σ : Type}

/-! ## Analyze -/

/-- The text of a script. -/
def readScript (path : Path) : Act σ (Except Failure String) := do
  match ← Act.readText path with
  | .ok text => return .ok text
  | .error (.system error) =>
      return .error (.file (.cannotReadScript error.reason) path.toString)
  | .error (.notUtf8 offset) => return .error (.file (.scriptNotUtf8 offset) path.toString)

/-- Analyzes the text of a script. -/
def analyzeText (pipeline : Pipeline σ) (text : String) : Except Failure Source.Metadata :=
  (Source.analyze pipeline.structural text).mapError fun cause => .merge (.malformed cause)

/-- Reads a script and analyzes it. -/
def analyzeFile (pipeline : Pipeline σ) (path : Path) : Act σ (Except Failure Source.Metadata) :=
  return (← readScript path) >>= pipeline.analyzeText

/-- What the record says about a script. -/
def analysisDetail (metadata : Source.Metadata) : String :=
  s!"{metadata.kind}, strategy={metadata.strategy.name}, inferred={metadata.inferred.length}"

/-- Analyzes a script in a file. -/
def analyze (pipeline : Pipeline σ) (path : Path) : Run σ (Except Failure Source.Metadata) := do
  about path.stem
  track now "analyze" Failure.message fun place => do
    let result ← onWorld (pipeline.analyzeFile path)
    if let .ok metadata := result then
      amend place fun record => { record with detail := analysisDetail metadata }
    return result

/-! ## Generate -/

/-- A project of the script `stem`, of which nothing has been done. -/
def newProject (pipeline : Pipeline σ) (stem : String) (source : Option Path) : Project :=
  Project.ofStem pipeline.settings.buildRoot stem source

/-- Writes a file unless it has this content already; tells whether it was written. -/
def writeChanged (path : Path) (content : List UInt8) : FileAction Bool := do
  if (← get).exists path then
    if (← FileAction.read path) = content then return false
  FileAction.write path content
  return true

/-- Writes the files of a project; tells whether the manifest file was written. -/
def writeProject (project : Project) (source manifest : String) : FileAction Bool := do
  FileAction.makeDirectories project.directory
  FileAction.write project.generatedSourcePath (Utf8.encode source)
  writeChanged project.manifestPath (Utf8.encode manifest)

/-- The source that is built for a script. -/
def generatedSource (metadata : Source.Metadata) : String :=
  if metadata.isProgram then metadata.body else Snippet.wrap metadata.body

/-- The manifest of a script and its text, with what is known about the script afterwards. -/
def resolveManifest (pipeline : Pipeline σ) (metadata : Source.Metadata) (project : Project) :
    Act σ (Except Failure (Source.Metadata × Manifest × String)) := do
  let (metadata, result) ← Manifest.merge pipeline.resolver pipeline.settings.packageVersion
    pipeline.settings.edition metadata project.stem project.generatedSourcePath
  return do
    let manifest ← result.mapError Failure.merge
    let text ← manifest.write.mapError Failure.unwritable
    return (metadata, manifest, text)

/-- What the record says about a generation. -/
def generationDetail (manifest : Manifest) (written : Bool) : String :=
  let dependencies := manifest.dependencies.length + manifest.unnamed.length
  let state := if written then "written" else "unchanged"
  s!"deps={dependencies}, manifest={state}"

/-- The failure of writing a project. -/
def writeFailure (project : Project) (error : SystemError) : Failure :=
  .file (.cannotWriteProject error.reason) (error.file.getD project.directory.toString)

/-- Makes an empty file unless there is one already, which is read. -/
def leaveEmpty (path : Path) : FileAction Unit := do
  if (← get).exists path then
    let _ ← FileAction.read path
  else FileAction.write path []

/-- Writes what can be written of a project whose manifest has no bytes: the source, and an empty
file for the manifest unless there is one. -/
def writeRest (project : Project) (source : String) : FileAction Unit := do
  FileAction.makeDirectories project.directory
  FileAction.write project.generatedSourcePath (Utf8.encode source)
  leaveEmpty project.manifestPath

/-- Gives up a project that has no manifest. A manifest without bytes is noticed only when it is to
be written. -/
def giveUp (metadata : Source.Metadata) (project : Project) (failure : Failure) :
    Run σ (Except Failure (Step Source.Metadata)) := do
  if let .unwritable (.noBytes _) := failure then
    if let .error error ← onWorld (Act.files (writeRest project (generatedSource metadata))) then
      return .error (writeFailure project error)
  return .error failure

/-- Generates the project, as the body of the stage. -/
def generateStep (pipeline : Pipeline σ) (metadata : Source.Metadata) (project : Project) :
    Run σ (Except Failure (Step Source.Metadata)) := do
  match ← onWorld (pipeline.resolveManifest metadata project) with
  | .error failure => giveUp metadata project failure
  | .ok (metadata, manifest, text) =>
      match ← onWorld (Act.files (writeProject project (generatedSource metadata) text)) with
      | .error error => return .error (writeFailure project error)
      | .ok written => return .ok {
          detail := generationDetail manifest written
          project := { project with
            manifest := some manifest
            manifestWritten := written
            status := .generated }
          value := metadata }

/-- Generates the project of a script. -/
def generate (pipeline : Pipeline σ) (metadata : Source.Metadata) (stem : String)
    (source : Option Path) : Run σ (Except Failure (Project × Source.Metadata)) := do
  about stem
  let project := pipeline.newProject stem source
  let (project, result) ← inStage "generate" project (pipeline.generateStep metadata project)
  return result.map fun metadata => (project, metadata)

/-- The project of a script as an earlier generation left it. -/
def existingProject (pipeline : Pipeline σ) (stem : String) (source : Option Path) :
    Act σ (Except Failure Project) := do
  let project := pipeline.newProject stem source
  if ← Act.look (·.exists project.manifestPath) then
    match ← Act.readText project.manifestPath with
    | .error error => return .error (.text error)
    | .ok text =>
        return match Manifest.read text with
          | .error error => .error (.load error)
          | .ok manifest => .ok { project with manifest := some manifest, status := .generated }
  else return .ok project

/-! ## Build -/

/-- The call that builds a project. -/
def buildCall (settings : Settings) (project : Project) : Command.Call where
  args := [settings.cargo, "build"] ++ if settings.verboseBuild then ["--verbose"] else []
  directory := some project.directory
  capture := true
  timeout := settings.buildTimeout

/-- The failure of a build command that did not come to its own end. -/
def buildFault (cargo : String) : Command.Fault → Failure
  | .timedOut _ seconds => .build (.timedOut seconds)
  | .system error => .build (.cannotRun cargo error.message)
  | .incomplete => .incompleteCall

/-- Builds the project, as the body of the stage. -/
def buildStep (pipeline : Pipeline σ) (project : Project) :
    Run σ (Except Failure (Step Command.Output)) := do
  if !(← onWorld (Act.look (·.exists project.manifestPath))) then
    return .error (.file .noManifest project.manifestPath.toString)
  match ← onWorld (pipeline.runner (buildCall pipeline.settings project)) with
  | .error fault => return .error (buildFault pipeline.settings.cargo fault)
  | .ok output =>
      -- the output is kept whether the build succeeded or not
      pipeline.keepOutput project.stem "build" output
      if !output.ok then return .error (.build (.failed project.sourceName output))
      return .ok {
        detail := s!"target={project.targetPath}"
        project := { project with status := .built }
        value := output }

/-- Builds a project. -/
def build (pipeline : Pipeline σ) (project : Project) :
    Run σ (Project × Except Failure StageOutput) := do
  about project.stem
  let (project, result) ← inStage "build" project (pipeline.buildStep project)
  return (project, result.map (StageOutput.ofCommand "build" project))

/-! ## Run -/

/-- The call that runs what was built. -/
def runCall (settings : Settings) (project : Project) (args : List String) (capture : Bool) :
    Command.Call where
  args := project.targetPath.toString :: args
  directory := none
  capture
  timeout := settings.runTimeout

/-- The failure of a script that did not come to its own end. -/
def runFault (project : Project) : Command.Fault → Failure
  | .timedOut _ seconds => .run (.timedOut project.sourceName seconds)
  | .system error => .file (.cannotExecute error.reason) project.targetPath.toString
  | .incomplete => .incompleteCall

/-- Runs what was built, as the body of the stage. -/
def runStep (pipeline : Pipeline σ) (project : Project) (args : List String) (capture : Bool) :
    Run σ (Except Failure (Step Command.Output)) := do
  if !(← onWorld (Act.look (·.exists project.targetPath))) then
    return .error (.file .noProgram project.targetPath.toString)
  match ← onWorld (pipeline.runner (runCall pipeline.settings project args capture)) with
  | .error fault => return .error (runFault project fault)
  | .ok output =>
      pipeline.keepOutput project.stem "run" output
      if !output.ok then return .error (.run (.exited project.sourceName output))
      return .ok {
        detail := s!"exit={output.status}"
        project := { project with status := .ran }
        value := output }

/-- Runs what was built, with arguments. -/
def run (pipeline : Pipeline σ) (project : Project) (args : List String) (capture : Bool) :
    Run σ (Project × Except Failure StageOutput) := do
  about project.stem
  let (project, result) ← inStage "run" project (pipeline.runStep project args capture)
  return (project, result.map (StageOutput.ofCommand "run" project))

end RustScript.Pipeline
