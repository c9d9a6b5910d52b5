import RustScript.CommandLine.Help
import RustScript.CommandLine.Terminal
import RustScript.Log.Local
import RustScript.Registry.Cache

/-!
# The command line

`invoke` is a call of the program: it reads the command line, sets up the log, takes its settings
from the environment and the command line, does what is asked for (`respond`) and prints a report
on it.
-/

set_option autoImplicit false

namespace RustScript.CommandLine

open RustScript.Pipeline

/-- What the program finds where it is called. -/
structure Host (σ : Type) where
  /-- The variables of the environment. -/
  environment : Entries String
  /-- The directory for temporary files. -/
  temporary : Path
  /-- Runs commands. -/
  runner : Runner σ
  /-- Reaches registries on the web. -/
  client : Registry.Client σ
  /-- What the program prints is shown on a terminal. -/
  outIsTerminal : Bool := false
  /-- What it prints about failures is shown on a terminal. -/
  errIsTerminal : Bool := false

variable {σ : Type}

/-- The action on a world with something more kept outside, which begins as given and is forgotten
in the end. -/
def withNew {κ α : Type} (beginning : κ) (action : Act (κ × σ) α) : Act σ α := fun world =>
  let (result, after) :=
    action ⟨world.files, world.clock, world.readings, (beginning, world.outside)⟩
  (result, ⟨after.files, after.clock, after.readings, after.outside.2⟩)

/-- The settings from the environment, with what the command line says instead. -/
def settingsFor (host : Host σ) (request : Request) : Except SettingsError Settings := do
  let settings ← Settings.ofEnvironment host.temporary host.environment
  return { settings with
    registry := request.registry.getD settings.registry
    buildRoot := (request.buildRoot.map Path.ofString).getD settings.buildRoot
    verboseBuild := request.verboseBuild || settings.verboseBuild }

/-- The pipeline of one call. Releases are remembered for the time of the call. -/
def pipelineFor (host : Host σ) (settings : Settings) : Pipeline (Registry.Cache × σ) where
  settings
  resolver := Registry.remembering (settings.resolver host.runner host.client)
  runner := host.runner.beside
  store := settings.logDirectory.map Log.storeIn
  structural := true

/-! ## The commands -/

/-- Runs stages for a script or for a text. -/
def runStages (pipeline : Pipeline σ) (request : Request) : Run σ Report := do
  let selection := request.selection.orAll
  let result ←
    if request.verb = .eval then
      pipeline.runText request.subject selection request.arguments false
    else pipeline.runScript (.ofString request.subject) selection request.arguments false
  return .ofStages selection request.timings (← get).records result

/-- Finds out about a script and its manifest, and writes nothing. -/
def inspect (pipeline : Pipeline σ) (script : String) : Run σ Report := do
  let path := Path.ofString script
  let project := pipeline.newProject path.stem (some path)
  match ← pipeline.analyze path with
  | .error failure => return .ofFailure "" "" failure
  | .ok metadata =>
      let (metadata, result) ← onWorld (Manifest.merge pipeline.resolver
        pipeline.settings.packageVersion pipeline.settings.edition metadata project.stem
        project.generatedSourcePath)
      match result with
      | .error error => return .ofFailure "" "" (.merge error)
      | .ok manifest => return .ofInspection script project metadata manifest

/-- Lists what the project of a script holds. -/
def listProject (pipeline : Pipeline σ) (script : String) : Run σ Report := do
  let project := pipeline.newProject (Path.ofString script).stem none
  let entries ← onWorld (Pipeline.list project)
  let listed ← onWorld (Act.look fun files =>
    entries.map fun entry => (entry, files.isDirectory entry))
  return .ofList script project listed

/-- Removes the project of a script. -/
def cleanProject (pipeline : Pipeline σ) (script : String) : Run σ Report := do
  let project := pipeline.newProject (Path.ofString script).stem none
  let (project, result) ← onWorld (pipeline.clean project)
  return .ofClean script project result

/-- Does what is asked for. -/
def perform (pipeline : Pipeline σ) (request : Request) : Run σ Report :=
  match request.verb with
  | .run => runStages pipeline request
  | .eval => runStages pipeline request
  | .inspect => inspect pipeline request.subject
  | .list => listProject pipeline request.subject
  | .clean => cleanProject pipeline request.subject

/-- Does what is asked for with a pipeline of its own, which is closed in the end. -/
def carryOut (host : Host σ) (settings : Settings) (request : Request) : Act σ Report :=
  withNew [] fun world =>
    let pipeline := pipelineFor host settings
    let (report, tracker) := (do
      let report ← perform pipeline request
      pipeline.close
      return report).run (pipeline.opened world)
    (report, tracker.state.world)

/-! ## Calls -/

/-- The result of a call of the program. -/
structure Result where
  report : Report
  /-- The levels that the log was set up with: none stands for the one of the environment. -/
  logLevels : List (Option String)

/-- Does what the words behind a command ask for. -/
def answer (host : Host σ) (verb : Verb) (arguments : List String) : Act σ Report := do
  match read verb (← get).files arguments with
  | .error notice => return .ofNotice (some verb) notice
  | .ok request =>
      match settingsFor host request with
      | .error error => return .ofFailure "" "" (.settings error)
      | .ok settings => carryOut host settings request

/-- What the program has to say on a command line. -/
def respond (host : Host σ) (arguments : List String) : Act σ Result := do
  match readVerb arguments with
  | .error notice => return ⟨.ofNotice none notice, []⟩
  | .ok (verb, verbose, rest) =>
      return ⟨← answer host verb rest, [if verbose then some "DEBUG" else none]⟩

/-- The report as it is to be seen where the program is called. -/
def Report.shownBy (report : Report) (host : Host σ) : Report :=
  { report with
    stdout := shownOn host.outIsTerminal report.stdout
    stderr := shownOn host.errIsTerminal report.stderr }

/-- A call of the program. -/
def invoke (host : Host σ) (arguments : List String) : Act σ Result := do
  let result ← respond host arguments
  return { result with report := result.report.shownBy host }

end RustScript.CommandLine
