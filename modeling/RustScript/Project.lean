import RustScript.Manifest.Basic
import RustScript.Path

/-!
# Projects

Every script has a project of its own below the build root: a directory named for the stem of the
script, with a manifest, a source file and what the build puts there.
-/

set_option autoImplicit false

namespace RustScript

/-- How far a project has come. -/
inductive ProjectStatus
  | init
  | generated
  | built
  | ran
  | failed
  deriving DecidableEq, Repr

/-- The name of a status. -/
def ProjectStatus.name : ProjectStatus → String
  | .init => "init"
  | .generated => "generated"
  | .built => "built"
  | .ran => "ran"
  | .failed => "failed"

/-- What is known about the project of a script. -/
structure Project where
  /-- The name of the script without its extension. -/
  stem : String
  /-- The name of the script. -/
  sourceName : String
  /-- The directory of the project. -/
  directory : Path
  /-- The path of the script, unless it is given as text. -/
  sourcePath : Option Path
  /-- The manifest, once it is generated or loaded. -/
  manifest : Option Manifest
  status : ProjectStatus
  /-- The stage that failed last. -/
  failedStage : Option String
  /-- The last generation wrote the manifest file. -/
  manifestWritten : Bool
  /-- The seconds that stages took. -/
  timings : Entries Binary64

namespace Project

/-- The project of the script `stem` below `buildRoot`. -/
def ofStem (buildRoot : Path) (stem : String) (sourcePath : Option Path) : Project where
  stem
  sourceName := (sourcePath.map Path.name).getD (stem ++ ".rs")
  directory := buildRoot.child stem
  sourcePath
  manifest := none
  status := .init
  failedStage := none
  manifestWritten := false
  timings := []

/-- The file of the manifest. -/
def manifestPath (project : Project) : Path := project.directory.child "Cargo.toml"

/-- The file of the generated source. -/
def generatedSourcePath (project : Project) : Path := project.directory.child "main.rs"

/-- The program that a build makes. -/
def targetPath (project : Project) : Path :=
  ((project.directory.child "target").child "debug").child project.stem

/-- The project after a stage that took some seconds. -/
def withTiming (project : Project) (stage : String) (elapsed : Option Binary64) : Project :=
  match elapsed with
  | some seconds => { project with timings := project.timings.put stage seconds }
  | none => project

/-- The project after a stage that failed. -/
def markFailed (project : Project) (stage : String) : Project :=
  { project with status := .failed, failedStage := some stage }

/-- The project once its directory is gone. -/
def cleaned (project : Project) : Project := { project with manifest := none, status := .init }

end Project

end RustScript
