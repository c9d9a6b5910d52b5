import RustScript.Files.Text
import RustScript.Manifest.Merge
import RustScript.Settings

/-!
# Failures

Why the program does not do what it was asked for. Most failures belong to a stage of the program
and are reported with it; a few come from conditions that no stage provides for (`stage?` is none).
-/

set_option autoImplicit false

namespace RustScript

/-- What went wrong with a file. -/
inductive FileProblem
  | cannotReadScript (reason : String)
  | scriptNotUtf8 (offset : Nat)
  | cannotWriteProject (reason : String)
  | noManifest
  | noProgram
  | cannotExecute (reason : String)
  | cannotDelete (reason : String)
  deriving DecidableEq, Repr

/-- The stage in which the problem arises. -/
def FileProblem.stage : FileProblem → String
  | .cannotReadScript _ => "analyze"
  | .scriptNotUtf8 _ => "analyze"
  | .cannotWriteProject _ => "generate"
  | .noManifest => "build"
  | .noProgram => "run"
  | .cannotExecute _ => "run"
  | .cannotDelete _ => "clean"

/-- The problem in words. -/
def FileProblem.message : FileProblem → String
  | .cannotReadScript reason => s!"Cannot read script ({reason})"
  | .scriptNotUtf8 offset => s!"Script is not valid UTF-8 (byte offset {offset})"
  | .cannotWriteProject reason => s!"Cannot write build files ({reason})"
  | .noManifest => "No generated manifest, run generate first"
  | .noProgram => "Compiled script not found, run build first"
  | .cannotExecute reason => s!"Cannot execute compiled script ({reason})"
  | .cannotDelete reason => s!"Cannot delete build files ({reason})"

/-- Why a build failed. -/
inductive BuildProblem
  | timedOut (seconds : String)
  | cannotRun (cargo reason : String)
  | failed (name : String) (output : Command.Output)
  deriving DecidableEq, Repr

/-- The problem in words. -/
def BuildProblem.message : BuildProblem → String
  | .timedOut seconds => s!"cargo build timed out after {seconds}s"
  | .cannotRun cargo reason => s!"Cannot run {cargo}: {reason}"
  | .failed name _ => s!"cargo build failed for {name}"

/-- What the build command printed and its status. -/
def BuildProblem.output? : BuildProblem → Option Command.Output
  | .failed _ output => some output
  | _ => none

/-- Why a script failed when it ran. -/
inductive RunProblem
  | timedOut (name seconds : String)
  | exited (name : String) (output : Command.Output)
  deriving DecidableEq, Repr

/-- The problem in words. -/
def RunProblem.message : RunProblem → String
  | .timedOut name seconds => s!"{name} timed out after {seconds}s"
  | .exited name output => s!"{name} exited with status {output.status}"

/-- What the script printed and its status. -/
def RunProblem.output? : RunProblem → Option Command.Output
  | .exited _ output => some output
  | _ => none

/-- Why the program does not do what it was asked for. -/
inductive Failure
  | settings (error : SettingsError)
  | merge (error : Manifest.MergeError)
  | unwritable (reason : Manifest.Unwritable)
  | file (problem : FileProblem) (path : String)
  | build (problem : BuildProblem)
  | run (problem : RunProblem)
  /-- The manifest of an earlier call is not a manifest any more. -/
  | load (error : Manifest.ReadError)
  /-- A file that is there cannot be read. -/
  | text (error : TextError)
  /-- A command was called without an argument that it needs. -/
  | incompleteCall
  deriving DecidableEq, Repr

namespace Failure

/-- The stage that a manifest text belongs to. -/
def manifestStage : String := "analyze"

/-- The stage that the failure belongs to, if it is one that is reported. -/
def stage? : Failure → Option String
  | .settings _ => some "config"
  | .merge (.malformed cause) => if cause.isForeseen then some manifestStage else none
  | .merge .longNumber => none
  | .merge (.lookup error) => if error.isAnswer then some "generate" else none
  | .merge (.badName _) => none
  | .unwritable _ => none
  | .file problem _ => some problem.stage
  | .build _ => some "build"
  | .run _ => some "run"
  | .load (.malformed cause) => if cause.isForeseen then some manifestStage else none
  | .load _ => none
  | .text _ => none
  | .incompleteCall => none

/-- The failure is reported with its stage. -/
def isReported (failure : Failure) : Bool := failure.stage?.isSome

/-- The failure in words. -/
def message : Failure → String
  | .settings error => error.message
  | .merge error => error.message
  | .unwritable reason => reason.reason
  | .file problem path => s!"{problem.message}: {path}"
  | .build problem => problem.message
  | .run problem => problem.message
  | .load (.malformed cause) => (Manifest.MergeError.malformed cause).message
  | .load _ => "the manifest has an unexpected shape"
  | .text (.system error) => error.message
  | .text (.notUtf8 offset) => s!"invalid UTF-8 at byte {offset}"
  | .incompleteCall => Command.Fault.incomplete.message

/-- What the toolchain printed, as far as the failure is one of the toolchain. -/
def output? : Failure → Option Command.Output
  | .build problem => problem.output?
  | .run problem => problem.output?
  | _ => none

end Failure

end RustScript
