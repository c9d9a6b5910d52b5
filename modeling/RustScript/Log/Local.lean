import RustScript.Log.Store
import RustScript.Number.Integer

/-!
# Logs in files

Below a directory every script has a directory of its own. The output of a stage is in three files,
named for the stage: what was printed, what was complained about, and the status as a number. The
journal is the file `events.log`.
-/

set_option autoImplicit false

namespace RustScript.Log

open RustScript.Text

/-- The name of the file that holds a journal. -/
def journalName : String := "events.log"

/-- The line of a journal for an event: no line feed at its end but one. -/
def journalLine (event : String) : String :=
  String.ofList (event.toList.reverse.dropWhile (· = '\n')).reverse ++ "\n"

/-- Makes a directory and writes files into it. -/
def writeFiles (directory : Path) (contents : List (String × String)) : FileAction Unit := do
  FileAction.makeDirectories directory
  contents.forM fun (name, content) =>
    FileAction.write (directory.child name) (Utf8.encode content)

/-- The contents of the three files of a stage. -/
def outputFiles (stage : String) (output : Command.Output) : List (String × String) :=
  [(stage ++ ".stdout", output.stdout), (stage ++ ".stderr", output.stderr),
    (stage ++ ".status", toString output.status ++ "\n")]

/-- The text in a file of a log. -/
def readLog {σ : Type} (path : Path) : ExceptT LoadError (Act σ) String :=
  ExceptT.mk do return (← Act.readText path).mapError .text

/-- The output in the three files of a stage. -/
def readOutput {σ : Type} (directory : Path) (stage : String) :
    ExceptT LoadError (Act σ) Command.Output := do
  let status ← readLog (directory.child (stage ++ ".status"))
  match Integer.readLoose? status with
  | none => throw .badStatus
  | some status =>
      let stdout ← readLog (directory.child (stage ++ ".stdout"))
      let stderr ← readLog (directory.child (stage ++ ".stderr"))
      return { status, stdout, stderr }

/-- The store that keeps logs in files below a directory. -/
def storeIn {σ : Type} (base : Path) : Store σ where
  save stem stage output := Act.files (writeFiles (base.child stem) (outputFiles stage output))
  load stem stage := do
    if ← Act.look (·.exists ((base.child stem).child (stage ++ ".status"))) then
      return (← (readOutput (base.child stem) stage).run).map some
    else return .ok none
  append stem event := Act.files do
    FileAction.makeDirectories (base.child stem)
    FileAction.append ((base.child stem).child journalName) (Utf8.encode (journalLine event))
  events stem := do
    if ← Act.look (·.exists ((base.child stem).child journalName)) then
      return (← (readLog ((base.child stem).child journalName)).run).map fun text =>
        (splitLines text.toList).map String.ofList
    else return .ok []
  delete stem := do
    if ← Act.look (·.exists (base.child stem)) then
      Act.files (FileAction.removeTree (base.child stem))
    else return .ok ()

end RustScript.Log
