import RustScript.CommandLine.Request
import RustScript.Manifest.Basic

/-!
# Reports

What the program prints about what it did, and the status that it exits with.
-/

set_option autoImplicit false

namespace RustScript.CommandLine

open RustScript.Progress RustScript.Pipeline

/-- What a call of the program prints and how it ends. -/
structure Report where
  exit : Int
  stdout : String
  stderr : String
  /-- The failure that ended the call without being reported. -/
  escaped : Option Failure

/-- A report on success. -/
def Report.success (stdout stderr : String) : Report := ⟨0, stdout, stderr, none⟩

/-- The text in a column, filled up with blanks behind it. -/
def leftColumn (width : Nat) (text : String) : String :=
  text ++ String.ofList (List.replicate (width - text.length) ' ')

/-- The text in a column, filled up with blanks in front of it. -/
def rightColumn (width : Nat) (text : String) : String :=
  String.ofList (List.replicate (width - text.length) ' ') ++ text

/-- The line of a record in a table of timings. -/
def timingLine (record : Record) : String :=
  let duration := (record.elapsed.map fun elapsed => s!"{elapsed.fixed}s").getD "-"
  let detail := if record.detail.isEmpty then "" else s!"  {record.detail}"
  s!"  {leftColumn 10 record.stage} {leftColumn 10 record.status.name} " ++
    s!"{rightColumn 9 duration}{detail}\n"

/-- The table of timings. -/
def timingTable (records : List Record) : String :=
  let label := leftColumn 10 "total"
  let gap := leftColumn 10 ""
  let sum := rightColumn 8 (total records).fixed
  "\nStage timings:\n" ++ String.join (records.map timingLine) ++
    s!"  {label} {gap} {sum}s\n"

/-- What the toolchain complained about, with one line feed at its end. -/
def complaint (output : Command.Output) : String :=
  if output.stderr.isEmpty then ""
  else String.ofList (output.stderr.toList.reverse.dropWhile (· = '\n')).reverse ++ "\n"

/-- The exit status for a failure: the one of the script, if that is what failed. -/
def exitStatus : Failure → Int
  | .run (.exited _ output) => if output.status = 0 then 1 else output.status
  | _ => 1

/-- The report on a failure, behind what was printed before. A failure that no stage reports ends
the call as it is. -/
def Report.ofFailure (stdout stderr : String) (failure : Failure) : Report :=
  match failure.stage? with
  | none => ⟨1, stdout, stderr, some failure⟩
  | some stage =>
      let complaint := (failure.output?.map complaint).getD ""
      ⟨exitStatus failure, stdout, stderr ++ s!"Error [{stage}]: {failure.message}\n{complaint}",
        none⟩

/-- What is said about the stages of a call that succeeded. -/
def resultText (selection : Selection) (outcome : Outcome) : String :=
  if selection.run then (outcome.runOutput.map StageOutput.stdout).getD ""
  else if selection.build then s!"Built {outcome.project.targetPath}\n"
  else if selection.generate then
    let state := if outcome.project.manifestWritten then "written" else "unchanged"
    s!"Generated {outcome.project.directory} (manifest {state})\n"
  else ""

/-- The report on a call that ran stages, with the table of timings if that is asked for. -/
def Report.ofStages (selection : Selection) (timings : Bool) (records : List Record)
    (result : Except Failure Outcome) : Report :=
  let table := if timings then timingTable records else ""
  match result with
  | .ok outcome => .success (resultText selection outcome) table
  | .error failure =>
      if failure.isReported then .ofFailure "" table failure else .ofFailure "" "" failure

/-- What was found out about a script. -/
def inspection (script : String) (project : Project) (metadata : Source.Metadata) : String :=
  let purpose := ((metadata.purpose.filter fun text => !text.isEmpty).map fun text =>
    s!"Purpose:     {text}\n").getD ""
  let description := ((metadata.description.filter fun text => !text.isEmpty).map fun text =>
    "Description:\n" ++ String.join ((Text.splitLines text.toList).map fun line =>
      s!"  {String.ofList line}\n")).getD ""
  let inferred := if metadata.inferred.isEmpty then "(none)"
    else String.intercalate ", " metadata.inferred
  s!"Script:      {script}\nKind:        {metadata.kind}\n" ++
    s!"Parsed with: {metadata.strategy.name}\n{purpose}{description}" ++
    s!"Inferred:    {inferred}\n\n# {project.manifestPath}\n"

/-- The warnings about a script. -/
def warningText (metadata : Source.Metadata) : String :=
  String.join (metadata.warnings.map fun warning => s!"Warning: {warning}\n")

/-- The report on a script and its manifest. -/
def Report.ofInspection (script : String) (project : Project) (metadata : Source.Metadata)
    (manifest : Manifest) : Report :=
  let text := inspection script project metadata
  match manifest.write with
  | .ok written => .success (text ++ written) (warningText metadata)
  | .error reason => .ofFailure text (warningText metadata) (.unwritable reason)

/-- The report on what a project holds. -/
def Report.ofList (script : String) (project : Project) (entries : List (Path × Bool)) : Report :=
  if entries.isEmpty then
    .success s!"No build directory for {script} ({project.directory})\n" ""
  else
    .success (s!"{project.directory}:\n" ++ String.join (entries.map fun (entry, isDirectory) =>
      let slash := if isDirectory then "/" else ""
      s!"  {entry.name}{slash}\n")) ""

/-- The report on removing a project. -/
def Report.ofClean (script : String) (project : Project) : Except Failure Bool → Report
  | .ok true => .success s!"Removed {project.directory}\n" ""
  | .ok false => .success s!"Nothing to clean for {script}\n" ""
  | .error failure => .ofFailure "" "" failure

end RustScript.CommandLine
