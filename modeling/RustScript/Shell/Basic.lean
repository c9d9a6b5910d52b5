import RustScript.Entries
import RustScript.Number.Integer
import RustScript.Shell.Syntax
import RustScript.Shell.Tool
import RustScript.World

/-!
# The shell

Runs commands of the shell language with the small tools, and by that calls of programs on a
machine that has a shell and the tools and nothing else.
-/

set_option autoImplicit false

namespace RustScript.Shell

/-- The state of a shell. -/
structure Machine where
  /-- The name of the script and its arguments. -/
  name : String
  arguments : List String
  bindings : Entries String
  /-- The working directory. -/
  directory : Path
  /-- The status of the last command. -/
  status : Int
  output : List UInt8
  errors : List UInt8
  /-- The seconds that commands took. -/
  seconds : Binary64
  /-- The shell has ended. -/
  ended : Bool

/-! ## Words -/

/-- The value of a parameter. The number of the shell's process is always the same here. -/
def Machine.value (machine : Machine) (name : String) : String :=
  match name with
  | "@" => String.intercalate " " machine.arguments
  | "*" => String.intercalate " " machine.arguments
  | "#" => toString machine.arguments.length
  | "?" => toString machine.status
  | "0" => machine.name
  | "$" => "2"
  | _ =>
      match name.toNat? with
      | some place => (machine.arguments[place - 1]?).getD ""
      | none => (machine.bindings.get? name).getD ""

/-- Fields so far: those that are complete, and the one that is being made, if it has begun. -/
abbrev Fields := List String × Option String

/-- Adds text to the field that is being made. -/
def Fields.add (fields : Fields) (text : String) : Fields :=
  (fields.1, some (fields.2.getD "" ++ text))

/-- Ends the field that is being made. -/
def Fields.close (fields : Fields) : Fields := (fields.1 ++ fields.2.toList, none)

/-- Adds texts, each of which but the first begins a new field. -/
def Fields.addAll (fields : Fields) : List String → Fields
  | [] => fields
  | [text] => fields.add text
  | text :: rest => Fields.addAll (fields.add text).close rest

/-- The words in a text. -/
def blankSeparated (text : String) : List String :=
  ((Text.cutAt ' ' (text.toList.map fun c => if c = '\t' || c = '\n' then ' ' else c)).filter
    fun word => !word.isEmpty).map String.ofList

/-- Adds a piece of a word. -/
def Machine.expandPiece (machine : Machine) (fields : Fields) : Piece → Fields
  | .text content _ => fields.add (String.ofList content)
  | .parameter name true =>
      if name = "@" then fields.addAll machine.arguments else fields.add (machine.value name)
  | .parameter name false => fields.addAll (blankSeparated (machine.value name))

/-- The piece only says that the word is there. -/
def isMark (piece : Piece) : Bool := piece = .text [] true

/-- The fields that a word stands for. The marks of quotes around all arguments make no field. -/
def Machine.expand (machine : Machine) (word : Word) : List String :=
  let allArguments : Word := [.parameter "@" true]
  let unmarked := word.filter fun piece => !isMark piece
  let parts := if unmarked = allArguments then allArguments else word
  (parts.foldl machine.expandPiece (([], none) : Fields)).close.1

/-- The text that a word stands for where it makes one field. -/
def Machine.flat (machine : Machine) (word : Word) : String :=
  String.join (word.map fun
    | .text content _ => String.ofList content
    | .parameter name _ => machine.value name)

/-! ## Commands -/

/-- What a command does: the effect, and whether it ends the shell. -/
abbrev Done := Effect × Bool

/-- The complaint of a shell about a command that is not there. -/
def notFound (machine : Machine) (name : String) : Effect :=
  ⟨[], Utf8.encode s!"{machine.name}: 1: {name}: not found\n", 127, .zero⟩

/-- The numbers of signals by their names. -/
def signals : List (String × Int) :=
  [("HUP", 1), ("INT", 2), ("QUIT", 3), ("ABRT", 6), ("KILL", 9), ("USR1", 10), ("SEGV", 11),
    ("USR2", 12), ("PIPE", 13), ("ALRM", 14), ("TERM", 15)]

/-- The signal that the first argument of `kill` names. -/
def signalOf (option : String) : Int :=
  let name := String.ofList (option.toList.drop 1)
  ((signals.find? (·.1 == name)).map (·.2)).getD ((Integer.readLoose? name).getD 15)

/-- The status to end with, as far as a status can tell. -/
def statusOf (machine : Machine) (arguments : List String) : Int :=
  ((arguments.head? >>= Integer.readLoose?).getD machine.status) % 256

/-- Runs a command by its fields. -/
def runFields (machine : Machine) (input : List UInt8) : List String → Done
  | [] => (.ends 0, false)
  | "exit" :: arguments => (.ends (statusOf machine arguments), true)
  | ["kill", _] => (.ends (-15), true)
  | "kill" :: "-s" :: name :: _ => (.ends (-signalOf s!"-{name}"), true)
  | "kill" :: option :: _ =>
      if signalOf option = 0 then (.ends 0, false) else (.ends (-signalOf option), true)
  | "exec" :: name :: arguments =>
      ((tool? machine.directory name arguments input).getD (notFound machine name), true)
  | name :: arguments =>
      ((tool? machine.directory name arguments input).getD (notFound machine name), false)

/-- What is printed goes where a redirection says. -/
def redirect (effect : Effect) : Redirection → Effect
  | .follow 1 2 => { effect with output := [], errors := effect.errors ++ effect.output }
  | .follow 2 1 => { effect with output := effect.output ++ effect.errors, errors := [] }
  | .discard 1 => { effect with output := [] }
  | .discard 2 => { effect with errors := [] }
  | _ => effect

/-- Runs a command that reads `input`. Gives what it does. -/
def runSimple (machine : Machine) (input : List UInt8) (command : Simple) : Done :=
  let (effect, ends) := runFields machine input (command.words.flatMap machine.expand)
  (command.redirections.foldl redirect effect, ends)

/-- Runs the commands of a pipeline, the first of which reads `input`. Only a command that stands
alone can end the shell. -/
def runPipeline (machine : Machine) (input : List UInt8) : Pipeline → Done
  | [] => (.ends 0, false)
  | [command] => runSimple machine input command
  | command :: rest =>
      let (first, _) := runSimple machine input command
      let (second, _) := runPipeline machine first.output rest
      ({ second with
        errors := first.errors ++ second.errors
        seconds := first.seconds.add second.seconds }, false)

/-- The pipeline is to be run. -/
def Connector.allows (connector : Connector) (status : Int) : Bool :=
  match connector with
  | .always => true
  | .onSuccess => status = 0
  | .onFailure => status ≠ 0

/-- The assignments that a pipeline consists of, if it is made of nothing else. -/
def assignments? : Pipeline → Option (List (String × Word))
  | [command] =>
      match command.words.mapM Word.assignment? with
      | some (first :: rest) => some (first :: rest)
      | _ => none
  | _ => none

/-- Gives a parameter the value of a word. -/
def Machine.assign (machine : Machine) (assignment : String × Word) : Machine :=
  { machine with
    bindings := machine.bindings.put assignment.1 (machine.flat assignment.2)
    status := 0 }

/-- Runs the next pipeline of a command, unless the shell has ended. -/
def runNext (machine : Machine) (entry : Connector × Pipeline) : Machine :=
  if machine.ended || !entry.1.allows machine.status then machine
  else if let some assignments := assignments? entry.2 then
    assignments.foldl Machine.assign machine
  else
    let (effect, ends) := runPipeline machine [] entry.2
    { machine with
      status := effect.status
      output := machine.output ++ effect.output
      errors := machine.errors ++ effect.errors
      seconds := machine.seconds.add effect.seconds
      ended := ends }

/-- Runs a command of the shell language. -/
def Machine.run (machine : Machine) (script : Script) : Machine := script.foldl runNext machine

/-! ## Programs -/

/-- The name of a program without the directories that programs are in. -/
def programName (program : String) : String :=
  (["/bin/", "/usr/bin/"].findSome? fun directory =>
    if directory.toList.isPrefixOf program.toList then
      some (String.ofList (program.toList.drop directory.length))
    else none).getD program

/-- What a program does that works in `directory`; `none` if there is no such program. -/
def program? (directory : Path) (program : String) (arguments : List String) : Option Effect :=
  match programName program, arguments with
  | "sh", "-c" :: script :: rest =>
      let machine := (⟨rest.headD program, rest.drop 1, [], directory, 0, [], [], .zero, false⟩
        : Machine).run (Script.ofText script)
      some ⟨machine.output, machine.errors, machine.status, machine.seconds⟩
  | "sh", _ => some (.ends 0)
  | name, arguments => tool? directory name arguments []

/-- The text that was printed. -/
def printed (capture : Bool) (bytes : List UInt8) : String :=
  if capture then String.ofList (Text.normalizeLineEnds (Utf8.decodeLossy bytes)) else ""

/-- The seconds do not last longer than allowed. -/
def inTime (seconds : Binary64) : Option Binary64 → Bool
  | none => true
  | some limit => (limit.sub seconds).isPositive || limit = .nan

/-- A working directory that cannot be used. -/
def directoryError? (files : FileSystem) (directory : Path) : Option SystemError :=
  match files.find? directory with
  | none => some (.noEntry directory.toString)
  | some (.file _) => some (.notDirectory directory.toString)
  | some .directory => none

/-- The error of calling a program that is not there: it may be something else. -/
def programError (files : FileSystem) (program : String) : SystemError :=
  if program.toList.contains '/' && files.exists (.ofString program) then .notPermitted program
  else .noEntry program

/-- The path of a directory as seen from the root. -/
def fromRoot (files : FileSystem) (path : Path) : Path :=
  match files.place path with
  | .ok place => ⟨1, place⟩
  | .error _ => path

/-- Runs programs on a machine that has a shell and the small tools. -/
def runner {σ : Type} : Runner σ := fun call => do
  let files := (← get).files
  let directory := call.directory.getD (.ofString "")
  match call.args, call.directory >>= directoryError? files with
  | [], _ => return .error .incomplete
  | _, some error => return .error (.system error)
  | name :: arguments, none =>
      match program? (fromRoot files directory) name arguments with
      | none => return .error (.system (programError files name))
      | some effect =>
          if inTime effect.seconds call.timeout then
            return .ok ⟨effect.status, printed call.capture effect.output,
              printed call.capture effect.errors⟩
          else
            let limit := (call.timeout.map Binary64.shortest).getD ""
            return .error (.timedOut call.args limit)

end RustScript.Shell
