import RustScript.Settings

/-!
# Commands of the program and their misuse

The commands that the program has, and what can be wrong with how one is called.
-/

set_option autoImplicit false

namespace RustScript.CommandLine

/-- The commands of the program. -/
inductive Verb
  | run
  | eval
  | inspect
  | list
  | clean
  deriving DecidableEq, Repr

/-- The name of a command. -/
def Verb.name : Verb → String
  | .run => "run"
  | .eval => "eval"
  | .inspect => "inspect"
  | .list => "list"
  | .clean => "clean"

/-- All commands. -/
def Verb.all : List Verb := [.run, .eval, .inspect, .list, .clean]

/-- The command of a name. -/
def Verb.ofName? (name : String) : Option Verb := Verb.all.find? (·.name == name)

/-- The argument that a command needs. -/
def Verb.argument : Verb → String
  | .eval => "EXPRESSION"
  | _ => "SCRIPT"

/-- The command passes further arguments on to a script. Options that it does not know then count
as arguments, and options end at the first argument. -/
def Verb.passesArguments : Verb → Bool
  | .run => true
  | .eval => true
  | _ => false

/-- What can be wrong with how the program is called. -/
inductive Misuse
  | noSuchOption (name : String)
  | needsValue (option : String)
  | takesNoValue (option : String)
  | missingArgument (name : String)
  | unknownBackend (name : String)
  | noSuchFile (name : String)
  | isDirectory (name : String)
  | extraArguments (arguments : List String)
  | noSuchCommand (name : String)
  | missingCommand
  deriving DecidableEq, Repr

/-- The misuse in words. -/
def Misuse.message : Misuse → String
  | .noSuchOption name => s!"No such option {Text.quoted name}."
  | .needsValue option => s!"Option {Text.quoted option} requires an argument."
  | .takesNoValue option => s!"Option {Text.quoted option} does not take a value."
  | .missingArgument name => s!"Missing argument '{name}'."
  | .unknownBackend name =>
      let names := String.intercalate ", " (Backend.all.map (Text.quoted ·.name))
      s!"Invalid value for '--registry': {Text.quoted name} is not one of {names}."
  | .noSuchFile name => s!"Invalid value for 'SCRIPT': File {Text.quoted name} does not exist."
  | .isDirectory name => s!"Invalid value for 'SCRIPT': File {Text.quoted name} is a directory."
  | .extraArguments arguments =>
      let listed := String.intercalate " " arguments
      if arguments.length = 1 then s!"Got unexpected extra argument ({listed})"
      else s!"Got unexpected extra arguments ({listed})"
  | .noSuchCommand name => s!"No such command {Text.quoted name}."
  | .missingCommand => "Missing command."

/-- The report on the misuse begins with how to call the command. -/
def Misuse.showsUsage : Misuse → Bool
  | .needsValue _ => false
  | .takesNoValue _ => false
  | _ => true

/-- What is said on a call for which there is nothing to do. -/
inductive Notice
  /-- Help was asked for. -/
  | help
  /-- There was nothing on the command line. -/
  | nothing
  | misuse (misuse : Misuse)
  deriving DecidableEq, Repr

/-- The name of the program. -/
def programName : String := "rsrun"

/-- How to call a command, or the program if there is none. -/
def usage : Option Verb → String
  | none => s!"{programName} [OPTIONS] COMMAND [ARGS]..."
  | some verb =>
      let more := if verb.passesArguments then " [ARGS]..." else ""
      s!"{programName} {verb.name} [OPTIONS] {verb.argument}{more}"

/-- Where to find help on a command. -/
def helpHint (verb : Option Verb) : String :=
  let path := String.intercalate " " (programName :: (verb.map Verb.name).toList)
  s!"Try '{path} --help' for help."

/-- The report on a misuse of a command. -/
def Misuse.report (verb : Option Verb) (misuse : Misuse) : String :=
  let head := if misuse.showsUsage then s!"Usage: {usage verb}\n{helpHint verb}\n\n" else ""
  s!"{head}Error: {misuse.message}\n"

end RustScript.CommandLine
