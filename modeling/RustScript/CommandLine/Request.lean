import RustScript.CommandLine.Arguments
import RustScript.Pipeline.Whole

/-!
# Requests

What a command line asks for. A registry must be a known one, a script must be a file where it is
going to be read, and a command takes no more arguments than it has a use for. `reach` gives the paths
that a call may read or change, as far as its command line can be read.
-/

set_option autoImplicit false

namespace RustScript.CommandLine

/-- What is asked for. -/
structure Request where
  verb : Verb
  /-- The script, or the text to evaluate. -/
  subject : String
  /-- The arguments for the script. -/
  arguments : List String
  /-- The stages that were chosen. -/
  selection : Pipeline.Selection
  timings : Bool
  registry : Option Backend
  buildRoot : Option String
  verboseBuild : Bool
  deriving DecidableEq, Repr

/-- A flag with a letter. -/
def flag (name : String) (letter : Char) (purpose : String) : OptionForm :=
  ⟨name, some letter, none, purpose⟩

/-- Asks for a table of timings. -/
def timingsOption : OptionForm := flag "--timings" 't' "Print stage timings"

/-- Chooses a registry. -/
def registryOption : OptionForm :=
  ⟨"--registry", none, some ("[" ++ String.intercalate "|" (Backend.all.map Backend.name) ++ "]"), ""⟩

/-- Chooses where projects are built. -/
def buildRootOption : OptionForm :=
  ⟨"--build-root", none, some "TEXT", "Parent of per-script build dirs"⟩

/-- Asks for help. -/
def helpOption : OptionForm := ⟨"--help", none, none, "Show this message and exit."⟩

/-- The options of a command. -/
def Verb.options : Verb → List OptionForm
  | .run => [flag "--generate" 'g' "Generate the project", flag "--build" 'b' "Build with cargo",
      flag "--run" 'r' "Run the compiled script", timingsOption, registryOption, buildRootOption,
      ⟨"--verbose-build", none, none, "Pass --verbose to cargo build"⟩, helpOption]
  | .eval => [timingsOption, registryOption, buildRootOption, helpOption]
  | .inspect => [registryOption, helpOption]
  | .list => [buildRootOption, helpOption]
  | .clean => [buildRootOption, helpOption]

/-- The options and rules of a command. -/
def Verb.form (verb : Verb) : Form where
  options := verb.options
  interspersed := !verb.passesArguments
  lenient := verb.passesArguments

/-- The options of the program itself. -/
def programForm : Form := ⟨[flag "--verbose" 'v' "Verbose logging", helpOption], false, false⟩

/-- Tells options and arguments apart. If help is asked for, nothing else is looked at. -/
def sortUnlessHelp (form : Form) (arguments : List String) : Except Notice Words := do
  let words ← (sort form arguments).mapError Notice.misuse
  if words.has helpOption.name then throw .help
  return words

/-- The registry that an option names. -/
def readBackend (words : Words) : Except Notice (Option Backend) :=
  match words.value? "--registry" with
  | none => .ok none
  | some name =>
      match Backend.ofName? name with
      | some backend => .ok (some backend)
      | none => .error (.misuse (.unknownBackend name))

/-- The command reads its script from a file. -/
def Verb.readsFile : Verb → Bool
  | .run => true
  | .inspect => true
  | _ => false

/-- The argument that a command needs, and those behind it. -/
def readSubject (verb : Verb) (files : FileSystem) (words : Words) :
    Except Notice (String × List String) :=
  match words.arguments with
  | [] => .error (.misuse (.missingArgument verb.argument))
  | subject :: rest =>
      if verb.readsFile then
        match files.lookUp? subject with
        | none => .error (.misuse (.noSuchFile subject))
        | some .directory => .error (.misuse (.isDirectory subject))
        | some (.file _) => .ok (subject, rest)
      else .ok (subject, rest)

/-- What the words behind a command ask for. -/
def read (verb : Verb) (files : FileSystem) (arguments : List String) :
    Except Notice Request := do
  let words ← sortUnlessHelp verb.form arguments
  let registry ← readBackend words
  let (subject, rest) ← readSubject verb files words
  if !verb.passesArguments && !rest.isEmpty then throw (.misuse (.extraArguments rest))
  return {
    verb
    subject
    arguments := rest
    selection := ⟨words.has "--generate", words.has "--build", words.has "--run"⟩
    timings := words.has "--timings"
    registry
    buildRoot := (words.value? "--build-root").filter fun root => !root.isEmpty
    verboseBuild := words.has "--verbose-build" }

/-- The command on a command line, whether more is to be logged, and the words behind it. -/
def readVerb (arguments : List String) : Except Notice (Verb × Bool × List String) := do
  if arguments.isEmpty then throw .nothing
  let words ← sortUnlessHelp programForm arguments
  match words.arguments with
  | [] => throw (.misuse .missingCommand)
  | name :: rest =>
      match Verb.ofName? name with
      | some verb => return (verb, words.has "--verbose", rest)
      | none =>
          -- a name with a dash is an unknown option rather than an unknown command
          let _ ← sortUnlessHelp programForm (name :: rest)
          throw (.misuse (.noSuchCommand name))

/-! ## What a call may touch -/

/-- The stem of the script that a command is about. -/
def stemOf (verb : Verb) (subject : String) : String :=
  if verb = .eval then Pipeline.textStem else (Path.ofString subject).stem

/-- The script, its project and its logs. -/
def pathsFor (settings : Settings) (verb : Verb) (words : Words) : List Path :=
  match words.arguments with
  | [] => []
  | subject :: _ =>
      let chosen := (words.value? "--build-root").filter fun root => !root.isEmpty
      let root := (chosen.map Path.ofString).getD settings.buildRoot
      let stem := stemOf verb subject
      (if verb = .eval then [] else [.ofString subject]) ++ [root.child stem] ++
        (settings.logDirectory.map (·.child stem)).toList

/-- The paths that a call may read or change. -/
def reach (temporary : Path) (environment : Entries String) (arguments : List String) :
    List Path :=
  match readVerb arguments, Settings.ofEnvironment temporary environment with
  | .ok (verb, _, rest), .ok settings =>
      match sort verb.form rest with
      | .ok words => pathsFor settings verb words
      | .error _ => []
  | _, _ => []

end RustScript.CommandLine
