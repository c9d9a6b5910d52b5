import RustScript.CommandLine.Report

/-!
# Help

What the program says about itself and about its commands: how they are called, what they do, and
which options they know. Rows of a list have two columns, of which the first one is only so wide
that the second one does not suffer; a row that is too long for it goes on in the next line.
-/

set_option autoImplicit false

namespace RustScript.CommandLine

/-- What a command does, in paragraphs. -/
def Verb.purpose : Verb → List String
  | .run => ["Generate, build and run SCRIPT, passing ARGS to it.",
      "With none of -g/-b/-r all three stages run."]
  | .eval => ["Evaluate EXPRESSION, a Rust expression or snippet, and print its value."]
  | .inspect => ["Show what rsrun infers from SCRIPT, without building it."]
  | .list => ["List the ephemeral project files generated for SCRIPT."]
  | .clean => ["Delete the ephemeral project generated for SCRIPT."]

/-- What a command does, in as many words as there is room for in the list of commands. -/
def Verb.summary : Verb → String
  | .eval => "Evaluate EXPRESSION, a Rust expression or snippet, and print..."
  | verb => verb.purpose.headD ""

/-- What the program does. -/
def programPurpose : String := "rsrun: build and run single-file Rust scripts with cargo."

/-- The option as it is written on a command line. -/
def OptionForm.spelling (option : OptionForm) : String :=
  let letter := (option.letter.map fun letter => s!"-{letter}, ").getD ""
  let value := (option.value.map (" " ++ ·)).getD ""
  s!"{letter}{option.name}{value}"

/-- The widest first column of a list. -/
def widestColumn : Nat := 30

/-- A row of a list whose first column has a width. -/
def listRow (width : Nat) : String × String → String
  | (first, "") => s!"  {first}\n"
  | (first, second) =>
      let margin := leftColumn (width + 4) ""
      if first.length ≤ width then s!"  {leftColumn (width + 2) first}{second}\n"
      else s!"  {first}\n{margin}{second}\n"

/-- A list under a title. -/
def titledList (title : String) (rows : List (String × String)) : String :=
  let width := min widestColumn ((rows.map (·.1.length)).foldl max 0)
  s!"\n{title}:\n" ++ String.join (rows.map (listRow width))

/-- The options of a form in a list. -/
def Form.list (form : Form) : String :=
  titledList "Options" (form.options.map fun option => (option.spelling, option.purpose))

/-- The commands in a list, in the order of their names. -/
def commandList : String :=
  titledList "Commands" ([Verb.clean, .eval, .inspect, .list, .run].map fun verb =>
    (verb.name, verb.summary))

/-- The help on a command, or on the program. -/
def help (verb : Option Verb) : String :=
  let paragraphs := (verb.map Verb.purpose).getD [programPurpose]
  let text := String.join (paragraphs.map fun paragraph => s!"\n  {paragraph}\n")
  let lists := match verb with
    | some verb => verb.form.list
    | none => programForm.list ++ commandList
  s!"Usage: {usage verb}\n{text}{lists}"

/-- The report on a call for which there is nothing to do. -/
def Report.ofNotice (verb : Option Verb) : Notice → Report
  | .help => .success (help verb) ""
  | .nothing => ⟨2, "", help verb, none⟩
  | .misuse misuse => ⟨2, "", misuse.report verb, none⟩

end RustScript.CommandLine
