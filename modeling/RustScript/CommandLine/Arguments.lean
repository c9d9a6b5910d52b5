import RustScript.CommandLine.Misuse

/-!
# Reading the command line

Options are words that begin with a dash; a long one may carry a value behind an equals sign or in
the next word, short ones are single letters that can be written together. A word `--` ends the
options. `sort` tells options and arguments apart.
-/

set_option autoImplicit false

namespace RustScript.CommandLine

/-- An option that a command knows. -/
structure OptionForm where
  /-- The long name, with its dashes. -/
  name : String
  /-- The letter of the short name, if there is one. -/
  letter : Option Char
  /-- What stands for the value that belongs to the option, if one does. -/
  value : Option String
  /-- What the option is for. -/
  purpose : String
  deriving DecidableEq, Repr

/-- A value belongs to the option. -/
def OptionForm.takesValue (option : OptionForm) : Bool := option.value.isSome

/-- The options and rules of a command. -/
structure Form where
  options : List OptionForm
  /-- Options may stand behind arguments. -/
  interspersed : Bool
  /-- Unknown options count as arguments. -/
  lenient : Bool
  deriving DecidableEq, Repr

/-- What stands on a command line. -/
structure Words where
  /-- The options with their values, in order. -/
  options : List (String × String)
  /-- The arguments, in order. -/
  arguments : List String
  deriving DecidableEq, Repr

/-- The option of a long name. -/
def Form.long? (form : Form) (name : String) : Option OptionForm :=
  form.options.find? (·.name == name)

/-- The option of a letter. -/
def Form.short? (form : Form) (letter : Char) : Option OptionForm :=
  form.options.find? (·.letter == some letter)

/-- The word looks like an option. -/
def isOption (word : String) : Bool :=
  match word.toList with
  | '-' :: _ :: _ => true
  | _ => false

/-- The word begins with two dashes. -/
def isLong (word : String) : Bool :=
  match word.toList with
  | '-' :: '-' :: _ => true
  | _ => false

/-- The name in a word and the value behind its first equals sign. -/
def splitValue (word : String) : String × Option String :=
  match word.toList.span (· ≠ '=') with
  | (name, _ :: value) => (String.ofList name, some (String.ofList value))
  | (name, []) => (String.ofList name, none)

/-- Reads a word of letters. Gives the options and, of letters that mean none, the word that is
left. -/
def readLetters (form : Form) : List Char → Except Misuse (List (String × String) × List Char)
  | [] => .ok ([], [])
  | letter :: rest =>
      match form.short? letter with
      | some option => do
          let (options, unknown) ← readLetters form rest
          return ((option.name, "") :: options, unknown)
      | none =>
          if form.lenient then do
            let (options, unknown) ← readLetters form rest
            return (options, letter :: unknown)
          else .error (.noSuchOption (String.ofList ['-', letter]))

/-- A word that is no long option: letters, or an argument if unknown options count as such. -/
def readOther (form : Form) (word : String) : Except Misuse Words :=
  if isLong word then
    if form.lenient then .ok ⟨[], [word]⟩ else .error (.noSuchOption (splitValue word).1)
  else do
    let (options, unknown) ← readLetters form (word.toList.drop 1)
    return ⟨options, if unknown.isEmpty then [] else [String.ofList ('-' :: unknown)]⟩

/-- Puts what was read before in front of what was read after. -/
def Words.before (first rest : Words) : Words :=
  ⟨first.options ++ rest.options, first.arguments ++ rest.arguments⟩

/-- Tells the options on a command line from its arguments. -/
def sort (form : Form) : List String → Except Misuse Words
  | [] => .ok ⟨[], []⟩
  | word :: rest =>
      if word = "--" then .ok ⟨[], rest⟩
      else if !isOption word then
        if form.interspersed then (Words.before ⟨[], [word]⟩) <$> sort form rest
        -- what follows the first argument belongs to the script
        else .ok ⟨[], word :: rest⟩
      else
        let (name, value) := splitValue word
        match form.long? name with
        | none => do
            let words ← readOther form word
            words.before <$> sort form rest
        | some option =>
            if !option.takesValue then
              match value with
              | some _ => .error (.takesNoValue name)
              | none => (Words.before ⟨[(name, "")], []⟩) <$> sort form rest
            else match value with
              | some value => (Words.before ⟨[(name, value)], []⟩) <$> sort form rest
              | none =>
                  match rest with
                  | value :: after => (Words.before ⟨[(name, value)], []⟩) <$> sort form after
                  | [] => .error (.needsValue name)

/-- The option was given. -/
def Words.has (words : Words) (name : String) : Bool := words.options.any (·.1 == name)

/-- The value of an option; the last one counts. -/
def Words.value? (words : Words) (name : String) : Option String :=
  (words.options.reverse.find? (·.1 == name)).map (·.2)

end RustScript.CommandLine
