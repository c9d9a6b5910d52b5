import RustScript.Rust.Syntax
import RustScript.Rust.Token

/-!
# Rules of a grammar over tokens

A `Rule` reads the front of a token list and gives what it found with the tokens left, or refuses.
The combinators here are total: repetition ends because every round takes a token.
-/

set_option autoImplicit false

namespace RustScript.Rust

/-- A rule of the grammar. -/
def Rule (α : Type) : Type := List Token → Option (α × List Token)

/-- The items that a rule has passed, in source order. -/
abbrev Items := List Item

namespace Rule

variable {α β : Type}

instance : Monad Rule where
  pure a := fun ts => some (a, ts)
  bind r f := fun ts => match r ts with
    | some (a, rest) => f a rest
    | none => none

/-- The rule that refuses everything. -/
def fail : Rule α := fun _ => none

/-- The first rule that accepts. -/
def either (p q : Rule α) : Rule α := fun ts => match p ts with
  | some found => some found
  | none => q ts

/-- What the rule accepts, or `default` without reading anything. -/
def optionD (default : α) (p : Rule α) : Rule α := either p (pure default)

/-- Looks at the tokens ahead without reading them. -/
def look : Rule (List Token) := fun ts => some (ts, ts)

/-- Reads one token of a kind. -/
def token (accept : Token → Bool) : Rule Token
  | t :: rest => if accept t then some (t, rest) else none
  | [] => none

/-- Reads one punctuation character. -/
def mark (c : Char) : Rule Unit := do let _ ← token (·.isPunctuation c)

/-- Reads this word. -/
def word (text : String) : Rule Unit := do let _ ← token (·.isWord text)

/-- Reads any word. -/
def name : Rule String := do return (← token (·.kind = .word)).text

/-- The marks `cs` stand at the front, each glued to the one before. -/
def startsMarks : List Char → List Token → Bool
  | [], _ => true
  | [c], t :: _ => t.isPunctuation c
  | c :: d :: cs, t :: u :: rest =>
      t.isPunctuation c && u.glued && startsMarks (d :: cs) (u :: rest)
  | _, _ => false

/-- Reads the characters of an operator, glued together. -/
def marks (text : String) : Rule Unit := fun ts =>
  if startsMarks text.toList ts then some ((), ts.drop text.length) else none

/-- Reads `p` as often as it accepts and takes something. -/
def many (p : Rule (List α)) : Rule (List α) := fun ts =>
  match p ts with
  | none => some ([], ts)
  | some (found, rest) =>
      if _h : rest.length < ts.length then
        match many p rest with
        | some (more, left) => some (found ++ more, left)
        | none => none
      else some ([], ts)
termination_by ts => ts.length

/-- Reads one or more `p` with commas between them. -/
def commas (p : Rule (List α)) : Rule (List α) := do
  let first ← p
  let more ← many (do mark ','; p)
  return first ++ more

/-- Reads any number of `p` with commas between them; a comma may follow the last one or stand
alone. -/
def commaList (p : Rule (List α)) : Rule (List α) := do
  let found ← optionD [] (commas p)
  optionD () (mark ',')
  return found

/-- Reads `p` between two marks. -/
def between (opening closing : Char) (p : Rule α) : Rule α := do
  mark opening
  let found ← p
  mark closing
  return found

end Rule

/-- The next token satisfies `test`. -/
def nextIs (ts : List Token) (test : Token → Bool) : Bool :=
  match ts with
  | t :: _ => test t
  | [] => false

/-- The next token is one of these words. -/
def nextWordIn (ts : List Token) (words : List String) : Bool :=
  nextIs ts fun t => t.kind = .word && words.contains t.text

/-- The rules that refer to each other. Productions are written over such a record and never over
themselves; `grammar` ties the knot a bounded number of times. The flag of a rule for expressions
says whether a brace after a path opens a struct literal. -/
structure Rules where
  expression : Bool → Rule Items
  /-- An expression without `&&`: one clause of a condition. -/
  clause : Bool → Rule Items
  block : Rule Items
  ifExpression : Rule Items
  /-- The body of a match arm, with the comma that it needs. -/
  armBody : Rule Items
  type : Rule Items
  typeArguments : Rule Items
  pattern : Rule Items
  tokenTree : Rule Unit
  useTree : Rule UseTree
  declaration : Rule Items

/-- The rules that refuse everything. -/
def Rules.refusing : Rules where
  expression _ := Rule.fail
  clause _ := Rule.fail
  block := Rule.fail
  ifExpression := Rule.fail
  armBody := Rule.fail
  type := Rule.fail
  typeArguments := Rule.fail
  pattern := Rule.fail
  tokenTree := Rule.fail
  useTree := Rule.fail
  declaration := Rule.fail

end RustScript.Rust
