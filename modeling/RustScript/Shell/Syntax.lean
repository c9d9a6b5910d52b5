/-!
# The language of the shell

A command of the shell is a sequence of pipelines, each of which runs always, or only after success
or failure of what stands before it. A word is made of pieces: text, and parameters whose values
take their places.
-/

set_option autoImplicit false

namespace RustScript.Shell

/-- A piece of a word. In quotes it stays in one piece. -/
inductive Piece
  | text (content : List Char) (quoted : Bool)
  | parameter (name : String) (quoted : Bool)
  deriving DecidableEq, Repr

/-- A word of a command. -/
abbrev Word := List Piece

/-- Where the output of a stream goes instead. -/
inductive Redirection
  /-- To where another stream goes. -/
  | follow (stream target : Nat)
  /-- Nowhere. -/
  | discard (stream : Nat)
  deriving DecidableEq, Repr

/-- A command without operators. -/
structure Simple where
  words : List Word
  redirections : List Redirection
  deriving DecidableEq, Repr

/-- When a pipeline runs. -/
inductive Connector
  | always
  | onSuccess
  | onFailure
  deriving DecidableEq, Repr

/-- Commands each of which reads what the one before it prints. -/
abbrev Pipeline := List Simple

/-- A command of the shell. -/
abbrev Script := List (Connector × Pipeline)

/-! ## Tokens -/

/-- A token of the language. -/
inductive Token
  | word (word : Word)
  | redirection (redirection : Redirection)
  | next
  | andThen
  | orElse
  | pipe
  deriving DecidableEq, Repr

/-- A character that ends a word. -/
def endsWord (c : Char) : Bool :=
  c = ' ' || c = '\t' || c = '\n' || c = ';' || c = '&' || c = '|' || c = '<' || c = '>'

/-- A character of a name. -/
def isNameChar (c : Char) : Bool := c.isAlphanum || c = '_'

/-- A parameter that is named by one character. -/
def isSpecial (c : Char) : Bool :=
  c.isDigit || c = '@' || c = '*' || c = '#' || c = '$' || c = '?' || c = '!'

/-- The piece after a dollar sign, and what follows it. -/
def dollar (quoted : Bool) : List Char → Piece × List Char
  | '\x7b' :: rest =>
      let (name, after) := rest.span (· ≠ '\x7d')
      (.parameter (String.ofList name) quoted, after.drop 1)
  | c :: rest =>
      if isSpecial c then (.parameter (String.singleton c) quoted, rest)
      else if isNameChar c then
        let (name, after) := (c :: rest).span isNameChar
        (.parameter (String.ofList name) quoted, after)
      else (.text ['$'] quoted, c :: rest)
  | [] => (.text ['$'] quoted, [])

/-- The pieces up to the closing double quote, and what follows it; `fuel` bounds the pieces. -/
def doubleQuoted : Nat → List Char → List Piece × List Char
  | 0, rest => ([], rest)
  | _ + 1, [] => ([], [])
  | _ + 1, '"' :: rest => ([], rest)
  | fuel + 1, '\\' :: c :: rest =>
      let kept := if c = '$' || c = '`' || c = '"' || c = '\\' then [c] else ['\\', c]
      let (pieces, after) := doubleQuoted fuel rest
      (.text kept true :: pieces, after)
  | fuel + 1, '$' :: rest =>
      let (piece, after) := dollar true rest
      let (pieces, left) := doubleQuoted fuel after
      (piece :: pieces, left)
  | fuel + 1, c :: rest =>
      let (pieces, after) := doubleQuoted fuel rest
      (.text [c] true :: pieces, after)

/-- The word at the front, and what follows it; `fuel` bounds the pieces. -/
def takeWord : Nat → List Char → Word × List Char
  | 0, rest => ([], rest)
  | _ + 1, [] => ([], [])
  | fuel + 1, '\'' :: rest =>
      let (content, after) := rest.span (· ≠ '\'')
      let (pieces, left) := takeWord fuel (after.drop 1)
      (.text content true :: pieces, left)
  | fuel + 1, '"' :: rest =>
      let (inner, after) := doubleQuoted rest.length rest
      let (pieces, left) := takeWord fuel after
      (.text [] true :: inner ++ pieces, left)
  | fuel + 1, '\\' :: c :: rest =>
      let (pieces, left) := takeWord fuel rest
      (.text [c] true :: pieces, left)
  | fuel + 1, '$' :: rest =>
      let (piece, after) := dollar false rest
      let (pieces, left) := takeWord fuel after
      (piece :: pieces, left)
  | fuel + 1, c :: rest =>
      if endsWord c then ([], c :: rest)
      else
        let (pieces, left) := takeWord fuel rest
        (.text [c] false :: pieces, left)

/-- The number that digits write. -/
def number (digits : List Char) : Nat :=
  digits.foldl (fun value d => value * 10 + (d.toNat - '0'.toNat)) 0

/-- The redirection at the front, and what follows it. -/
def redirection? (cs : List Char) : Option (Redirection × List Char) :=
  let (digits, rest) := cs.span Char.isDigit
  match rest with
  | '>' :: '&' :: more =>
      let (target, after) := more.span Char.isDigit
      some (.follow (if digits.isEmpty then 1 else number digits) (number target), after)
  | '>' :: more =>
      let (_, after) := takeWord more.length (more.dropWhile (· = ' '))
      some (.discard (if digits.isEmpty then 1 else number digits), after)
  | '<' :: more =>
      let (_, after) := takeWord more.length (more.dropWhile (· = ' '))
      some (.discard 0, after)
  | _ => none

/-- The token at the front, which is no blank, and what follows it. -/
def token (cs : List Char) : Token × List Char :=
  match cs with
  | '&' :: '&' :: rest => (.andThen, rest)
  | '|' :: '|' :: rest => (.orElse, rest)
  | '|' :: rest => (.pipe, rest)
  | ';' :: rest => (.next, rest)
  | '&' :: rest => (.next, rest)
  | '\n' :: rest => (.next, rest)
  | _ =>
      match redirection? cs with
      | some (redirection, rest) => (.redirection redirection, rest)
      | none =>
          let (word, rest) := takeWord cs.length cs
          (.word word, rest)

/-- The tokens of a text; `fuel` bounds their number. -/
def tokens : Nat → List Char → List Token
  | 0, _ => []
  | fuel + 1, cs =>
      match cs.dropWhile fun c => c = ' ' || c = '\t' with
      | [] => []
      | '#' :: rest => tokens fuel (rest.dropWhile (· ≠ '\n'))
      | start =>
          let (token, rest) := token start
          token :: tokens fuel rest

/-! ## Assignments -/

/-- The character that a piece without quotes is. -/
def Piece.plain? : Piece → Option Char
  | .text [c] false => some c
  | _ => none

/-- The name and the value of a word `name=value`. -/
def Word.assignment? (word : Word) : Option (String × Word) :=
  match word.span fun piece => piece.plain?.any isNameChar with
  | (first :: more, equals :: value) =>
      if equals.plain? = some '=' && !first.plain?.any Char.isDigit then
        some (String.ofList ((first :: more).filterMap Piece.plain?), value)
      else none
  | _ => none

/-! ## Commands -/

/-- Adds a token to the command that is being read: the pipelines so far, and the last one with its
commands, each last first. -/
structure Reading where
  done : Script
  connector : Connector
  stages : List Simple
  current : Simple

/-- The command that is not yet begun. -/
def noCommand : Simple := ⟨[], []⟩

/-- The pipeline that is being read. -/
def Reading.pipeline (reading : Reading) : Pipeline := reading.stages ++ [reading.current]

/-- The script with the pipeline that is being read, unless it is empty. -/
def Reading.script (reading : Reading) : Script :=
  if reading.stages.isEmpty && reading.current.words.isEmpty then reading.done
  else reading.done ++ [(reading.connector, reading.pipeline)]

/-- Reads one more token. -/
def Reading.step (reading : Reading) : Token → Reading
  | .word word =>
      let current := reading.current
      { reading with current := { current with words := current.words ++ [word] } }
  | .redirection redirection =>
      let current := reading.current
      { reading with
        current := { current with redirections := current.redirections ++ [redirection] } }
  | .pipe => { reading with stages := reading.pipeline, current := noCommand }
  | .next => ⟨reading.script, .always, [], noCommand⟩
  | .andThen => ⟨reading.script, .onSuccess, [], noCommand⟩
  | .orElse => ⟨reading.script, .onFailure, [], noCommand⟩

/-- The command that a text writes. -/
def Script.ofText (text : String) : Script :=
  let cs := text.toList
  ((tokens (cs.length + 1) cs).foldl Reading.step ⟨[], .always, [], noCommand⟩).script

end RustScript.Shell
