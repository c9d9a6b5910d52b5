import RustScript.Number.Decimal
import RustScript.Path
import RustScript.Text.Utf8

/-!
# Small tools

The programs that a shell finds everywhere: they print, copy, wait and end. A tool gets its
arguments and what it reads, and says what it prints and how it ends.
-/

set_option autoImplicit false

namespace RustScript.Shell

/-- What a tool does. -/
structure Effect where
  output : List UInt8
  errors : List UInt8
  status : Int
  /-- The seconds that it takes. -/
  seconds : Binary64

/-- Prints and succeeds. -/
def Effect.print (output : List UInt8) : Effect := ⟨output, [], 0, .zero⟩

/-- Ends with a status. -/
def Effect.ends (status : Int) : Effect := ⟨[], [], status, .zero⟩

/-! ## Escapes -/

/-- An octal digit. -/
def isOctal (c : Char) : Bool := '0' ≤ c && c ≤ '7'

/-- The byte that octal digits write. -/
def octalByte (digits : List Char) : UInt8 :=
  UInt8.ofNat (digits.foldl (fun value d => value * 8 + (d.toNat - '0'.toNat)) 0)

/-- The escapes of one letter. -/
def letterEscapes : List (Char × UInt8) :=
  [('a', 7), ('b', 8), ('f', 12), ('n', 10), ('r', 13), ('t', 9), ('v', 11), ('\\', 92), ('"', 34)]

/-- The byte of an escape after the backslash, and what follows it; with `zero` an octal number
needs a zero in front. -/
def escape (zero : Bool) : List Char → Option (UInt8 × List Char)
  | c :: rest =>
      match letterEscapes.find? (·.1 = c) with
      | some (_, byte) => some (byte, rest)
      | none =>
          if zero then
            if c = '0' then
              let digits := (rest.take 3).takeWhile isOctal
              some (octalByte digits, rest.drop digits.length)
            else none
          else if isOctal c then
            let digits := ((c :: rest).take 3).takeWhile isOctal
            some (octalByte digits, (c :: rest).drop digits.length)
          else none
  | [] => none

/-- The bytes of a text with escapes; `fuel` bounds its length. -/
def unescape (zero : Bool) : Nat → List Char → List UInt8
  | 0, _ => []
  | _ + 1, [] => []
  | fuel + 1, '\\' :: rest =>
      match escape zero rest with
      | some (byte, after) => byte :: unescape zero fuel after
      | none => 92 :: unescape zero fuel rest
  | fuel + 1, c :: rest => Utf8.encode (String.singleton c) ++ unescape zero fuel rest

/-! ## Printing -/

/-- Prints its arguments on a line. -/
def echo (arguments : List String) : Effect :=
  let (lineEnd, shown) : List UInt8 × List String := match arguments with
    | "-n" :: rest => ([], rest)
    | all => ([10], all)
  let text := (String.intercalate " " shown).toList
  .print (unescape true (text.length + 1) text ++ lineEnd)

/-- Prints a format once. Gives the bytes and the arguments that are left. -/
def formatOnce : Nat → List Char → List String → List UInt8 × List String
  | 0, _, arguments => ([], arguments)
  | _ + 1, [], arguments => ([], arguments)
  | fuel + 1, '%' :: '%' :: rest, arguments =>
      let (bytes, left) := formatOnce fuel rest arguments
      (37 :: bytes, left)
  | fuel + 1, '%' :: kind :: rest, arguments =>
      let argument := arguments.headD (if kind = 's' then "" else "0")
      let shown := if kind = 'b' then unescape true (argument.length + 1) argument.toList
        else Utf8.encode argument
      let (bytes, left) := formatOnce fuel rest (arguments.drop 1)
      (shown ++ bytes, left)
  | fuel + 1, '\\' :: rest, arguments =>
      match escape false rest with
      | some (byte, after) =>
          let (bytes, left) := formatOnce fuel after arguments
          (byte :: bytes, left)
      | none =>
          let (bytes, left) := formatOnce fuel rest arguments
          (92 :: bytes, left)
  | fuel + 1, c :: rest, arguments =>
      let (bytes, left) := formatOnce fuel rest arguments
      (Utf8.encode (String.singleton c) ++ bytes, left)

/-- Prints a format as often as there are arguments for it; `fuel` bounds how often. -/
def formatAll (format : List Char) : Nat → List String → List UInt8
  | 0, _ => []
  | fuel + 1, arguments =>
      let (bytes, left) := formatOnce (format.length + 1) format arguments
      if left.isEmpty || left.length = arguments.length then bytes
      else bytes ++ formatAll format fuel left

/-- Prints arguments by a format. -/
def printf : List String → Effect
  | [] => .ends 2
  | format :: arguments => .print (formatAll format.toList (arguments.length + 1) arguments)

/-! ## Substituting -/

/-- An item of a pattern: a character or any character, once or as often as possible. -/
structure PatternItem where
  character : Option Char
  starred : Bool
  deriving DecidableEq, Repr

/-- The items of a pattern. -/
def patternItems : List Char → List PatternItem
  | c :: '*' :: rest => ⟨if c = '.' then none else some c, true⟩ :: patternItems rest
  | c :: rest => ⟨if c = '.' then none else some c, false⟩ :: patternItems rest
  | [] => []

/-- The item stands for the character. -/
def PatternItem.accepts (item : PatternItem) (c : Char) : Bool :=
  match item.character with
  | none => true
  | some character => c = character

/-- What follows the longest match of a pattern at the front; `fuel` bounds the steps. -/
def matchFront : Nat → List PatternItem → List Char → Option (List Char)
  | _, [], cs => some cs
  | 0, _, _ => none
  | fuel + 1, item :: items, cs =>
      let further := match cs with
        | c :: rest =>
            if item.accepts c then
              matchFront fuel (if item.starred then item :: items else items) rest
            else none
        | [] => none
      if item.starred then further.or (matchFront fuel items cs) else further

/-- The line with the first match of the pattern replaced. -/
def substitute (pattern : List PatternItem) (replacement : List Char) : List Char → List Char
  | [] =>
      match matchFront (pattern.length + 1) pattern [] with
      | some _ => replacement
      | none => []
  | c :: rest =>
      match matchFront (2 * (pattern.length + rest.length) + 4) pattern (c :: rest) with
      | some after => replacement ++ after
      | none => c :: substitute pattern replacement rest

/-- Edits every line that it reads by a command `s/pattern/replacement/`. -/
def sed (arguments : List String) (input : List UInt8) : Effect :=
  match (arguments.headD "").toList with
  | 's' :: mark :: rest =>
      match Text.cutAt mark rest with
      | pattern :: replacement :: _ =>
          let text := Utf8.decodeLossy input
          let lines := (Text.cutLines text).map (substitute (patternItems pattern) replacement)
          let edited := if text.getLast? = some '\n' then lines.dropLast ++ [[]] else lines
          .print (Utf8.encode (String.ofList (Text.joinLines edited)))
      | _ => .ends 1
  | _ => .ends 1

/-! ## Counting -/

/-- Counts the bytes or the lines that it reads. -/
def wc (arguments : List String) (input : List UInt8) : Effect :=
  match arguments with
  | ["-c"] => .print (Utf8.encode s!"{input.length}\n")
  | ["-l"] => .print (Utf8.encode s!"{input.count 10}\n")
  | _ => .ends 1

/-! ## All tools -/

/-- The seconds that an argument writes. -/
def waiting (arguments : List String) : Binary64 :=
  ((arguments.head? >>= Binary64.readLoose?).getD .zero)

/-- What the tool of a name does; `none` if there is no such tool. -/
def tool? (directory : Path) (name : String) (arguments : List String) (input : List UInt8) :
    Option Effect :=
  match name with
  | "echo" => some (echo arguments)
  | "printf" => some (printf arguments)
  | "cat" => some (.print input)
  | "true" => some (.ends 0)
  | ":" => some (.ends 0)
  | "false" => some (.ends 1)
  | "sleep" => some ⟨[], [], 0, waiting arguments⟩
  | "pwd" => some (.print (Utf8.encode (directory.toString ++ "\n")))
  | "sed" => some (sed arguments input)
  | "wc" => some (wc arguments input)
  | _ => none

end RustScript.Shell
