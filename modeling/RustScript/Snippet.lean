import RustScript.Source.Scan
import RustScript.Text.Lines
import RustScript.Text.Word

/-!
# Snippets as programs

A script without an entry point is a snippet. `wrap` makes a program of it: imports and inner
attributes go in front, everything else into `fn main`, and when the snippet ends in an expression
its value is printed.
-/

set_option autoImplicit false

namespace RustScript.Snippet

open RustScript.Source RustScript.Text

/-- A line of text without its line end. -/
abbrev Line := List Char

/-- The text begins with `word`. -/
def startsWith (word : String) (text : Line) : Bool := (afterPrefix word.toList text).isSome

/-! ## Lines that go in front -/

/-- The line begins an import or an inner attribute. -/
def isHoisted (line : Line) : Bool :=
  let text := stripLeft line
  (keyword "use" text).isSome || (keyword "extern" text >>= keyword "crate").isSome ||
    startsWith "#![" text

/-- A declaration in front goes on behind this line. -/
def goesOn (line : Line) : Bool := !startsWith "#![" (stripLeft line) && !line.contains ';'

/-- The lines that go in front and the other ones; `inside` says that a declaration goes on. -/
def hoist (inside : Bool) : List Line → List Line × List Line
  | [] => ([], [])
  | line :: rest =>
      if inside || isHoisted line then
        let (front, body) := hoist (goesOn line) rest
        (line :: front, body)
      else
        let (front, body) := hoist false rest
        (front, line :: body)

/-! ## The end of a snippet -/

/-- The text before `//`. -/
def beforeComment : Line → Line
  | [] => []
  | '/' :: '/' :: _ => []
  | c :: rest => c :: beforeComment rest

/-- The code of a line: what remains without a line comment and blanks at the ends. A line that
then begins like a part of a block comment has none. -/
def code? (line : Line) : Option Line :=
  let code := strip (beforeComment line)
  if code.isEmpty || startsWith "/*" code || startsWith "*" code then none else some code

/-- The code of the lines that have any. -/
def codeLines (lines : List Line) : List Line := lines.filterMap code?

/-- How many more braces a line opens than it closes. -/
def braceBalance (code : Line) : Int := code.count '\x7b' - code.count '\x7d'

theorem braceBalance_nil : braceBalance [] = 0 := rfl

theorem braceBalance_append (cs ds : List Char) :
    braceBalance (cs ++ ds) = braceBalance cs + braceBalance ds := by
  unfold braceBalance
  rw [List.count_append, List.count_append]
  omega

theorem braceBalance_cons (c : Char) (cs : List Char) :
    braceBalance (c :: cs) = braceBalance [c] + braceBalance cs :=
  braceBalance_append [c] cs

/-- The text ends in `;` or `}`. -/
def endsStatement (code : Line) : Bool :=
  code.getLast? = some ';' || code.getLast? = some '\x7d'

/-- The first line of the last statement; `head` is the first line of the present one, `depth` the
number of open braces, and `boundary` says that a statement has just ended. -/
def lastHeadFrom (head : Line) (depth : Int) (boundary : Bool) : List Line → Line
  | [] => head
  | code :: rest =>
      -- a new statement begins outside all braces, behind the end of another
      let head := if depth ≤ 0 && boundary then code else head
      let depth := depth + braceBalance code
      lastHeadFrom head depth (depth ≤ 0 && endsStatement code) rest

/-- The first line of the last statement, if there is any code. -/
def lastHead? : List Line → Option Line
  | [] => none
  | code :: rest => some (lastHeadFrom code 0 true (code :: rest))

/-- The text begins with `word`, and a word ends or begins behind it. -/
def startsWithWord (word : String) (text : Line) : Bool :=
  match afterPrefix word.toList text with
  | none => false
  | some rest => (word.toList.getLast?.map isWord) ≠ some (rest.head?.any isWord)

/-- The text behind a loop label, its colon and blanks. -/
def afterLabel (text : Line) : Line :=
  match text with
  | '\'' :: c :: rest =>
      if c.isAlpha || c = '_' then
        match stripLeft (rest.dropWhile isWord) with
        | ':' :: after => stripLeft after
        | _ => text
      else text
  | _ => text

/-- The words that begin a loop. -/
def loopWords : List String := ["for", "while", "loop"]

/-- The words that begin an item. -/
def itemWords : List String :=
  ["fn", "struct", "enum", "union", "impl", "trait", "mod", "macro_rules!"]

/-- The statement that begins so is a loop or an item. -/
def isBlockHead (head : Line) : Bool :=
  loopWords.any (startsWithWord · (afterLabel head)) ||
    itemWords.any (startsWithWord · (optionalKeyword "unsafe" (optionalVisibility head)))

/-- The lines end in a statement, so that there is no value to print: there is no code, the last
line of code ends in `;`, or a loop or an item is closed by `}`. -/
def endsInStatement (lines : List Line) : Bool :=
  let codes := codeLines lines
  match codes.getLast?, lastHead? codes with
  | some last, some head =>
      last.getLast? = some ';' || (last.getLast? = some '\x7d' && isBlockHead head)
  | _, _ => true

/-! ## The program -/

/-- A line inside `fn main`. Blank lines are written empty. -/
def indented (line : Line) : Line := if allBlank line then [] else "    ".toList ++ line

/-- The program's entry point around the lines of a snippet. -/
def mainAround (lines : List Line) : List Char :=
  let inner := joinLines (lines.map indented)
  if endsInStatement lines then "fn main() \x7b\n".toList ++ inner ++ "\n\x7d\n".toList
  else
    "fn main() \x7b\n    let value = \x7b\n".toList ++ inner ++
      "\n    \x7d;\n    println!(\"\x7b:?\x7d\", value);\n\x7d\n".toList

/-- The program that does what a snippet says. -/
def wrap (body : String) : String :=
  let (front, lines) := hoist false (splitLines body.toList)
  let main := mainAround lines
  String.ofList (if front.isEmpty then main else joinLines front ++ '\n' :: '\n' :: main)

end RustScript.Snippet
