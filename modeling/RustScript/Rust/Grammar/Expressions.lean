import RustScript.Rust.Grammar.Patterns

/-!
# Expressions

An expression is a list of operands with operators between them; how tightly operators bind does
not change which items are inside, so it is not modelled. The flag `literals` says whether a brace
after a path opens a struct literal: it does not in the head of `if`, `while`, `match` and `for`.
-/

set_option autoImplicit false

namespace RustScript.Rust.Grammar

open Rule

/-! ## Operators -/

/-- The operators between two operands, longer ones first. -/
def binaryOperators : List String :=
  ["<<=", ">>=", "...", "..=", "&&", "||", "<<", ">>", "==", "!=", "<=", ">=", "+=", "-=", "*=",
    "/=", "%=", "^=", "&=", "|=", "..", "+", "-", "*", "/", "%", "^", "&", "|", "<", ">", "="]

/-- The operator at the front, the longest one that fits. The arrow of a match arm is none. -/
def operator : Rule String := fun ts =>
  if startsMarks ['=', '>'] ts then none
  else match binaryOperators.find? fun op => startsMarks op.toList ts with
    | some op => some (op, ts.drop op.length)
    | none => none

/-- The operators of ranges. Of them only `..` may lack its right operand. -/
def isRange (op : String) : Bool := op = ".." || op = "..=" || op = "..."

/-- The operators that can also stand at the start of an expression, a pattern or a type. After an
expression that ends with a block they begin something new. -/
def canBegin (op : String) : Bool := ["-", "*", "&", "|", "<"].contains op || isRange op

/-! ## Operands -/

/-- What an operand is, as far as the statement around it cares. -/
inductive Shape
  /-- An expression that ends with a block: it is a statement on its own. -/
  | block
  /-- A macro call: it is a declaration on its own. -/
  | macroCall
  | other
  deriving DecidableEq

/-- The fields of a struct literal, with the braces. -/
def literalFields (r : Rules) : Rule Items :=
  let base : Rule Items := do marks ".."; r.expression true
  let field : Rule Items := do
    let before ← attributes r
    let value : Rule Items := do mark ':'; r.expression true
    let found ← either (do let _ ← name; optionD [] value)
      (do let _ ← token (·.kind = .integer); value)
    return before ++ found
  between '{' '}' (commaList (either base field))

/-- A path, a macro call or a struct literal. -/
def pathOperand (r : Rules) (literals : Bool) : Rule (Shape × Items) := do
  let (_, path) ← valuePath r
  let call : Rule (Shape × Items) := do
    mark '!'
    r.tokenTree
    return (.macroCall, path)
  let literal : Rule (Shape × Items) := do
    let fields ← literalFields r
    return (.other, path ++ fields)
  fun ts =>
    -- `a != b` is no macro call
    if startsMarks ['!'] ts && !startsMarks ['!', '='] ts then call ts
    else if literals && nextIs ts (·.isPunctuation '{') then literal ts
    else some ((.other, path), ts)

/-- An argument of a call or an element of an array. -/
def element (r : Rules) : Rule Items := do
  let before ← attributes r
  let value ← r.expression true
  return before ++ value

/-- What stands in parentheses: nothing, one expression, or the elements of a tuple. -/
def parenthesized (r : Rules) : Rule Items := between '(' ')' (do
  let before ← attributes r
  let found ← optionD [] (do
    let elements ← commas (r.expression true)
    optionD () (mark ',')
    return elements)
  return before ++ found)

/-- An array: elements, or an element and a length. -/
def array (r : Rules) : Rule Items :=
  let more : Rule Items := either
    (do mark ';'; r.expression true)
    (do let found ← many (do mark ','; element r)
        optionD () (mark ',')
        return found)
  between '[' ']' (do
    let before ← attributes r
    let found ← either
      (do let first ← r.expression true
          let rest ← more
          return first ++ rest)
      (do optionD () (mark ','); return [])
    return before ++ found)

/-- A closure, from the bar on. -/
def closure (r : Rules) (literals : Bool) : Rule Items := do
  let parameter : Rule Items := do
    optionD () (word "mut")
    let pattern ← singlePattern r
    let type ← optionD [] (do mark ':'; r.type)
    return pattern ++ type
  mark '|'
  let parameters ← optionD [] (commas parameter)
  mark '|'
  let body ← either
    (do marks "->"
        let result ← r.type
        let block ← r.block
        return result ++ block)
    (r.expression literals)
  return parameters ++ body

/-- A condition: clauses with `&&` between them, each an expression or a pattern match. -/
def condition (r : Rules) (literals : Bool) : Rule Items := do
  let clause : Rule Items := either
    (do word "let"
        let pattern ← r.pattern
        mark '='
        let value ← r.clause literals
        return pattern ++ value)
    (r.clause literals)
  let first ← clause
  let more ← many (do marks "&&"; clause)
  return first ++ more

/-- An `if` with its alternatives. -/
def ifExpression (r : Rules) : Rule Items := do
  word "if"
  let test ← condition r false
  let body ← r.block
  let alternative ← optionD [] (do word "else"; either r.ifExpression r.block)
  return test ++ body ++ alternative

/-- The arms of a `match`, with the braces. -/
def matchArms (r : Rules) : Rule Items :=
  let arm : Rule Items := do
    let before ← many (either (outerAttribute r) (innerAttribute r))
    let pattern ← r.pattern
    let guard ← optionD [] (do word "if"; condition r true)
    marks "=>"
    let body ← r.armBody
    return before ++ pattern ++ guard ++ body
  between '{' '}' (many arm)

/-- A loop, without its label. -/
def loopExpression (r : Rules) : Rule Items := fun ts =>
  if nextWordIn ts ["while"] then
    (do word "while"
        let test ← condition r false
        let body ← r.block
        return test ++ body) ts
  else if nextWordIn ts ["loop"] then (do word "loop"; r.block) ts
  else
    (do word "for"
        let pattern ← r.pattern
        word "in"
        let source ← r.expression false
        let body ← r.block
        return pattern ++ source ++ body) ts

/-- An operand that ends with a block. -/
def blockOperand (r : Rules) : Rule Items := fun ts =>
  match ts with
  | [] => none
  | t :: rest =>
      if t.isPunctuation '{' then r.block ts
      else if t.isPunctuation '\'' then
        (do lifetime; mark ':'; either (loopExpression r) r.block) ts
      else if t.kind ≠ .word then none
      else match t.text with
        | "if" => r.ifExpression ts
        | "match" => (do
            let value ← r.expression false
            let arms ← matchArms r
            return value ++ arms) rest
        | "while" => loopExpression r ts
        | "loop" => loopExpression r ts
        | "for" => loopExpression r ts
        | "unsafe" => r.block rest
        | "const" => r.block rest
        | "try" => r.block rest
        | "async" => (do optionD () (word "move"); r.block) rest
        | "gen" => (do optionD () (word "move"); r.block) rest
        | _ => none

/-- The operand of a jump or of a range, which may be missing. Where a brace opens no struct
literal it opens no operand here either. -/
def optionalOperand (literals : Bool) (p : Rule Items) : Rule Items := fun ts =>
  if !literals && nextIs ts (·.isPunctuation '{') then some ([], ts) else optionD [] p ts

/-- What stands to the right of a range operator. -/
def rangeOperand (literals : Bool) (op : String) (p : Rule Items) : Rule Items :=
  if op = ".." then optionalOperand literals p else p

/-- A range without a left end. -/
def openRange (literals : Bool) (p : Rule Items) : Rule Items := do
  let op ← operator
  if op = ".." || op = "..=" then rangeOperand literals op p else Rule.fail

/-- A closure, a jump or a `yield`. -/
def leadOperand (r : Rules) (literals : Bool) : Rule Items := fun ts =>
  let value : Rule Items := optionalOperand literals (r.expression literals)
  match ts with
  | [] => none
  | t :: rest =>
      if t.isPunctuation '|' then closure r literals ts
      else if t.kind ≠ .word then none
      else match t.text with
        | "static" => (do
            optionD () (word "async")
            optionD () (word "move")
            closure r literals) rest
        | "async" => (do optionD () (word "move"); closure r literals) rest
        | "move" => closure r literals rest
        | "return" => value rest
        | "yield" => value rest
        | "break" => (do optionD () lifetime; value) rest
        | "continue" => (do optionD () lifetime; return []) rest
        | _ => none

/-- The words that are no names at the start of an operand. -/
def operandKeywords : List String :=
  ["if", "match", "while", "loop", "for", "unsafe", "const", "try", "async", "static", "move",
    "return", "yield", "break", "continue"]

/-- An operand without the operators before and after it. -/
def primary (r : Rules) (literals : Bool) : Rule (Shape × Items) :=
  let plain (p : Rule Items) : Rule (Shape × Items) := do return (.other, ← p)
  fun ts => match ts with
  | [] => none
  | t :: rest =>
      if t.isLiteral then some ((.other, []), rest)
      else if t.isPunctuation '(' then plain (parenthesized r) ts
      else if t.isPunctuation '[' then plain (array r) ts
      else either (do return (.block, ← blockOperand r))
        (either (plain (leadOperand r literals))
          (if t.kind = .word && operandKeywords.contains t.text then Rule.fail
            else pathOperand r literals)) ts

/-! ## Chains of operands -/

/-- An operator before an operand. -/
def prefixOperator : Rule (List Unit) :=
  let reference : Rule Unit := do
    mark '&'
    either (do word "raw"; either (word "const") (word "mut")) (optionD () (word "mut"))
  either (do either (mark '-') (either (mark '!') (mark '*')); return [()])
    (do reference; return [()])

/-- A field or method is named by a word or, in a tuple, by an integer. -/
def isFieldName (t : Token) : Bool := t.kind = .word || t.kind = .integer

/-- What may follow an operand: a call, an index, a field or method, `?` or a cast. -/
def postfixOperator (r : Rules) : Rule Items := fun ts =>
  match ts with
  | [] => none
  | t :: rest =>
      if t.isPunctuation '(' then between '(' ')' (commaList (element r)) ts
      else if t.isPunctuation '[' then between '[' ']' (r.expression true) ts
      else if t.isPunctuation '?' then some ([], rest)
      else if t.isPunctuation '.' && !startsMarks ['.', '.'] ts then
        (do let _ ← token isFieldName
            optionD [] (do marks "::"; r.typeArguments)) rest
      else if t.isWord "as" then singleType r rest
      else none

/-- An operand with the operators before and after it. After an operator it can be a range that
has no left end. -/
def operand (r : Rules) (literals : Bool) : Rule Items := do
  let before ← many prefixOperator
  let plain : Rule Items := do
    let (_, found) ← primary r literals
    let more ← many (postfixOperator r)
    return found ++ more
  if before.isEmpty then plain
  else either plain (openRange literals (do return (← primary r literals).2))

/-- An operator and its right operand; operators in `stop` are left alone. -/
def operatorStep (r : Rules) (literals : Bool) (stop : String → Bool) : Rule Items := do
  let op ← operator
  if stop op then Rule.fail
  else rangeOperand literals op (operand r literals)

/-- An expression up to the first operator in `stop`. -/
def chain (r : Rules) (literals : Bool) (stop : String → Bool) : Rule Items := do
  let first ← either (operand r literals) (openRange literals (operand r literals))
  let more ← many (operatorStep r literals stop)
  return first ++ more

/-- The next token continues an expression that ends with a block. -/
def continues (ts : List Token) : Bool :=
  nextIs ts (fun t => t.isPunctuation '?' || t.isWord "as") ||
    (startsMarks ['.'] ts && !startsMarks ['.', '.'] ts) ||
    match operator ts with
    | some (op, _) => !canBegin op
    | none => false

/-- The next token continues a macro call. -/
def continuesCall (ts : List Token) : Bool :=
  continues ts || (operator ts).isSome ||
    nextIs ts fun t => t.isPunctuation '(' || t.isPunctuation '['

/-- An expression that starts a statement or is the body of a match arm. When its first operand
ends with a block, or is a macro call, and nothing continues it, that operand is the whole. -/
def leadingExpression (r : Rules) : Rule (Shape × Items) :=
  let whole : Rule (Shape × Items) := do
    let found ← chain r true fun _ => false
    return (Shape.other, found)
  let rest (found : Items) : Rule (Shape × Items) := do
    let after ← many (postfixOperator r)
    let more ← many (operatorStep r true fun _ => false)
    return (Shape.other, found ++ after ++ more)
  fun ts =>
    if nextIs ts fun t => t.kind = .punctuation && ["-", "!", "*", "&", "."].contains t.text then
      whole ts
    else match primary r true ts with
      | some ((.block, found), left) =>
          -- `{ … }.f()` goes on, while `{ … } *x = 1;` is two statements
          if continues left then rest found left else some ((.block, found), left)
      | some ((.macroCall, found), left) =>
          if continuesCall left then rest found left else some ((.macroCall, found), left)
      | some ((.other, found), left) => rest found left
      | none => none

/-- The body of a match arm: a comma follows, unless the body ends with a block or the arm is the
last one. -/
def armBody (r : Rules) : Rule Items := do
  let (shape, body) ← leadingExpression r
  fun ts =>
    if nextIs ts (·.isPunctuation ',') then some (body, ts.tail)
    else if shape = .block || nextIs ts (·.isPunctuation '}') then some (body, ts)
    else none

end RustScript.Rust.Grammar
