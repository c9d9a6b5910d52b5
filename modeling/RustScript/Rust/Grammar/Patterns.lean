import RustScript.Rust.Grammar.Types

/-!
# Patterns
-/

set_option autoImplicit false

namespace RustScript.Rust.Grammar

open Rule

/-- A literal, or a number with a minus sign. -/
def literalPattern : Rule Unit := either
  (do let _ ← token Token.isLiteral)
  (do mark '-'; let _ ← token Token.isLiteral)

/-- The operators of a range. -/
def rangeMarks : Rule Unit := either (marks "..=") (either (marks "...") (marks ".."))

/-- A path in a pattern or an expression: segments with `::` and generic arguments after `::`. The
result says whether the path is a single word. -/
def valuePath (r : Rules) : Rule (Bool × Items) := do
  let head : Rule (Bool × Items) := either
    (do let _ ← pathHead
        return (true, []))
    (either (do marks "::"; let _ ← name; return (false, []))
      (do let type ← bracketedType r
          marks "::"
          let _ ← name
          return (false, type)))
  let (single, first) ← head
  let rest ← many (do
    marks "::"
    let arguments ← either r.typeArguments (do let _ ← name; return [])
    return [arguments])
  return (single && rest.isEmpty, first ++ rest.flatten)

/-- The end of a range pattern: an operator and, except after `..`, a bound. -/
def rangeEnd (r : Rules) : Rule Items := do
  let bound : Rule Items := either (do literalPattern; return []) (do return (← valuePath r).2)
  either (do either (marks "..=") (marks "..."); bound) (do marks ".."; optionD [] bound)

/-- The fields of a struct pattern, with the braces. -/
def structPatternFields (r : Rules) : Rule Items :=
  let field : Rule Items := do
    let before ← attributes r
    optionD () (word "ref")
    optionD () (word "mut")
    let inner : Rule Items := do mark ':'; r.pattern
    let nested ← either (do let _ ← name; optionD [] inner)
      (do let _ ← token (·.kind = .integer); inner)
    return before ++ nested
  let remaining : Rule Items := do marks ".."; return []
  between '{' '}' (commaList (either remaining field))

/-- A pattern that begins with a path. -/
def pathPattern (r : Rules) : Rule Items := do
  let (single, path) ← valuePath r
  let elements : Rule Items := between '(' ')' (commaList r.pattern)
  let macroArguments : Rule Items := do mark '!'; r.tokenTree; return []
  let captured : Rule Items := do
    mark '@'
    if single then r.pattern else Rule.fail
  let ending ← optionD [] (either elements (either (structPatternFields r)
    (either macroArguments (either captured (rangeEnd r)))))
  return path ++ ending

/-- A pattern without alternatives. -/
def singlePattern (r : Rules) : Rule Items := fun ts =>
  match ts with
  | [] => none
  | t :: _ =>
      if t.isLiteral || t.isPunctuation '-' then
        (do literalPattern; optionD [] (rangeEnd r)) ts
      else if t.isPunctuation '&' then
        (do mark '&'; optionD () (word "mut"); r.pattern) ts
      else if t.isPunctuation '(' then between '(' ')' (commaList r.pattern) ts
      else if t.isPunctuation '[' then between '[' ']' (commaList r.pattern) ts
      else if t.isPunctuation '.' then either (rangeEnd r) (do marks ".."; return []) ts
      else if t.isWord "ref" || t.isWord "mut" then
        either (do let _ ← name; r.pattern) (pathPattern r) ts
      else if t.isWord "const" then either (do word "const"; r.block) (pathPattern r) ts
      else pathPattern r ts

/-- A pattern with its alternatives. -/
def pattern (r : Rules) : Rule Items := do
  optionD () (mark '|')
  let first ← singlePattern r
  let more ← many (do mark '|'; singlePattern r)
  return first ++ more

end RustScript.Rust.Grammar
