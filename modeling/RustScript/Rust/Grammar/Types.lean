import RustScript.Rust.Grammar.Rule

/-!
# Macros, attributes, paths and types

Token trees hold balanced brackets and contribute no items. Types can: the length of an array type
and a generic argument may hold a block.
-/

set_option autoImplicit false

namespace RustScript.Rust.Grammar

open Rule

/-! ## Token trees and attributes -/

/-- The punctuation that may stand in a token tree, brackets apart. -/
def looseMarks : List Char :=
  ['+', '-', '*', '/', '%', '^', '!', '&', '|', '<', '>', '=', '@', '.', ',', ';', ':', '#', '?',
    '$', '\'']

/-- One token of a token tree that is not a bracket. -/
def looseToken : Rule Unit := do
  let _ ← token fun t => t.kind ≠ .punctuation || looseMarks.any t.isPunctuation

/-- A balanced bracket group. -/
def tokenTree (r : Rules) : Rule Unit :=
  let content : Rule Unit := do
    let _ ← many (do either looseToken r.tokenTree; return [()])
  either (between '(' ')' content) (either (between '[' ']' content) (between '{' '}' content))

/-- A path in an attribute: words and `::`. -/
def simplePath : Rule Unit := do
  let segment : Rule Unit := do
    let _ ← token fun t => t.kind = .word || t.kind = .metavariable
  optionD () (marks "::")
  segment
  let _ ← many (do marks "::"; segment; return [()])

/-- What stands between the brackets of an attribute. -/
def attributeContent (r : Rules) : Rule Items := do
  simplePath
  optionD [] (either (do mark '='; r.expression true) (do r.tokenTree; return []))

/-- An outer attribute `#[…]`. -/
def outerAttribute (r : Rules) : Rule Items := do
  mark '#'
  between '[' ']' (attributeContent r)

/-- An inner attribute `#![…]`. -/
def innerAttribute (r : Rules) : Rule Items := do
  mark '#'
  mark '!'
  between '[' ']' (attributeContent r)

/-- Any number of outer attributes. -/
def attributes (r : Rules) : Rule Items := many (outerAttribute r)

/-! ## Paths and types -/

/-- A lifetime. -/
def lifetime : Rule Unit := do
  mark '\''
  let _ ← name

/-- The arguments of a type in angle brackets. -/
def typeArguments (r : Rules) : Rule Items := do
  let argument : Rule Items := do
    let value ← either (do lifetime; return [])
      (either (do let _ ← token Token.isLiteral; return [])
        (either r.block r.type))
    let more ← optionD [] (either (do mark '='; r.type) (do
      mark ':'
      either (do lifetime; return []) r.type))
    return value ++ more
  mark '<'
  let found ← commas argument
  optionD () (mark ',')
  mark '>'
  return found

/-- A type in angle brackets at the front of a path, `<T as Trait>`. -/
def bracketedType (r : Rules) : Rule Items := do
  mark '<'
  let type ← r.type
  let trait ← optionD [] (do word "as"; r.type)
  mark '>'
  return type ++ trait

/-- The parameters of a function or of a function type, with the parentheses. -/
def parameters (r : Rules) : Rule Items :=
  let receiver : Rule Items := do
    optionD () (mark '&')
    optionD () lifetime
    optionD () (word "mut")
    word "self"
    fun ts => if nextIs ts (·.isPunctuation ':') then none else some ([], ts)
  let typed : Rule Items := do
    optionD () (word "mut")
    let pattern ← r.pattern
    mark ':'
    let type ← either (do marks "..."; return []) r.type
    return pattern ++ type
  let variadic : Rule Items := do marks "..."; return []
  let parameter : Rule Items := do
    let before ← optionD [] (outerAttribute r)
    let found ← either receiver (either typed (either variadic r.type))
    return before ++ found
  between '(' ')' (commaList parameter)

/-- The result of a function after its parameters. -/
def functionResult (r : Rules) : Rule Items := optionD [] (do marks "->"; r.type)

/-- The generic parameters of a higher-ranked type, after `for`. -/
def forLifetimes (r : Rules) : Rule Unit := do
  word "for"
  let _ ← r.typeArguments

/-- The names of the types that take no generic arguments. -/
def primitiveTypes : List String :=
  ["u8", "i8", "u16", "i16", "u32", "i32", "u64", "i64", "u128", "i128", "isize", "usize", "f32",
    "f64", "bool", "str", "char"]

/-- The words that begin a path and are no path on their own. -/
def isPathLead (word : String) : Bool := word = "super" || word = "crate"

/-- Reads the first word of a path of types or values. -/
def pathHead : Rule Token := do
  let first ← token fun t => t.kind = .word || t.kind = .metavariable
  fun rest =>
    if isPathLead first.text && !startsMarks [':', ':'] rest then none else some (first, rest)

/-- A path that names a type, with generic arguments, the parameters of a function trait, or the
token tree of a macro. -/
def typePath (r : Rules) : Rule Items := do
  let arguments : Rule Items := optionD [] (do optionD () (marks "::"); r.typeArguments)
  let segment : Rule Items := do
    let first ← token fun t => t.kind = .word || t.kind = .metavariable
    if primitiveTypes.contains first.text then return [] else arguments
  let step : Rule Items := do marks "::"; segment
  let head ← either (do marks "::"; segment) (either (do
      let type ← bracketedType r
      let next ← step
      return type ++ next) (do
        let first ← pathHead
        if primitiveTypes.contains first.text then return [] else arguments))
  let rest ← many step
  let ending ← optionD [] (either (do mark '!'; r.tokenTree; return []) (do
    let found ← parameters r
    let result ← functionResult r
    return found ++ result))
  return head ++ rest ++ ending

/-- A function pointer type. -/
def functionPointer (r : Rules) : Rule Items := do
  let _ ← many (either (do
      word "extern"
      let _ ← optionD "" (do return (← token (·.kind = .literal)).text)
      return [()])
    (do let _ ← token fun t => t.isWord "unsafe" || t.isWord "const" || t.isWord "async"
        return [()]))
  word "fn"
  let found ← parameters r
  let result ← functionResult r
  return found ++ result

/-- A type without a list of bounds after it. -/
def singleType (r : Rules) : Rule Items := fun ts =>
  let reference : Rule Items := do
    mark '&'
    optionD () lifetime
    optionD () (word "mut")
    r.type
  let pointer : Rule Items := do
    mark '*'
    either (word "const") (word "mut")
    r.type
  let tuple : Rule Items := between '(' ')' (either (do
    let found ← commas r.type
    optionD () (mark ',')
    return found) (pure []))
  let array : Rule Items := between '[' ']' (do
    let element ← r.type
    let length ← optionD [] (do mark ';'; r.expression true)
    return element ++ length)
  let traitObject : Rule Items := do
    either (word "dyn") (word "impl")
    optionD () (forLifetimes r)
    r.type
  let higherRanked : Rule Items := do forLifetimes r; r.type
  match ts with
  | [] => none
  | t :: _ =>
      if t.kind = .punctuation then
        match t.text with
        | "&" => reference ts
        | "*" => pointer ts
        | "(" => tuple ts
        | "[" => array ts
        | "!" => (do mark '!'; return []) ts
        | "?" => (do mark '?'; r.type) ts
        | "'" => (do lifetime; return []) ts
        | _ => typePath r ts
      else either functionPointerFirst (either traitObject (either higherRanked (typePath r))) ts
where
  functionPointerFirst : Rule Items := functionPointer r

/-- A type with the bounds that follow it after `+`. -/
def type (r : Rules) : Rule Items := do
  let first ← singleType r
  let more ← many (do mark '+'; singleType r)
  return first ++ more

/-- The bounds of a generic parameter or of a trait, with the colon. -/
def bounds (r : Rules) : Rule Items := do
  mark ':'
  r.type

end RustScript.Rust.Grammar
