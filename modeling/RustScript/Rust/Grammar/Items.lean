import RustScript.Rust.Grammar.Expressions
import RustScript.Rust.Lexer

/-!
# Items, statements and blocks

A word at the start of a statement decides what the statement is; a keyword there never falls back
to being a name. Use trees are kept, everything else only for the items inside.
-/

set_option autoImplicit false

namespace RustScript.Rust.Grammar

open Rule

/-! ## Use trees -/

/-- The first segment of a path in a use tree. -/
def useSegment (r : Rules) : Rule Segment := fun ts =>
  match ts with
  | [] => none
  | t :: rest =>
      if t.kind = .metavariable then some (.variable t.text, rest)
      else if t.kind = .word then
        if ["self", "super", "crate"].contains t.text then some (.keyword t.text, rest)
        else some (.name t.text, rest)
      else (do let _ ← bracketedType r; return Segment.bracketed) ts

/-- A list of use trees in braces. -/
def useList (r : Rules) : Rule (List UseTree) :=
  between '{' '}' (commaList (do return [← r.useTree]))

/-- What follows a path in a use tree; `names` are the names after its first segment, last one
first. `fuel` bounds the segments read. -/
def useTail (r : Rules) (lead : PathLead) (first : Segment) : Nat → List String → Rule UseTree
  | 0, _ => Rule.fail
  | fuel + 1, names => fun ts =>
      let path : UsePath := ⟨lead, first, names.reverse⟩
      let whole := first ≠ .bracketed || !names.isEmpty
      if startsMarks [':', ':'] ts then
        let after := ts.drop 2
        if nextIs after (·.isPunctuation '*') then some (.glob (some path), after.tail)
        else if nextIs after (·.isPunctuation '{') then
          (do return UseTree.group (some path) (← useList r)) after
        else if nextIs after (·.isPunctuation '<') then
          -- generic arguments stand between two segments, never at the end
          (do let _ ← r.typeArguments
              fun left =>
                if startsMarks [':', ':'] left then useTail r lead first fuel names left
                else none) after
        else
          (do let next ← name
              useTail r lead first fuel (next :: names)) after
      else if !whole then none
      else if nextWordIn ts ["as"] then (do return UseTree.renamed path (← name)) ts.tail
      else some (.path path, ts)

/-- A use tree. Behind a leading `::` every word is a name. -/
def useTree (r : Rules) : Rule UseTree := fun ts =>
  if nextIs ts (·.isPunctuation '{') then (do return UseTree.group none (← useList r)) ts
  else if nextIs ts (·.isPunctuation '*') then some (.glob none, ts.tail)
  else if startsMarks [':', ':'] ts then
    let after := ts.drop 2
    if nextIs after (·.isPunctuation '{') then (do return UseTree.group none (← useList r)) after
    else if nextIs after (·.isPunctuation '*') then some (.glob none, after.tail)
    else
      let lead := if nextIs after (·.commented) then PathLead.absoluteCommented else .absolute
      (do let first ← name
          useTail r lead (.name first) (ts.length + 1) []) after
  else
    (do let first ← useSegment r
        useTail r .relative first (ts.length + 1) []) ts

/-! ## Parts of items -/

/-- The front is the visibility `crate`: a word follows, and no path. -/
def startsCrateVisibility (ts : List Token) : Bool :=
  nextWordIn ts ["crate"] && nextIs ts.tail (·.kind = .word)

/-- How visible an item is. -/
def visibility : Rule Unit := fun ts =>
  if startsCrateVisibility ts then some ((), ts.tail)
  else (do
    word "pub"
    optionD () (between '(' ')' (either
      (do let _ ← token fun t => t.isWord "self" || t.isWord "super" || t.isWord "crate")
      (do word "in"; simplePath)))) ts

/-- The generic parameters of an item, in angle brackets. -/
def typeParameters (r : Rules) : Rule Items := do
  let parameter : Rule Items := do
    let before ← attributes r
    let found ← either
      (do lifetime; optionD [] (bounds r))
      (either
        (do word "const"
            let _ ← name
            mark ':'
            let type ← r.type
            let value ← optionD [] (do
              mark '='
              either r.block (do
                optionD () (mark '-')
                let _ ← token fun t => t.isLiteral || t.kind = .word
                return []))
            return type ++ value)
        (do let _ ← token fun t => t.kind = .word || t.kind = .metavariable
            let bound ← optionD [] (bounds r)
            let value ← optionD [] (do mark '='; r.type)
            return bound ++ value))
    return before ++ found
  mark '<'
  let found ← commas parameter
  optionD () (mark ',')
  mark '>'
  return found

/-- The conditions on the generic parameters of an item. -/
def whereClause (r : Rules) : Rule Items := do
  let predicate : Rule Items := do
    let subject ← r.type
    let bound ← bounds r
    return subject ++ bound
  word "where"
  commaList predicate

/-- The type parameters that an item may have. -/
def optionalParameters (r : Rules) : Rule Items := optionD [] (typeParameters r)

/-- The where clause that an item may have. -/
def optionalWhere (r : Rules) : Rule Items := optionD [] (whereClause r)

/-- Named fields in braces. -/
def namedFields (r : Rules) : Rule Items := between '{' '}' (commaList (do
  let before ← attributes r
  optionD () visibility
  let _ ← name
  mark ':'
  let type ← r.type
  return before ++ type))

/-- Unnamed fields in parentheses. -/
def orderedFields (r : Rules) : Rule Items := between '(' ')' (commaList (do
  let before ← attributes r
  optionD () visibility
  let type ← r.type
  return before ++ type))

/-- The variants of an enumeration, in braces. -/
def variants (r : Rules) : Rule Items := between '{' '}' (commaList (do
  let before ← attributes r
  optionD () visibility
  let _ ← name
  let fields ← optionD [] (either (namedFields r) (orderedFields r))
  let value ← optionD [] (do mark '='; r.expression true)
  return before ++ fields ++ value))

/-- The declarations in the body of a module, an `impl`, a trait or a foreign block. -/
def declarationList (r : Rules) : Rule Items := between '{' '}' (many r.declaration)

/-- An optional value after `=`. -/
def optionalValue (r : Rules) : Rule Items := optionD [] (do mark '='; r.expression true)

/-- Items that are held by something that is no item itself. -/
def held (inner : Items) : Items := if inner.isEmpty then [] else [.other inner]

/-! ## Items -/

/-- A type item whose inner items are `inner`. -/
def typeItem (inner : Rule (String × Items)) : Rule Items := do
  let (name, items) ← inner
  return [Item.typeItem name items]

/-- A structure, after its keyword. -/
def structRest (r : Rules) : Rule Items := typeItem (do
  let title ← name
  let parameters ← optionalParameters r
  let body ← either
    (do let conditions ← optionalWhere r
        let fields ← namedFields r
        return conditions ++ fields)
    (either
      (do let fields ← orderedFields r
          let conditions ← optionalWhere r
          mark ';'
          return fields ++ conditions)
      (do mark ';'; return []))
  return (title, parameters ++ body))

/-- A union or an enumeration with the given body, after its keyword. -/
def bodiedRest (r : Rules) (body : Rule Items) : Rule Items := typeItem (do
  let title ← name
  let parameters ← optionalParameters r
  let conditions ← optionalWhere r
  let fields ← body
  return (title, parameters ++ conditions ++ fields))

/-- A type alias, after its keyword. -/
def typeAliasRest (r : Rules) : Rule Items := do
  let title ← name
  let parameters ← optionalParameters r
  let conditions ← optionalWhere r
  mark '='
  let value ← r.type
  let more ← optionalWhere r
  mark ';'
  return [Item.typeItem title (parameters ++ conditions ++ value ++ more)]

/-- An associated type, after its keyword. It may have bounds but no value, and names no type of
its own. -/
def associatedTypeRest (r : Rules) : Rule Items := do
  let _ ← name
  let parameters ← optionalParameters r
  let bound ← optionD [] (bounds r)
  let conditions ← optionalWhere r
  mark ';'
  return held (parameters ++ bound ++ conditions)

/-- A trait, after its keyword. -/
def traitRest (r : Rules) : Rule Items := typeItem (do
  let title ← name
  let parameters ← optionalParameters r
  let bound ← optionD [] (bounds r)
  let conditions ← optionalWhere r
  let body ← declarationList r
  return (title, parameters ++ bound ++ conditions ++ body))

/-- An implementation, after its keyword. -/
def implRest (r : Rules) : Rule Items := do
  let parameters ← optionalParameters r
  optionD () (mark '!')
  let first ← r.type
  let target ← optionD [] (do word "for"; r.type)
  let conditions ← optionalWhere r
  let body ← either (declarationList r) (do mark ';'; return [])
  return held (parameters ++ first ++ target ++ conditions ++ body)

/-- A function, after `fn`. Only a function with a body counts as one. -/
def functionRest (r : Rules) : Rule Items := do
  let title ← token fun t => t.kind = .word || t.kind = .metavariable
  let generics ← optionalParameters r
  let inputs ← parameters r
  let result ← functionResult r
  let conditions ← optionalWhere r
  let head := generics ++ inputs ++ result ++ conditions
  either
    (do let body ← r.block
        return [Item.function title.text (head ++ body)])
    (do mark ';'; return held head)

/-- A constant or static, after its keywords. -/
def constantRest (r : Rules) : Rule Items := do
  let _ ← name
  mark ':'
  let type ← r.type
  let value ← optionalValue r
  mark ';'
  return held (type ++ value)

/-- A module, after its keyword. -/
def moduleRest (r : Rules) : Rule Items := do
  let title ← name
  let body ← either (declarationList r) (do mark ';'; return [])
  return [Item.module title body]

/-- An external crate, after its keywords. -/
def externCrateRest : Rule Items := do
  let title ← name
  let renamed ← optionD none (do word "as"; return some (← name))
  mark ';'
  return [Item.externCrate title renamed]

/-- A local binding, after its keyword. -/
def letRest (r : Rules) : Rule Items := do
  optionD () (word "mut")
  let pattern ← r.pattern
  let type ← optionD [] (do mark ':'; r.type)
  let value ← optionalValue r
  let alternative ← optionD [] (do word "else"; r.block)
  mark ';'
  return held (pattern ++ type ++ value ++ alternative)

/-- The definition of a macro, after `macro_rules!`. -/
def macroRest (r : Rules) : Rule Items := do
  let arm : Rule (List Unit) := do
    r.tokenTree
    marks "=>"
    r.tokenTree
    return [()]
  let arms : Rule Unit := do
    let _ ← many (do let _ ← arm; mark ';'; return [()])
    let _ ← optionD [] arm
  let _ ← name
  either (between '{' '}' arms)
    (do either (between '(' ')' arms) (between '[' ']' arms); mark ';')
  return []

/-- The words that may stand before `fn`. -/
def functionModifier : Rule (List Unit) := do
  either
    (do let _ ← token fun t => ["async", "default", "const", "unsafe", "gen"].any t.isWord)
    (do word "extern"; let _ ← optionD none (do return some (← token (·.kind = .literal))))
  return [()]

/-- A block of foreign declarations, after its modifiers and the name of their convention. -/
def foreignBlock (r : Rules) : Rule Items := do
  word "extern"
  let _ ← optionD none (do return some (← token (·.kind = .literal)))
  let body ← either (declarationList r) (do mark ';'; return [])
  return held body

/-- A function with its modifiers. -/
def functionItem (r : Rules) : Rule Items := do
  let _ ← many functionModifier
  word "fn"
  functionRest r

/-- An item that a visibility may precede, without it. The second result of the look-ahead is the
word after the first one. -/
def itemRest (r : Rules) : Rule Items := fun ts =>
  match ts with
  | [] => none
  | t :: rest =>
      if t.kind ≠ .word then none
      else match t.text with
        | "fn" => functionRest r rest
        | "mod" => moduleRest r rest
        | "struct" => structRest r rest
        | "enum" => bodiedRest r (variants r) rest
        | "union" =>
            if nextIs rest (·.kind = .word) then bodiedRest r (namedFields r) rest else none
        | "type" => typeAliasRest r rest
        | "trait" => traitRest r rest
        | "use" => (do
            let tree ← r.useTree
            mark ';'
            return [Item.use tree]) rest
        | "static" => (do
            optionD () (word "ref")
            optionD () (word "mut")
            constantRest r) rest
        | "const" =>
            if nextWordIn rest ["fn", "unsafe", "async", "extern", "default"] then
              functionItem r ts
            else constantRest r rest
        | "extern" =>
            if nextWordIn rest ["crate"] then externCrateRest rest.tail
            else either (functionItem r) (foreignBlock r) ts
        | "unsafe" =>
            if nextWordIn rest ["impl"] then implRest r rest.tail
            else if nextWordIn rest ["trait"] then traitRest r rest.tail
            else either (functionItem r) (do word "unsafe"; foreignBlock r) ts
        | "async" => functionItem r ts
        | "default" => functionItem r ts
        | "gen" => functionItem r ts
        | _ => none

/-- The front of a statement is an item that a visibility may precede; otherwise the first word is
part of an expression. -/
def startsItem (ts : List Token) : Bool :=
  match ts with
  | [] => false
  | t :: rest =>
      if t.kind ≠ .word then false
      else if ["fn", "mod", "struct", "enum", "type", "trait", "use", "extern"].contains t.text then
        true
      else match t.text with
        | "static" =>
            !nextIs rest (·.isPunctuation '|') && !nextWordIn rest ["move", "async"]
        | "const" => !nextIs rest (·.isPunctuation '{')
        | "union" => nextIs rest (·.kind = .word) && nextIs rest.tail fun u =>
            u.isPunctuation '{' || u.isPunctuation '<' || u.isWord "where"
        | "unsafe" => !nextIs rest (·.isPunctuation '{')
        | "async" => nextWordIn rest ["fn", "unsafe", "extern", "const", "default"]
        | "default" => nextWordIn rest ["fn", "unsafe", "extern", "const", "async"]
        | "gen" => nextWordIn rest ["fn", "unsafe", "extern"]
        | _ => false

/-- A declaration that a keyword or a mark at its front decides. `none` inside says that the front
is not one. -/
def keywordDeclaration (r : Rules) : Rule (Option Items) := fun ts =>
  let item (p : Rule Items) : Rule (Option Items) := do return some (← p)
  match ts with
  | [] => none
  | t :: rest =>
      if t.isPunctuation ';' then some (some [], rest)
      else if t.isPunctuation '#' then
        item (do return held (← either (innerAttribute r) (outerAttribute r))) ts
      else if t.isWord "pub" || startsCrateVisibility ts then
        item (do visibility; itemRest r) ts
      else if t.isWord "let" then item (letRest r) rest
      else if t.isWord "impl" then item (implRest r) rest
      else if t.isWord "type" then item (either (typeAliasRest r) (associatedTypeRest r)) rest
      else if t.isWord "macro_rules" && nextIs rest (fun u => u.glued && u.isPunctuation '!') then
        item (macroRest r) rest.tail
      else if startsItem ts then item (itemRest r) ts
      else some (none, ts)

/-- A declaration in the body of a module, an `impl`, a trait or a foreign block. -/
def declaration (r : Rules) : Rule Items := do
  match ← keywordDeclaration r with
  | some found => return found
  | none =>
      let (_, path) ← valuePath r
      mark '!'
      r.tokenTree
      return path

/-! ## Statements and blocks -/

/-- A statement. A last expression without a semicolon is accepted where `lastValue` says so: at
the end of a block. -/
def statement (r : Rules) (lastValue : Bool) : Rule Items := do
  match ← keywordDeclaration r with
  | some found => return found
  | none =>
      let (shape, inner) ← leadingExpression r
      let found := held inner
      fun ts =>
        if nextIs ts (·.isPunctuation ';') then some (found, ts.tail)
        else if shape ≠ .other then some (found, ts)
        else if lastValue && nextIs ts (·.isPunctuation '}') then some (found, ts)
        else none

/-- A block, without its label. -/
def block (r : Rules) : Rule Items := between '{' '}' (many (statement r true))

/-! ## The whole grammar -/

/-- The rules with every production one level deeper. -/
def deepen (r : Rules) : Rules where
  expression literals := chain r literals fun _ => false
  clause literals := chain r literals (· = "&&")
  block := block r
  ifExpression := ifExpression r
  armBody := armBody r
  type := type r
  typeArguments := typeArguments r
  pattern := pattern r
  tokenTree := tokenTree r
  useTree := useTree r
  declaration := declaration r

/-- The rules, good for nesting up to the given depth. -/
def rules : Nat → Rules
  | 0 => Rules.refusing
  | depth + 1 => deepen (rules depth)

end RustScript.Rust.Grammar

namespace RustScript.Rust

/-- The items of a source text, `none` when the text is not in the grammar. Every level of nesting
takes a token and at most four rules, which bounds the depth. -/
def Item.parse? (source : String) : Option (List Item) := do
  let tokens ← Token.lex source
  let rules := Grammar.rules (4 * tokens.length + 4)
  let (items, rest) ← Rule.many (Grammar.statement rules false) tokens
  if rest.isEmpty then some items else none

end RustScript.Rust
