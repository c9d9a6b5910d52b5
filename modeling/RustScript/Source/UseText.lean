import RustScript.Source.Facts
import RustScript.Text.Blank

/-!
# Use trees read from text

Reading the text of a use tree without a grammar: braces and commas are counted, paths are ASCII
identifiers joined by `::`. Whatever does not fit contributes nothing.
-/

set_option autoImplicit false

namespace RustScript.Source

open RustScript.Text

/-! ## Pieces of text -/

/-- The text after `word`, if it begins with it. -/
def afterPrefix : List Char → List Char → Option (List Char)
  | [], cs => some cs
  | _ :: _, [] => none
  | w :: word, c :: cs => if w = c then afterPrefix word cs else none

/-- The text after one or more blanks. -/
def afterBlanks : List Char → Option (List Char)
  | [] => none
  | c :: cs => if isBlank c then some (stripLeft cs) else none

/-- The ASCII identifier at the front and the text after it. -/
def identifier : List Char → Option (String × List Char)
  | [] => none
  | c :: cs =>
      if c.isAlpha || c = '_' then
        some (String.ofList (c :: cs.takeWhile isAsciiWord), cs.dropWhile isAsciiWord)
      else none

/-- The text after `word` and one or more blanks. -/
def keyword (word : String) (cs : List Char) : Option (List Char) :=
  afterPrefix word.toList cs >>= afterBlanks

/-! ## Splitting at commas -/

/-- The pieces of a text between the commas outside braces; `piece`, last character first, is the
piece that has been begun and `depth` counts the open braces. -/
def commaPieces (depth : Int) (piece : List Char) : List Char → List (List Char)
  | [] => [piece.reverse]
  | c :: rest =>
      if c = ',' ∧ depth = 0 then piece.reverse :: commaPieces 0 [] rest
      else commaPieces (if c = '\x7b' then depth + 1 else if c = '\x7d' then depth - 1 else depth)
        (c :: piece) rest

/-- The pieces between the commas outside braces, blank ones left out. -/
def splitTopLevel (cs : List Char) : List (List Char) :=
  (commaPieces 0 [] cs).filter fun piece => !allBlank piece

/-! ## Paths and trees -/

/-- The further segments of a path, each after `::`, and the text after the last one; `fuel`
bounds their number. -/
def pathSegments : Nat → List Char → List String × List Char
  | 0, cs => ([], cs)
  | fuel + 1, cs =>
      match afterPrefix [':', ':'] (stripLeft cs) with
      | none => ([], cs)
      | some after =>
          match identifier (stripLeft after) with
          | none => ([], cs)
          | some (segment, rest) =>
              let (segments, left) := pathSegments fuel rest
              (segment :: segments, left)

/-- The names in the text of a use tree. -/
structure UseNames where
  /-- The outermost segments, in source order. -/
  roots : List String
  /-- The names that the tree binds, in source order. -/
  bindings : List String
  deriving DecidableEq, Repr

/-- The names of several use trees. -/
def UseNames.concat (names : List UseNames) : UseNames :=
  ⟨names.flatMap UseNames.roots, names.flatMap UseNames.bindings⟩

/-- The text between the opening brace, which has been read, and the last closing one; without a
closing brace, all but the last character. -/
def insideBraces (cs : List Char) : List Char :=
  match cs.reverse.dropWhile (· ≠ '\x7d') with
  | _ :: before => before.reverse
  | [] => cs.dropLast

/-- The text without `::` at its front. -/
def dropColons (cs : List Char) : List Char := (afterPrefix [':', ':'] cs).getD cs

/-- The name that a path binds, given the text after it. -/
def boundName (nested : Bool) (first : String) (segments : List String) (rest : List Char) :
    List String :=
  match keyword "as" rest >>= identifier with
  | some (other, _) => if other = "_" then [] else [other]
  | none =>
      let last := segments.getLastD first
      if (nested || !segments.isEmpty) && last ≠ "self" then [last] else []

/-- Reads the text of a use tree; `nested` says that it stands in a group with a path, and `fuel`
bounds the nesting. -/
def readUseTree : Nat → Bool → List Char → UseNames
  | 0, _, _ => ⟨[], []⟩
  | fuel + 1, nested, cs =>
      let tree := strip (dropColons (strip cs))
      match tree with
      | '\x7b' :: inner =>
          .concat ((splitTopLevel (insideBraces inner)).map (readUseTree fuel nested))
      | _ =>
          match identifier tree with
          | none => ⟨[], []⟩
          | some (first, afterFirst) =>
              let (segments, after) := pathSegments afterFirst.length afterFirst
              let roots := if nested then [] else [first]
              let rest := strip after
              match afterPrefix [':', ':'] rest with
              | some tail =>
                  match strip tail with
                  | '\x7b' :: inner => ⟨roots, (readUseTree fuel true ('\x7b' :: inner)).bindings⟩
                  | _ => ⟨roots, []⟩
              | none => ⟨roots, boundName nested first segments rest⟩

/-- The names in the text of a use tree. -/
def useNames (nested : Bool) (cs : List Char) : UseNames := readUseTree (cs.length + 1) nested cs

end RustScript.Source
