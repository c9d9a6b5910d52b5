import RustScript.Source.UseText

/-!
# Facts read from text alone

A scan for declarations at the start of a line, used where the grammar refuses a script. Comments
are removed first, block comments before line comments; strings are not recognized.
-/

set_option autoImplicit false

namespace RustScript.Source

open RustScript.Text

/-! ## Removing comments -/

/-- The text after the first `*/`. -/
def afterClose : List Char → Option (List Char)
  | [] => none
  | '*' :: '/' :: rest => some rest
  | _ :: rest => afterClose rest

theorem length_afterClose_lt {cs rest : List Char} (h : afterClose cs = some rest) :
    rest.length < cs.length := by
  fun_induction afterClose cs with
  | case1 => simp at h
  | case2 =>
      injection h with h
      subst h
      simp only [List.length_cons]
      omega
  | case3 _ _ _ ih =>
      have := ih h
      simp only [List.length_cons]
      omega

/-- The text without block comments. They do not nest here, and one that does not end stays. -/
def removeBlockComments : List Char → List Char
  | '/' :: '*' :: rest =>
      match _h : afterClose rest with
      | some after => removeBlockComments after
      -- without an end there is no comment
      | none => '/' :: removeBlockComments ('*' :: rest)
  | c :: rest => c :: removeBlockComments rest
  | [] => []
termination_by cs => cs.length
decreasing_by
  · have := length_afterClose_lt _h
    simp only [List.length_cons]
    omega
  · simp
  · simp

/-- The text without line comments; `inside` says that one has been opened. -/
def removeLineComments (inside : Bool) : List Char → List Char
  | [] => []
  | '/' :: '/' :: rest =>
      if inside then removeLineComments true ('/' :: rest) else removeLineComments true rest
  | c :: rest =>
      if inside && c ≠ '\n' then removeLineComments true rest
      else c :: removeLineComments false rest

/-- The text without comments. -/
def removeComments (cs : List Char) : List Char := removeLineComments false (removeBlockComments cs)

/-! ## Declarations at the start of a line -/

/-- The text after the next line feed. -/
def nextLine : List Char → Option (List Char)
  | [] => none
  | '\n' :: rest => some rest
  | _ :: rest => nextLine rest

theorem length_nextLine_lt {cs rest : List Char} (h : nextLine cs = some rest) :
    rest.length < cs.length := by
  fun_induction nextLine cs with
  | case1 => simp at h
  | case2 =>
      injection h with h
      subst h
      simp
  | case3 _ _ _ ih =>
      have := ih h
      simp only [List.length_cons]
      omega

/-- What `declaration` finds at the starts of lines. After a find the scan goes on at the first
line start behind it. -/
def atLineStarts {α : Type} (declaration : List Char → Option (α × List Char)) (cs : List Char) :
    List α :=
  match declaration cs with
  | some (found, rest) =>
      match nextLine rest with
      | some after =>
          if _h : after.length < cs.length then found :: atLineStarts declaration after
          else [found]
      | none => [found]
  | none =>
      match _h : nextLine cs with
      | some after => atLineStarts declaration after
      | none => []
termination_by cs.length
decreasing_by
  · exact _h
  · exact length_nextLine_lt _h

/-- The text after an optional word and its blanks. -/
def optionalKeyword (word : String) (cs : List Char) : List Char := (keyword word cs).getD cs

/-- The text after an optional visibility, `pub` or `pub(…)`, and its blanks. -/
def optionalVisibility (cs : List Char) : List Char :=
  let restricted (rest : List Char) : List Char :=
    match rest with
    | '(' :: inner =>
        match inner.dropWhile (· ≠ ')') with
        | _ :: after => after
        | [] => rest
    | _ => rest
  ((afterPrefix ['p', 'u', 'b'] cs).map restricted >>= afterBlanks).getD cs

/-- An entry point: `fn main (`, with `pub` and `async` in front. -/
def mainFunction (cs : List Char) : Option (Unit × List Char) := do
  let rest ← keyword "fn" (optionalKeyword "async" (optionalKeyword "pub" (stripLeft cs)))
  let after ← afterPrefix "main".toList rest
  match stripLeft after with
  | '(' :: left => some ((), left)
  | _ => none

/-- A use declaration: the text of its tree, up to the semicolon. -/
def useDeclaration (cs : List Char) : Option (List Char × List Char) := do
  let rest ← keyword "use" (optionalVisibility (stripLeft cs))
  match rest.dropWhile (· ≠ ';') with
  | _ :: after => some (rest.takeWhile (· ≠ ';'), after)
  | [] => none

/-- The text after attributes and the blanks behind each; `fuel` bounds their number. -/
def skipAttributes : Nat → List Char → List Char
  | 0, cs => cs
  | fuel + 1, cs =>
      match cs with
      | '#' :: '[' :: rest =>
          match rest.dropWhile (· ≠ ']') with
          | _ :: after => skipAttributes fuel (stripLeft after)
          | [] => cs
      | _ => cs

/-- The name of an external crate, after any attributes. -/
def externCrate (cs : List Char) : Option (String × List Char) := do
  let text := stripLeft cs
  let rest ← keyword "extern" (skipAttributes text.length text)
  keyword "crate" rest >>= identifier

/-- The name of a module. -/
def moduleDeclaration (cs : List Char) : Option (String × List Char) :=
  keyword "mod" (optionalVisibility (stripLeft cs)) >>= identifier

/-- The words that declare a type. -/
def typeKeywords : List String := ["enum", "struct", "union", "trait", "type"]

/-- The name of a type. -/
def typeDeclaration (cs : List Char) : Option (String × List Char) :=
  let rest := optionalKeyword "unsafe" (optionalVisibility (stripLeft cs))
  typeKeywords.findSome? (keyword · rest) >>= identifier

/-! ## The whole script -/

/-- The names of all use declarations in a text without comments. -/
def useDeclarations (cs : List Char) : UseNames :=
  .concat ((atLineStarts useDeclaration cs).map (useNames false))

/-- The facts that a scan of the text finds. -/
def Facts.scan (source : String) : Facts :=
  let cs := removeComments source.toList
  let uses := useDeclarations cs
  { mainCount := (atLineStarts mainFunction cs).length
    crateRoots := atLineStarts externCrate cs ++ uses.roots
    localModules := atLineStarts moduleDeclaration cs
    localNames := atLineStarts typeDeclaration cs ++ uses.bindings }

end RustScript.Source
