import RustScript.Entries
import RustScript.Source.UseText
import RustScript.Text.Case
import RustScript.Text.Lines

/-!
# Comment lines with a meaning

A line `//# key: value` is a directive, and lines that begin with `///` or `//:` make up the
description of a script. Both are recognized wherever they stand on a line of their own.
-/

set_option autoImplicit false

namespace RustScript.Source

open RustScript.Text

/-- The key, in lower case, and the value of a directive line. -/
def directive? (line : List Char) : Option (String × String) := do
  let rest ← afterPrefix ['/', '/', '#'] (stripLeft line)
  match rest.dropWhile (· ≠ ':') with
  | _ :: value =>
      some (lower (String.ofList (strip (rest.takeWhile (· ≠ ':')))), String.ofList (strip value))
  | [] => none

/-- The text of a description line. -/
def descriptionLine? (line : List Char) : Option (List Char) :=
  let text := stripLeft line
  (afterPrefix ['/', '/', '/'] text <|> afterPrefix ['/', '/', ':'] text).map strip

/-- The directives of a script. A later one replaces an earlier one with the same key. -/
def directives (body : String) : Entries String :=
  Entries.ofList ((splitLines body.toList).filterMap directive?)

/-- The description of a script, when it has one. -/
def description (body : String) : Option String :=
  match (splitLines body.toList).filterMap descriptionLine? with
  | [] => none
  | lines => some (String.ofList (joinLines lines))

end RustScript.Source
