import RustScript.Crate
import RustScript.Registry.Basic
import RustScript.Text.Digit
import RustScript.Text.Lines

/-!
# Asking a registry through its search command

`cargo search NAME --limit 1` prints the best match for a name on its first line that is not blank,
as `name = "version"` and a description. The search is fuzzy: a match whose name is not equivalent
to the one asked for means that there is no such crate.
-/

set_option autoImplicit false

namespace RustScript.Registry

open RustScript.Text RustScript.Command

/-- A character of the name in a search result. -/
def isResultName (c : Char) : Bool := c.isAlphanum || c = '_' || c = '-'

/-- The text after a sequence of digits, which must not be empty. -/
def afterDigits? (cs : List Char) : Option (List Char) :=
  match cs.span isDigit with
  | ([], _) => none
  | (_, rest) => some rest

/-- The text after a point. -/
def afterPoint? : List Char → Option (List Char)
  | '.' :: rest => some rest
  | _ => none

/-- The text begins with three numbers with points between them. -/
def startsWithVersion (cs : List Char) : Bool :=
  ((((afterDigits? cs >>= afterPoint?) >>= afterDigits?) >>= afterPoint?) >>= afterDigits?).isSome

/-- The version between quotes at the front of a text. -/
def quotedVersion? : List Char → Option (List Char)
  | '"' :: rest =>
      match rest.span (· ≠ '"') with
      | (version, '"' :: _) => if startsWithVersion version then some version else none
      | _ => none
  | _ => none

/-- The name and the version of a line `name = "version"`; more may follow. -/
def resultLine? (line : List Char) : Option (String × String) :=
  let (name, afterName) := (strip line).span isResultName
  match stripLeft afterName with
  | '=' :: rest =>
      if name.isEmpty then none
      else (quotedVersion? (stripLeft rest)).map fun version =>
        (String.ofList name, String.ofList version)
  | _ => none

/-- The complaint about a line that is no search result. -/
def noResultLine (line : String) : String := s!"Not a dependency line: {quoted line}"

/-- The first line that is not blank. -/
def firstFilledLine? (text : String) : Option (List Char) :=
  (splitLines text.toList).find? fun line => !allBlank line

/-- What the outcome of a search for `name` says. -/
def interpretSearch (name : String) : Except Fault Output → Except LookupError Release
  | .error .incomplete => .error .incompleteCall
  | .error fault => .error (.unusable name s!"cargo search could not run: {fault.message}")
  | .ok output =>
      if !output.ok then
        .error (.unusable name
          s!"cargo search exited {output.status}: {stripString output.stderr}")
      else match firstFilledLine? output.stdout with
        | none => .error (.notFound name)
        | some line =>
            match resultLine? line with
            | none => .error (.unusable name (noResultLine (String.ofList line)))
            | some (found, version) =>
                if Crate.equivalent found name then .ok ⟨.string found, version⟩
                else .error (.notFound name)

/-- The call that searches for `name`. -/
def searchCall (cargo name : String) (timeout : Option Binary64) : Call where
  args := [cargo, "search", name, "--limit", "1"]
  directory := none
  capture := true
  timeout := timeout

/-- The resolver that runs the search command. -/
def searching {σ : Type} (runner : Runner σ) (cargo : String) (timeout : Option Binary64) :
    Resolver σ where
  resolve name := interpretSearch name <$> runner (searchCall cargo name timeout)
  close := pure ()

end RustScript.Registry
