import RustScript.CommandLine.Report

/-!
# Terminals

What is printed can hold codes that tell a terminal how to show it: an escape character and a
bracket, parameters, and a letter. Where it is not printed on a terminal, these codes are left out.
-/

set_option autoImplicit false

namespace RustScript.CommandLine

/-- The character that begins a code. -/
def escape : Char := '\x1b'

/-- The character can stand between the beginning of a code and its letter. -/
def isParameter (c : Char) : Bool := c = ';' || c = '?' || c.isDigit

/-- The number of characters up to the letter that ends a code, behind its bracket. -/
def tailLength? : List Char → Option Nat
  | [] => none
  | c :: rest =>
      if isParameter c then (tailLength? rest).map (· + 1)
      else if c.isAlpha then some 1 else none

/-- The number of characters of the code with which a text begins. -/
def codeLength? : List Char → Option Nat
  | first :: second :: rest =>
      if first = escape ∧ second = '[' then (tailLength? rest).map (· + 2) else none
  | _ => none

/-- The text without codes; its first characters are left out as well, being the rest of a code. -/
def withoutCodes : Nat → List Char → List Char
  | _, [] => []
  | rest + 1, _ :: after => withoutCodes rest after
  | 0, c :: after =>
      match codeLength? (c :: after) with
      | some length => withoutCodes (length - 1) after
      | none => c :: withoutCodes 0 after

/-- What is to be seen of a text that is printed, on a terminal or elsewhere. -/
def shownOn (terminal : Bool) (text : String) : String :=
  if terminal then text else String.ofList (withoutCodes 0 text.toList)

end RustScript.CommandLine
