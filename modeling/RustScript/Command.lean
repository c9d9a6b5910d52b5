import RustScript.Files.Error
import RustScript.Number.Shortest
import RustScript.Path

/-!
# Commands

A command is called with arguments, the first of which is the program. It ends with a status and
what it printed, or does not come to an end by itself.
-/

set_option autoImplicit false

namespace RustScript.Command

/-- A call of a command. -/
structure Call where
  /-- The program and its arguments. -/
  args : List String
  /-- The directory that the command works in, unless it is the one of the caller. -/
  directory : Option Path
  /-- The output is kept for the caller instead of being shown. -/
  capture : Bool
  /-- The seconds after which the command is stopped. -/
  timeout : Option Binary64
  deriving DecidableEq, Repr

/-- How a command ended, and what it printed. A signal shows as a negative status. -/
structure Output where
  status : Int
  stdout : String
  stderr : String
  deriving DecidableEq, Repr

/-- The command reports success. -/
def Output.ok (output : Output) : Bool := output.status = 0

/-- Why a command did not come to its own end. -/
inductive Fault
  /-- The command with these arguments was stopped after some seconds. -/
  | timedOut (args : List String) (seconds : String)
  /-- The command could not be started. -/
  | system (error : SystemError)
  /-- The call lacks an argument that the command needs. -/
  | incomplete
  deriving DecidableEq, Repr

/-- Arguments as a list of quoted texts. -/
def showArgs (args : List String) : String :=
  "[" ++ String.intercalate ", " (args.map Text.quoted) ++ "]"

/-- The fault in words. -/
def Fault.message : Fault → String
  | .timedOut args seconds => s!"Command '{showArgs args}' timed out after {seconds} seconds"
  | .system error => error.message
  | .incomplete => "list index out of range"

end RustScript.Command
