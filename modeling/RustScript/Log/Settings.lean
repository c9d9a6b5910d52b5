import RustScript.Entries
import RustScript.Text.Case

/-!
# Settings of the log

How much is logged and in which form. Everything goes to standard error, so that the output of a
script stays clean.
-/

set_option autoImplicit false

namespace RustScript.Log

/-- The form of log lines. -/
inductive Format
  | console
  | json
  deriving DecidableEq, Repr

/-- The settings of the log. -/
structure Settings where
  /-- The level from which on messages are logged. -/
  level : String
  /-- The form of log lines. -/
  format : Format
  deriving DecidableEq, Repr

/-- The level of parts that are only heard when something is wrong. -/
def quietLevel : String := "WARNING"

/-- The parts of the program and their levels, sorted. -/
def Settings.parts (settings : Settings) : List (String × String) :=
  [("httpcore", quietLevel), ("httpx", quietLevel), ("rsrun", settings.level)]

/-- The settings for a level that was asked for, and otherwise for the one that the environment
gives. -/
def Settings.choose (asked : Option String) (environment : Entries String) : Settings where
  level := Text.upper <| match asked.filter fun level => !level.isEmpty with
    | some level => level
    | none => (environment.get? "RSRUN_LOG_LEVEL").getD quietLevel
  format :=
    if Text.lower ((environment.get? "RSRUN_LOG_FORMAT").getD "console") = "json" then .json
    else .console

end RustScript.Log
