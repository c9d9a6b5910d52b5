import RustScript.Files.Text

/-!
# Stores for logs

For every script a store keeps the output of its latest build and of its latest run, and a journal
of what its stages did.
-/

set_option autoImplicit false

namespace RustScript.Log

/-- Why something that was kept cannot be given back. -/
inductive LoadError
  | text (error : TextError)
  /-- The status of a command is no number. -/
  | badStatus
  deriving DecidableEq, Repr

/-- Keeps the outputs of commands and journals, by the stem of a script. -/
structure Store (σ : Type) where
  /-- Keeps the output of a stage, in place of the one before. -/
  save : String → String → Command.Output → Act σ (Except SystemError Unit)
  /-- The output of a stage, if there is one. -/
  load : String → String → Act σ (Except LoadError (Option Command.Output))
  /-- Adds a line to the journal. -/
  append : String → String → Act σ (Except SystemError Unit)
  /-- The lines of the journal. -/
  events : String → Act σ (Except LoadError (List String))
  /-- Forgets everything about a script. -/
  delete : String → Act σ (Except SystemError Unit)

end RustScript.Log
