import RustScript.Command
import RustScript.Files.Action
import RustScript.Number.Binary64

/-!
# The world that a program acts on

Files, a clock, and whatever else stands outside: `World σ` leaves open what that is, and the
collaborators of the program (runners of commands, registries, stores) are actions on it. `Act`
is an action that always comes to an end; one that can fail says so in its result, and what it did
before it failed stays done.
-/

set_option autoImplicit false

namespace RustScript

/-- Everything that actions can change. -/
structure World (σ : Type) where
  /-- The files and directories. -/
  files : FileSystem
  /-- The readings that the clock gives, in seconds, the first one at 1. -/
  clock : Nat → Binary64
  /-- How often the clock has been read. -/
  readings : Nat
  /-- What the collaborators of the program keep. -/
  outside : σ

/-- An action on the world. -/
abbrev Act (σ : Type) := StateM (World σ)

namespace Act

variable {σ κ α : Type}

/-- An operation on files as an action. -/
def files (action : FileAction α) : Act σ (Except SystemError α) := fun world =>
  let (result, files) := action world.files
  (result, { world with files })

/-- Looks at the files. -/
def look (view : FileSystem → α) : Act σ α := fun world => (view world.files, world)

/-- Reads the clock. -/
def now : Act σ Binary64 := fun world =>
  (world.clock (world.readings + 1), { world with readings := world.readings + 1 })

/-- The action beside something more that is kept outside. -/
def beside (action : Act σ α) : Act (κ × σ) α := fun world =>
  let (result, after) := action ⟨world.files, world.clock, world.readings, world.outside.2⟩
  (result, ⟨after.files, after.clock, after.readings, (world.outside.1, after.outside)⟩)

/-- Changes what is kept outside. -/
def outside (change : σ → σ) : Act σ Unit :=
  modify fun world => { world with outside := change world.outside }

end Act

/-- Runs commands. -/
abbrev Runner (σ : Type) := Command.Call → Act σ (Except Command.Fault Command.Output)

/-- The runner beside something more that is kept outside. -/
def Runner.beside {σ κ : Type} (runner : Runner σ) : Runner (κ × σ) := fun call =>
  (runner call).beside

end RustScript
