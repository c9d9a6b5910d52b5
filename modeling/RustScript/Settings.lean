import RustScript.Entries
import RustScript.Manifest.Basic
import RustScript.Number.Decimal
import RustScript.Path
import RustScript.Registry.Search
import RustScript.Registry.Web

/-!
# Settings

What a person can choose: where projects are built, which command builds them, which registry is
asked, how long things may take. Settings come from the environment; a variable that is not set
leaves the default.
-/

set_option autoImplicit false

namespace RustScript

/-- The registries that can be chosen. -/
inductive Backend
  | search
  | web
  deriving DecidableEq, Repr

/-- The name by which a registry is chosen. -/
def Backend.name : Backend → String
  | .search => "cargo-search"
  | .web => "crates-io"

/-- All registries. -/
def Backend.all : List Backend := [.search, .web]

/-- The registry of a name. -/
def Backend.ofName? (name : String) : Option Backend := Backend.all.find? (·.name == name)

/-- Why settings are refused. -/
inductive SettingsError
  | notNumber (key value : String)
  | notPositive (key value : String)
  | unknownBackend (name : String)
  deriving DecidableEq, Repr

/-- The error in words. -/
def SettingsError.message : SettingsError → String
  | .notNumber key value => s!"{key} must be a number of seconds, got '{value}'"
  | .notPositive key value => s!"{key} must be positive, got '{value}'"
  | .unknownBackend name =>
      let names := String.intercalate ", " (Backend.all.map Backend.name)
      s!"Unknown registry backend '{name}' (expected one of {names})"

/-- The settings of the program. -/
structure Settings where
  /-- The directory in which every script has its project. -/
  buildRoot : Path
  /-- The command that builds projects. -/
  cargo : String
  /-- The registry that is asked. -/
  registry : Backend
  /-- The address of the registry on the web. -/
  registryAddress : String
  /-- The version of packages. -/
  packageVersion : String
  /-- The edition of packages. -/
  edition : String
  /-- The seconds after which a build is stopped. -/
  buildTimeout : Option Binary64
  /-- The seconds after which a script is stopped. -/
  runTimeout : Option Binary64
  /-- The build tells what it does. -/
  verboseBuild : Bool
  /-- The directory in which logs are kept. -/
  logDirectory : Option Path
  deriving DecidableEq, Repr

namespace Settings

/-- The registry of a name, which must be known. -/
def backend (name : String) : Except SettingsError Backend :=
  match Backend.ofName? name with
  | some registry => .ok registry
  | none => .error (.unknownBackend name)

/-- The settings with nothing chosen. -/
def standard (buildRoot : Path) : Settings where
  buildRoot
  cargo := "cargo"
  registry := .search
  registryAddress := Registry.defaultAddress
  packageVersion := Manifest.defaultVersion
  edition := Manifest.defaultEdition
  buildTimeout := none
  runTimeout := none
  verboseBuild := false
  logDirectory := none

/-- The value of a variable that is set and not empty. -/
def filled? (environment : Entries String) (key : String) : Option String :=
  (environment.get? key).filter fun value => !value.isEmpty

/-- A number of seconds from the environment. -/
def seconds (environment : Entries String) (key : String) :
    Except SettingsError (Option Binary64) :=
  match filled? environment key with
  | none => .ok none
  | some value =>
      match Binary64.readLoose? value with
      | none => .error (.notNumber key value)
      | some number =>
          if number.isNonpositive then .error (.notPositive key value) else .ok (some number)

/-- The settings that an environment gives; `temporary` is the directory for temporary files. -/
def ofEnvironment (temporary : Path) (environment : Entries String) :
    Except SettingsError Settings := do
  let buildTimeout ← seconds environment "RSRUN_BUILD_TIMEOUT"
  let runTimeout ← seconds environment "RSRUN_RUN_TIMEOUT"
  let registry ← backend
    (Text.lower ((environment.get? "RSRUN_REGISTRY").getD Backend.search.name))
  let defaults := standard
    (((filled? environment "RSRUN_BUILD_ROOT").map Path.ofString).getD (temporary.child "rsrun"))
  return { defaults with
    cargo := (environment.get? "RSRUN_CARGO").getD defaults.cargo
    registry
    registryAddress := (environment.get? "RSRUN_CRATES_IO_URL").getD defaults.registryAddress
    buildTimeout
    runTimeout
    logDirectory := (filled? environment "RSRUN_LOG_DIR").map Path.ofString }

/-- The resolver that the settings choose. -/
def resolver {σ : Type} (settings : Settings) (runner : Runner σ) (client : Registry.Client σ) :
    Registry.Resolver σ :=
  match settings.registry with
  | .search => Registry.searching runner settings.cargo none
  | .web => Registry.browsing client settings.registryAddress

end Settings

end RustScript
