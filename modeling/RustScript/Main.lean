import RustScript.CommandLine.Basic

/-!
# The program

The outer layer: it reads the files that a call may touch, makes the call, and writes down what the
call changed and printed. Other programs are not started and no network is used from here, so that
builds and look-ups report that they could not be made.
-/

set_option autoImplicit false

namespace RustScript.Program

/-- The variables that the program looks at. -/
def settingNames : List String :=
  ["RSRUN_BUILD_ROOT", "RSRUN_CARGO", "RSRUN_REGISTRY", "RSRUN_CRATES_IO_URL",
    "RSRUN_BUILD_TIMEOUT", "RSRUN_RUN_TIMEOUT", "RSRUN_LOG_DIR", "RSRUN_LOG_LEVEL",
    "RSRUN_LOG_FORMAT"]

/-- The variables of the environment that are set. -/
def environment : IO (Entries String) :=
  settingNames.filterMapM fun key => do return (← IO.getEnv key).map fun value => (key, value)

/-- The place as an absolute path. -/
def absolute (place : Place) : String := "/" ++ String.intercalate "/" place

/-- What stands at a place and below it. -/
partial def load (place : Place) : IO (List (Place × Node)) := do
  let path := (← IO.currentDir) / absolute place
  if ← path.isDir then
    let inner ← (← path.readDir).toList.mapM fun entry => load (place ++ [entry.fileName])
    return (place, .directory) :: inner.flatten
  else if ← path.pathExists then
    return [(place, .file (← IO.FS.readBinFile path).toList)]
  else return []

/-- The directories around a place, as far as there are any. -/
def around (place : Place) : IO (List (Place × Node)) := do
  let outer := (List.range place.length).map fun count => place.take count
  let found ← outer.filterM fun directory => do
    return directory != [] && (← ((← IO.currentDir) / absolute directory).isDir)
  return found.map fun directory => (directory, .directory)

/-- The place of a path, seen from the working directory. -/
def placeOf (here : Place) (path : Path) : Place :=
  let start := if path.slashes = 0 then here else []
  path.names.foldl (fun place name => if name = ".." then place.dropLast else place ++ [name]) start

/-- The files and directories that the paths lead to. -/
def filesAt (paths : List Path) : IO FileSystem := do
  let here := (Path.ofString (← IO.currentDir).toString).names
  let places := here :: paths.map (placeOf here)
  let outer ← places.mapM around
  let inner ← (places.drop 1).mapM load
  let nodes := (outer.flatten ++ (here, .directory) :: inner.flatten).foldl
    (fun files entry => files.put entry.1 entry.2) ⟨here, []⟩
  return nodes

/-- Makes a change to the files of the machine. -/
def apply : Change → IO Unit
  | .removeFile place => IO.FS.removeFile (absolute place)
  | .removeDirectory place => IO.FS.removeDir (absolute place)
  | .makeDirectory place => IO.FS.createDirAll (absolute place)
  | .writeFile place content => IO.FS.writeBinFile (absolute place) ⟨content.toArray⟩

/-- Starts no command. -/
def runner : Runner Unit := fun call =>
  pure (.error (.system (.noEntry (call.args.headD ""))))

/-- Reaches no server. -/
def client : Registry.Client Unit where
  fetch _ := pure (.error (.failed "no connection"))
  close := pure ()
  room := 0

/-- A status as the one of a process. -/
def processStatus (status : Int) : UInt32 := UInt32.ofNat (status % 256).toNat

/-- Makes a call of the program. -/
def run (arguments : List String) : IO UInt32 := do
  let temporary := Path.ofString "/tmp"
  let environment ← environment
  let before ← filesAt (CommandLine.reach temporary environment arguments)
  let started : Binary64 := .ofRatio false (← IO.monoMsNow) 1000
  let host : CommandLine.Host Unit := {
    environment, temporary, runner, client
    outIsTerminal := ← (← IO.getStdout).isTty
    errIsTerminal := ← (← IO.getStderr).isTty }
  let (result, after) := (CommandLine.invoke host arguments).run ⟨before, fun _ => started, 0, ()⟩
  (before.changes after.files).forM apply
  IO.print result.report.stdout
  IO.eprint result.report.stderr
  if let some failure := result.report.escaped then IO.eprintln failure.message
  return processStatus result.report.exit

end RustScript.Program

/-- The program. -/
def main (arguments : List String) : IO UInt32 := RustScript.Program.run arguments
