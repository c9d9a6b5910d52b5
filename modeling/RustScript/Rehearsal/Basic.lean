import RustScript.Entries
import RustScript.Registry.Search
import RustScript.Registry.Web

/-!
# Rehearsing

Collaborators that answer from a script, so that the pipeline can be tried out without a toolchain
and without a network. They take down what they were asked.
-/

set_option autoImplicit false

namespace RustScript.Rehearsal

open RustScript.Command RustScript.Registry

/-- What was asked of the collaborators. -/
structure Trace where
  /-- The calls of commands, in order. -/
  calls : List Call
  /-- The names that a resolver was asked for, in order. -/
  names : List String
  /-- The addresses that were fetched, in order. -/
  addresses : List Address
  /-- The connection to the registry has been closed. -/
  closed : Bool

/-- Nothing has been asked yet. -/
def Trace.empty : Trace := ⟨[], [], [], false⟩

/-! ## Commands -/

/-- What happens when a command is called. -/
inductive Reaction
  | prints (output : Output)
  | timesOut (seconds : String)
  | fails (error : SystemError)
  /-- The command prints its arguments. -/
  | echoes
  deriving DecidableEq, Repr

/-- What a reaction to a call comes to. -/
def Reaction.outcome (call : Call) : Reaction → Except Fault Output
  | .prints output => .ok output
  | .timesOut seconds => .error (.timedOut call.args seconds)
  | .fails error => .error (.system error)
  | .echoes => .ok ⟨0, String.intercalate " " (call.args.drop 1) ++ "\n", ""⟩

/-- The reactions to calls. -/
structure Cast where
  build : Reaction
  run : Reaction
  /-- What a search for a name prints. -/
  searches : Entries String
  /-- The reaction to every search, if there is one. -/
  search : Option Reaction

/-- A build that succeeds. -/
def Cast.builds : Reaction := .prints ⟨0, "", "   Compiling\n    Finished\n"⟩

/-- A script that prints nothing. -/
def Cast.runs : Reaction := .prints ⟨0, "", ""⟩

/-- Everything succeeds, and no search finds anything. -/
def Cast.plain : Cast := ⟨builds, runs, [], none⟩

/-- What is done on a call. -/
inductive Kind
  | search
  | build
  | run
  deriving DecidableEq, Repr

/-- The first argument of a program tells what is done. -/
def Kind.ofCall (call : Call) : Kind :=
  match call.args[1]? with
  | some "search" => .search
  | some "build" => .build
  | _ => .run

/-- Puts an empty file where a build puts its program. -/
def makeProgram (directory : Path) : FileAction Unit := do
  let target := (directory.child "target").child "debug"
  FileAction.makeDirectories target
  FileAction.write (target.child directory.name) []

/-- What a search comes to. -/
def Cast.searchOutcome (cast : Cast) (call : Call) : Except Fault Output :=
  match cast.search with
  | some reaction => reaction.outcome call
  | none =>
      match call.args[2]? with
      | some name => .ok ⟨0, (cast.searches.get? name).getD "", ""⟩
      | none => .error .incomplete

/-- What a build comes to. One that succeeds leaves a program. -/
def Cast.buildOutcome (cast : Cast) (call : Call) : Act Trace (Except Fault Output) := do
  match cast.build.outcome call with
  | .error fault => return .error fault
  | .ok output =>
      match call.directory with
      | some directory =>
          if output.ok then
            let made ← Act.files (makeProgram directory)
            return made.mapError Fault.system |>.map fun _ => output
          else return .ok output
      | none => return .ok output

/-- Runs commands by the reactions to them. -/
def Cast.runner (cast : Cast) : Runner Trace := fun call => do
  Act.outside fun trace => { trace with calls := trace.calls ++ [call] }
  match Kind.ofCall call with
  | .search => return cast.searchOutcome call
  | .build => cast.buildOutcome call
  | .run => return cast.run.outcome call

/-- The calls that ran a program from a project. -/
def Trace.executions (trace : Trace) : List Call :=
  trace.calls.filter fun call => (Path.ofString (call.args.headD "")).mentions "target"

/-! ## Registries -/

/-- The releases that a resolver knows, by normalized name. -/
def shelf (versions : List (String × String)) : Entries (String × String) :=
  Entries.ofList (versions.map fun (name, version) => (Crate.normalize name, (name, version)))

/-- A resolver that knows some releases. -/
def fixedResolver (versions : List (String × String)) : Resolver Trace where
  resolve name := do
    Act.outside fun trace => { trace with names := trace.names ++ [name] }
    match (shelf versions).get? (Crate.normalize name) with
    | some (found, version) => return .ok ⟨.string found, version⟩
    | none => return .error (.notFound name)
  close := pure ()

/-- What is fetched from an address: by the last name in its path, or else what stands for any
name, or else nothing. -/
def replyTo (replies : Entries (Except String Reply)) (address : Address) : Except String Reply :=
  let reply := (replies.get? (String.ofList address.lastName)).or (replies.get? "*")
  reply.getD (.ok ⟨404, []⟩)

/-- A connection to a web of some replies. -/
def client (replies : Entries (Except String Reply)) : Client Trace where
  fetch address := do
    if (← get).outside.closed then return .error .closed
    Act.outside fun trace => { trace with addresses := trace.addresses ++ [address] }
    return (replyTo replies address).mapError .failed
  close := Act.outside fun trace => { trace with closed := true }
  room := 900

end RustScript.Rehearsal
