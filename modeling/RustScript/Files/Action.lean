import RustScript.Files.Basic
import RustScript.Text.Utf8

/-!
# Operations on files

Operations that may fail with an error of the operating system. What an operation did before it
failed stays done.
-/

set_option autoImplicit false

namespace RustScript

/-- An operation on files. -/
abbrev FileAction := ExceptT SystemError (StateM FileSystem)

namespace FileAction

/-- The place that a path means. -/
def place (path : Path) : FileAction Place := do
  match (← get).place path with
  | .ok place => return place
  | .error error => throw error

/-- The content of a file. -/
def read (path : Path) : FileAction (List UInt8) := do
  let place ← place path
  match (← get).node? place with
  | some (.file content) => return content
  | some .directory => throw (.isDirectory path.toString)
  | none => throw (.noEntry path.toString)

/-- Makes a file of the content that `change` gives for the old one; a file that does not exist is
created empty first. -/
def change (path : Path) (change : List UInt8 → List UInt8) : FileAction Unit := do
  let place ← place path
  match (← get).node? place with
  | some (.file content) => modify (·.put place (.file (change content)))
  | some .directory => throw (.isDirectory path.toString)
  | none => modify (·.put place (.file (change [])))

/-- Writes a file, in place of an old one. -/
def write (path : Path) (content : List UInt8) : FileAction Unit := change path fun _ => content

/-- Writes at the end of a file. -/
def append (path : Path) (content : List UInt8) : FileAction Unit := change path (· ++ content)

/-- Makes a directory in one that exists. -/
def makeDirectory (path : Path) : FileAction Unit := do
  let place ← place path
  match (← get).node? place with
  | some _ => throw (.alreadyExists path.toString)
  | none => modify (·.put place .directory)

/-- Makes a directory unless there is one. -/
def ensureDirectory (path : Path) : FileAction Unit := do
  try makeDirectory path
  catch error => if (← get).isDirectory path then return else throw error

/-- Makes a directory and those around it, as far as they are missing; `depth` bounds how many of
those around it are made. -/
def makeDirectoriesTo : Nat → Path → FileAction Unit
  | 0, path => ensureDirectory path
  | depth + 1, path => do
      try makeDirectory path
      catch error =>
        if error = .noEntry path.toString then
          match path.parent? with
          | some parent => makeDirectoriesTo depth parent; ensureDirectory path
          | none => throw error
        else if (← get).isDirectory path then return
        else throw error

/-- Makes a directory and those around it, as far as they are missing. -/
def makeDirectories (path : Path) : FileAction Unit := makeDirectoriesTo path.names.length path

/-- The place lies inside another one. -/
def isInside (outer inner : Place) : Bool := outer.isPrefixOf inner && inner != outer

/-- Removes the directory itself, once it is empty. A path that ends in `..` or is the working
directory does not name its directory in the one around it. -/
def removeEmptyDirectory (path : Path) : FileAction Unit := do
  let place ← place path
  if (← get).node? place = none then throw (.noEntry path.toString)
  if path.names.getLast? = some ".." then throw (.notEmpty path.toString)
  if path.names = [] then
    throw (if path.slashes = 0 then .invalid path.toString else .busy path.toString)
  modify (·.dropWhere (· == place))

/-- Removes a directory and everything in it. -/
def removeTree (path : Path) : FileAction Unit := do
  let place ← place path
  match (← get).node? place with
  | none => throw (.noEntry path.toString)
  | some (.file _) => throw (.notDirectory path.toString)
  | some .directory =>
      modify (·.dropWhere (isInside place))
      removeEmptyDirectory path

/-- Removes a file. -/
def removeFile (path : Path) : FileAction Unit := do
  let place ← place path
  match (← get).node? place with
  | none => throw (.noEntry path.toString)
  | some .directory => throw (.isDirectory path.toString)
  | some (.file _) => modify (·.dropWhere (· == place))

end FileAction

end RustScript
