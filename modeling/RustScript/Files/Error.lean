import RustScript.Text.Quoted

/-!
# Errors of the operating system
-/

set_option autoImplicit false

namespace RustScript

/-- An error that the operating system reports. -/
structure SystemError where
  /-- The number of the error. -/
  code : Int
  /-- The error in words. -/
  reason : String
  /-- The file that it is about. -/
  file : Option String
  deriving DecidableEq, Repr

namespace SystemError

/-- The error with its number, and the file in quotes. -/
def message (error : SystemError) : String :=
  let file := (error.file.map fun name => ": " ++ Text.quoted name).getD ""
  s!"[Errno {error.code}] {error.reason}{file}"

/-- There is nothing of that name. -/
def noEntry (file : String) : SystemError := ⟨2, "No such file or directory", some file⟩

/-- The access is not allowed. -/
def notPermitted (file : String) : SystemError := ⟨13, "Permission denied", some file⟩

/-- There is something of that name already. -/
def alreadyExists (file : String) : SystemError := ⟨17, "File exists", some file⟩

/-- A directory was needed. -/
def notDirectory (file : String) : SystemError := ⟨20, "Not a directory", some file⟩

/-- A file was needed. -/
def isDirectory (file : String) : SystemError := ⟨21, "Is a directory", some file⟩

/-- The name cannot be used for this. -/
def invalid (file : String) : SystemError := ⟨22, "Invalid argument", some file⟩

/-- The system needs the directory. -/
def busy (file : String) : SystemError := ⟨16, "Device or resource busy", some file⟩

/-- The directory holds something. -/
def notEmpty (file : String) : SystemError := ⟨39, "Directory not empty", some file⟩

end SystemError

end RustScript
