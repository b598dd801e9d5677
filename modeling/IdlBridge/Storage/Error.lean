/-!
# Errors of the file system
-/

set_option autoImplicit false

namespace IdlBridge

/-- Errors of the file system. -/
inductive FileError
  | notFound
  | alreadyExists
  | notDirectory
  | isDirectory
  /-- A path or a name in it has more bytes than it may have. -/
  | nameTooLong
  /-- A path contains the zero character. -/
  | invalidName
  /-- The file is no text. -/
  | invalidText
  /-- An error that only the machine knows. -/
  | other (description : String)
  deriving DecidableEq, Repr, Inhabited

/-- The wording of the file system's errors. -/
def FileError.message : FileError → String
  | notFound => "No such file or directory (os error 2)"
  | alreadyExists => "File exists (os error 17)"
  | notDirectory => "Not a directory (os error 20)"
  | isDirectory => "Is a directory (os error 21)"
  | nameTooLong => "File name too long (os error 36)"
  | invalidName => "file name contained an unexpected NUL byte"
  | invalidText => "stream did not contain valid UTF-8"
  | other description => description

end IdlBridge
