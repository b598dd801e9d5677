import IdlBridge.Storage.Error
import IdlBridge.Text.Cut

/-!
# Paths

A path is a text that slashes divide into pieces. Empty pieces and a single dot stay where they
are, two dots go up, and all other pieces are names to go down. Paths and the names in them have
a greatest length, counted in bytes.
-/

set_option autoImplicit false

namespace IdlBridge.Storage

/-- The place of a file or a directory: the names from the top down. -/
abbrev Location := List String

/-- The pieces of a path. -/
def pieces (path : String) : List String :=
  (Text.splitChar '/' path.toList).map String.ofList

/-- The path starts at the top. -/
def isAbsolute (path : String) : Bool :=
  path.startsWith "/"

/-- The piece stays where it is. -/
def isIdle (piece : String) : Bool :=
  piece == "" || piece == "."

/-- The place to which one piece leads. -/
def Location.enter (location : Location) (piece : String) : Location :=
  if isIdle piece then location
  else if piece == ".." then location.dropLast
  else location ++ [piece]

/-- The path of a file in a directory. A path from the top stays as it is. -/
def join (directory file : String) : String :=
  if isAbsolute file then file
  else if directory == "" || directory.endsWith "/" then directory ++ file
  else directory ++ "/" ++ file

/-- The pieces of a path without empty ones at its end. -/
def bodyPieces (path : String) : List String :=
  ((pieces path).reverse.dropWhile (· == "")).reverse

/-! ## Limits -/

/-- The names in paths have at most this many bytes. -/
def nameLimit : Nat := 255

/-- Paths have at most this many bytes. -/
def pathLimit : Nat := 4095

/-- Refuses a path that cannot be followed from anywhere. -/
def checkPath (path : String) : Except FileError Unit :=
  if path.toList.contains '\x00' then .error .invalidName
  else if pathLimit < path.utf8ByteSize then .error .nameTooLong
  else .ok ()

end IdlBridge.Storage
