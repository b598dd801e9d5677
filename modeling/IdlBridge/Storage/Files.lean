import IdlBridge.Storage.Error
import IdlBridge.Storage.Path

/-!
# Files

A value that stands for the files and directories a program sees, and the few operations that
the command line needs: reading a file, creating a directory with those above it, and writing a
file.
-/

set_option autoImplicit false

namespace IdlBridge.Storage

/-- A file, or a directory with its entries by name. -/
inductive Entry
  | file (content : ByteArray)
  | directory (entries : List (String × Entry))

namespace Entry

/-- What stands at a place below an entry. -/
def find? : Entry → Location → Option Entry
  | entry, [] => some entry
  | .file _, _ :: _ => none
  | .directory entries, name :: location =>
    match entries.lookup name with
    | some entry => entry.find? location
    | none => none

/-- Puts a new entry at a place below another, instead of what was there. Directories that are
missing on the way are made, and a file on the way stays as it is. -/
def put : Entry → Location → (new : Entry) → Entry
  | _, [], new => new
  | .file content, _ :: _, _ => .file content
  | .directory entries, name :: location, new =>
    let entry := ((entries.lookup name).getD (.directory [])).put location new
    .directory ((name, entry) :: entries.filter fun old => old.1 != name)

mutual

/-- The files at and below an entry, with their places seen from it. -/
def files : Entry → List (Location × ByteArray)
  | .file content => [([], content)]
  | .directory entries => filesAmong entries

/-- The files at and below the entries of a directory, with their places seen from it. -/
def filesAmong : List (String × Entry) → List (Location × ByteArray)
  | [] => []
  | (name, entry) :: entries =>
    entry.files.map (fun found => (name :: found.1, found.2)) ++ filesAmong entries

end

end Entry

/-- All files and directories, and the place at which relative paths start. -/
structure Files where
  top : Entry
  start : Location

namespace Files

/-- What stands at a place. -/
def entry? (files : Files) (location : Location) : Option Entry :=
  files.top.find? location

/-- Puts an entry at a place, instead of what was there. -/
def put (files : Files) (location : Location) (entry : Entry) : Files :=
  { files with top := files.top.put location entry }

/-- Follows pieces of a path. Every piece starts in a directory; what the last one leads to need
not be there. -/
def follow (files : Files) (location : Location) : List String → Except FileError Location
  | [] => .ok location
  | piece :: pieces =>
    match files.entry? location with
    | none => .error .notFound
    | some (.file _) => .error .notDirectory
    | some (.directory _) =>
      if nameLimit < piece.utf8ByteSize then .error .nameTooLong
      else follow files (location.enter piece) pieces

/-- The place at which a path starts. -/
def origin (files : Files) (path : String) : Location :=
  if isAbsolute path then [] else files.start

/-- The place to which a path leads. -/
def locate (files : Files) (path : String) : Except FileError Location := do
  checkPath path
  files.follow (files.origin path) (pieces path)

/-- Reads a file. -/
def read (files : Files) (path : String) : Except FileError ByteArray := do
  let location ← files.locate path
  match files.entry? location with
  | none => .error .notFound
  | some (.directory _) => .error .isDirectory
  | some (.file content) => .ok content

/-- Writes a file in place of any other there. -/
def write (files : Files) (path text : String) : Except FileError Files := do
  let location ← files.locate path
  match files.entry? location with
  | some (.directory _) => .error .isDirectory
  | _ => .ok (files.put location (.file text.toUTF8))

/-! ## Directories -/

/-- Creates the directory to which the pieces lead, unless it is there. -/
def ensureDirectory (files : Files) (location : Location) (pieces : List String) :
    Except FileError Files := do
  let place ← files.follow location pieces
  match files.entry? place with
  | some (.directory _) => .ok files
  | some (.file _) => .error .alreadyExists
  | none => .ok (files.put place (.directory []))

/-- Creates the directories that are missing along the pieces, one after the other. -/
def createAlong (files : Files) (location : Location) : List String → Except FileError Files
  | [] => .ok files
  | piece :: pieces => do
    let files ← files.ensureDirectory location [piece]
    files.createAlong (location.enter piece) pieces

/-- Creates a directory and all those on the way to it. A dot at the end of the path is no
directory to be created. -/
def createDirectories (files : Files) (path : String) : Except FileError Files := do
  checkPath path
  let body := bodyPieces path
  let origin := files.origin path
  match files.ensureDirectory origin body with
  | .error .notFound =>
    let files ← files.createAlong origin (body.filter (!isIdle ·)).dropLast
    files.ensureDirectory origin body
  | outcome => outcome

/-! ## Given files -/

/-- Places a file and the directories above it. -/
def place (files : Files) (location : Location) (content : ByteArray) : Files :=
  files.put location (.file content)

/-- A start directory with nothing else. -/
def empty (start : Location) : Files :=
  ⟨(Entry.directory []).put start (.directory []), start⟩

/-- The files below a place with their places relative to it. -/
def below (files : Files) (location : Location) : List (Location × ByteArray) :=
  match files.entry? location with
  | some entry => entry.files
  | none => []

end Files

/-! ## Changes -/

/-- A change of the files. -/
inductive Change
  | createDirectories (path : String)
  | write (path text : String)
  deriving DecidableEq, Repr, Inhabited

/-- Makes a change. -/
def Files.apply (files : Files) : Change → Except FileError Files
  | .createDirectories path => files.createDirectories path
  | .write path text => files.write path text

/-- Makes changes in order until one fails. Those before it stay. -/
def Files.applyAll (files : Files) : List Change → Files × Except FileError Unit
  | [] => (files, .ok ())
  | change :: changes =>
    match files.apply change with
    | .ok files => files.applyAll changes
    | .error error => (files, .error error)

end IdlBridge.Storage
