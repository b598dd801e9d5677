import IdlBridge.Command.Run

/-!
# The program

Runs the command line on the files of the machine.
-/

set_option autoImplicit false

namespace IdlBridge

/-- The machine means the error of a number. It gives the number with either sign. -/
def isCode (code number : UInt32) : Bool :=
  code == number || code == 0 - number

/-- The error behind an exception of the machine. -/
def FileError.ofException (exception : IO.Error) : FileError :=
  match exception with
  | .noFileOrDirectory .. => .notFound
  | .alreadyExists .. => .alreadyExists
  | .inappropriateType _ code _ =>
    if isCode code 20 then .notDirectory
    else if isCode code 21 then .isDirectory
    else .other (toString exception)
  | .invalidArgument _ code _ =>
    if isCode code 36 then .nameTooLong else .other (toString exception)
  | _ => .other (toString exception)

/-- Runs an action and returns its exception. -/
def catching {α : Type} (action : IO α) : IO (Except FileError α) := do
  try
    return .ok (← action)
  catch exception =>
    return .error (.ofException exception)

/-- Runs an action on a path that the machine can be given. -/
def onPath {α : Type} (path : String) (action : IO (Except FileError α)) :
    IO (Except FileError α) :=
  match Storage.checkPath path with
  | .ok () => action
  | .error error => return .error error

/-- Reads a file of the machine. -/
def readFile (path : String) : IO (Except FileError ByteArray) :=
  onPath path (catching (IO.FS.readBinFile path))

/-- Creates a directory of the machine, unless it is there. -/
def ensureDirectory (path : String) : IO (Except FileError Unit) := do
  match ← catching (IO.FS.createDir path) with
  | .ok () => return .ok ()
  | .error error =>
    match ← catching (do return ← (← IO.FS.realPath path).isDir) with
    | .ok true => return .ok ()
    | _ => return .error error

/-- Creates the directory at the end of a chain of names, given from the last to the first, after
those on the way to it. -/
def createChain (top : String) : List String → IO (Except FileError Unit)
  | [] => return .ok ()
  | name :: names => do
    let path := top ++ Text.join "/" (name :: names).reverse
    match ← ensureDirectory path with
    | .error .notFound =>
      match ← createChain top names with
      | .ok () => ensureDirectory path
      | .error error => return .error error
    | outcome => return outcome

/-- Creates a directory of the machine and all those on the way to it. -/
def createDirectories (path : String) : IO (Except FileError Unit) := do
  match ← ensureDirectory path with
  | .error .notFound =>
    let names := (Storage.bodyPieces path).filter (!Storage.isIdle ·)
    let top := if Storage.isAbsolute path then "/" else ""
    match ← createChain top names.reverse.tail with
    | .ok () => ensureDirectory path
    | .error error => return .error error
  | outcome => return outcome

/-- Makes a change to the files of the machine. -/
def applyChange : Storage.Change → IO (Except FileError Unit)
  | .createDirectories path => onPath path (createDirectories path)
  | .write path text => onPath path (catching (IO.FS.writeFile path text))

/-- Runs the program with the given arguments. -/
def runProgram (arguments : List String) : IO Command.Outcome := do
  match Command.Options.ofArguments arguments with
  | .error stop => return .ofStop stop
  | .ok options =>
    return .ofRun (← Command.runTrees readFile applyChange options options.trees)

end IdlBridge

/-- Prints what a run says and ends with its exit code. -/
def main (arguments : List String) : IO UInt32 := do
  let outcome ← IdlBridge.runProgram arguments
  IO.print outcome.output
  IO.eprint outcome.report
  return outcome.exitCode
