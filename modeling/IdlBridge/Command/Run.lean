import IdlBridge.Adapter.Pass
import IdlBridge.Command.Options
import IdlBridge.Storage.Files

/-!
# Runs

A run takes the trees of its options in order: it loads a tree, generates what is wanted and
writes it. The first failure ends the run and is reported with its causes; what was written for
earlier trees stays. A text that is too large to be generated is not reported: the run breaks off.

The steps of a run do not depend on how files are kept. `runTrees` is given the two operations
that it needs, reading a file and making a change, and `Options.runOn` uses it on a value of
type `Storage.Files`.
-/

set_option autoImplicit false

namespace IdlBridge

open IdlBridge.Adapter

/-- Loads the tree in a file, of which the content or the error of reading it is given. -/
def DeclTree.ofFile (content : Except FileError ByteArray) : Except LoadError DeclTree :=
  match content with
  | .error error => .error (.file error)
  | .ok bytes =>
    match String.fromUTF8? bytes with
    | some document => ofDocument document
    | none => .error (.file .invalidText)

/-- Generates both files for the tree in a file. -/
def Adapter.produceFromFile (settings : Settings) (content : Except FileError ByteArray) :
    Except Failure Pair :=
  match DeclTree.ofFile content with
  | .ok tree => producePair settings tree
  | .error (.file error) => .error (.reported (.file error))
  | .error error => .error (.reported (.load error))

/-- What has to be done to write both files into a directory. The source is written first. -/
def Adapter.Pair.changes (pair : Pair) (directory : String) : List Storage.Change :=
  [.createDirectories directory,
   .write (Storage.join directory pair.sourceName) pair.source,
   .write (Storage.join directory pair.headerName) pair.header]

namespace Command

/-! ## Reports -/

/-- A failure and the causes behind it. -/
structure Report where
  headline : String
  causes : List String
  deriving DecidableEq, Repr, Inhabited

namespace Report

/-- A text with its further lines set in. -/
def setIn (margin text : String) : String :=
  Text.join ("\n" ++ margin) ((Text.splitChar '\n' text.toList).map String.ofList)

/-- A cause among several, with its number. -/
def numbered (number : Nat) (cause : String) : String :=
  "    " ++ toString number ++ ": " ++ setIn "       " cause

/-- The lines below the headline. One cause stands alone and several are numbered. -/
def causeLines : List String → List String
  | [cause] => ["    " ++ setIn "    " cause]
  | causes => causes.mapIdx numbered

/-- The text of a report. -/
def text (report : Report) : String :=
  let headline := "Error: " ++ report.headline ++ "\n"
  if report.causes.isEmpty then headline
  else headline ++ "\nCaused by:\n" ++ Text.join "\n" (causeLines report.causes) ++ "\n"

/-- The report of a list of causes, of which the first is the failure itself. -/
def ofCauses : List String → Report
  | [] => ⟨"", []⟩
  | headline :: causes => ⟨headline, causes⟩

end Report

/-- Why a run ends before its time. -/
inductive Halt
  | reported (report : Report)
  /-- A text would have to be larger than a text can be. -/
  | overflow
  deriving DecidableEq, Repr, Inhabited

/-- What becomes of a run in which generating fails. -/
def Halt.ofFailure : Failure → Halt
  | .reported error => .reported (.ofCauses error.causes)
  | .overflow => .overflow

/-! ## Trees -/

/-- A change of the files, and the report in case it fails. -/
structure Task where
  change : Storage.Change
  report : FileError → Report

/-- What has to be done to write one of the two files. -/
def singleTasks (options : Options) (tree : DeclTree) (mode : Mode) :
    Except Halt (List Task) :=
  match produce options.settings tree mode with
  | .error failure => .error (.ofFailure failure)
  | .ok text =>
    let target := Storage.join options.output (fileName options.settings tree mode)
    .ok [⟨.createDirectories options.output, fun error => ⟨error.message, []⟩⟩,
      ⟨.write target text, fun error => ⟨"failed to write " ++ target, [error.message]⟩⟩]

/-- What has to be done to write both files. -/
def pairTasks (options : Options) (tree : DeclTree) : Except Halt (List Task) :=
  match producePair options.settings tree with
  | .error failure => .error (.ofFailure failure)
  | .ok pair =>
    .ok ((pair.changes options.output).map fun change =>
      ⟨change, fun error =>
        ⟨"failed to write into " ++ options.output, (Adapter.Error.file error).causes⟩⟩)

/-- What has to be done for a tree that has been loaded. -/
def treeTasks (options : Options) (tree : DeclTree) : Except Halt (List Task) :=
  if options.check then .ok []
  else
    match options.emission with
    | .both => pairTasks options tree
    | .header => singleTasks options tree .declaration
    | .source => singleTasks options tree .definition

/-- What has to be done for the tree in a file. -/
def fileTasks (options : Options) (path : String) (content : Except FileError ByteArray) :
    Except Halt (List Task) :=
  match DeclTree.ofFile content with
  | .error error => .error (.reported ⟨"failed to load " ++ path, error.causes⟩)
  | .ok tree => treeTasks options tree

/-! ## Runs -/

section

variable {m : Type → Type} [Monad m]

/-- Does tasks in order until one fails. -/
def runTasks (apply : Storage.Change → m (Except FileError Unit)) :
    List Task → m (Option Halt)
  | [] => pure none
  | task :: tasks => do
    match ← apply task.change with
    | .ok () => runTasks apply tasks
    | .error error => pure (some (.reported (task.report error)))

/-- Takes trees in order until one fails. -/
def runTrees (read : String → m (Except FileError ByteArray))
    (apply : Storage.Change → m (Except FileError Unit)) (options : Options) :
    List String → m (Option Halt)
  | [] => pure none
  | path :: paths => do
    match fileTasks options path (← read path) with
    | .error halt => pure (some halt)
    | .ok tasks =>
      match ← runTasks apply tasks with
      | none => runTrees read apply options paths
      | some halt => pure (some halt)

end

/-- Reads a file of the current files. -/
def readFrom (path : String) : StateM Storage.Files (Except FileError ByteArray) := do
  return (← get).read path

/-- Makes a change to the current files. -/
def applyTo (change : Storage.Change) : StateM Storage.Files (Except FileError Unit) := do
  match (← get).apply change with
  | .ok files =>
    set files
    return .ok ()
  | .error error => return .error error

/-- Runs on given files. -/
def Options.runOn (options : Options) (files : Storage.Files) :
    Option Halt × Storage.Files :=
  (runTrees readFrom applyTo options options.trees).run files

/-! ## Outcomes -/

/-- The name and version of the program. -/
def versionText : String := "ccigen 0.1.0\n"

/-- What the program says about its use. -/
def helpText : String :=
  "Generate C++ adapter wrappers from an IDL tree\n\n" ++
  "Usage: ccigen [OPTIONS] <TREES>...\n\n" ++
  "Arguments:\n" ++
  "  <TREES>...  Serialized interface-definition tree(s)\n\n" ++
  "Options:\n" ++
  "  -o, --output <OUTPUT>                  Output directory [default: .]\n" ++
  "      --namespace <NAMESPACE>            Outer namespace of the generated wrappers " ++
    "[default: CCI]\n" ++
  "      --root-interface <ROOT_INTERFACE>  Root capability interface " ++
    "[default: XPCOM::IObject]\n" ++
  "      --prefix <PREFIX>                  Prefix of generated file names [default: CCI]\n" ++
  "      --indent <INDENT>                  Spaces per indentation level [default: 2]\n" ++
  "      --emit <EMIT>                      Files to write [default: both] " ++
    "[possible values: both, header, source]\n" ++
  "      --check                            Load the trees without generating anything\n" ++
  "  -v, --verbose...                       Increase log verbosity (-v debug, -vv trace)\n" ++
  "  -h, --help                             Print help\n" ++
  "  -V, --version                          Print version\n"

/-- What a run leaves for its caller. -/
structure Outcome where
  exitCode : UInt32
  output : String
  report : String
  deriving DecidableEq, Repr, Inhabited

namespace Outcome

/-- The outcome when the arguments ask for no run. -/
def ofStop : Stop → Outcome
  | .usage error => ⟨2, "", "error: " ++ error.message ++ "\n"⟩
  | .help => ⟨0, helpText, ""⟩
  | .version => ⟨0, versionText, ""⟩

/-- The outcome of a run. One that breaks off says nothing about it. -/
def ofRun : Option Halt → Outcome
  | some (.reported report) => ⟨1, "", report.text⟩
  | some .overflow => ⟨101, "", ""⟩
  | none => ⟨0, "", ""⟩

end Outcome

/-- Runs the program with the given arguments on given files. -/
def execute (arguments : List String) (files : Storage.Files) : Outcome × Storage.Files :=
  match Options.ofArguments arguments with
  | .error stop => (.ofStop stop, files)
  | .ok options =>
    let (halt?, files) := options.runOn files
    (.ofRun halt?, files)

end Command

end IdlBridge
