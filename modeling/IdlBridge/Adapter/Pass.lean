import IdlBridge.Adapter.Classes
import IdlBridge.DeclTree.Visits
import IdlBridge.Document.Resolution

/-!
# Passes

A pass goes through a tree once and writes one of the two files. Both files start with a
preamble. In the header, the blocks of the scopes around an interface are opened before its
classes, and every other file that is met is included once, outside all blocks. In the source
other files play no part.
-/

set_option autoImplicit false

namespace IdlBridge.Adapter

/-- The state of a pass. -/
structure Pass where
  sheet : Sheet
  scopes : Scopes
  /-- The files that have been included, the latest first. -/
  included : List String
  deriving Repr, Inhabited

namespace Pass

/-- A pass that has written nothing. -/
def start (settings : Settings) : Pass :=
  ⟨.empty settings.indentWidth, .start settings.outer, []⟩

/-- Writes a layout. -/
def write (pass : Pass) (layout : Layout) : Pass :=
  { pass with sheet := pass.sheet.writeAll layout }

/-- Takes over scopes and writes what their change asks for. -/
def writeScoped (pass : Pass) (change : Scopes × Layout) : Pass :=
  { pass with scopes := change.1 }.write change.2

/-- Notes a file, and tells whether it is met for the first time. -/
def noteFile (pass : Pass) (file : String) : Pass × Bool :=
  if pass.included.contains file then (pass, false)
  else ({ pass with included := file :: pass.included }, true)

end Pass

/-- The comment at the top of a generated file. -/
def banner (filename : String) : Layout :=
  [.line ("/* This file is automatically generated from " ++ filename ++
    "\n * DO NOT EDIT DIRECTLY OR CHANGES WILL BE LOST!\n */")]

/-- The directive that includes a header by its name in quotes. -/
def includeLine (file : String) : Piece :=
  .line ("#include \"" ++ file ++ "\"")

/-- The beginning of the source. -/
def sourcePreamble (settings : Settings) (fileBase guard : String) : Layout :=
  [.blank,
   .line "#include <omniORB4/CORBA.h>",
   includeLine "cda_compiler_support.h",
   .line "#include <strings.h>",
   .line "#include <wchar.h>",
   .line "#include <exception>",
   includeLine "corba_support/WrapperRepository.hxx",
   .blank,
   .line ("#ifndef MODULE_CONTAINS_" ++ guard),
   .line ("#define MODULE_CONTAINS_" ++ guard),
   .line "#endif",
   includeLine (headerFile settings.filePrefix fileBase),
   includeLine ("SCI" ++ fileBase ++ ".hxx")]

/-- The macro that keeps a header from being read twice. -/
def headerGuard (settings : Settings) (guard : String) : String :=
  "_" ++ settings.filePrefix ++ guard ++ "_hxx"

/-- The beginning of the header. -/
def headerPreamble (settings : Settings) (fileBase guard : String) : Layout :=
  [includeLine "cda_compiler_support.h",
   .line ("#ifndef " ++ headerGuard settings guard),
   .line ("#define " ++ headerGuard settings guard),
   .blank,
   includeLine ("Iface" ++ fileBase ++ ".hxx"),
   includeLine (fileBase ++ ".hh"),
   .line ("#ifdef MODULE_CONTAINS_" ++ guard),
   .line ("#define " ++ publicPre guard ++ " CDA_EXPORT_PRE"),
   .line ("#define " ++ publicPost guard ++ " CDA_EXPORT_POST"),
   .line "#else",
   .line ("#define " ++ publicPre guard ++ " CDA_IMPORT_PRE"),
   .line ("#define " ++ publicPost guard ++ " CDA_IMPORT_POST"),
   .line "#endif"]

/-- The end of the header. -/
def headerEpilogue (settings : Settings) (guard : String) : Layout :=
  [.line ("#undef " ++ publicPre guard),
   .line ("#undef " ++ publicPost guard),
   .line ("#endif // " ++ headerGuard settings guard)]

/-- The beginning of a file. -/
def preamble (settings : Settings) (tree : DeclTree) (mode : Mode) : Layout :=
  let guard := guardOf tree.fileBase
  banner tree.filename ++
    match mode with
    | .declaration => headerPreamble settings tree.fileBase guard
    | .definition => sourcePreamble settings tree.fileBase guard

namespace Pass

/-- Includes the header of another file unless that has been done. -/
def includeFile (pass : Pass) (settings : Settings) (file : String) : Pass :=
  match pass.noteFile file with
  | (pass, true) =>
    (pass.writeScoped pass.scopes.escape).write
      [includeLine (includeFor settings.filePrefix file)]
  | (pass, false) => pass

/-- Writes the classes of an interface. -/
def writeClasses (pass : Pass) (settings : Settings) (tree : DeclTree) (guard : String)
    (mode : Mode) (id : DeclId) : Except Error Pass := do
  let change ← classesLayout settings tree guard mode pass.scopes id
  .ok (pass.writeScoped change)

/-- Handles one event of going through the tree. -/
def step (settings : Settings) (tree : DeclTree) (mode : Mode) (pass : Pass) :
    Visit → Except Error Pass
  | .enter name => .ok { pass with scopes := pass.scopes.enter name }
  | .leave => .ok (pass.writeScoped pass.scopes.leave)
  | .interface id =>
    let opened := match mode with
      | .declaration => pass.writeScoped pass.scopes.materialize
      | .definition => pass
    opened.writeClasses settings tree (guardOf tree.fileBase) mode id
  | .external file =>
    match mode with
    | .declaration => .ok (pass.includeFile settings file)
    | .definition => .ok pass

/-- Goes through the tree and writes one of the two files. -/
def run (settings : Settings) (tree : DeclTree) (mode : Mode) : Except Error Pass := do
  let pass := (start settings).write (preamble settings tree mode)
  let pass ← tree.visits.foldlM (step settings tree mode) pass
  match mode with
  | .declaration =>
    .ok ((pass.writeScoped pass.scopes.escape).write
      (headerEpilogue settings (guardOf tree.fileBase)))
  | .definition => .ok pass

end Pass

/-- What a pass writes, whether or not a text can be as large as it was to be. -/
def generate (settings : Settings) (tree : DeclTree) (mode : Mode) : Except Error String :=
  (Pass.run settings tree mode).map (·.sheet.text)

/-- The text of one of the two files, unless it was to be larger than a text can be. -/
def produce (settings : Settings) (tree : DeclTree) (mode : Mode) : Except Failure String :=
  match Pass.run settings tree mode with
  | .error error => .error (.reported error)
  | .ok pass =>
    match pass.sheet.result? with
    | some text => .ok text
    | none => .error .overflow

/-- The two files that are generated for a tree. -/
structure Pair where
  header : String
  source : String
  headerName : String
  sourceName : String
  deriving DecidableEq, Repr, Inhabited

/-- The name of one of the two files. -/
def fileName (settings : Settings) (tree : DeclTree) : Mode → String
  | .declaration => headerFile settings.filePrefix tree.fileBase
  | .definition => sourceFile settings.filePrefix tree.fileBase

/-- Writes both files, the source first. -/
def producePair (settings : Settings) (tree : DeclTree) : Except Failure Pair := do
  let source ← produce settings tree .definition
  let header ← produce settings tree .declaration
  .ok ⟨header, source, fileName settings tree .declaration, fileName settings tree .definition⟩

/-- Writes both files for the tree that a document describes. -/
def produceFromDocument (settings : Settings) (document : String) : Except Failure Pair :=
  match DeclTree.ofDocument document with
  | .ok tree => producePair settings tree
  | .error cause => .error (.reported (.load cause))

end IdlBridge.Adapter
