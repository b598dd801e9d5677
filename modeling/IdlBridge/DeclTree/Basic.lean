import IdlBridge.Declaration

/-!
# Declaration trees

A tree holds the declarations of one main file together with those of the files it includes.
Declarations are numbered in the order in which they were declared. An index leads from scoped
names to the declarations that types and bases can refer to; its latest entry for a name
counts.
-/

set_option autoImplicit false

namespace IdlBridge

/-- The declarations reachable from one main file. -/
structure DeclTree where
  /-- The main file, as declarations name it. -/
  file : String
  /-- The main file, as the user gave it. -/
  filename : String
  /-- The declarations outside every module, in order. -/
  declarations : List DeclId
  decls : Array Decl
  index : List (ScopedName × DeclId)
  deriving Repr, Inhabited

namespace DeclTree

/-- A tree without declarations. -/
def empty (file : String) : DeclTree :=
  ⟨file, file, [], #[], []⟩

/-- The main file without directories and extension. -/
def fileBase (tree : DeclTree) : String :=
  Text.fileBase tree.file

/-- The number of declarations. -/
def size (tree : DeclTree) : Nat :=
  tree.decls.size

/-- The declaration with the given number. -/
def decl? (tree : DeclTree) (id : DeclId) : Option Decl :=
  tree.decls[id]?

/-- What the declaration with the given number declares. -/
def kind? (tree : DeclTree) (id : DeclId) : Option DeclKind :=
  (tree.decl? id).map (·.kind)

/-- The full name of a declaration. -/
def scopedName (tree : DeclTree) (id : DeclId) : ScopedName :=
  ((tree.decl? id).map (·.scopedName)).getD .root

/-- The parts of the interface with the given number. -/
def interface? (tree : DeclTree) (id : DeclId) : Option Interface :=
  (tree.decl? id).bind Decl.interface?

/-- The given number belongs to an interface. -/
def isInterface (tree : DeclTree) (id : DeclId) : Bool :=
  (tree.interface? id).isSome

/-- The declaration that a name refers to. -/
def find? (tree : DeclTree) (name : ScopedName) : Option DeclId :=
  tree.index.lookup name

/-- The declaration that the main file declares, as opposed to an included one. -/
def isLocal (tree : DeclTree) (id : DeclId) : Bool :=
  (tree.decl? id).any (·.file == tree.file)

/-- The numbers of all declarations. -/
def ids (tree : DeclTree) : List DeclId :=
  List.range tree.size

/-- Follows aliases and forward declarations for at most the given number of visits. -/
def follow (tree : DeclTree) : Nat → DeclId → Option DeclId
  | 0, _ => none
  | visits + 1, id =>
    match tree.kind? id with
    | some (.interface _) => some id
    | some (.forward (some next)) | some (.declarator (some next)) => tree.follow visits next
    | _ => none

/-- The interface that a declaration stands for. A chain that visits more declarations than
the tree holds runs in a loop and leads nowhere. -/
def resolve? (tree : DeclTree) (id : DeclId) : Option DeclId :=
  tree.follow (tree.size + 1) id

end DeclTree

end IdlBridge
