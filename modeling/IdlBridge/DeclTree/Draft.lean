import IdlBridge.DeclTree.Basic

/-!
# Drafts

A draft is a declaration tree under construction. Each addition appends one declaration, lists
it under its parent and enters its name into the index. Every declaration belongs to the
draft's current file, which starts as the main file and can be switched to describe included
declarations.

An interface takes over its name in the index, whatever held it before; the other kinds take a
name only if it is free. Forward declarations are linked to the interface they announce no
matter which of the two comes first.
-/

set_option autoImplicit false

namespace IdlBridge

/-- A declaration tree under construction. -/
structure Draft where
  tree : DeclTree
  /-- The file to which new declarations belong. -/
  currentFile : String
  deriving Repr, Inhabited

namespace DeclKind

/-- Lists a new member under its parent. Only modules and interfaces list members. -/
def listMember (member : DeclId) (callable : Bool) : DeclKind → DeclKind
  | module members => module (members ++ [member])
  | interface parts =>
    if callable then interface { parts with callables := parts.callables ++ [member] }
    else interface { parts with contents := parts.contents ++ [member] }
  | kind => kind

/-- Points a forward declaration without target at an interface. -/
def announce (target : DeclId) : DeclKind → DeclKind
  | forward none => forward (some target)
  | kind => kind

end DeclKind

namespace Draft

/-- A draft for the given main file. -/
def empty (file : String) : Draft :=
  ⟨.empty file, file⟩

/-- The number that the next declaration gets. -/
def nextId (draft : Draft) : DeclId :=
  draft.tree.size

/-- Replaces the main file's name as the user gave it. -/
def setFilename (draft : Draft) (filename : String) : Draft :=
  { draft with tree := { draft.tree with filename } }

/-- Switches the file to which new declarations belong. -/
def setFile (draft : Draft) (file : String) : Draft :=
  { draft with currentFile := file }

/-- Changes the declarations of the draft. -/
def mapDecls (draft : Draft) (change : Array Decl → Array Decl) : Draft :=
  { draft with tree := { draft.tree with decls := change draft.tree.decls } }

/-- Changes what one declaration declares. -/
def modifyKind (draft : Draft) (id : DeclId) (change : DeclKind → DeclKind) : Draft :=
  draft.mapDecls (·.modify id fun decl => { decl with kind := change decl.kind })

/-- The full name of a member of `parent`. -/
def memberName (draft : Draft) (parent : Option DeclId) (name : String) : ScopedName :=
  match parent with
  | some id => (draft.tree.scopedName id).child name
  | none => ⟨[name]⟩

/-- Appends a declaration without listing or indexing it. -/
def append (draft : Draft) (parent : Option DeclId) (name : String) (kind : DeclKind) : Draft :=
  draft.mapDecls (·.push ⟨name, draft.memberName parent name, draft.currentFile, kind⟩)

/-- Lists a declaration under its parent, or among the outermost declarations. -/
def listUnder (draft : Draft) (parent : Option DeclId) (member : DeclId) (callable : Bool) :
    Draft :=
  match parent with
  | some id => draft.modifyKind id (·.listMember member callable)
  | none =>
    { draft with
      tree := { draft.tree with declarations := draft.tree.declarations ++ [member] } }

/-- Enters a declaration into the index, if its kind can be referred to and its name is free
or taken over by an interface. -/
def enterName (draft : Draft) (id : DeclId) : Draft :=
  match draft.tree.decl? id with
  | none => draft
  | some decl =>
    if decl.kind.isIndexed &&
        (decl.kind.isInterface || (draft.tree.find? decl.scopedName).isNone) then
      { draft with tree := { draft.tree with index := (decl.scopedName, id) :: draft.tree.index } }
    else draft

/-- Appends a declaration, lists it under its parent and enters its name. -/
def add (draft : Draft) (parent : Option DeclId) (name : String) (kind : DeclKind) : Draft :=
  let id := draft.nextId
  ((draft.append parent name kind).listUnder parent id kind.isCallable).enterName id

/-- Adds a module. -/
def addModule (draft : Draft) (parent : Option DeclId) (name : String) : Draft :=
  draft.add parent name (.module [])

/-- Adds an interface and links the forward declarations that announced it. -/
def addInterface (draft : Draft) (parent : Option DeclId) (name : String) : Draft :=
  let id := draft.nextId
  let own := draft.memberName parent name
  (draft.add parent name (.interface .empty)).mapDecls (·.map fun decl =>
    if decl.scopedName = own then { decl with kind := decl.kind.announce id } else decl)

/-- Adds a forward declaration, linked to the interface of its name if there is one. -/
def addForward (draft : Draft) (parent : Option DeclId) (name : String) : Draft :=
  let target := (draft.tree.find? (draft.memberName parent name)).filter draft.tree.isInterface
  draft.add parent name (.forward target)

/-- The declaration that a type stands for, if it is an object type. -/
def aliasOf (draft : Draft) : IdlType → Option DeclId
  | .interface name => draft.tree.find? name
  | _ => none

/-- The number of the declarator that the next typedef introduces. -/
def nextDeclarator (draft : Draft) : DeclId :=
  draft.nextId + 1

/-- Adds a typedef followed by its declarator. The typedef is listed, the declarator carries
the name. -/
def addTypedef (draft : Draft) (parent : Option DeclId) (name : String) (aliased : IdlType) :
    Draft :=
  let declarator := draft.nextDeclarator
  ((draft.add parent name (.typedef aliased [declarator])).append parent name
    (.declarator (draft.aliasOf aliased))).enterName declarator

/-- Adds an enumeration. -/
def addEnum (draft : Draft) (parent : Option DeclId) (name : String)
    (enumerators : List String) : Draft :=
  draft.add parent name (.enum enumerators)

/-- Adds an operation to an interface. -/
def addOperation (draft : Draft) (parent : Option DeclId) (name : String)
    (signature : Operation) : Draft :=
  draft.add parent name (.operation signature)

/-- Adds a group of attributes to an interface. Its first name stands for the group. -/
def addAttributes (draft : Draft) (parent : Option DeclId) (group : AttributeGroup) : Draft :=
  draft.add parent (group.names.head?.getD "") (.attributes group)

/-- Points a declarator at the declaration it stands for. -/
def setAlias (draft : Draft) (declarator target : DeclId) : Draft :=
  draft.modifyKind declarator fun
    | .declarator _ => .declarator (some target)
    | kind => kind

/-- Replaces the aliased type of the first typedef that introduces the declarator. -/
def setAliasedType (draft : Draft) (declarator : DeclId) (type : IdlType) : Draft :=
  let introduces := fun (decl : Decl) =>
    match decl.kind with
    | .typedef _ declarators => declarators.contains declarator
    | _ => false
  match draft.tree.decls.findIdx? introduces with
  | none => draft
  | some id => draft.modifyKind id fun
    | .typedef _ declarators => .typedef type declarators
    | kind => kind

/-- Appends a base to an interface. -/
def addBase (draft : Draft) (interface base : DeclId) : Draft :=
  draft.modifyKind interface fun
    | .interface parts => .interface { parts with bases := parts.bases ++ [base] }
    | kind => kind

/-- Appends a pragma to an interface. -/
def addPragma (draft : Draft) (interface : DeclId) (pragma : Pragma) : Draft :=
  draft.modifyKind interface fun
    | .interface parts => .interface { parts with pragmas := parts.pragmas ++ [pragma] }
    | kind => kind

/-- Replaces the signature of an operation. -/
def setOperation (draft : Draft) (id : DeclId) (signature : Operation) : Draft :=
  draft.modifyKind id fun
    | .operation _ => .operation signature
    | kind => kind

/-- Replaces the type of a group of attributes. -/
def setAttributeType (draft : Draft) (id : DeclId) (type : IdlType) : Draft :=
  draft.modifyKind id fun
    | .attributes group => .attributes { group with type }
    | kind => kind

end Draft

end IdlBridge
