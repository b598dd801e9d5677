import IdlBridge.DeclTree.Draft
import IdlBridge.Markup.Element

/-!
# Outlines

The first half of loading a document: every element becomes its declarations, in document
order, while references to types and bases are kept as text together with the scope they are
read from. References can only be resolved when all names are known, because a declaration may
refer to one that follows it.
-/

set_option autoImplicit false

namespace IdlBridge

open Markup

/-- A typedef whose type is still an expression. -/
structure TypeAlias where
  declarator : DeclId
  /-- The full name that the typedef introduces. -/
  name : ScopedName
  expression : String
  /-- The scope in which the expression is read. -/
  scope : ScopedName
  deriving DecidableEq, Repr, Inhabited

/-- A parameter whose type is still an expression. -/
structure ParameterText where
  name : String
  direction : Direction
  type : String
  deriving DecidableEq, Repr, Inhabited

/-- The type expressions of a callable. -/
inductive CallableText
  | operation (returns : String) (params : List ParameterText)
  | attributes (type : String)
  deriving DecidableEq, Repr, Inhabited

/-- A callable whose types are still expressions. -/
structure OpenCallable where
  id : DeclId
  text : CallableText
  scope : ScopedName
  deriving DecidableEq, Repr, Inhabited

/-- A base that is still a reference. -/
structure OpenBase where
  interface : DeclId
  reference : String
  scope : ScopedName
  deriving DecidableEq, Repr, Inhabited

/-- The declarations of a document and the references among them, each in document order. -/
structure Outline where
  draft : Draft
  aliases : List TypeAlias
  callables : List OpenCallable
  bases : List OpenBase
  deriving Repr, Inhabited

namespace Outline

/-- The outline of a tree without declarations. -/
def empty (file : String) : Outline :=
  ⟨.empty file, [], [], []⟩

/-- The scope of the members of `parent`. -/
def scopeOf (outline : Outline) (parent : Option DeclId) : ScopedName :=
  match parent with
  | some id => outline.draft.tree.scopedName id
  | none => .root

/-- Changes the declarations of the outline. -/
def mapDraft (outline : Outline) (change : Draft → Draft) : Outline :=
  { outline with draft := change outline.draft }

/-- Declares a typedef. Its type is missed only after its name. -/
def addTypedef (outline : Outline) (parent : Option DeclId) (element : Element) :
    Except LoadError Outline := do
  let name ← element.required "name"
  let expression ← element.required "type"
  let entry : TypeAlias :=
    { declarator := outline.draft.nextDeclarator
      name := outline.draft.memberName parent name
      expression
      scope := outline.scopeOf parent }
  .ok { outline with
    draft := outline.draft.addTypedef parent name .void
    aliases := outline.aliases ++ [entry] }

/-- Reads an enumerator. -/
def readEnumerator (element : Element) : Except LoadError String :=
  if element.name = "enumerator" then element.required "name"
  else .error (.unknownElement element.name "enum")

/-- Declares an enumeration. Its enumerators are looked at before its own name. -/
def addEnum (outline : Outline) (parent : Option DeclId) (element : Element) :
    Except LoadError Outline := do
  let enumerators ← element.children.mapM readEnumerator
  let name ← element.required "name"
  .ok (outline.mapDraft (·.addEnum parent name enumerators))

/-- Reads a parameter: first its direction, then its name and type. -/
def readParameter (element : Element) : Except LoadError ParameterText := do
  if element.name ≠ "param" then .error (.unknownElement element.name "operation")
  let keyword ← element.required "direction"
  match Direction.ofText? keyword with
  | none => .error (.invalidAttribute "param" "direction" keyword)
  | some direction => do
    let name ← element.required "name"
    let type ← element.required "type"
    .ok ⟨name, direction, type⟩

/-- Declares an operation of an interface. Without a stated result it returns nothing. -/
def addOperation (outline : Outline) (interface : DeclId) (element : Element) :
    Except LoadError Outline := do
  let name ← element.required "name"
  let params ← element.children.mapM readParameter
  let returns := (element.attr? "returns").getD "void"
  let untyped : Operation :=
    ⟨.void, params.map fun param => ⟨param.name, .void, param.direction⟩⟩
  .ok { outline with
    draft := outline.draft.addOperation (some interface) name untyped
    callables := outline.callables ++
      [⟨outline.draft.nextId, .operation returns params, outline.scopeOf (some interface)⟩] }

/-- The text that lists the names of a group of attributes. -/
def attributeNames (element : Element) : Except LoadError String :=
  match element.attr? "names", element.attr? "name" with
  | some names, _ => .ok names
  | none, some name => .ok name
  | none, none => .error (.missingAttribute "attribute" "names")

/-- Declares a group of attributes of an interface. -/
def addAttributes (outline : Outline) (interface : DeclId) (element : Element) :
    Except LoadError Outline := do
  let listed ← attributeNames element
  let names := Text.words listed
  if names.isEmpty then .error (.invalidAttribute "attribute" "names" listed)
  let readonly ← element.flag "readonly"
  let type ← element.required "type"
  .ok { outline with
    draft := outline.draft.addAttributes (some interface) ⟨.void, readonly, names⟩
    callables := outline.callables ++
      [⟨outline.draft.nextId, .attributes type, outline.scopeOf (some interface)⟩] }

/-- Adds one part of an interface. Bases are read from the scope around the interface. -/
def addPart (interface : DeclId) (enclosing : ScopedName) (file : String) (outline : Outline)
    (element : Element) : Except LoadError Outline :=
  let outline := outline.mapDraft (·.setFile ((element.attr? "file").getD file))
  match element.name with
  | "pragma" => .ok (outline.mapDraft (·.addPragma interface (.ofText element.text)))
  | "inherits" => do
    let reference ← element.required "ref"
    .ok { outline with bases := outline.bases ++ [⟨interface, reference, enclosing⟩] }
  | "operation" => outline.addOperation interface element
  | "attribute" => outline.addAttributes interface element
  | "typedef" => outline.addTypedef (some interface) element
  | "enum" => outline.addEnum (some interface) element
  | other => .error (.unknownElement other "interface")

/-- Declares an interface and its parts. -/
def addInterface (outline : Outline) (parent : Option DeclId) (file : String)
    (element : Element) : Except LoadError Outline := do
  let name ← element.required "name"
  let interface := outline.draft.nextId
  let enclosing := outline.scopeOf parent
  element.children.foldlM (addPart interface enclosing file)
    (outline.mapDraft (·.addInterface parent name))

mutual

/-- Adds one definition inside `parent`. The definition belongs to the file it names, else to
`file`. -/
def addDefinition (context : String) (parent : Option DeclId) (file : String)
    (outline : Outline) : Element → Except LoadError Outline
  | ⟨tag, attrs, children, text⟩ =>
    let element : Element := ⟨tag, attrs, children, text⟩
    let file := (element.attr? "file").getD file
    let outline := outline.mapDraft (·.setFile file)
    match tag with
    | "module" => do
      let name ← element.required "name"
      addDefinitions tag (some outline.draft.nextId) file
        (outline.mapDraft (·.addModule parent name)) children
    | "interface" => outline.addInterface parent file element
    | "forward" => do
      let name ← element.required "name"
      .ok (outline.mapDraft (·.addForward parent name))
    | "typedef" => outline.addTypedef parent element
    | "enum" => outline.addEnum parent element
    | other => .error (.unknownElement other context)

/-- Adds definitions in order. -/
def addDefinitions (context : String) (parent : Option DeclId) (file : String)
    (outline : Outline) : List Element → Except LoadError Outline
  | [] => .ok outline
  | element :: elements => do
    let outline ← addDefinition context parent file outline element
    addDefinitions context parent file outline elements

end

/-- The outline of a document with the given root element. -/
def ofRoot (root : Element) : Except LoadError Outline := do
  if root.name ≠ "tree" then .error (.malformed (.unexpectedRoot root.name))
  let file ← root.required "file"
  let outline := (empty file).mapDraft (·.setFilename ((root.attr? "filename").getD file))
  addDefinitions root.name none file outline root.children

end Outline

end IdlBridge
