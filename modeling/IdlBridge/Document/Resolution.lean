import IdlBridge.Document.Outline

/-!
# Resolution

The second half of loading a document: with all names known, type expressions become types and
base references become declarations.

A typedef may stand for another typedef. Following such a chain, each typedef can be used
once; coming back to one that is already in use is a cycle. Types found on the way are kept in
a table, so that every typedef is worked out once.
-/

set_option autoImplicit false

namespace IdlBridge

/-- The element expression of `sequence<...>`. -/
def sequenceElement? (expression : String) : Option String := do
  let rest ← Text.cutFront? "sequence".toList (Text.trimChars expression.toList)
  let rest ← Text.cutFront? ['<'] (Text.trimFront rest)
  let inner ← Text.cutBack? ['>'] rest
  some (String.ofList (Text.trimChars inner))

/-- What a type expression says by itself: a type, or the name of a typedef. -/
inductive TypeReference
  | known (type : IdlType)
  | aliased (declarator : DeclId)
  deriving DecidableEq, Repr, Inhabited

/-- The types of a callable. -/
inductive CallableTypes
  | operation (signature : Operation)
  | attributes (type : IdlType)
  deriving DecidableEq, Repr, Inhabited

/-- The types of the typedefs that have been worked out. -/
abbrev AliasTable := List (DeclId × IdlType)

namespace DeclTree

/-- The first candidate for a reference that is declared, and its declaration. -/
def lookup? (tree : DeclTree) (scope : ScopedName) (reference : String) :
    Option (ScopedName × DeclId) :=
  (scope.candidates reference).findSome? fun name => (tree.find? name).map (name, ·)

/-- Reads a type expression inside `scope`. Errors name the declaration `context`. -/
def readType (tree : DeclTree) (scope : ScopedName) (context expression : String) :
    Except LoadError TypeReference :=
  match BasicType.ofText? expression with
  | some type => .ok (.known (.basic type))
  | none =>
    if (sequenceElement? expression).isSome then
      .error (.malformed (.anonymousSequence expression context))
    else
      match tree.lookup? scope expression with
      | none => .error (.unknownType expression context)
      | some (name, id) =>
        match tree.kind? id with
        | some (.interface _) | some (.forward _) => .ok (.known (.interface name))
        | some (.enum _) => .ok (.known (.enum name))
        | some (.declarator _) => .ok (.aliased id)
        | _ => .error (.unknownType expression context)

end DeclTree

namespace TypeAlias

/-- The expression that leads to the type: the element of a sequence, else the whole. -/
def target (entry : TypeAlias) : String :=
  (sequenceElement? entry.expression).getD entry.expression

/-- The type of the typedef, given the type of its target. -/
def wrap (entry : TypeAlias) (type : IdlType) : Except LoadError IdlType :=
  if (sequenceElement? entry.expression).isSome then
    if type.isSequence then .error (.malformed (.nestedSequence entry.name))
    else .ok (.sequence entry.name type)
  else .ok type

/-- Enters the type of the typedef into the table, given the type of its target. -/
def record (entry : TypeAlias) (found : IdlType × AliasTable) :
    Except LoadError (IdlType × AliasTable) :=
  (entry.wrap found.1).map fun type => (type, (entry.declarator, type) :: found.2)

/-- The typedef that introduces a declarator. -/
def find? (free : List TypeAlias) (declarator : DeclId) : Option TypeAlias :=
  List.find? (fun entry => entry.declarator == declarator) free

/-- The typedefs without the first one that introduces the declarator. -/
def remove (free : List TypeAlias) (declarator : DeclId) : List TypeAlias :=
  free.eraseP fun entry => entry.declarator == declarator

theorem length_remove_lt {free : List TypeAlias} {declarator : DeclId} {entry : TypeAlias}
    (h : find? free declarator = some entry) :
    (remove free declarator).length < free.length := by
  have found : entry ∈ free := List.mem_of_find?_eq_some h
  have shorter := List.length_eraseP_of_mem found (List.find?_some h)
  have := List.length_pos_of_mem found
  unfold remove
  omega

end TypeAlias

set_option linter.unusedVariables false in
/-- The type of a typedef, using only the typedefs in `free` and those already in the table.
What the target of a typedef says by itself is given by `read`, the name of a declarator by
`name`. -/
def aliasType (read : TypeAlias → Except LoadError TypeReference) (name : DeclId → ScopedName)
    (free : List TypeAlias) (table : AliasTable) (declarator : DeclId) :
    Except LoadError (IdlType × AliasTable) :=
  match table.lookup declarator with
  | some type => .ok (type, table)
  | none =>
    match h : TypeAlias.find? free declarator with
    | none => .error (.aliasCycle (name declarator))
    | some entry =>
      match read entry with
      | .error error => .error error
      | .ok (.known type) => entry.record (type, table)
      | .ok (.aliased next) =>
        (aliasType read name (TypeAlias.remove free declarator) table next).bind entry.record
termination_by free.length
decreasing_by exact TypeAlias.length_remove_lt h

namespace Outline

/-- What the target of a typedef says by itself. -/
def readTarget (outline : Outline) (entry : TypeAlias) : Except LoadError TypeReference :=
  outline.draft.tree.readType entry.scope entry.name.text entry.target

/-- The type of a typedef of the outline. -/
def typeOfAlias (outline : Outline) (table : AliasTable) (declarator : DeclId) :
    Except LoadError (IdlType × AliasTable) :=
  aliasType outline.readTarget outline.draft.tree.scopedName outline.aliases table declarator

/-- Works out the type of every typedef, in document order. -/
def aliasTable (outline : Outline) : Except LoadError AliasTable :=
  outline.aliases.foldlM
    (fun table entry => (outline.typeOfAlias table entry.declarator).map (·.2)) []

/-- The type of an expression. -/
def typeOf (outline : Outline) (table : AliasTable) (scope : ScopedName)
    (context expression : String) : Except LoadError IdlType :=
  match outline.draft.tree.readType scope context expression with
  | .error error => .error error
  | .ok (.known type) => .ok type
  | .ok (.aliased declarator) => (outline.typeOfAlias table declarator).map (·.1)

/-- The types of a callable. The result of an operation is worked out before its
parameters. -/
def callableTypes (outline : Outline) (table : AliasTable) (callable : OpenCallable) :
    Except LoadError CallableTypes :=
  let typeOf := outline.typeOf table callable.scope
    (outline.draft.tree.scopedName callable.id).text
  match callable.text with
  | .operation returns params => do
    let returns ← typeOf returns
    let params ← params.mapM fun param => do
      let type ← typeOf param.type
      .ok (Parameter.mk param.name type param.direction)
    .ok (.operation ⟨returns, params⟩)
  | .attributes type => do
    let type ← typeOf type
    .ok (.attributes type)

/-- The declaration that a base refers to. -/
def baseOf (outline : Outline) (base : OpenBase) : Except LoadError DeclId :=
  match outline.draft.tree.lookup? base.scope base.reference with
  | some (_, id) => .ok id
  | none =>
    .error (.unknownBase base.reference (outline.draft.tree.scopedName base.interface).text)

end Outline

namespace Draft

/-- Gives a typedef its type. A name for an object type also points at its declaration. -/
def setAliasType (draft : Draft) (declarator : DeclId) (type : IdlType) : Draft :=
  match draft.aliasOf type with
  | some target => (draft.setAlias declarator target).setAliasedType declarator type
  | none => draft.setAliasedType declarator type

/-- Gives a callable its types. -/
def setTypes (draft : Draft) (id : DeclId) : CallableTypes → Draft
  | .operation signature => draft.setOperation id signature
  | .attributes type => draft.setAttributeType id type

end Draft

namespace Outline

/-- Resolves all references: typedefs first, then callables, then bases. -/
def resolve (outline : Outline) : Except LoadError DeclTree := do
  let table ← outline.aliasTable
  let types ← outline.callables.mapM (outline.callableTypes table)
  let bases ← outline.bases.mapM outline.baseOf
  let draft := table.foldl (fun draft entry => draft.setAliasType entry.1 entry.2) outline.draft
  let draft := (outline.callables.zip types).foldl
    (fun draft entry => draft.setTypes entry.1.id entry.2) draft
  let draft := (outline.bases.zip bases).foldl
    (fun draft entry => draft.addBase entry.1.interface entry.2) draft
  .ok draft.tree

end Outline

/-- Loads the declaration tree that a document describes. -/
def DeclTree.ofDocument (document : String) : Except LoadError DeclTree := do
  let root ← Markup.Element.ofDocument document
  let outline ← Outline.ofRoot root
  outline.resolve

end IdlBridge
