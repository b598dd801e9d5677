import IdlBridge.IdlType
import IdlBridge.Pragma

/-!
# Declarations

The declarations of an interface definition refer to each other by their number in the tree
that holds them. The members of modules and interfaces, the bases of an interface, the target
of a forward declaration and the alias of a typedef are all such numbers, so the graph of
bases may have diamonds, and aliases may even form loops.
-/

set_option autoImplicit false

namespace IdlBridge

/-- The number of a declaration, counted in the order of declaration. -/
abbrev DeclId := Nat

/-- The way in which a parameter passes its value. -/
inductive Direction
  | input
  | output
  | inout
  deriving DecidableEq, Repr, Inhabited

namespace Direction

/-- The keyword of a direction. -/
def spelling : Direction → String
  | input => "in"
  | output => "out"
  | inout => "inout"

/-- Reads the keyword of a direction. -/
def ofText? : String → Option Direction
  | "in" => some input
  | "out" => some output
  | "inout" => some inout
  | _ => none

/-- The caller provides a value. -/
def isIn : Direction → Bool
  | input | inout => true
  | output => false

/-- The caller receives a value. -/
def isOut : Direction → Bool
  | output | inout => true
  | input => false

end Direction

/-- A parameter of an operation. -/
structure Parameter where
  name : String
  type : IdlType
  direction : Direction
  deriving DecidableEq, Repr, Inhabited

/-- The result and the parameters of an operation. -/
structure Operation where
  returns : IdlType
  params : List Parameter
  deriving DecidableEq, Repr, Inhabited

/-- One or more attributes that are declared together and share a type. -/
structure AttributeGroup where
  type : IdlType
  readonly : Bool
  names : List String
  deriving DecidableEq, Repr, Inhabited

/-- The parts of an interface. Bases may be aliases or forward declarations. -/
structure Interface where
  bases : List DeclId
  callables : List DeclId
  contents : List DeclId
  pragmas : List Pragma
  deriving DecidableEq, Repr, Inhabited

namespace Interface

/-- An interface without any part. -/
def empty : Interface := ⟨[], [], [], []⟩

/-- The interface carries the pragma `terminal`. -/
def isTerminal (interface : Interface) : Bool :=
  interface.pragmas.contains .terminal

/-- Some pragma makes the classes visible outside their module. -/
def exports (interface : Interface) : Bool :=
  interface.pragmas.any Pragma.exports

/-- Some pragma declares inheritance from `base` ambiguous. -/
def marksAmbiguous (interface : Interface) (base : ScopedName) : Bool :=
  interface.pragmas.any (Pragma.marksAmbiguous base)

end Interface

/-- What a declaration declares. -/
inductive DeclKind
  | module (members : List DeclId)
  | interface (parts : Interface)
  /-- A forward declaration and the interface it announces, once that is known. -/
  | forward (target : Option DeclId)
  | typedef (aliased : IdlType) (declarators : List DeclId)
  /-- The name that a typedef introduces, and the declaration it stands for if it names one. -/
  | declarator (target : Option DeclId)
  | enum (enumerators : List String)
  | operation (signature : Operation)
  | attributes (group : AttributeGroup)
  deriving DecidableEq, Repr, Inhabited

namespace DeclKind

/-- Operations and attributes are the callables of an interface. -/
def isCallable : DeclKind → Bool
  | operation _ | attributes _ => true
  | _ => false

/-- Kinds whose names can be referred to by types and bases. -/
def isIndexed : DeclKind → Bool
  | interface _ | forward _ | declarator _ | enum _ => true
  | _ => false

/-- The kind of interfaces. -/
def isInterface : DeclKind → Bool
  | interface _ => true
  | _ => false

end DeclKind

/-- A declaration, its full name and the file that declares it. -/
structure Decl where
  name : String
  scopedName : ScopedName
  file : String
  kind : DeclKind
  deriving DecidableEq, Repr, Inhabited

namespace Decl

/-- The parts of the declaration if it is an interface. -/
def interface? (decl : Decl) : Option Interface :=
  match decl.kind with
  | .interface parts => some parts
  | _ => none

end Decl

end IdlBridge
