import IdlBridge.Adapter.Naming
import IdlBridge.Adapter.Settings
import IdlBridge.Adapter.Step
import IdlBridge.Declaration

/-!
# Methods

Every operation of an interface becomes one method of its adapter class, and every attribute a
getter and, unless it is read only, a setter. The header holds the method's signature, the
source the same signature with the class in front of the method's name, followed by the body.

A body converts the arguments, calls the remote operation under a guard, converts the results
and gives back what the remote variables hold. The root interface has three methods with bodies
of their own, which keep the adapter's reference count and ask for other interfaces.
-/

set_option autoImplicit false

namespace IdlBridge.Adapter

/-- The body of a generated method. -/
inductive Body
  /-- Lines that convert nothing. -/
  | fixed (inner : Layout)
  /-- Steps in front of the guard and steps under it, with the name of the caught exception
  and the comment on what is thrown instead. -/
  | guarded (before inside : List Step) (exception comment : String)
  deriving DecidableEq, Repr, Inhabited

/-- The handler that turns every remote exception into the one local exception. -/
def handler (exception comment : String) : Layout :=
  .line ("catch (CORBA::Exception& " ++ exception ++ ")") ::
    Layout.braces [.line ("throw std::exception(/*\"" ++ comment ++ "\"*/);")]

/-- The lines of a body and the number of loops in it. -/
def Body.layout (root : ScopedName) : Body → Except Error (Layout × Nat)
  | fixed inner => .ok (Layout.braces inner, 0)
  | guarded before inside exception comment => do
    let (first, loops) ← Step.layoutAll root 0 before
    let (rest, loops) ← Step.layoutAll root loops inside
    .ok (Layout.braces
      (first ++ .line "try" :: Layout.braces rest ++ handler exception comment), loops)

/-- A generated method. -/
structure Method where
  returns : String
  name : String
  params : String
  /-- The exception specification, with a space in front of it. -/
  throws : String
  body : Body
  deriving DecidableEq, Repr, Inhabited

namespace Method

/-- The signature, with a qualifier in front of the method's name. -/
def signature (method : Method) (qualifier : String) : String :=
  method.returns ++ " " ++ qualifier ++ method.name ++ "(" ++ method.params ++ ")" ++
    method.throws

/-- The method in the header. -/
def declaration (method : Method) : Layout :=
  [.line (method.signature "" ++ ";")]

/-- The method in the source, and the number of loops in its body. -/
def definition (method : Method) (root : ScopedName) (qualifier : String) :
    Except Error (Layout × Nat) := do
  let (body, loops) ← method.body.layout root
  .ok (.line (method.signature qualifier) :: body, loops)

/-- The method in one of the two files, given the number of loops written before it. In the source
every body starts to number its loops anew, so the number is not read there; the header has no
bodies and passes it on. -/
def layout (method : Method) (mode : Mode) (root : ScopedName) (qualifier : String)
    (loops : Nat) : Except Error (Layout × Nat) :=
  match mode with
  | .declaration => .ok (method.declaration, loops)
  | .definition => method.definition root qualifier

/-- Methods one after another. -/
def layoutAll (mode : Mode) (root : ScopedName) (qualifier : String) (loops : Nat) :
    List Method → Except Error (Layout × Nat)
  | [] => .ok ([], loops)
  | method :: methods => do
    let (first, loops) ← method.layout mode root qualifier loops
    let (rest, loops) ← layoutAll mode root qualifier loops methods
    .ok (first ++ rest, loops)

end Method

/-- Generated methods may throw the one local exception. -/
def throwsLocal : String := " throw(std::exception&)"

/-- A value that is passed back stands behind a pointer. -/
def behindPointer (name : String) : String :=
  "(*" ++ name ++ ")"

end IdlBridge.Adapter

/-! ## Parameters -/

namespace IdlBridge.Parameter

open Adapter

/-- The remote variable for a parameter. -/
def remoteName (param : Parameter) : String :=
  "_corba_" ++ param.name

/-- The parameter that passes the element count of a sequence. -/
def lengthName? (param : Parameter) : Option String :=
  if param.type.isSequence then some ("_length_" ++ param.name) else none

/-- The local value of a parameter. -/
def place (param : Parameter) : String :=
  if param.direction.isOut then behindPointer param.name else param.name

/-- The element count of a parameter's local value. -/
def length? (param : Parameter) : Option String :=
  param.lengthName?.map fun name =>
    if param.direction.isOut then behindPointer name else name

/-- The parameter in a signature. The element count of a sequence precedes it. -/
def text (param : Parameter) : String :=
  let count :=
    match param.lengthName? with
    | some name => "uint32_t" ++ (if param.direction.isOut then "*" else "") ++ " " ++ name ++ ", "
    | none => ""
  count ++ localType (if param.direction.isOut then .output else .input) param.type ++ " " ++
    param.name

/-- The steps in front of the call. -/
def before (param : Parameter) : List Step :=
  .declareRemote param.type param.remoteName ::
    if param.direction.isIn then
      [.toRemote param.type param.place param.remoteName param.length?]
    else []

/-- The steps behind the call. -/
def after (param : Parameter) : List Step :=
  (if param.direction.isOut then
    (if param.direction.isIn then [.freeLocal param.type param.place param.length?] else []) ++
      [.toLocal param.type param.remoteName param.place param.length? true]
   else []) ++
  if param.direction.isIn then [.releaseRemote param.type param.remoteName] else []

end IdlBridge.Parameter

namespace IdlBridge.Adapter

/-- The parameters of an operation in a signature. The element count of a result comes
last. -/
def parameterList (operation : Operation) : String :=
  Text.join ", " (operation.params.map Parameter.text ++
    if operation.returns.isSequence then ["uint32_t* _length__return"] else [])

/-! ## Bodies -/

/-- The call of the accessor that gives the remote object. -/
def downcastCall (active : ScopedName) : String :=
  downcastName active ++ "()"

/-- The steps that turn a remote result into the local result. -/
def returnSteps (type : IdlType) (remoteName localName length : String) : List Step :=
  [.declareLocal type localName,
   .toLocal type remoteName localName (if type.isSequence then some length else none) true,
   .releaseRemote type remoteName,
   .giveBack localName]

/-- The body of an operation's method. -/
def operationBody (active : ScopedName) (name : String) (operation : Operation) : Body :=
  let returns := !operation.returns.isVoid
  .guarded
    (operation.params.flatMap Parameter.before ++
      if returns then [.declareRemote operation.returns "_corba_return"] else [])
    (.call (if returns then some "_corba_return" else none) (downcastCall active) name
        (operation.params.map Parameter.remoteName) ::
      operation.params.flatMap Parameter.after ++
      if returns then
        returnSteps operation.returns "_corba_return" "_simple_return" "(*_length__return)"
      else [])
    "e" "A CORBA exception occurred."

/-- The body of an attribute's getter. -/
def getterBody (active : ScopedName) (name : String) (type : IdlType) : Body :=
  .guarded []
    ([.declareRemote type "_corba_value",
      .call (some "_corba_value") (downcastCall active) name []] ++
     returnSteps type "_corba_value" "_simple_value" "(*_length_attr)")
    "cce" "A CORBA error occurred"

/-- The body of an attribute's setter. -/
def setterBody (active : ScopedName) (name : String) (type : IdlType) : Body :=
  .guarded []
    [.declareRemote type "_corba_value",
     .toRemote type "attr" "_corba_value" (if type.isSequence then some "_length_attr" else none),
     .call none (downcastCall active) name ["_corba_value"],
     .releaseRemote type "_corba_value"]
    "cce" "A CORBA error occurred"

/-- The body that counts one more reference to the adapter. -/
def addRefBody : Body :=
  .fixed [.line "_refcount++;"]

/-- The body that counts one reference less and deletes the adapter with the last. An error of
the deletion is not passed on. -/
def releaseRefBody : Body :=
  .fixed
    ([.line "_refcount--;", .line "if (_refcount == 0)"] ++
     Layout.braces
      ([.line "try"] ++ Layout.braces [.line "delete this;"] ++
       [.line "catch (CORBA::Exception& e)", .line "\x7b", .line "\x7d"]))

/-- The body that asks the remote object for another interface and wraps the answer. The
intermediate reference is given back whether or not wrapping succeeds. -/
def queryInterfaceBody (active : ScopedName) (operation : Operation) : Body :=
  let id := match operation.params with
    | param :: _ => param.name
    | [] => "id"
  .fixed
    ([.line ("::" ++ active.text ++ "_var cobj = " ++ downcastCall active ++
        "->query_interface(" ++ id ++ ");"),
      .line "if (CORBA::is_nil(cobj))"] ++
     Layout.indented [.line "return NULL;"] ++
     [.line ("void* sobj = gWrapperRepository().NewCCI(" ++ id ++ ", cobj, _getPOA());"),
      .line "cobj->release_ref();",
      .line "return sobj;"])

/-! ## Methods of callables -/

/-- The operations of the root interface that manage the adapter itself. -/
inductive RootOperation
  | addRef
  | releaseRef
  | queryInterface
  deriving DecidableEq, Repr, Inhabited

/-- The operation of that name, if it manages the adapter. -/
def RootOperation.ofName? : String → Option RootOperation
  | "add_ref" => some addRef
  | "release_ref" => some releaseRef
  | "query_interface" => some queryInterface
  | _ => none

/-- The method of an operation. -/
def operationMethod (settings : Settings) (active : ScopedName) (name : String)
    (operation : Operation) : Method :=
  let special := if settings.isRoot active then RootOperation.ofName? name else none
  { returns :=
      match special with
      | some .queryInterface => "void*"
      | _ => valueType operation.returns
    name
    params := parameterList operation
    throws := throwsLocal
    body :=
      match special with
      | some .addRef => addRefBody
      | some .releaseRef => releaseRefBody
      | some .queryInterface => queryInterfaceBody active operation
      | none => operationBody active name operation }

/-- The method that reads an attribute. -/
def getterMethod (active : ScopedName) (type : IdlType) (name : String) : Method where
  returns := valueType type
  name := name
  params := if type.isSequence then "uint32_t* _length_attr" else ""
  throws := throwsLocal
  body := getterBody active name type

/-- The method that writes an attribute. -/
def setterMethod (active : ScopedName) (type : IdlType) (name : String) : Method where
  returns := "void"
  name := name
  params := localType .input type ++ " attr" ++
    if type.isSequence then ", uint32_t _length_attr" else ""
  throws := throwsLocal
  body := setterBody active name type

/-- The methods of a group of attributes: for each name the getter, then the setter. -/
def attributeMethods (active : ScopedName) (group : AttributeGroup) : List Method :=
  group.names.flatMap fun name =>
    getterMethod active group.type name ::
      if group.readonly then [] else [setterMethod active group.type name]

/-- The methods of a callable. -/
def callableMethods (settings : Settings) (active : ScopedName) (callable : Decl) :
    List Method :=
  match callable.kind with
  | .operation operation => [operationMethod settings active callable.name operation]
  | .attributes group => attributeMethods active group
  | _ => []

/-- What stands in front of a method's name: its class in the source, nothing in the
header. -/
def qualifierIn (mode : Mode) (className : String) : String :=
  match mode with
  | .declaration => ""
  | .definition => className ++ "::"

/-- The methods of an adapter class in one of the two files. -/
def methodsLayout (settings : Settings) (mode : Mode) (active : ScopedName) (loops : Nat)
    (methods : List Method) : Except Error (Layout × Nat) :=
  Method.layoutAll mode settings.root (qualifierIn mode (settings.adapterName active)) loops
    methods

end IdlBridge.Adapter
