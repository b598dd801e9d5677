import IdlBridge.Adapter.Method
import IdlBridge.Adapter.Scopes
import IdlBridge.DeclTree.Inheritance

/-!
# Adapter classes

An interface is adapted by three classes. The abstract class implements the local interface on
top of a remote object that it does not know. The final class holds that object and answers,
for every interface the object has, with the object itself. The factory makes final objects
and registers itself under the interface's name; a hook function refers to its one instance.
-/

set_option autoImplicit false

namespace IdlBridge.Adapter

/-- A base of an abstract class. -/
inductive Head
  /-- The local interface that the class implements. -/
  | interface (inheritance : Inheritance)
  /-- The abstract class of another interface. -/
  | adapter (base : DeclId) (inheritance : Inheritance)
  deriving DecidableEq, Repr

/-- What the classes of one interface are written from. -/
structure Subject where
  settings : Settings
  tree : DeclTree
  /-- The letters that tell the tree's file apart. -/
  guard : String
  id : DeclId
  decl : Decl
  deriving Repr, Inhabited

namespace Subject

/-- The full name of the interface. -/
def name (subject : Subject) : ScopedName :=
  subject.decl.scopedName

/-- The remote type of the interface. -/
def remote (subject : Subject) : String :=
  "::" ++ subject.name.text

/-- Marks a declaration as visible outside its module. -/
def exported (subject : Subject) (declared : String) : Piece :=
  .line (publicPre subject.guard ++ " " ++ declared ++ " " ++ publicPost subject.guard ++ ";")

/-- The full name of a class beside the abstract class. -/
def qualified (subject : Subject) (className : String) : String :=
  subject.settings.outer ++ "::" ++ sibling subject.name className

/-! ## The abstract class -/

/-- The methods of the abstract class, in the order of the interface's callables. -/
def methods (subject : Subject) : List Method :=
  match subject.decl.interface? with
  | some parts => (parts.callables.filterMap subject.tree.decl?).flatMap
      (callableMethods subject.settings subject.name)
  | none => []

/-- The bases of the abstract class, the local interface first. -/
def bases (subject : Subject) : List Head :=
  .interface (subject.tree.ownInheritance subject.id) ::
    (subject.tree.edges subject.settings.root subject.id).map fun edge => .adapter edge.1 edge.2

/-- A base as it is written. -/
def headText (subject : Subject) : Head → String
  | .interface inheritance => inheritance.specifier ++ " " ++ localName subject.name
  | .adapter base inheritance =>
    inheritance.specifier ++ " " ++ subject.settings.adapterName (subject.tree.scopedName base)

/-- The bases of the abstract class as they are written. -/
def heads (subject : Subject) : List String :=
  subject.bases.map subject.headText

/-- The reference count and hosting context that the root class declares. -/
def declareRootMembers (subject : Subject) : Layout :=
  [.line "public:"] ++ Layout.indented [.line (subject.decl.name ++ "();")] ++
  [.line "protected:"] ++
  Layout.indented
    [.line "::PortableServer::POA_ptr _getPOA();",
     .line "void _setPOA(::PortableServer::POA_ptr aPOA);"] ++
  [.line "private:"] ++
  Layout.indented
    [.line "::PortableServer::POA_var _poa;",
     .line "uint32_t _refcount;"]

/-- The members of the root class that manage its hosting context. -/
def defineRootMembers (subject : Subject) : Layout :=
  let own := subject.settings.adapterName subject.name
  [.line (own ++ "::" ++ subject.name.simple ++ "() : _refcount(1) \x7b\x7d;"),
   .line ("void " ++ own ++ "::_setPOA(::PortableServer::POA_ptr aPOA)")] ++
  Layout.braces [.line "_poa = aPOA;"] ++
  [.line ("::PortableServer::POA_ptr " ++ own ++ "::_getPOA()")] ++
  Layout.braces [.line "return _poa;"]

/-- The accessors of the abstract class: one that gives a counted reference to the remote
object, and one that the final class provides. -/
def declareAccessors (subject : Subject) : Layout :=
  [subject.exported (subject.remote ++ "_ptr " ++ unwrapName subject.name ++ "()"),
   .line ("virtual " ++ subject.remote ++ "_ptr " ++ downcastName subject.name ++ "() = 0;")]

/-- The accessor that gives a counted reference to the remote object. -/
def defineUnwrap (subject : Subject) : Layout :=
  [.line (subject.remote ++ "_ptr " ++ subject.settings.adapterName subject.name ++ "::" ++
    unwrapName subject.name ++ "()")] ++
  Layout.braces
    ([.line (subject.remote ++ "_ptr tmp = " ++ downcastCall subject.name ++ ";"),
      .line "if (!CORBA::is_nil(tmp))"] ++
     Layout.indented [.line "tmp->add_ref();"] ++
     [.line ("return " ++ subject.remote ++ "::_duplicate(tmp);")])

/-- The abstract class in the header. -/
def declareAbstract (subject : Subject) : Except Error Layout := do
  let exports := subject.decl.interface?.any Interface.exports
  let (methods, _) ← methodsLayout subject.settings .declaration subject.name 0 subject.methods
  .ok
    ((if exports then
        [.line (publicPre subject.guard ++ " "),
         .line ("class " ++ publicPost subject.guard ++ " " ++ subject.decl.name)]
      else [.line ("class " ++ subject.decl.name)]) ++
     [.line ("  : " ++ Text.join ", " subject.heads), .line "\x7b"] ++
     (if subject.settings.isRoot subject.name then subject.declareRootMembers else []) ++
     [.line "public:"] ++
     Layout.indented
      ([.line ("virtual ~" ++ subject.decl.name ++ "()\x7b\x7d")] ++ subject.declareAccessors ++
       methods) ++
     [.line "\x7d;"])

/-- The members of the abstract class in the source. -/
def defineAbstract (subject : Subject) : Except Error Layout := do
  let (methods, _) ← methodsLayout subject.settings .definition subject.name 0 subject.methods
  .ok
    ((if subject.settings.isRoot subject.name then subject.defineRootMembers else []) ++
     subject.defineUnwrap ++ methods)

/-! ## The final class -/

/-- The accessors of the final class, one for each interface of the remote object. -/
def downcasts (subject : Subject) : List Method :=
  (subject.tree.linearize subject.id).map fun base =>
    let name := subject.tree.scopedName base
    { returns := "::" ++ name.text ++ "_ptr"
      name := downcastName name
      params := ""
      throws := ""
      body := .fixed [.line "return _objref;"] }

/-- The final class in the header. -/
def declareFinal (subject : Subject) : Except Error Layout := do
  let own := finalClass subject.decl.name
  let (accessors, _) ← Method.layoutAll .declaration subject.settings.root "" 0 subject.downcasts
  .ok
    ([.line ("class " ++ own), .line ("  : public " ++ subject.decl.name), .line "\x7b",
      .line "private:"] ++
     Layout.indented [.line (subject.remote ++ "_var _objref;")] ++
     [.line "public:"] ++
     Layout.indented
      ([subject.exported (own ++ "(" ++ subject.remote ++
          "_ptr _aobjref, ::PortableServer::POA_ptr aPp)"),
        .line ("virtual ~" ++ own ++ "()")] ++
       Layout.braces
        ([.line "if (!CORBA::is_nil(_objref))"] ++
         Layout.indented [.line "_objref->release_ref();"]) ++
       accessors) ++
     [.line "\x7d;"])

/-- The members of the final class in the source. -/
def defineFinal (subject : Subject) : Except Error Layout := do
  let own := finalClass subject.decl.name
  let full := subject.qualified own
  let (accessors, _) ← Method.layoutAll .definition subject.settings.root (full ++ "::") 0
    subject.downcasts
  .ok
    ([.line (full ++ "::" ++ own ++ "(" ++ subject.remote ++
        "_ptr _aobjref,::PortableServer::POA_ptr aPp)")] ++
     Layout.braces
      [.line ("_objref = " ++ subject.remote ++ "::_duplicate(_aobjref);"),
       .line "_objref->add_ref();",
       .line "_setPOA(::PortableServer::POA::_duplicate(aPp));"] ++
     accessors)

/-! ## The factory -/

/-- The factory class and its hook in the header. -/
def declareFactory (subject : Subject) : Layout :=
  let simple := subject.name.simple
  let own := factoryClass simple
  [.line ("class " ++ own), .line "  : public ::CCIFactory", .line "\x7b", .line "public:"] ++
  Layout.indented
    ([.line (own ++ "();"),
      .line ("const char* Name() const \x7b return \"" ++ subject.name.text ++ "\"; \x7d"),
      .line ("void* MakeCCI(::" ++ subject.settings.root.text ++
        "_ptr aObj, ::PortableServer::POA_ptr aPp) const")] ++
     Layout.braces
      [.line (subject.remote ++ "_var obj = " ++ subject.remote ++ "::_narrow(aObj);"),
       .line "if (CORBA::is_nil(obj)) return NULL;",
       .line ("return static_cast< " ++ localName subject.name ++ "* >(new ::" ++
        subject.qualified (finalClass simple) ++ "(obj, aPp));")]) ++
  [.line "\x7d;", subject.exported ("void " ++ hookName simple ++ "()")]

/-- The factory's constructor and instance in the source. -/
def defineFactory (subject : Subject) : Layout :=
  let own := factoryClass subject.name.simple
  let full := "::" ++ subject.qualified own
  [.line (full ++ "::" ++ own ++ "()")] ++
  Layout.braces [.line "gWrapperRepository().RegisterCCIFactory(this);"] ++
  [.line (full ++ " " ++ factoryInstance subject.name ++ ";")]

/-- The hook in the source, which stands inside the namespace of the interface. -/
def defineHook (subject : Subject) : Layout :=
  [.line ("void " ++ hookName subject.name.simple ++ "() \x7b " ++
    factoryInstance subject.name ++ ".Name(); \x7d")]

/-- Everything about one interface in one of the two files. In the source, only the hook is
written inside namespace blocks, which are closed again behind it. -/
def layout (subject : Subject) (mode : Mode) (scopes : Scopes) :
    Except Error (Scopes × Layout) := do
  match mode with
  | .declaration =>
    let abstractClass ← subject.declareAbstract
    let finalClass ← subject.declareFinal
    .ok (scopes, abstractClass ++ finalClass ++ subject.declareFactory)
  | .definition =>
    let abstractClass ← subject.defineAbstract
    let finalClass ← subject.defineFinal
    let (scopes, opening) := scopes.materialize
    let (scopes, closing) := scopes.escape
    .ok (scopes, abstractClass ++ finalClass ++ subject.defineFactory ++ opening ++
      subject.defineHook ++ closing)

end Subject

/-- The classes of the interface with the given number. -/
def classesLayout (settings : Settings) (tree : DeclTree) (guard : String) (mode : Mode)
    (scopes : Scopes) (id : DeclId) : Except Error (Scopes × Layout) :=
  match tree.decl? id with
  | some decl =>
    if decl.interface?.isSome then Subject.layout ⟨settings, tree, guard, id, decl⟩ mode scopes
    else .error (.notInterface decl.scopedName)
  | none => .error (.notInterface .root)

end IdlBridge.Adapter
