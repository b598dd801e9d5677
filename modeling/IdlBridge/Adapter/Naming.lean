import IdlBridge.Adapter.TypeText

/-!
# Names of generated things

Each generated class, accessor, instance and file has a name made from the interface or file it
belongs to.
-/

set_option autoImplicit false

namespace IdlBridge.Adapter

/-- The letters of a file's name, which tell its guards apart. -/
def guardOf (fileBase : String) : String :=
  String.ofList (fileBase.toList.filter Char.isAlpha)

/-- What precedes a declaration that is visible outside its module. -/
def publicPre (guard : String) : String :=
  "PUBLIC_" ++ guard ++ "_PRE"

/-- What follows a declaration that is visible outside its module. -/
def publicPost (guard : String) : String :=
  "PUBLIC_" ++ guard ++ "_POST"

/-- The accessor that gives an adapter's remote object as the named interface. -/
def downcastName (name : ScopedName) : String :=
  "_downcast_" ++ name.joined

/-- The accessor that gives a counted reference to an adapter's remote object. -/
def unwrapName (name : ScopedName) : String :=
  "_unwrap_" ++ name.joined

/-- The concrete adapter class. -/
def finalClass (simple : String) : String :=
  "_final_" ++ simple

/-- The class of adapter factories. -/
def factoryClass (simple : String) : String :=
  "_factory_" ++ simple

/-- The function that keeps a factory from being dropped by the linker. -/
def hookName (simple : String) : String :=
  "prod" ++ simple

/-- The one instance of a factory class. -/
def factoryInstance (name : ScopedName) : String :=
  "gCCIFactory" ++ name.joined

/-- The scoped name of a class beside the named one. -/
def sibling (name : ScopedName) (className : String) : String :=
  match name.parent? with
  | some scope => if scope.isRoot then className else scope.text ++ "::" ++ className
  | none => className

/-- The name of a generated header. -/
def headerFile (filePrefix fileBase : String) : String :=
  filePrefix ++ fileBase ++ ".hxx"

/-- The name of a generated source. -/
def sourceFile (filePrefix fileBase : String) : String :=
  filePrefix ++ fileBase ++ ".cxx"

/-- The header that is generated for another file. -/
def includeFor (filePrefix file : String) : String :=
  headerFile filePrefix (Text.fileBase file)

end IdlBridge.Adapter
