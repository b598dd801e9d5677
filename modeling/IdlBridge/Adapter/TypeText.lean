import IdlBridge.IdlType

/-!
# Spelling of types

Every type has two spellings in the generated text: one on the local side, where interfaces are
plain classes and sequences are arrays, and one on the remote side, where values are held by
the object request broker's own types.
-/

set_option autoImplicit false

namespace IdlBridge.Adapter

/-- The namespace of the local interfaces. -/
def localNamespace : String := "iface"

/-- The local class of an interface. -/
def localName (name : ScopedName) : String :=
  localNamespace ++ "::" ++ name.text

/-- How the local spelling of a type is adjusted to where it stands. -/
structure Form where
  /-- The value is passed back through a pointer. -/
  extraPointer : Bool
  /-- What pointers lead to is not changed. -/
  isConst : Bool
  deriving DecidableEq, Repr, Inhabited

namespace Form

/-- A variable or result. -/
def value : Form := ⟨false, false⟩

/-- An argument that is only read. -/
def input : Form := ⟨false, true⟩

/-- An argument that is assigned. -/
def output : Form := ⟨true, false⟩

end Form

/-- The local spelling of a basic type. -/
def basicLocal : BasicType → String
  | .void => "void"
  | .boolean => "bool"
  | .octet => "uint8_t"
  | .short => "int16_t"
  | .unsignedShort => "uint16_t"
  | .long => "int32_t"
  | .unsignedLong => "uint32_t"
  | .longLong => "int64_t"
  | .unsignedLongLong => "uint64_t"
  | .float => "float"
  | .double => "double"
  | .char => "char"
  | .wchar => "wchar_t"
  | .string => "char*"
  | .wstring => "wchar_t*"

/-- The remote spelling of a basic type. -/
def basicRemote : BasicType → String
  | .void => "void"
  | .boolean => "CORBA::Boolean"
  | .octet => "CORBA::Octet"
  | .short => "CORBA::Short"
  | .unsignedShort => "CORBA::UShort"
  | .long => "CORBA::Long"
  | .unsignedLong => "CORBA::ULong"
  | .longLong => "CORBA::LongLong"
  | .unsignedLongLong => "CORBA::ULongLong"
  | .float => "CORBA::Float"
  | .double => "CORBA::Double"
  | .char => "CORBA::Char"
  | .wchar => "CORBA::WChar"
  | .string => "CORBA::String_var"
  | .wstring => "CORBA::WString_var"

/-- The type is a pointer on the local side. -/
def isPointer : IdlType → Bool
  | .basic .string | .basic .wstring | .interface _ | .sequence _ _ => true
  | _ => false

/-- The type is one of the two kinds of strings. -/
def isString : IdlType → Bool
  | .basic .string | .basic .wstring => true
  | _ => false

/-- The local spelling of a variable's type. -/
def valueType : IdlType → String
  | .basic type => basicLocal type
  | .enum name => localName name
  | .interface name => localName name ++ "*"
  | .sequence _ element => valueType element ++ "*"

/-- The local spelling of a type without the pointer of results that are passed back. A
sequence of pointers that is only read keeps its pointers constant. -/
def constType : IdlType → String
  | .sequence _ element =>
    if isPointer element then valueType element ++ " const*"
    else "const " ++ valueType element ++ "*"
  | type => if isString type then "const " ++ valueType type else valueType type

/-- The local spelling of a type. -/
def localType (form : Form) (type : IdlType) : String :=
  (if form.isConst then constType type else valueType type) ++
    (if form.extraPointer then "*" else "")

/-- The remote spelling of a type as the holder of a value. -/
def remoteHolder : IdlType → String
  | .basic type => basicRemote type
  | .enum name => "::" ++ name.text
  | .interface name | .sequence name _ => "::" ++ name.text ++ "_var"

/-- The remote spelling of a type itself. -/
def remoteType : IdlType → String
  | .basic type => basicRemote type
  | .enum name | .interface name | .sequence name _ => "::" ++ name.text

/-- A local value of the type owns memory or a reference. -/
def ownsLocal (type : IdlType) : Bool :=
  isPointer type

/-- A remote value of the type holds references that have to be given back. -/
def ownsRemote : IdlType → Bool
  | .interface _ => true
  | .sequence _ element => ownsRemote element
  | _ => false

end IdlBridge.Adapter
