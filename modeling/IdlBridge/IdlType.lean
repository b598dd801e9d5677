import IdlBridge.ScopedName

/-!
# Types of interface definitions

The types that operations and attributes exchange: the basic types with a keyword spelling,
and the types that a declaration introduces by name. A sequence carries the name of the
typedef that introduces it together with its element type, because that name appears in the
generated text.
-/

set_option autoImplicit false

namespace IdlBridge

/-- The types that are written with a keyword. -/
inductive BasicType
  | void
  | boolean
  | octet
  | short
  | unsignedShort
  | long
  | unsignedLong
  | longLong
  | unsignedLongLong
  | float
  | double
  | char
  | wchar
  | string
  | wstring
  deriving DecidableEq, Repr, Inhabited

namespace BasicType

/-- Every basic type, in the order of their declaration. -/
def all : List BasicType :=
  [void, boolean, octet, short, unsignedShort, long, unsignedLong, longLong, unsignedLongLong,
   float, double, char, wchar, string, wstring]

/-- The keyword of a basic type, with single spaces between its words. -/
def spelling : BasicType → String
  | void => "void"
  | boolean => "boolean"
  | octet => "octet"
  | short => "short"
  | unsignedShort => "unsigned short"
  | long => "long"
  | unsignedLong => "unsigned long"
  | longLong => "long long"
  | unsignedLongLong => "unsigned long long"
  | float => "float"
  | double => "double"
  | char => "char"
  | wchar => "wchar"
  | string => "string"
  | wstring => "wstring"

/-- The basic type with exactly this spelling. -/
def ofSpelling? (text : String) : Option BasicType :=
  all.find? fun basic => basic.spelling == text

/-- The basic type that a text spells, whatever blanks stand around and between its words. -/
def ofText? (text : String) : Option BasicType :=
  ofSpelling? (Text.join " " (Text.words text))

end BasicType

/-- A type of an interface definition. -/
inductive IdlType
  | basic (type : BasicType)
  | enum (name : ScopedName)
  | interface (name : ScopedName)
  | sequence (name : ScopedName) (element : IdlType)
  deriving DecidableEq, Repr, Inhabited

namespace IdlType

/-- The type of operations without a result. -/
def void : IdlType := basic .void

/-- The spelling of the type in an interface definition. -/
def spelling : IdlType → String
  | basic type => type.spelling
  | enum name => name.text
  | interface name => name.text
  | sequence name _ => name.text

/-- Operations of this type have no result. -/
def isVoid : IdlType → Bool
  | basic .void => true
  | _ => false

/-- Values of this type are references to objects. -/
def isInterface : IdlType → Bool
  | interface _ => true
  | _ => false

/-- Values of this type travel together with an element count. -/
def isSequence : IdlType → Bool
  | sequence _ _ => true
  | _ => false

end IdlType

end IdlBridge
