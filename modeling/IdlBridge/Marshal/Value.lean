import IdlBridge.IdlType

/-!
# Values

The values that adapters pass between the two sides. Floating-point numbers are kept as their
bit patterns, so that no value is changed by being passed on.
-/

set_option autoImplicit false

namespace IdlBridge.Marshal

/-- A value that is no sequence. -/
inductive Scalar
  | boolean (value : Bool)
  | octet (value : UInt8)
  | short (value : Int16)
  | unsignedShort (value : UInt16)
  | long (value : Int32)
  | unsignedLong (value : UInt32)
  | longLong (value : Int64)
  | unsignedLongLong (value : UInt64)
  | float (bits : UInt32)
  | double (bits : UInt64)
  | char (value : UInt8)
  | wchar (value : Char)
  | string (value : String)
  | wstring (value : String)
  /-- The position of an enumerator. -/
  | enum (ordinal : UInt32)
  /-- The repository identifier of an object, or the nil reference. -/
  | object (id? : Option String)
  deriving DecidableEq, Repr, Inhabited

/-- A value on the remote side. A sequence knows its length. -/
inductive RemoteValue
  | scalar (value : Scalar)
  | sequence (items : List Scalar)
  deriving DecidableEq, Repr, Inhabited

/-- A value on the local side. The length of a sequence is passed beside its elements. -/
inductive LocalValue
  | scalar (value : Scalar)
  | sequence (length : UInt32) (items : List Scalar)
  deriving DecidableEq, Repr, Inhabited

end IdlBridge.Marshal
