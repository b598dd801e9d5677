import IdlBridge.Marshal.Value

/-!
# Conversion of values

What the generated conversions do to values. A remote sequence becomes its elements and a
separate length; on the way back the length has to agree with the elements. Strings end with a
zero character on the local side, so they may not contain one.
-/

set_option autoImplicit false

namespace IdlBridge.Marshal

/-- Why a value cannot be converted. -/
inductive Error
  | mismatch (expected : IdlType)
  | lengthMismatch (declared : UInt32) (actual : Nat)
  | tooLong (actual : Nat)
  | interiorNul
  | unsupported (type : IdlType)
  deriving DecidableEq, Repr, Inhabited

/-- The wording of an error. -/
def Error.message : Error → String
  | mismatch expected => "value does not match type '" ++ expected.spelling ++ "'"
  | lengthMismatch declared actual =>
    "sequence length " ++ toString declared.toNat ++ " does not match " ++ toString actual ++
      " elements"
  | tooLong actual =>
    "sequence of " ++ toString actual ++ " elements exceeds the length range"
  | interiorNul => "string contains an interior NUL"
  | unsupported type => "type '" ++ type.spelling ++ "' cannot be marshalled"

/-- The value is of the kind that the type asks for. -/
def fits : IdlType → Scalar → Bool
  | .basic .boolean, .boolean _ => true
  | .basic .octet, .octet _ => true
  | .basic .short, .short _ => true
  | .basic .unsignedShort, .unsignedShort _ => true
  | .basic .long, .long _ => true
  | .basic .unsignedLong, .unsignedLong _ => true
  | .basic .longLong, .longLong _ => true
  | .basic .unsignedLongLong, .unsignedLongLong _ => true
  | .basic .float, .float _ => true
  | .basic .double, .double _ => true
  | .basic .char, .char _ => true
  | .basic .wchar, .wchar _ => true
  | .basic .string, .string _ => true
  | .basic .wstring, .wstring _ => true
  | .enum _, .enum _ => true
  | .interface _, .object _ => true
  | _, _ => false

/-- The text of a string value, if it is one. -/
def textOf? : Scalar → Option String
  | .string value | .wstring value => some value
  | _ => none

/-- The value is a string with a zero character in it. -/
def hasNul (value : Scalar) : Bool :=
  (textOf? value).any fun text => text.toList.contains '\x00'

/-- Values of the type are passed one by one. -/
def isScalarType (type : IdlType) : Bool :=
  !(type.isVoid || type.isSequence)

/-- Checks a single value. -/
def checkScalar (type : IdlType) (value : Scalar) : Except Error Unit :=
  if !isScalarType type then .error (.unsupported type)
  else if !fits type value then .error (.mismatch type)
  else if hasNul value then .error .interiorNul
  else .ok ()

/-- Checks the elements of a sequence in order. -/
def checkItems (element : IdlType) : List Scalar → Except Error Unit
  | [] => .ok ()
  | item :: items => do
    checkScalar element item
    checkItems element items

/-- Checks that a type can be the element type of a converted sequence. -/
def checkElement (element : IdlType) : Except Error Unit :=
  if isScalarType element then .ok () else .error (.unsupported element)

/-- Converts a remote value to the local side. -/
def toLocal (type : IdlType) (value : RemoteValue) : Except Error LocalValue :=
  match type, value with
  | .sequence _ element, .sequence items => do
    checkElement element
    if items.length < UInt32.size then
      checkItems element items
      .ok (.sequence (UInt32.ofNat items.length) items)
    else .error (.tooLong items.length)
  | .sequence .., .scalar _ => .error (.mismatch type)
  | _, .scalar scalar => do
    checkScalar type scalar
    .ok (.scalar scalar)
  | _, .sequence _ => .error (.mismatch type)

/-- Converts a local value to the remote side. -/
def toRemote (type : IdlType) (value : LocalValue) : Except Error RemoteValue :=
  match type, value with
  | .sequence _ element, .sequence length items => do
    checkElement element
    if length.toNat = items.length then
      checkItems element items
      .ok (.sequence items)
    else .error (.lengthMismatch length items.length)
  | .sequence .., .scalar _ => .error (.mismatch type)
  | _, .scalar scalar => do
    checkScalar type scalar
    .ok (.scalar scalar)
  | _, .sequence .. => .error (.mismatch type)

end IdlBridge.Marshal
