import IdlBridge.Adapter.Error
import IdlBridge.Adapter.Layout
import IdlBridge.Adapter.TypeText

/-!
# Steps of generated methods

The body of a generated method is a sequence of steps: variables are declared, values are
converted between the local and the remote side, what they own is freed or released, and the
remote operation is called. Each step is written as a few lines. A sequence is converted
element by element in a loop, whose index variable is numbered within its method.

A sequence needs an expression for its element count on the local side. A sequence of
sequences cannot be converted; a line that stops the compiler stands in its place.
-/

set_option autoImplicit false

namespace IdlBridge.Adapter

/-- A step of a generated method. -/
inductive Step
  | declareRemote (type : IdlType) (name : String)
  | declareLocal (type : IdlType) (name : String)
  /-- Assigns a remote value to a local place. A sequence assigns its element count too, and
  its elements go to a new array if `allocate` holds. -/
  | toLocal (type : IdlType) (source target : String) (length? : Option String) (allocate : Bool)
  /-- Assigns a local value to a remote variable. -/
  | toRemote (type : IdlType) (source target : String) (length? : Option String)
  /-- Frees what a local value owns. -/
  | freeLocal (type : IdlType) (place : String) (length? : Option String)
  /-- Gives back the references that a remote value holds. -/
  | releaseRemote (type : IdlType) (place : String)
  /-- Calls a method of an object and assigns its result, if there is one. -/
  | call (result? : Option String) (object method : String) (arguments : List String)
  | giveBack (value : String)
  deriving DecidableEq, Repr, Inhabited

/-! ## Single values -/

/-- Assigns a remote value that is no sequence. A variable's holder is asked for its value, an
element of a sequence is the value itself. -/
def valueToLocal (type : IdlType) (source target : String) (element : Bool) : Layout :=
  let held := if element then source else source ++ ".in()"
  match type with
  | .basic .string => [.line (target ++ " = CDA_strdup(" ++ held ++ ");")]
  | .basic .wstring => [.line (target ++ " = CDA_wcsdup(" ++ held ++ ");")]
  | .enum _ => [.line (target ++ " = static_cast<" ++ valueType type ++ ">(" ++ source ++ ");")]
  | .interface name =>
    [.line ("if (CORBA::is_nil(" ++ source ++ "))")] ++
    Layout.indented [.line (target ++ " = NULL;")] ++
    [.line "else"] ++
    Layout.indented [.line (target ++ " = static_cast<" ++ valueType type ++
      ">(gWrapperRepository().NewCCI(\"" ++ name.text ++ "\", " ++ source ++ ", _getPOA()));")]
  | _ => [.line (target ++ " = " ++ source ++ ";")]

/-- Assigns a local value that is no sequence. -/
def valueToRemote (root : ScopedName) (type : IdlType) (source target : String) : Layout :=
  match type with
  | .basic .string => [.line (target ++ " = CORBA::string_dup(" ++ source ++ ");")]
  | .basic .wstring => [.line (target ++ " = CORBA::wstring_dup(" ++ source ++ ");")]
  | .enum name => [.line (target ++ " = static_cast<::" ++ name.text ++ ">(" ++ source ++ ");")]
  | .interface name =>
    [.line ("if (" ++ source ++ " == NULL)")] ++
    Layout.indented [.line (target ++ " = ::" ++ name.text ++ "::_nil();")] ++
    [.line "else"] ++
    Layout.braces
      [.line ("::" ++ root.text ++ "_var _sci = gWrapperRepository().NewSCI(\"" ++ name.text ++
        "\", " ++ source ++ ", _getPOA());"),
       .line (target ++ " = ::" ++ name.text ++ "::_narrow(_sci);")]
  | _ => [.line (target ++ " = " ++ source ++ ";")]

/-- Frees what a local value that is no sequence owns. -/
def freeValue (type : IdlType) (place : String) : Layout :=
  match type with
  | .basic .string | .basic .wstring => [.line ("free(" ++ place ++ ");")]
  | .interface _ =>
    .line ("if (" ++ place ++ " != NULL)") ::
      Layout.indented [.line (place ++ "->release_ref();")]
  | _ => []

/-- Gives back one reference to a remote object. -/
def releaseReference (place : String) : Layout :=
  .line ("if (!CORBA::is_nil(" ++ place ++ "))") ::
    Layout.indented [.line (place ++ "->release_ref();")]

/-! ## Sequences -/

/-- The index variable of the loop with the given number. -/
def loopVariable (number : Nat) : String :=
  "_ci" ++ toString number

/-- An element of a sequence. -/
def elementOf (sequence index : String) : String :=
  sequence ++ "[" ++ index ++ "]"

/-- A loop over all indices below a bound. -/
def loop (index bound : String) (body : Layout) : Layout :=
  .line ("for (uint32_t " ++ index ++ " = 0; " ++ index ++ " < " ++ bound ++ "; " ++
    index ++ "++)") :: Layout.braces body

/-- The line that takes the place of a conversion that does not exist. -/
def nestedSequence (name : ScopedName) : Layout :=
  [.line ("#error sequence " ++ name.text ++
    " has a sequence element type, which cannot be converted")]

/-- The element count of a sequence, which has to be given. -/
def requireLength (name : ScopedName) : Option String → Except Error String
  | some length => .ok length
  | none => .error (.missingLength name)

/-! ## Steps -/

namespace Step

/-- The lines of a step, given the number of the next loop, together with the number of the
loop after it. -/
def layout (root : ScopedName) (loops : Nat) : Step → Except Error (Layout × Nat)
  | declareRemote type name => .ok ([.line (remoteHolder type ++ " " ++ name ++ ";")], loops)
  | declareLocal type name => .ok ([.line (valueType type ++ " " ++ name ++ ";")], loops)
  | toLocal (.sequence name element) source target length? allocate => do
    let length ← requireLength name length?
    if element.isSequence then .ok (nestedSequence name, loops)
    else
      let index := loopVariable loops
      .ok
        ([.line (length ++ " = " ++ source ++ "->length();")] ++
         (if allocate then
            [.line (target ++ " = new " ++ valueType element ++ "[" ++ length ++ "];")]
          else []) ++
         loop index length
          (valueToLocal element (elementOf source index) (elementOf target index) true),
         loops + 1)
  | toLocal type source target _ _ => .ok (valueToLocal type source target false, loops)
  | toRemote (.sequence name element) source target length? => do
    let length ← requireLength name length?
    if element.isSequence then .ok (nestedSequence name, loops)
    else
      let index := loopVariable loops
      .ok
        ([.line (target ++ " = new " ++ remoteType (.sequence name element) ++ "();"),
          .line (target ++ "->length(" ++ length ++ ");")] ++
         loop index length
          (valueToRemote root element (elementOf source index) (elementOf target index)),
         loops + 1)
  | toRemote type source target _ => .ok (valueToRemote root type source target, loops)
  | freeLocal (.sequence name element) place length? => do
    let length ← requireLength name length?
    if element.isSequence then .ok (nestedSequence name, loops)
    else
      let freeArray : Layout := [.line ("delete [] " ++ place ++ ";")]
      if ownsLocal element then
        let index := loopVariable loops
        .ok (loop index length (freeValue element (elementOf place index)) ++ freeArray,
          loops + 1)
      else .ok (freeArray, loops)
  | freeLocal type place _ => .ok (freeValue type place, loops)
  | releaseRemote (.interface _) place => .ok (releaseReference place, loops)
  | releaseRemote (.sequence _ (.interface _)) place =>
    let index := loopVariable loops
    .ok (loop index (place ++ "->length()") (releaseReference (elementOf place index)),
      loops + 1)
  | releaseRemote _ _ => .ok ([], loops)
  | call result? object method arguments =>
    let assigned := match result? with
      | some result => result ++ " = "
      | none => ""
    .ok ([.line (assigned ++ object ++ "->" ++ method ++ "(" ++ Text.join "," arguments ++ ");")],
      loops)
  | giveBack value => .ok ([.line ("return " ++ value ++ ";")], loops)

/-- The lines of steps one after another. -/
def layoutAll (root : ScopedName) (loops : Nat) : List Step → Except Error (Layout × Nat)
  | [] => .ok ([], loops)
  | step :: steps => do
    let (first, loops) ← step.layout root loops
    let (rest, loops) ← layoutAll root loops steps
    .ok (first ++ rest, loops)

end Step

end IdlBridge.Adapter
