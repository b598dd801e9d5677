import IdlBridge.ScopedName

/-!
# Pragmas

An interface may carry pragmas that steer how its adapter classes are written. A text that is
none of the known pragmas is kept as it stands and has no effect.
-/

set_option autoImplicit false

namespace IdlBridge

/-- A pragma of an interface. -/
inductive Pragma
  /-- No interface outside the generated code derives from this one. -/
  | terminal
  /-- Other modules derive from the interface. -/
  | crossModuleInheritance
  /-- Other modules pass the interface as an argument. -/
  | crossModuleArgument
  /-- The named base is inherited along more than one path. -/
  | ambiguous (base : ScopedName)
  /-- Any other text. -/
  | other (text : String)
  deriving DecidableEq, Repr, Inhabited

namespace Pragma

/-- The name inside `ambiguous-inheritance(...)`. -/
def ambiguousBase? (text : List Char) : Option (List Char) :=
  (Text.cutFront? "ambiguous-inheritance(".toList text).bind (Text.cutBack? [')'])

/-- Reads a pragma, ignoring blanks around the text. -/
def ofText (text : String) : Pragma :=
  match Text.trim text with
  | "terminal-interface" => terminal
  | "cross-module-inheritance" => crossModuleInheritance
  | "cross-module-argument" => crossModuleArgument
  | trimmed =>
    match ambiguousBase? trimmed.toList with
    | some base => ambiguous (.ofText (String.ofList base))
    | none => other trimmed

/-- The classes of the interface are visible outside their module. -/
def exports : Pragma → Bool
  | crossModuleInheritance | crossModuleArgument => true
  | _ => false

/-- The pragma declares inheritance from `base` ambiguous. -/
def marksAmbiguous (base : ScopedName) : Pragma → Bool
  | ambiguous name => name == base
  | _ => false

end Pragma

end IdlBridge
