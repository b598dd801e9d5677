import IdlBridge.ScopedName

/-!
# Settings of the generated adapters
-/

set_option autoImplicit false

namespace IdlBridge.Adapter

/-- What the user can choose about the generated files. -/
structure Settings where
  /-- The namespace around all adapter classes. -/
  outer : String
  /-- The interface from which all others derive. -/
  root : ScopedName
  /-- What generated file names start with. -/
  filePrefix : String
  /-- The number of spaces for one level of indentation. -/
  indentWidth : Nat
  deriving DecidableEq, Repr, Inhabited

namespace Settings

/-- The settings that hold unless the user chooses others. -/
def default : Settings where
  outer := "CCI"
  root := ⟨["XPCOM", "IObject"]⟩
  filePrefix := "CCI"
  indentWidth := 2

/-- The name belongs to the root interface. -/
def isRoot (settings : Settings) (name : ScopedName) : Bool :=
  name == settings.root

/-- The full name of the adapter class of an interface. -/
def adapterName (settings : Settings) (name : ScopedName) : String :=
  settings.outer ++ "::" ++ name.text

end Settings

/-- Which of the two files is written. -/
inductive Mode
  /-- The header, which declares the classes. -/
  | declaration
  /-- The source, which defines their members. -/
  | definition
  deriving DecidableEq, Repr, Inhabited

end IdlBridge.Adapter
