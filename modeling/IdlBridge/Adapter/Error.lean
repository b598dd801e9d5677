import IdlBridge.LoadError

/-!
# Why adapters cannot be written
-/

set_option autoImplicit false

namespace IdlBridge.Adapter

/-- The causes that stop adapters from being written. -/
inductive Error
  | load (cause : LoadError)
  | file (cause : FileError)
  /-- A sequence is to be converted without the name of its element count. -/
  | missingLength (sequence : ScopedName)
  | notInterface (name : ScopedName)
  deriving DecidableEq, Repr, Inhabited

namespace Error

/-- The wording of a cause. -/
def message : Error → String
  | load cause => "tree parse error: " ++ cause.message
  | file cause => "IO error: " ++ cause.message
  | missingLength sequence =>
    "generation error: sequence '" ++ sequence.text ++ "' converted without a length"
  | notInterface name => "'" ++ name.text ++ "' is not an interface"

/-- The error followed by the causes behind it. -/
def causes (error : Error) : List String :=
  error.message ::
    match error with
    | load cause => cause.causes
    | file cause => [cause.message]
    | _ => []

end Error

/-- How an attempt to write adapters fails. -/
inductive Failure
  | reported (error : Error)
  /-- A text would have to be larger than a text can be. There is no error for this: the program
  breaks off. -/
  | overflow
  deriving DecidableEq, Repr, Inhabited

end IdlBridge.Adapter
