import IdlBridge.Markup.Fault
import IdlBridge.ScopedName
import IdlBridge.Storage.Error

/-!
# Why a tree cannot be loaded

Loading a declaration tree fails for one of the causes below. A cause can have causes of its
own: a fault of the marks and an error of the file system are each reported again behind the
cause that wraps them.
-/

set_option autoImplicit false

namespace IdlBridge

/-- Documents whose elements do not form a tree of declarations. -/
inductive StructureError
  | unterminatedElement
  | noRoot
  | secondRoot
  | unexpectedRoot (name : String)
  | nestedSequence (name : ScopedName)
  | anonymousSequence (expression context : String)
  deriving DecidableEq, Repr, Inhabited

/-- The wording of structural errors. -/
def StructureError.message : StructureError → String
  | unterminatedElement => "unterminated element at end of input"
  | noRoot => "no <tree> element found"
  | secondRoot => "more than one root element"
  | unexpectedRoot name => s!"expected <tree> root element, found <{name}>"
  | nestedSequence name => "sequence '" ++ name.text ++ "' has a sequence element type"
  | anonymousSequence expression context =>
    s!"anonymous sequence '{expression}' in '{context}'; " ++
      "sequences must be named by a typedef"

/-- The causes that stop a tree from being loaded. -/
inductive LoadError
  | fault (cause : Markup.Fault)
  | missingAttribute (element attr : String)
  | invalidAttribute (element attr value : String)
  | unknownElement (element context : String)
  | unknownType (type context : String)
  | unknownBase (base interface : String)
  | aliasCycle (name : ScopedName)
  | malformed (cause : StructureError)
  | file (cause : FileError)
  deriving DecidableEq, Repr, Inhabited

namespace LoadError

/-- The wording of a cause. -/
def message : LoadError → String
  | fault cause => "XML parsing error: " ++ cause.message
  | missingAttribute element attr =>
    s!"missing required attribute '{attr}' on element '{element}'"
  | invalidAttribute element attr value =>
    s!"invalid value '{value}' for attribute '{attr}' on element '{element}'"
  | unknownElement element context => s!"unknown element '{element}' in context '{context}'"
  | unknownType type context => s!"unknown type '{type}' referenced from '{context}'"
  | unknownBase base interface => s!"unknown base interface '{base}' of '{interface}'"
  | aliasCycle name => "typedef cycle through '" ++ name.text ++ "'"
  | malformed cause => "invalid tree structure: " ++ cause.message
  | file cause => "IO error: " ++ cause.message

/-- The error followed by the causes behind it. -/
def causes (error : LoadError) : List String :=
  error.message ::
    match error with
    | fault cause => [cause.message, cause.detail]
    | file cause => [cause.message]
    | _ => []

end LoadError

end IdlBridge
