/-!
# Faults of marked-up text

What can be wrong with the marks of a document, apart from what its elements mean. A fault is
either one of syntax, where a mark is begun and not finished, or one of form, where finished
marks do not fit together. The attributes inside a tag have faults of their own.
-/

set_option autoImplicit false

namespace IdlBridge.Markup

/-- A fault in the marks of a document. -/
inductive Fault
  | tagNotClosed
  | valueNotClosed (quote : Char)
  | cdataNotClosed
  | commentNotClosed
  | doctypeNotClosed
  | instructionNotClosed
  | declarationNotClosed
  | unknownMark
  | referenceNotClosed
  | doctypeWithoutName
  /-- An end tag names another element than the innermost open one. -/
  | mismatchedEnd (expected found : String)
  /-- An end tag stands where no element is open. -/
  | unmatchedEnd (found : String)
  deriving DecidableEq, Repr, Inhabited

namespace Fault

/-- A mark is begun and not finished. -/
def isSyntax : Fault → Bool
  | referenceNotClosed | doctypeWithoutName | mismatchedEnd .. | unmatchedEnd .. => false
  | _ => true

/-- The wording for a mark that is missing its end. -/
def unclosed (what mark : String) : String :=
  s!"{what} not closed: `{mark}` not found before end of input"

/-- What exactly is wrong. -/
def detail : Fault → String
  | tagNotClosed => unclosed "tag" ">"
  | valueNotClosed quote => unclosed "attribute value" (String.singleton quote)
  | cdataNotClosed => unclosed "CDATA" "]]>"
  | commentNotClosed => unclosed "comment" "-->"
  | doctypeNotClosed => unclosed "DOCTYPE" ">"
  | instructionNotClosed => unclosed "processing instruction" "?>"
  | declarationNotClosed => unclosed "XML declaration" "?>"
  | unknownMark => "unknown or missed symbol in markup"
  | referenceNotClosed => unclosed "entity or character reference" ";"
  | doctypeWithoutName =>
    "`<!DOCTYPE>` declaration does not contain a name of a document type"
  | mismatchedEnd expected found => s!"expected `</{expected}>`, but `</{found}>` was found"
  | unmatchedEnd found => s!"close tag `</{found}>` does not match any open tag"

/-- The fault together with its class. -/
def message (fault : Fault) : String :=
  (if fault.isSyntax then "syntax error: " else "ill-formed document: ") ++ fault.detail

end Fault

/-- A fault of one attribute, which has to be written `key="value"` under a key of its own. -/
inductive AttributeFault
  | missingEquals
  | repeatedKey
  | missingValue
  | unquotedValue
  | unclosedValue
  deriving DecidableEq, Repr, Inhabited

end IdlBridge.Markup
