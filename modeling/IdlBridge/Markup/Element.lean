import IdlBridge.LoadError
import IdlBridge.Markup.Reference
import IdlBridge.Markup.Token

/-!
# Elements

The elements of a document form a tree. It is read from the tokens by keeping the elements
that are still open, innermost first: a start tag opens an element, an end tag closes the
innermost one and hands it to the element around it.
-/

set_option autoImplicit false

namespace IdlBridge.Markup

/-- An element with its attributes in order, its children in order and its text. -/
structure Element where
  name : String
  attrs : List (String × String)
  children : List Element
  text : String
  deriving Repr, Inhabited

namespace Element

/-- The value of the first attribute with the given key. -/
def attr? (element : Element) (key : String) : Option String :=
  element.attrs.lookup key

/-- The value of an attribute that has to be present. -/
def required (element : Element) (key : String) : Except LoadError String :=
  match element.attr? key with
  | some value => .ok value
  | none => .error (.missingAttribute element.name key)

/-- The value of an attribute that says yes or no, and says no when it is absent. -/
def flag (element : Element) (key : String) : Except LoadError Bool :=
  match element.attr? key with
  | none | some "false" | some "0" => .ok false
  | some "true" | some "1" => .ok true
  | some other => .error (.invalidAttribute element.name key other)

/-- Replaces the references in the values of attributes. -/
def readAttrs (name : String) (written : List (List Char × List Char)) :
    Except LoadError (List (String × String)) :=
  written.mapM fun (key, value) =>
    match unescape? value with
    | some chars => .ok (String.ofList key, String.ofList chars)
    | none => .error (.invalidAttribute name (String.ofList key) (String.ofList value))

/-- The element that a tag starts, still without children and text. An attribute with a fault is
left out. -/
def ofTag (content : List Char) : Except LoadError Element := do
  let name := tagName content
  let attrs ← readAttrs name ((tagReports content).filterMap Except.toOption)
  .ok ⟨name, attrs, [], ""⟩

end Element

/-- What has been read of a document. -/
structure Reading where
  /-- The elements that are still open, innermost first. -/
  opened : List Element
  /-- The outermost element, once it is closed. -/
  root? : Option Element
  deriving Repr, Inhabited

namespace Reading

/-- Nothing is open and nothing has been read. -/
def start : Reading := ⟨[], none⟩

/-- Hands a closed element to the innermost open one, or makes it the root. -/
def place (reading : Reading) (element : Element) : Except LoadError Reading :=
  match reading.opened, reading.root? with
  | parent :: outer, _ =>
    .ok { reading with
      opened := { parent with children := parent.children ++ [element] } :: outer }
  | [], none => .ok { reading with root? := some element }
  | [], some _ => .error (.malformed .secondRoot)

/-- Reads one token. -/
def step (reading : Reading) : Token → Except LoadError Reading
  | .start content => do
    let element ← Element.ofTag content
    .ok { reading with opened := element :: reading.opened }
  | .empty content => do
    let element ← Element.ofTag content
    reading.place element
  | .stop name =>
    match reading.opened with
    | [] => .error (.fault (.unmatchedEnd name))
    | element :: outer =>
      if element.name = name then { reading with opened := outer }.place element
      else .error (.fault (.mismatchedEnd element.name name))
  | .text piece =>
    match reading.opened with
    | [] => .ok reading
    | element :: outer =>
      .ok { reading with opened := { element with text := element.text ++ piece } :: outer }

/-- The root, provided that everything has been closed. -/
def finish (reading : Reading) : Except LoadError Element :=
  if reading.opened.isEmpty then
    match reading.root? with
    | some root => .ok root
    | none => .error (.malformed .noRoot)
  else .error (.malformed .unterminatedElement)

end Reading

/-- Reads the root element of a document. What the tokens in front of a fault show to be wrong
is reported before the fault. -/
def Element.ofDocument (document : String) : Except LoadError Element := do
  let read := tokens document
  let reading ← read.tokens.foldlM Reading.step Reading.start
  match read.fault? with
  | some fault => .error (.fault fault)
  | none => reading.finish

end IdlBridge.Markup
