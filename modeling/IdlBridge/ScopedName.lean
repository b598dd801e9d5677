import IdlBridge.Text.Blank
import IdlBridge.Text.Cut

/-!
# Scoped names

A scoped name is the path of components that leads to a declaration, outermost first. The
empty path is the global scope. Names are read from texts such as `dom::Node`, written back
with `::` or `_` between the components, and looked up from a scope by trying each enclosing
scope from the innermost outwards.
-/

set_option autoImplicit false

namespace IdlBridge

/-- The components of a name, outermost first. -/
structure ScopedName where
  parts : List String
  deriving DecidableEq, Repr, Inhabited

namespace ScopedName

/-- The global scope. -/
def root : ScopedName := ⟨[]⟩

/-- Cuts at every `::`, from left to right. -/
def splitScopes : List Char → List (List Char)
  | [] => [[]]
  | ':' :: ':' :: text => [] :: splitScopes text
  | c :: text =>
    match splitScopes text with
    | [] => [[c]]
    | piece :: pieces => (c :: piece) :: pieces

/-- Reads a name: the non-empty trimmed pieces between the `::` marks. -/
def ofText (text : String) : ScopedName :=
  ⟨(((splitScopes text.toList).map Text.trimChars).filter fun piece => !piece.isEmpty).map
    String.ofList⟩

/-- Writes the name with `::` between its components. -/
def text (name : ScopedName) : String :=
  Text.join "::" name.parts

/-- Writes the name with `_` between its components, as part of an identifier. -/
def joined (name : ScopedName) : String :=
  Text.join "_" name.parts

/-- The name of a member declared under this one. -/
def child (name : ScopedName) (member : String) : ScopedName :=
  ⟨name.parts ++ [member]⟩

/-- The enclosing scope; the global scope has none. -/
def parent? (name : ScopedName) : Option ScopedName :=
  if name.parts.isEmpty then none else some ⟨name.parts.dropLast⟩

/-- The last component, empty for the global scope. -/
def simple (name : ScopedName) : String :=
  name.parts.getLast?.getD ""

/-- The number of components. -/
def length (name : ScopedName) : Nat :=
  name.parts.length

/-- The global scope has no component. -/
def isRoot (name : ScopedName) : Bool :=
  name.parts.isEmpty

/-- The name followed by the components of another. -/
def append (scope name : ScopedName) : ScopedName :=
  ⟨scope.parts ++ name.parts⟩

/-- The scope and all scopes around it, innermost first, the global scope last. -/
def enclosing (scope : ScopedName) : List ScopedName :=
  (List.range (scope.length + 1)).reverse.map fun depth => ⟨scope.parts.take depth⟩

/-- A reference that starts with `::` is read from the global scope only. -/
def isAbsolute (reference : String) : Bool :=
  [':', ':'].isPrefixOf (Text.trimFront reference.toList)

/-- The names that `reference` may stand for when used inside `scope`, in the order in which
they are tried. -/
def candidates (scope : ScopedName) (reference : String) : List ScopedName :=
  if isAbsolute reference then [ofText reference]
  else scope.enclosing.map (·.append (ofText reference))

/-- Names are ordered component by component, components by code points. -/
def le (a b : ScopedName) : Bool :=
  !b.parts.lex a.parts fun first second => decide (first < second)

end ScopedName

end IdlBridge
