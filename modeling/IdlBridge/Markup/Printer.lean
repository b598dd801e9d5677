import IdlBridge.Markup.Element

/-!
# Writing elements

The written form of an element is its start tag, its text, its children and its end tag. An
element without text and children is written as one empty tag. Values stand between double
quotes, with references in place of the marks. Blanks may stand between tags and in front of the
slash of an empty tag.
-/

set_option autoImplicit false

namespace IdlBridge.Markup

/-- The written form of attributes, each behind a blank. -/
def renderAttrs (attrs : List (String × String)) : List Char :=
  attrs.flatMap fun (key, value) =>
    ' ' :: key.toList ++ ['=', '"'] ++ escape value.toList ++ ['"']

/-- What starts the written form of an element. -/
def renderTag (name : String) (attrs : List (String × String)) : List Char :=
  '<' :: name.toList ++ renderAttrs attrs

/-- The blanks of a written document. -/
structure Spacing where
  beforeSlash : List Char
  betweenTags : List Char
  deriving DecidableEq, Repr, Inhabited

mutual

/-- The characters of an element's written form. -/
def Element.render (spacing : Spacing) : Element → List Char
  | ⟨name, attrs, children, text⟩ =>
    if children.isEmpty && text.isEmpty then
      renderTag name attrs ++ spacing.beforeSlash ++ ['/', '>']
    else
      renderTag name attrs ++ ['>'] ++ text.toList ++ renderAll spacing children ++
        spacing.betweenTags ++ ['<', '/'] ++ name.toList ++ ['>']

/-- The characters of the written forms of elements, one after the other. -/
def renderAll (spacing : Spacing) : List Element → List Char
  | [] => []
  | element :: elements =>
    spacing.betweenTags ++ element.render spacing ++ renderAll spacing elements

end

/-- The document that consists of one element. -/
def Element.toDocument (spacing : Spacing) (element : Element) : String :=
  String.ofList (element.render spacing)

end IdlBridge.Markup
