import IdlBridge.Document.Resolution
import IdlBridge.Proofs.Document.Registration

/-!
# Items of a document

The first half of loading goes down into modules and interfaces. Seen from above it reads a list:
the elements of a document in the order in which they begin, each with the number that the next
declaration gets, the place it stands in and the elements around it (`Element.items`). Reading an
item looks at nothing but the item itself (`Item.read`), and what has been read is put into the
outline without any further check (`Outline.put`).

So a document is outlined by reading all its items and putting down what they say, one after another
(`Outline.ofRoot_eq_ok_iff`). Whether that succeeds depends on no order at all.
-/

set_option autoImplicit false

namespace IdlBridge

open Markup

/-! ## Places and items -/

/-- Where an element stands. -/
inductive Place
  | outermost
  | module (id : DeclId)
  | interface (id : DeclId)
  deriving DecidableEq, Repr

namespace Place

/-- The declaration whose place it is. -/
def parent? : Place → Option DeclId
  | outermost => none
  | module id | interface id => some id

/-- The place in which definitions stand. -/
def ofScope : Option DeclId → Place
  | none => outermost
  | some id => module id

/-- Definitions stand outside interfaces. -/
def isScope : Place → Bool
  | interface _ => false
  | _ => true

/-- The place that an element opens for its children, given its number. -/
def inner? : Place → DeclId → String → Option Place
  | interface _, _, _ => none
  | _, id, "module" => some (module id)
  | _, id, "interface" => some (interface id)
  | _, _, _ => none

end Place

/-- An element of a document in its place. -/
structure Item where
  /-- The number of the first declaration that follows. -/
  id : Nat
  place : Place
  element : Element
  /-- The elements around it, the innermost first and the root last. -/
  outer : List Element

/-- The file that an element belongs to: the one it names, or else the nearest around it does. -/
def chainFile (chain : List Element) : String :=
  (chain.findSome? (·.attr? "file")).getD ""

/-- The scope inside the first of the elements. The root has no name. -/
def chainScope : List Element → ScopedName
  | [] | [_] => .root
  | element :: outer => (chainScope outer).child ((element.attr? "name").getD "")

namespace Item

/-- The file that the item belongs to. -/
def file (item : Item) : String :=
  chainFile (item.element :: item.outer)

/-- The scope in which the item stands. -/
def scope (item : Item) : ScopedName :=
  chainScope item.outer

/-- The scope around the declaration in which the item stands. -/
def around (item : Item) : ScopedName :=
  chainScope item.outer.tail

end Item

/-- The number of declarations that an element makes by itself. -/
def Markup.Element.width (element : Element) : Nat :=
  match element.name with
  | "typedef" => 2
  | "pragma" | "inherits" => 0
  | _ => 1

/-- The number of declarations that items make. -/
def widthOf : List Item → Nat
  | [] => 0
  | item :: items => item.element.width + widthOf items

mutual

/-- An element and what stands inside it, in the order of the document. -/
def itemsOf (outer : List Element) (place : Place) (next : Nat) : Element → List Item
  | ⟨tag, attrs, children, text⟩ =>
    ⟨next, place, ⟨tag, attrs, children, text⟩, outer⟩ ::
      match place.inner? next tag with
      | some inner => itemsIn (⟨tag, attrs, children, text⟩ :: outer) inner (next + 1) children
      | none => []

/-- Elements and what stands inside them, in the order of the document. -/
def itemsIn (outer : List Element) (place : Place) (next : Nat) : List Element → List Item
  | [] => []
  | element :: elements =>
    itemsOf outer place next element ++
      itemsIn outer place (next + widthOf (itemsOf outer place next element)) elements

end

/-- The items of a document with the given root. -/
def Markup.Element.items (root : Element) : List Item :=
  itemsIn [root] .outermost 0 root.children

/-! ## Reading an item -/

/-- What an item says. -/
inductive Content
  | module (name : String)
  | interface (name : String)
  | forward (name : String)
  | typedef (name expression : String)
  | enum (name : String) (enumerators : List String)
  | operation (name returns : String) (params : List ParameterText)
  | attributes (names : List String) (readonly : Bool) (type : String)
  | pragma (interface : DeclId) (pragma : Pragma)
  | base (interface : DeclId) (reference : String)
  deriving DecidableEq, Repr

namespace Content

/-- The number of declarations that a content makes. -/
def width : Content → Nat
  | typedef _ _ => 2
  | pragma _ _ | base _ _ => 0
  | _ => 1

/-- Reads a typedef. -/
def ofTypedef (element : Element) : Except LoadError Content := do
  let name ← element.required "name"
  let expression ← element.required "type"
  .ok (typedef name expression)

/-- Reads an enumeration. -/
def ofEnum (element : Element) : Except LoadError Content := do
  let enumerators ← element.children.mapM Outline.readEnumerator
  let name ← element.required "name"
  .ok (enum name enumerators)

/-- Reads an operation. -/
def ofOperation (element : Element) : Except LoadError Content := do
  let name ← element.required "name"
  let params ← element.children.mapM Outline.readParameter
  .ok (operation name ((element.attr? "returns").getD "void") params)

/-- Reads a group of attributes. -/
def ofAttributes (element : Element) : Except LoadError Content := do
  let listed ← Outline.attributeNames element
  let names := Text.words listed
  if names.isEmpty then .error (.invalidAttribute "attribute" "names" listed)
  let readonly ← element.flag "readonly"
  let type ← element.required "type"
  .ok (attributes names readonly type)

/-- Reads a part of an interface. -/
def ofPart (interface : DeclId) (element : Element) : Except LoadError Content :=
  match element.name with
  | "pragma" => .ok (pragma interface (.ofText element.text))
  | "inherits" => (element.required "ref").map (base interface)
  | "operation" => ofOperation element
  | "attribute" => ofAttributes element
  | "typedef" => ofTypedef element
  | "enum" => ofEnum element
  | other => .error (.unknownElement other "interface")

/-- Reads a definition. -/
def ofDefinition (context : String) (element : Element) : Except LoadError Content :=
  match element.name with
  | "module" => (element.required "name").map module
  | "interface" => (element.required "name").map interface
  | "forward" => (element.required "name").map forward
  | "typedef" => ofTypedef element
  | "enum" => ofEnum element
  | other => .error (.unknownElement other context)

end Content

/-- The name of the element around an item. -/
def Item.context (item : Item) : String :=
  (item.outer.head?.map (·.name)).getD ""

/-- Reads an item. -/
def Item.read (item : Item) : Except LoadError Content :=
  match item.place with
  | .interface id => Content.ofPart id item.element
  | _ => Content.ofDefinition item.context item.element

/-! ## What an element carries -/

/-- A parameter as an element describes it. -/
def ParameterText.Of (param : ParameterText) (element : Element) : Prop :=
  element.name = "param" ∧ element.attr? "name" = some param.name ∧
    (element.attr? "direction").bind Direction.ofText? = some param.direction ∧
    element.attr? "type" = some param.type

/-- The names of a group of attributes as an element lists them. -/
def ListsNames (element : Element) (names : List String) : Prop :=
  ∃ listed, (element.attr? "names").or (element.attr? "name") = some listed ∧
    names = Text.words listed ∧ names ≠ []

/-- The element of the item stands where it can be read, and carries the content. -/
def Item.Carries (item : Item) : Content → Prop
  | .module name => item.place.isScope ∧ item.element.name = "module" ∧
      item.element.attr? "name" = some name
  | .interface name => item.place.isScope ∧ item.element.name = "interface" ∧
      item.element.attr? "name" = some name
  | .forward name => item.place.isScope ∧ item.element.name = "forward" ∧
      item.element.attr? "name" = some name
  | .typedef name expression => item.element.name = "typedef" ∧
      item.element.attr? "name" = some name ∧ item.element.attr? "type" = some expression
  | .enum name enumerators => item.element.name = "enum" ∧
      item.element.attr? "name" = some name ∧
      List.Forall₂ (fun child text => child.name = "enumerator" ∧ child.attr? "name" = some text)
        item.element.children enumerators
  | .operation name returns params => ¬ item.place.isScope ∧ item.element.name = "operation" ∧
      item.element.attr? "name" = some name ∧
      returns = (item.element.attr? "returns").getD "void" ∧
      List.Forall₂ (fun child param => ParameterText.Of param child) item.element.children params
  | .attributes names readonly type => ¬ item.place.isScope ∧ item.element.name = "attribute" ∧
      ListsNames item.element names ∧ item.element.flag "readonly" = .ok readonly ∧
      item.element.attr? "type" = some type
  | .pragma interface pragma => item.place = .interface interface ∧
      item.element.name = "pragma" ∧ pragma = .ofText item.element.text
  | .base interface reference => item.place = .interface interface ∧
      item.element.name = "inherits" ∧ item.element.attr? "ref" = some reference

theorem required_eq_ok_iff {element : Element} {key value : String} :
    element.required key = .ok value ↔ element.attr? key = some value := by
  rw [Element.required]
  cases element.attr? key <;> simp

namespace Content

variable {element : Element} {content : Content}

theorem readEnumerator_eq_ok_iff {text : String} :
    Outline.readEnumerator element = .ok text ↔
      element.name = "enumerator" ∧ element.attr? "name" = some text := by
  rw [Outline.readEnumerator]
  split <;> simp [required_eq_ok_iff, *]

theorem readParameter_eq_ok_iff {param : ParameterText} :
    Outline.readParameter element = .ok param ↔ param.Of element := by
  rw [Outline.readParameter, ParameterText.Of]
  by_cases tag : element.name = "param"
  · cases direction : element.attr? "direction" with
    | none => simp [tag, direction, bind_eq_ok_iff, required_eq_ok_iff]
    | some keyword =>
      cases read : Direction.ofText? keyword with
      | none => simp [tag, direction, read, bind_eq_ok_iff, required_eq_ok_iff]
      | some way =>
        simp only [tag, ne_eq, not_true_eq_false, if_false, bind_eq_ok_iff, required_eq_ok_iff,
          direction, Option.some.injEq, exists_eq_left', read, Except.ok.injEq, Option.bind_some,
          true_and]
        constructor
        · rintro ⟨name, named, type, typed, rfl⟩
          exact ⟨named, rfl, typed⟩
        · rintro ⟨named, rfl, typed⟩
          exact ⟨_, named, _, typed, rfl⟩
  · simp [tag, bind_eq_ok_iff]

theorem ofTypedef_eq_ok_iff :
    ofTypedef element = .ok content ↔ ∃ name expression, content = typedef name expression ∧
      element.attr? "name" = some name ∧ element.attr? "type" = some expression := by
  simp only [ofTypedef, bind_eq_ok_iff, required_eq_ok_iff, Except.ok.injEq]
  constructor
  · rintro ⟨name, named, expression, typed, rfl⟩
    exact ⟨name, expression, rfl, named, typed⟩
  · rintro ⟨name, expression, rfl, named, typed⟩
    exact ⟨name, named, expression, typed, rfl⟩

theorem ofEnum_eq_ok_iff :
    ofEnum element = .ok content ↔ ∃ name enumerators, content = enum name enumerators ∧
      element.attr? "name" = some name ∧
      List.Forall₂ (fun child text => child.name = "enumerator" ∧ child.attr? "name" = some text)
        element.children enumerators := by
  simp only [ofEnum, bind_eq_ok_iff, required_eq_ok_iff, mapM_eq_ok_iff,
    readEnumerator_eq_ok_iff, Except.ok.injEq]
  constructor
  · rintro ⟨enumerators, listed, name, named, rfl⟩
    exact ⟨name, enumerators, rfl, named, listed⟩
  · rintro ⟨name, enumerators, rfl, named, listed⟩
    exact ⟨enumerators, listed, name, named, rfl⟩

theorem ofOperation_eq_ok_iff :
    ofOperation element = .ok content ↔ ∃ name params,
      content = operation name ((element.attr? "returns").getD "void") params ∧
      element.attr? "name" = some name ∧
      List.Forall₂ (fun child param => ParameterText.Of param child) element.children params := by
  simp only [ofOperation, bind_eq_ok_iff, required_eq_ok_iff, mapM_eq_ok_iff,
    readParameter_eq_ok_iff, Except.ok.injEq]
  constructor
  · rintro ⟨name, named, params, listed, rfl⟩
    exact ⟨name, params, rfl, named, listed⟩
  · rintro ⟨name, params, rfl, named, listed⟩
    exact ⟨name, named, params, listed, rfl⟩

theorem attributeNames_eq_ok_iff {listed : String} :
    Outline.attributeNames element = .ok listed ↔
      (element.attr? "names").or (element.attr? "name") = some listed := by
  rw [Outline.attributeNames]
  cases element.attr? "names" <;> cases element.attr? "name" <;> simp

theorem ofAttributes_eq_ok_iff :
    ofAttributes element = .ok content ↔ ∃ names readonly type,
      content = attributes names readonly type ∧ ListsNames element names ∧
      element.flag "readonly" = .ok readonly ∧ element.attr? "type" = some type := by
  simp only [ofAttributes, bind_eq_ok_iff, attributeNames_eq_ok_iff]
  constructor
  · rintro ⟨listed, isListed, read⟩
    split at read
    · simp [bind_eq_ok_iff] at read
    · rename_i nonempty
      simp only [bind_eq_ok_iff, required_eq_ok_iff, Except.ok.injEq] at read
      obtain ⟨readonly, flagged, type, typed, rfl⟩ := read
      exact ⟨_, readonly, type, rfl, ⟨listed, isListed, rfl, by simpa using nonempty⟩, flagged,
        typed⟩
  · rintro ⟨_, readonly, type, rfl, ⟨listed, isListed, rfl, nonempty⟩, flagged, typed⟩
    refine ⟨listed, isListed, ?_⟩
    have filled : (Text.words listed).isEmpty = false := by simpa using nonempty
    simp only [filled, Bool.false_eq_true, if_false, bind_eq_ok_iff, required_eq_ok_iff,
      Except.ok.injEq]
    exact ⟨readonly, flagged, type, typed, rfl⟩

end Content

namespace Item

variable {item : Item}

theorem read_of_isScope (isScope : item.place.isScope = true) :
    item.read = Content.ofDefinition item.context item.element := by
  rw [read]
  split
  · rename_i id place
    rw [place] at isScope
    cases isScope
  · rfl

theorem read_of_interface {id : DeclId} (place : item.place = .interface id) :
    item.read = Content.ofPart id item.element := by
  rw [read, place]

theorem exists_interface (isPart : ¬ item.place.isScope = true) :
    ∃ id, item.place = .interface id := by
  cases place : item.place with
  | interface id => exact ⟨id, rfl⟩
  | outermost | module => exact absurd (by rw [place]; rfl) isPart

theorem width_of_carries {content : Content} (carries : item.Carries content) :
    item.element.width = content.width := by
  cases content with
  | typedef | enum =>
    rw [Element.width, carries.1]
    rfl
  | _ =>
    rw [Element.width, carries.2.1]
    rfl

/-- **What is read is what the element carries.** -/
theorem read_eq_ok_iff {content : Content} : item.read = .ok content ↔ item.Carries content := by
  constructor
  · intro read
    by_cases isScope : item.place.isScope = true
    · rw [read_of_isScope isScope, Content.ofDefinition] at read
      split at read
      · obtain ⟨name, named, rfl⟩ := map_eq_ok_iff.mp read
        exact ⟨isScope, ‹_›, required_eq_ok_iff.mp named⟩
      · obtain ⟨name, named, rfl⟩ := map_eq_ok_iff.mp read
        exact ⟨isScope, ‹_›, required_eq_ok_iff.mp named⟩
      · obtain ⟨name, named, rfl⟩ := map_eq_ok_iff.mp read
        exact ⟨isScope, ‹_›, required_eq_ok_iff.mp named⟩
      · obtain ⟨name, expression, rfl, said⟩ := Content.ofTypedef_eq_ok_iff.mp read
        exact ⟨‹_›, said⟩
      · obtain ⟨name, enumerators, rfl, said⟩ := Content.ofEnum_eq_ok_iff.mp read
        exact ⟨‹_›, said⟩
      · cases read
    · obtain ⟨id, place⟩ := exists_interface isScope
      rw [read_of_interface place, Content.ofPart] at read
      split at read
      · cases read
        exact ⟨place, ‹_›, rfl⟩
      · obtain ⟨reference, written, rfl⟩ := map_eq_ok_iff.mp read
        exact ⟨place, ‹_›, required_eq_ok_iff.mp written⟩
      · obtain ⟨name, params, rfl, named, listed⟩ := Content.ofOperation_eq_ok_iff.mp read
        exact ⟨isScope, ‹_›, named, rfl, listed⟩
      · obtain ⟨names, readonly, type, rfl, said⟩ := Content.ofAttributes_eq_ok_iff.mp read
        exact ⟨isScope, ‹_›, said⟩
      · obtain ⟨name, expression, rfl, said⟩ := Content.ofTypedef_eq_ok_iff.mp read
        exact ⟨‹_›, said⟩
      · obtain ⟨name, enumerators, rfl, said⟩ := Content.ofEnum_eq_ok_iff.mp read
        exact ⟨‹_›, said⟩
      · cases read
  · intro carries
    -- Typedefs and enumerations are read alike in both kinds of places.
    have either : ∀ outcome, Content.ofDefinition item.context item.element = outcome →
        (∀ id, Content.ofPart id item.element = outcome) → item.read = outcome := by
      intro outcome asDefinition asPart
      by_cases isScope : item.place.isScope = true
      · rw [read_of_isScope isScope, asDefinition]
      · obtain ⟨id, place⟩ := exists_interface isScope
        rw [read_of_interface place, asPart]
    cases content with
    | module name | interface name | forward name =>
      obtain ⟨isScope, tag, named⟩ := carries
      rw [read_of_isScope isScope, Content.ofDefinition, tag]
      exact map_eq_ok_iff.mpr ⟨name, required_eq_ok_iff.mpr named, rfl⟩
    | typedef name expression =>
      obtain ⟨tag, named, typed⟩ := carries
      have read := Content.ofTypedef_eq_ok_iff.mpr ⟨name, expression, rfl, named, typed⟩
      refine either _ ?_ fun id => ?_
      · rw [Content.ofDefinition, tag]
        exact read
      · rw [Content.ofPart, tag]
        exact read
    | enum name enumerators =>
      obtain ⟨tag, named, listed⟩ := carries
      have read := Content.ofEnum_eq_ok_iff.mpr ⟨name, enumerators, rfl, named, listed⟩
      refine either _ ?_ fun id => ?_
      · rw [Content.ofDefinition, tag]
        exact read
      · rw [Content.ofPart, tag]
        exact read
    | operation name returns params =>
      obtain ⟨isPart, tag, named, rfl, listed⟩ := carries
      obtain ⟨id, place⟩ := exists_interface isPart
      rw [read_of_interface place, Content.ofPart, tag]
      exact Content.ofOperation_eq_ok_iff.mpr ⟨name, params, rfl, named, listed⟩
    | attributes names readonly type =>
      obtain ⟨isPart, tag, listed, flagged, typed⟩ := carries
      obtain ⟨id, place⟩ := exists_interface isPart
      rw [read_of_interface place, Content.ofPart, tag]
      exact Content.ofAttributes_eq_ok_iff.mpr ⟨names, readonly, type, rfl, listed, flagged, typed⟩
    | pragma id pragma =>
      obtain ⟨place, tag, rfl⟩ := carries
      rw [read_of_interface place, Content.ofPart, tag]
      rfl
    | base id reference =>
      obtain ⟨place, tag, written⟩ := carries
      rw [read_of_interface place, Content.ofPart, tag]
      exact map_eq_ok_iff.mpr ⟨reference, required_eq_ok_iff.mpr written, rfl⟩

end Item

/-! ## Putting down what has been read -/

namespace Outline

/-- Puts down what has been read inside `parent`. Bases are looked up from the scope around it. -/
def record (outline : Outline) (parent : Option DeclId) (around : ScopedName) : Content → Outline
  | .module name => outline.mapDraft (·.addModule parent name)
  | .interface name => outline.mapDraft (·.addInterface parent name)
  | .forward name => outline.mapDraft (·.addForward parent name)
  | .typedef name expression =>
    { outline with
      draft := outline.draft.addTypedef parent name .void
      aliases := outline.aliases ++ [⟨outline.draft.nextDeclarator,
        outline.draft.memberName parent name, expression, outline.scopeOf parent⟩] }
  | .enum name enumerators => outline.mapDraft (·.addEnum parent name enumerators)
  | .operation name returns params =>
    { outline with
      draft := outline.draft.addOperation parent name
        ⟨.void, params.map fun param => ⟨param.name, .void, param.direction⟩⟩
      callables := outline.callables ++
        [⟨outline.draft.nextId, .operation returns params, outline.scopeOf parent⟩] }
  | .attributes names readonly type =>
    { outline with
      draft := outline.draft.addAttributes parent ⟨.void, readonly, names⟩
      callables := outline.callables ++
        [⟨outline.draft.nextId, .attributes type, outline.scopeOf parent⟩] }
  | .pragma interface pragma => outline.mapDraft (·.addPragma interface pragma)
  | .base interface reference =>
    { outline with bases := outline.bases ++ [⟨interface, reference, around⟩] }

/-- Puts down what an item says. -/
def put (outline : Outline) (item : Item) (content : Content) : Outline :=
  (outline.mapDraft (·.setFile item.file)).record item.place.parent? item.around content

/-- Reads an item and puts it down. -/
def addItem (outline : Outline) (item : Item) : Except LoadError Outline :=
  item.read.map (outline.put item)

/-! ## Loading reads items one after another -/

theorem chainFile_cons (element : Element) (outer : List Element) :
    chainFile (element :: outer) = (element.attr? "file").getD (chainFile outer) := by
  rw [chainFile, List.findSome?_cons, chainFile]
  cases element.attr? "file" <;> rfl

theorem chainScope_cons {outer : List Element} (nested : outer ≠ []) (element : Element) :
    chainScope (element :: outer) =
      (chainScope outer).child ((element.attr? "name").getD "") := by
  cases outer with
  | nil => exact absurd rfl nested
  | cons first rest => rfl

section Reading

variable (outline : Outline) (parent : Option DeclId) (around : ScopedName) (element : Element)

theorem addTypedef_eq_map :
    outline.addTypedef parent element =
      (Content.ofTypedef element).map (outline.record parent around) := by
  rw [addTypedef, Content.ofTypedef]
  cases element.required "name" <;> cases element.required "type" <;> rfl

theorem addEnum_eq_map :
    outline.addEnum parent element =
      (Content.ofEnum element).map (outline.record parent around) := by
  rw [addEnum, Content.ofEnum]
  cases element.children.mapM readEnumerator <;> cases element.required "name" <;> rfl

theorem addOperation_eq_map (interface : DeclId) :
    outline.addOperation interface element =
      (Content.ofOperation element).map (outline.record (some interface) around) := by
  rw [addOperation, Content.ofOperation]
  cases element.required "name" <;> cases element.children.mapM readParameter <;> rfl

theorem addAttributes_eq_map (interface : DeclId) :
    outline.addAttributes interface element =
      (Content.ofAttributes element).map (outline.record (some interface) around) := by
  rw [addAttributes, Content.ofAttributes]
  cases attributeNames element with
  | error cause => rfl
  | ok listed =>
    simp only [bind, Except.bind]
    split
    · rfl
    · cases element.flag "readonly" <;> cases element.required "type" <;> rfl

end Reading

/-- Adding a part of an interface is adding an item. -/
theorem addPart_eq_addItem (interface next : DeclId) (outline : Outline) (element : Element)
    (outer : List Element) :
    addPart interface (chainScope outer.tail) (chainFile outer) outline element =
      outline.addItem ⟨next, .interface interface, element, outer⟩ := by
  obtain ⟨tag, attrs, children, text⟩ := element
  rw [addPart, ← chainFile_cons]
  simp only [addItem, Item.read, Content.ofPart]
  split
  · rfl
  · cases Element.required ⟨"inherits", attrs, children, text⟩ "ref" <;> rfl
  · exact addOperation_eq_map _ _ _ interface
  · exact addAttributes_eq_map _ _ _ interface
  · exact addTypedef_eq_map _ _ _ _
  · exact addEnum_eq_map _ _ _ _
  · simp only [*, Except.map]

/-- What a declaration starts from: its parent is there, in the scope of the elements around. -/
structure Around (outline : Outline) (parent : Option DeclId) (outer : List Element) : Prop where
  known : outline.draft.Knows parent
  scope : outline.scopeOf parent = chainScope outer

/-- What stands around an element stays there. -/
theorem Around.of_extends {outline larger : Outline} {parent : Option DeclId}
    {outer : List Element} (around : outline.Around parent outer)
    (extended : outline.Extends larger) : larger.Around parent outer := by
  refine ⟨extended.knows around.known, ?_⟩
  rw [← around.scope]
  cases parent with
  | none => rfl
  | some id => exact DeclTree.scopedName_of_prefix extended.grows (around.known id rfl)

theorem nextId_record (outline : Outline) (parent : Option DeclId) (around : ScopedName)
    (content : Content) :
    (outline.record parent around content).draft.nextId =
      outline.draft.nextId + content.width := by
  cases content with
  | typedef name expression => exact Draft.size_addTypedef ..
  | interface name => exact Draft.size_addInterface ..
  | pragma interface pragma => exact Draft.size_modifyKind ..
  | base interface reference => rfl
  | module | forward | enum | operation | attributes => exact Draft.size_add ..

/-- An item makes as many declarations as its element says. -/
theorem nextId_addItem {outline larger : Outline} {item : Item}
    (added : outline.addItem item = .ok larger) :
    larger.draft.nextId = outline.draft.nextId + item.element.width := by
  obtain ⟨content, read, rfl⟩ := map_eq_ok_iff.mp added
  rw [Item.width_of_carries (Item.read_eq_ok_iff.mp read)]
  exact nextId_record ..

theorem nextId_foldlM {items : List Item} {outline larger : Outline}
    (added : items.foldlM addItem outline = .ok larger) :
    larger.draft.nextId = outline.draft.nextId + widthOf items := by
  induction items generalizing outline with
  | nil =>
    cases added
    rfl
  | cons item items ih =>
    rw [List.foldlM_cons, bind_eq_ok_iff] at added
    obtain ⟨middle, first, rest⟩ := added
    rw [ih rest, nextId_addItem first, widthOf, Nat.add_assoc]

/-- Adding the parts of an interface is adding their items. -/
theorem foldlM_addPart_eq (interface : DeclId) (outer : List Element) (parts : List Element)
    (outline : Outline) :
    parts.foldlM (addPart interface (chainScope outer.tail) (chainFile outer)) outline =
      (itemsIn outer (.interface interface) outline.draft.nextId parts).foldlM addItem outline := by
  induction parts generalizing outline with
  | nil => rfl
  | cons part parts ih =>
    have single : itemsOf outer (.interface interface) outline.draft.nextId part =
        [⟨outline.draft.nextId, .interface interface, part, outer⟩] := by
      obtain ⟨tag, attrs, children, text⟩ := part
      rfl
    rw [List.foldlM_cons, addPart_eq_addItem interface outline.draft.nextId, itemsIn, single,
      List.singleton_append, List.foldlM_cons]
    refine bind_congr_ok fun middle added => ?_
    rw [ih middle, nextId_addItem added]
    rfl

/-- A definition opens a scope of its own name. -/
theorem Around.child {outline larger : Outline} {parent : Option DeclId} {outer : List Element}
    (around : outline.Around parent outer) (nested : outer ≠ []) {element : Element} {name : String}
    (named : element.required "name" = .ok name) {decl : Decl}
    (appended : larger.draft.tree.bare = outline.draft.tree.bare ++ [decl])
    (own : decl.scopedName = outline.draft.memberName parent name) :
    larger.Around (some outline.draft.nextId) (element :: outer) := by
  constructor
  · intro id isParent
    cases isParent
    have longer := congrArg List.length appended
    rw [DeclTree.length_bare, List.length_append, DeclTree.length_bare] at longer
    show outline.draft.tree.size < larger.draft.tree.size
    rw [longer]
    exact Nat.lt_succ_self _
  · have scope : larger.scopeOf (some outline.draft.nextId) = decl.scopedName := by
      rw [scopeOf, DeclTree.scopedName_eq_bare, appended]
      simp [Draft.nextId, ← DeclTree.length_bare]
    rw [scope, own, memberName_eq_child, around.scope, chainScope_cons nested,
      required_eq_ok_iff.mp named, Option.getD_some]

mutual

theorem addDefinition_eq (parent : Option DeclId) (outer : List Element) (nested : outer ≠ [])
    (outline : Outline) (around : outline.Around parent outer) :
    ∀ element : Element,
      addDefinition ((outer.head?.map (·.name)).getD "") parent (chainFile outer) outline element =
        (itemsOf outer (.ofScope parent) outline.draft.nextId element).foldlM addItem outline
  | ⟨tag, attrs, children, text⟩ => by
    let element : Element := ⟨tag, attrs, children, text⟩
    let item : Item := ⟨outline.draft.nextId, .ofScope parent, element, outer⟩
    let switched := outline.mapDraft (·.setFile (chainFile (element :: outer)))
    have isScope : (Place.ofScope parent).isScope = true := by cases parent <;> rfl
    have own : (Place.ofScope parent).parent? = parent := by cases parent <;> rfl
    have read : item.read = Content.ofDefinition ((outer.head?.map (·.name)).getD "") element :=
      Item.read_of_isScope isScope
    have written : ∀ content,
        outline.put item content = switched.record parent item.around content := by
      intro content
      rw [put, own]
      rfl
    have stays : switched.Around parent outer := around.of_extends (.of_bare_eq rfl)
    unfold addDefinition itemsOf
    rw [List.foldlM_cons, addItem, read, funext written]
    simp only [Content.ofDefinition, element, ← chainFile_cons]
    split
    · have inner : (Place.ofScope parent).inner? outline.draft.nextId "module" =
          some (.module outline.draft.nextId) := by cases parent <;> rfl
      rw [inner]
      cases named : element.required "name" with
      | error cause => rfl
      | ok name =>
        have appended : (switched.mapDraft (·.addModule parent name)).draft.tree.bare = _ :=
          Draft.bare_add switched.draft parent name (.module [])
        have body := addDefinitions_eq _ (element :: outer) (List.cons_ne_nil _ _) _
          (stays.child nested named appended rfl) children
        rw [show (switched.mapDraft (·.addModule parent name)).draft.nextId =
          outline.draft.nextId + 1 from Draft.size_add ..] at body
        exact body
    · have inner : (Place.ofScope parent).inner? outline.draft.nextId "interface" =
          some (.interface outline.draft.nextId) := by cases parent <;> rfl
      rw [inner, addInterface]
      cases named : element.required "name" with
      | error cause => rfl
      | ok name =>
        have parts := foldlM_addPart_eq outline.draft.nextId (element :: outer) children
          (switched.mapDraft (·.addInterface parent name))
        rw [show (switched.mapDraft (·.addInterface parent name)).draft.nextId =
          outline.draft.nextId + 1 from Draft.size_addInterface .., List.tail_cons,
          ← stays.scope] at parts
        exact parts
    · have inner : (Place.ofScope parent).inner? outline.draft.nextId "forward" = none := by
        cases parent <;> rfl
      rw [inner]
      cases element.required "name" <;> rfl
    · have inner : (Place.ofScope parent).inner? outline.draft.nextId "typedef" = none := by
        cases parent <;> rfl
      rw [inner]
      exact (addTypedef_eq_map switched parent item.around element).trans (bind_pure _).symm
    · have inner : (Place.ofScope parent).inner? outline.draft.nextId "enum" = none := by
        cases parent <;> rfl
      rw [inner]
      exact (addEnum_eq_map switched parent item.around element).trans (bind_pure _).symm
    · simp only [*, Except.map]
      rfl

theorem addDefinitions_eq (parent : Option DeclId) (outer : List Element) (nested : outer ≠ [])
    (outline : Outline) (around : outline.Around parent outer) :
    ∀ elements : List Element,
      addDefinitions ((outer.head?.map (·.name)).getD "") parent (chainFile outer) outline
          elements =
        (itemsIn outer (.ofScope parent) outline.draft.nextId elements).foldlM addItem outline
  | [] => by
    rw [addDefinitions, itemsIn]
    rfl
  | element :: elements => by
    rw [addDefinitions, itemsIn, List.foldlM_append,
      addDefinition_eq parent outer nested outline around element]
    refine bind_congr_ok fun middle added => ?_
    rw [← nextId_foldlM added]
    have extended := addDefinition_extends _ parent _ outline middle around.known element
      ((addDefinition_eq parent outer nested outline around element).trans added)
    exact addDefinitions_eq parent outer nested middle (around.of_extends extended) elements

end

/-- The outline of a document before anything is read. -/
def start (root : Element) (file : String) : Outline :=
  (empty file).mapDraft (·.setFilename ((root.attr? "filename").getD file))

/-- Puts down what items carry, one after another. -/
def putAll (outline : Outline) (entries : List (Item × Content)) : Outline :=
  entries.foldl (fun outline entry => outline.put entry.1 entry.2) outline

/-- **A document is outlined by putting down what its items carry**, and it can be outlined exactly
if each item carries something. -/
theorem ofRoot_eq_ok_iff {root : Element} {outline : Outline} :
    ofRoot root = .ok outline ↔ root.name = "tree" ∧ ∃ file contents,
      root.attr? "file" = some file ∧ List.Forall₂ Item.Carries root.items contents ∧
      (start root file).putAll (root.items.zip contents) = outline := by
  rw [ofRoot]
  by_cases tag : root.name = "tree"
  · simp only [tag, ne_eq, not_true_eq_false, if_false, bind_eq_ok_iff, required_eq_ok_iff,
      true_and, exists_and_left]
    refine exists_congr fun file => and_congr_right fun named => ?_
    have own : chainFile [root] = file := by rw [chainFile_cons, named, Option.getD_some]
    have around : (start root file).Around none [root] := ⟨Draft.knows_none _, rfl⟩
    have loaded := addDefinitions_eq none [root] (List.cons_ne_nil _ _) (start root file) around
      root.children
    rw [own, show ((List.head? [root]).map (·.name)).getD "" = "tree" from tag] at loaded
    have read := @foldlM_map_eq_ok_iff _ _ _ _ Item.read put root.items (start root file) outline
    simp only [Item.read_eq_ok_iff] at read
    exact (iff_of_eq (congrArg (· = Except.ok outline) loaded)).trans read
  · simp [tag, bind_eq_ok_iff]

end Outline

end IdlBridge
