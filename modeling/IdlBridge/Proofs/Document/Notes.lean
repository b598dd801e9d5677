import IdlBridge.Proofs.Document.Offers
import IdlBridge.Proofs.Document.Unannotated
import IdlBridge.Proofs.Markup.Holes

/-!
# Documents that differ in the text of a pragma

Loading goes through the items of a document and puts down what it has read from each. A `Note` is
all that is taken from an item. The notes of documents that differ in the text of one pragma differ
in the note of this pragma only (`Markup.Hole.exists_items`), so the outlines are the same up to
pragmas (`DiffersAt.exists_outline`), and the loaded trees differ in the one pragma
(`Markup.Hole.loads_setPragma`).
-/

set_option autoImplicit false

namespace IdlBridge

open Markup

/-! ## What is put down for an item -/

/-- The name and the attributes of an element. -/
def Markup.Element.tag (element : Element) : String × List (String × String) :=
  (element.name, element.attrs)

/-- All that an outline takes from an item. -/
structure Note where
  file : String
  place : Place
  scope : ScopedName
  around : ScopedName
  width : Nat
  read : Except LoadError Content

def Item.note (item : Item) : Note :=
  ⟨item.file, item.place, item.scope, item.around, item.element.width, item.read⟩

section Tags

variable {outer other : List Element}

theorem attr?_of_tag {element second : Element} (same : second.tag = element.tag) (key : String) :
    second.attr? key = element.attr? key :=
  congrArg (fun tag => tag.2.lookup key) same

theorem chainFile_of_tags (same : other.map Element.tag = outer.map Element.tag) :
    chainFile other = chainFile outer := by
  have read : ∀ chain : List Element, chain.findSome? (·.attr? "file") =
      (chain.map Element.tag).findSome? fun tag => tag.2.lookup "file" := by
    intro chain
    rw [List.findSome?_map]
    rfl
  rw [chainFile, chainFile, read, read, same]

theorem chainScope_of_tags (same : other.map Element.tag = outer.map Element.tag) :
    chainScope other = chainScope outer := by
  induction other generalizing outer with
  | nil =>
    cases outer with
    | nil => rfl
    | cons => cases same
  | cons second other ih =>
    cases outer with
    | nil => cases same
    | cons first outer =>
      obtain ⟨own, rest⟩ := List.cons.inj same
      cases other with
      | nil =>
        cases outer with
        | nil => rfl
        | cons => cases rest
      | cons third other =>
        cases outer with
        | nil => cases rest
        | cons fourth outer =>
          rw [Outline.chainScope_cons (List.cons_ne_nil _ _),
            Outline.chainScope_cons (List.cons_ne_nil _ _), ih rest, attr?_of_tag own]

/-- What is put down depends on the tags around an item only. -/
theorem Item.note_of_tags (same : other.map Element.tag = outer.map Element.tag) (next : Nat)
    (place : Place) (element : Element) :
    (Item.mk next place element other).note = (Item.mk next place element outer).note := by
  have file : chainFile (element :: other) = chainFile (element :: outer) := by
    apply chainFile_of_tags
    rw [List.map_cons, List.map_cons, same]
  have around : chainScope other.tail = chainScope outer.tail := by
    apply chainScope_of_tags
    rw [List.map_tail, List.map_tail, same]
  have context : (Item.mk next place element other).context =
      (Item.mk next place element outer).context := by
    have named : ∀ chain : List Element, chain.head?.map (·.name) =
        (chain.map Element.tag).head?.map Prod.fst := by
      intro chain
      rw [List.head?_map, Option.map_map]
      rfl
    rw [context, context, named, named, same]
  have read : (Item.mk next place element other).read =
      (Item.mk next place element outer).read := by
    rw [Item.read, Item.read, context]
  rw [note, note, Item.file, Item.file, Item.scope, Item.scope, Item.around, Item.around, file,
    chainScope_of_tags same, around, read]

end Tags

/-- The number of declarations that noted items make. -/
def widthOfNotes : List Note → Nat
  | [] => 0
  | note :: notes => note.width + widthOfNotes notes

theorem widthOfNotes_map (items : List Item) :
    widthOfNotes (items.map Item.note) = widthOf items := by
  induction items with
  | nil => rfl
  | cons item items ih =>
    rw [List.map_cons, widthOfNotes, ih]
    rfl

theorem Place.isScope_of_inner? {place inner : Place} {id : DeclId} {tag : String}
    (opens : place.inner? id tag = some inner) :
    place.isScope = true ∧ (tag = "module" ∨ tag = "interface") := by
  fun_cases Place.inner? place id tag <;> simp_all [Place.inner?, Place.isScope]

/-- Of an element that opens a place, only the tag is put down. -/
theorem Item.note_of_tag {element second : Element} (same : second.tag = element.tag) {next : Nat}
    {place inner : Place} (opens : place.inner? next element.name = some inner)
    (outer : List Element) :
    (Item.mk next place second outer).note = (Item.mk next place element outer).note := by
  obtain ⟨isScope, named⟩ := Place.isScope_of_inner? opens
  have sameName : second.name = element.name := congrArg Prod.fst same
  have sameOwn : second.required "name" = element.required "name" := by
    rw [Element.required, Element.required, attr?_of_tag same, sameName]
  have file : chainFile (second :: outer) = chainFile (element :: outer) := by
    apply chainFile_of_tags
    rw [List.map_cons, List.map_cons, same]
  have width : second.width = element.width := by
    rw [Element.width, Element.width, sameName]
  have read : (Item.mk next place second outer).read = (Item.mk next place element outer).read := by
    rw [Item.read_of_isScope isScope, Item.read_of_isScope isScope]
    rcases named with isModule | isInterface
    · simp [Content.ofDefinition, sameName, isModule, sameOwn]
    · simp [Content.ofDefinition, sameName, isInterface, sameOwn]
  rw [note, note, Item.file, Item.file, file, read]
  simp [width, Item.scope, Item.around]

theorem itemsOf_of_inner? {place inner : Place} {next : Nat} {element : Element}
    (opens : place.inner? next element.name = some inner) (outer : List Element) :
    itemsOf outer place next element =
      ⟨next, place, element, outer⟩ :: itemsIn (element :: outer) inner (next + 1)
        element.children := by
  cases element
  rw [itemsOf, opens]

theorem itemsOf_interface (outer : List Element) (id : DeclId) (next : Nat) (element : Element) :
    itemsOf outer (.interface id) next element = [⟨next, .interface id, element, outer⟩] := by
  cases element
  rw [itemsOf, Place.inner?]

mutual

theorem notes_itemsOf {outer other : List Element}
    (same : other.map Element.tag = outer.map Element.tag) (place : Place) (next : Nat) :
    ∀ element : Element, (itemsOf other place next element).map Item.note =
      (itemsOf outer place next element).map Item.note
  | ⟨tag, attrs, children, text⟩ => by
    rw [itemsOf, itemsOf, List.map_cons, List.map_cons, Item.note_of_tags same]
    congr 1
    split
    · refine notes_itemsIn ?_ _ _ children
      rw [List.map_cons, List.map_cons, same]
    · rfl

theorem notes_itemsIn {outer other : List Element}
    (same : other.map Element.tag = outer.map Element.tag) (place : Place) (next : Nat) :
    ∀ elements : List Element, (itemsIn other place next elements).map Item.note =
      (itemsIn outer place next elements).map Item.note
  | [] => rfl
  | element :: elements => by
    have first := notes_itemsOf same place next element
    rw [itemsIn, itemsIn, List.map_append, List.map_append, ← widthOfNotes_map, first,
      widthOfNotes_map, notes_itemsIn same place _ elements]

end

theorem itemsIn_append (outer : List Element) (place : Place) (next : Nat)
    (first second : List Element) :
    itemsIn outer place next (first ++ second) = itemsIn outer place next first ++
      itemsIn outer place (next + widthOf (itemsIn outer place next first)) second := by
  induction first generalizing next with
  | nil => rfl
  | cons element first ih =>
    rw [List.cons_append, itemsIn, ih, itemsIn, widthOf_append, List.append_assoc, Nat.add_assoc]

/-! ## Documents that differ in the text of a pragma -/

/-- The chain leads from an interface outwards through modules. -/
def IsNest (interface : Element) (chain : List Element) : Prop :=
  interface.name = "interface" ∧ ∃ modules, chain = interface :: modules ∧
    ∀ element ∈ modules, element.name = "module"

theorem IsNest.of_append {interface element : Element} {chain : List Element}
    (nest : IsNest interface (chain ++ [element])) (nonempty : chain ≠ []) :
    IsNest interface chain ∧ element.name = "module" := by
  obtain ⟨isInterface, modules, same, areModules⟩ := nest
  cases chain with
  | nil => exact absurd rfl nonempty
  | cons first chain =>
    obtain ⟨rfl, rfl⟩ := List.cons.inj same
    exact ⟨⟨isInterface, chain, rfl, fun inner isInner =>
      areModules inner (List.mem_append_left _ isInner)⟩,
      areModules element (List.mem_append_right _ (List.mem_singleton_self _))⟩

/-- A pragma with the given text. -/
def pragmaElement (attrs : List (String × String)) (text : String) : Element :=
  ⟨"pragma", attrs, [], text⟩

/-- What is put down for a pragma of an interface. -/
def pragmaNote (file : String) (id : DeclId) (scope around : ScopedName) (text : String) : Note :=
  ⟨file, .interface id, scope, around, 0, .ok (.pragma id (.ofText text))⟩

/-- What is put down for the items is the same for all texts, but for one item inside the given
element. -/
def DiffersAt (note : String → Note) (around : String → Element) (items : String → List Item) :
    Prop :=
  ∃ before after, ∀ text, ∃ front item back, items text = front ++ item :: back ∧
    front.map Item.note = before ∧ back.map Item.note = after ∧
    item.note = note text ∧ item.outer.head? = some (around text)

namespace DiffersAt

variable {note : String → Note} {around : String → Element} {outer : String → List Element}

theorem map_note {items : String → List Item} (differs : DiffersAt note around items) :
    ∃ before after, ∀ text, (items text).map Item.note = before ++ note text :: after := by
  obtain ⟨before, after, parts⟩ := differs
  refine ⟨before, after, fun text => ?_⟩
  obtain ⟨front, item, back, items, rfl, rfl, noted, -⟩ := parts text
  rw [items, List.map_append, List.map_cons, noted]

/-- Siblings of the element in which the item stands. -/
theorem among {inner : String → Element} {place : Place} {next : Nat} {before : List Element}
    (narrow : ∀ text, (note text).width = 0)
    (tagged : ∀ text, (outer text).map Element.tag = (outer "").map Element.tag)
    (differs : DiffersAt note around fun text => itemsOf (outer text) place
      (next + widthOf (itemsIn (outer "") place next before)) (inner text))
    (after : List Element) :
    DiffersAt note around fun text =>
      itemsIn (outer text) place next (before ++ inner text :: after) := by
  obtain ⟨first, last, parts⟩ := differs
  refine ⟨(itemsIn (outer "") place next before).map Item.note ++ first,
    last ++ (itemsIn (outer "") place (next + widthOf (itemsIn (outer "") place next before) +
      widthOfNotes (first ++ last)) after).map Item.note, fun text => ?_⟩
  obtain ⟨front, item, back, items, rfl, rfl, noted, inside⟩ := parts text
  have start : widthOf (itemsIn (outer text) place next before) =
      widthOf (itemsIn (outer "") place next before) := by
    rw [← widthOfNotes_map, notes_itemsIn (tagged text), widthOfNotes_map]
  have width : widthOf (front ++ item :: back) =
      widthOfNotes (front.map Item.note ++ back.map Item.note) := by
    have own : item.element.width = 0 := (congrArg Note.width noted).trans (narrow text)
    rw [← List.map_append, widthOfNotes_map, widthOf_append, widthOf, own, Nat.zero_add,
      widthOf_append]
  refine ⟨itemsIn (outer text) place next before ++ front, item,
    back ++ itemsIn (outer text) place (next + widthOf (itemsIn (outer "") place next before) +
      widthOfNotes (front.map Item.note ++ back.map Item.note)) after,
    ?_, ?_, ?_, noted, inside⟩
  · beta_reduce at items ⊢
    rw [itemsIn_append, itemsIn, start, items, width]
    simp
  · rw [List.map_append, notes_itemsIn (tagged text)]
  · rw [List.map_append, notes_itemsIn (tagged text)]

/-- The element that opens the place in which the item stands. -/
theorem inside {element : Element} {children : String → List Element} {place inner : Place}
    {next : Nat} (opens : place.inner? next element.name = some inner)
    (tagged : ∀ text, (outer text).map Element.tag = (outer "").map Element.tag)
    (differs : DiffersAt note around fun text =>
      itemsIn ({ element with children := children text } :: outer text) inner (next + 1)
        (children text)) :
    DiffersAt note around fun text =>
      itemsOf (outer text) place next { element with children := children text } := by
  obtain ⟨first, last, parts⟩ := differs
  refine ⟨(Item.mk next place element (outer "")).note :: first, last, fun text => ?_⟩
  obtain ⟨front, item, back, items, rfl, rfl, noted, stands⟩ := parts text
  have filled : place.inner? next { element with children := children text }.name = some inner :=
    opens
  refine ⟨⟨next, place, { element with children := children text }, outer text⟩ :: front, item,
    back, ?_, ?_, rfl, noted, stands⟩
  · exact (itemsOf_of_inner? filled _).trans (congrArg _ items)
  · have own : Element.tag { element with children := children text } = element.tag := rfl
    rw [List.map_cons, Item.note_of_tag own opens, Item.note_of_tags (tagged text)]

end DiffersAt

namespace Markup.Hole

variable {interface : Element} {chain : List Element} {fill : Element → Element}

/-- **A pragma is put down as its text is read**, and nothing else depends on it. -/
theorem exists_note (hole : Hole chain fill) (nest : IsNest interface chain)
    (outer : String → List Element)
    (tagged : ∀ text, (outer text).map Element.tag = (outer "").map Element.tag) {place : Place}
    (isScope : place.isScope = true) (next : Nat) (attrs : List (String × String)) :
    ∃ file id around siblings,
      DiffersAt (pragmaNote file id (chainScope (chain ++ outer "")) around)
        (fun text => { interface with
          children := interface.children ++ pragmaElement attrs text :: siblings })
        fun text => itemsOf (outer text) place next (fill (pragmaElement attrs text)) := by
  -- The elements around the pragma contain it, so they vary with the text. Their tags do not.
  induction hole generalizing outer place next with
  | child element siblings =>
    obtain ⟨isInterface, _, same, -⟩ := nest
    cases same
    have opens : place.inner? next interface.name = some (.interface next) := by
      simp [Place.inner?_of_isScope isScope, isInterface]
    refine ⟨chainFile (pragmaElement attrs "" :: interface :: outer ""), next,
      chainScope (outer ""), siblings, .inside opens tagged (.among (fun _ => rfl) ?_ ?_ siblings)⟩
    · exact fun text => congrArg (interface.tag :: ·) (tagged text)
    · refine ⟨[], [], fun text => ⟨[], _, [], itemsOf_interface .., rfl, rfl, ?_, rfl⟩⟩
      have tags : ({ interface with children := interface.children ++ pragmaElement attrs text ::
          siblings } :: outer text).map Element.tag = (interface :: outer "").map Element.tag :=
        congrArg (interface.tag :: ·) (tagged text)
      exact Item.note_of_tags tags ..
  | @around chain fill hole element siblings ih =>
    obtain ⟨inner, isModule⟩ := nest.of_append hole.ne_nil
    have opens : place.inner? next element.name = some (.module next) := by
      simp [Place.inner?_of_isScope isScope, isModule]
    have inModule : (Place.module next).isScope = true := rfl
    let filled := fun text => { element with
      children := element.children ++ fill (pragmaElement attrs text) :: siblings }
    have alsoTagged : ∀ text, (filled text :: outer text).map Element.tag =
        (filled "" :: outer "").map Element.tag := fun text =>
      congrArg (element.tag :: ·) (tagged text)
    obtain ⟨file, id, around, behind, differs⟩ := ih inner (fun text => filled text :: outer text)
      alsoTagged inModule (next + 1 + widthOf (itemsIn (filled "" :: outer "") (.module next)
        (next + 1) element.children))
    have scope : chainScope (chain ++ [element] ++ outer "") =
        chainScope (chain ++ filled "" :: outer "") := by
      apply chainScope_of_tags
      simp [filled, Element.tag]
    rw [scope]
    exact ⟨file, id, around, behind,
      .inside opens tagged (.among (fun _ => rfl) alsoTagged differs siblings)⟩

/-- The items of documents that differ in the text of a pragma. -/
theorem exists_items {root : Element} (hole : Hole (chain ++ [root]) fill)
    (nest : IsNest interface chain) (attrs : List (String × String)) :
    (∀ inner, (fill inner).tag = root.tag) ∧ ∃ file id around siblings,
      DiffersAt (pragmaNote file id (chainScope (chain ++ [root])) around)
        (fun text => { interface with
          children := interface.children ++ pragmaElement attrs text :: siblings })
        fun text => (fill (pragmaElement attrs text)).items := by
  generalize whole : chain ++ [root] = elements at hole
  cases hole with
  | child =>
    obtain ⟨-, modules, rfl, -⟩ := nest
    simp at whole
  | @around elements fill hole element siblings =>
    obtain ⟨rfl, same⟩ := List.append_inj' whole rfl
    cases same
    refine ⟨fun _ => rfl, ?_⟩
    have outermost : Place.outermost.isScope = true := rfl
    let filled := fun text => { root with
      children := root.children ++ fill (pragmaElement attrs text) :: siblings }
    have tagged : ∀ text, [filled text].map Element.tag = [filled ""].map Element.tag :=
      fun _ => rfl
    obtain ⟨file, id, around, behind, differs⟩ := hole.exists_note nest (fun text => [filled text])
      tagged outermost (0 + widthOf (itemsIn [filled ""] .outermost 0 root.children)) attrs
    have scope : chainScope (chain ++ [root]) = chainScope (chain ++ [filled ""]) := by
      apply chainScope_of_tags
      simp [filled, Element.tag]
    rw [scope]
    exact ⟨file, id, around, behind, .among (fun _ => rfl) tagged differs siblings⟩

end Markup.Hole

/-! ## Putting down notes -/

namespace Outline

/-- Puts down what has been read from an item with the given note. -/
def lay (outline : Outline) (entry : Note × Content) : Outline :=
  (outline.mapDraft (·.setFile entry.1.file)).record entry.1.place.parent? entry.1.around entry.2

theorem putAll_eq_foldl_lay (outline : Outline) (items : List Item) (contents : List Content) :
    outline.putAll (items.zip contents) =
      ((items.map Item.note).zip contents).foldl lay outline := by
  rw [putAll, List.zip_map_left, List.foldl_map]
  rfl

theorem scopeOf_unannotated (outline : Outline) (parent : Option DeclId) :
    outline.unannotated.scopeOf parent = outline.scopeOf parent := by
  cases parent with
  | none => rfl
  | some id => exact DeclTree.scopedName_unannotated ..

theorem unannotated_record_pragma (outline : Outline) (parent : Option DeclId)
    (around : ScopedName) (interface : DeclId) (pragma : Pragma) :
    (outline.record parent around (.pragma interface pragma)).unannotated = outline.unannotated :=
  congrArg (fun draft => outline.mapDraft fun _ => draft) (Draft.unannotated_addPragma ..)

/-- All but pragmas is put down without regard to pragmas. -/
theorem unannotated_record (outline : Outline) (parent : Option DeclId) (around : ScopedName)
    {content : Content} (plain : content.pragma? = none) :
    (outline.record parent around content).unannotated =
      outline.unannotated.record parent around content := by
  have drafted : ∀ {draft next : Draft}, draft.unannotated = next →
      (outline.mapDraft fun _ => draft).unannotated = outline.unannotated.mapDraft fun _ => next :=
    fun same => congrArg (fun draft => outline.mapDraft fun _ => draft) same
  have owner := scopeOf_unannotated outline parent
  have called : ∀ (name : String) {kind : DeclKind}, kind.unannotated = kind →
      ∀ text : CallableText,
        unannotated { outline with
          draft := outline.draft.add parent name kind
          callables := outline.callables ++
            [⟨outline.draft.nextId, text, outline.scopeOf parent⟩] } =
        { outline.unannotated with
          draft := outline.unannotated.draft.add parent name kind
          callables := outline.unannotated.callables ++
            [⟨outline.unannotated.draft.nextId, text, outline.unannotated.scopeOf parent⟩] } := by
    intro name kind plain text
    rw [owner]
    simp only [unannotated, mapDraft, Draft.unannotated_add _ _ _ plain, Draft.nextId_unannotated]
  cases content with
  | module name => exact drafted (Draft.unannotated_add _ _ _ rfl)
  | interface name => exact drafted (Draft.unannotated_addInterface ..)
  | forward name => exact drafted (Draft.unannotated_addForward ..)
  | typedef name expression =>
    have drawn := Draft.unannotated_addTypedef outline.draft parent name .void
    have named := Draft.memberName_unannotated outline.draft parent name
    have number : outline.draft.unannotated.nextDeclarator = outline.draft.nextDeclarator := by
      rw [Draft.nextDeclarator, Draft.nextId_unannotated, Draft.nextDeclarator]
    rw [record, record, owner]
    simp only [unannotated, mapDraft, drawn, named, number]
  | enum name enumerators => exact drafted (Draft.unannotated_add _ _ _ rfl)
  | operation name returns params => exact called name rfl _
  | attributes names readonly type => exact called _ rfl _
  | pragma => cases plain
  | base => rfl

/-- What is put down into outlines that differ in pragmas. -/
theorem unannotated_record_congr {outline other : Outline}
    (same : other.unannotated = outline.unannotated) (parent : Option DeclId) (around : ScopedName)
    (content : Content) :
    (other.record parent around content).unannotated =
      (outline.record parent around content).unannotated := by
  cases kind : content.pragma? with
  | none => rw [unannotated_record _ _ _ kind, unannotated_record _ _ _ kind, same]
  | some pragma =>
    cases content with
    | pragma => rw [unannotated_record_pragma, unannotated_record_pragma, same]
    | _ => cases kind

theorem unannotated_foldl_lay {outline other : Outline}
    (same : other.unannotated = outline.unannotated) (entries : List (Note × Content)) :
    (entries.foldl lay other).unannotated = (entries.foldl lay outline).unannotated := by
  induction entries generalizing outline other with
  | nil => exact same
  | cons entry entries ih =>
    have filed : (other.mapDraft (·.setFile entry.1.file)).unannotated =
        (outline.mapDraft (·.setFile entry.1.file)).unannotated :=
      congrArg (·.mapDraft (·.setFile entry.1.file)) same
    exact ih (unannotated_record_congr filed _ _ _)

end Outline

/-! ## Loading documents that differ in the text of a pragma -/

/-- What the items carry is what has been read from them. -/
theorem forall₂_carries_iff {items : List Item} {contents : List Content} :
    List.Forall₂ Item.Carries items contents ↔ items.map Item.read = contents.map .ok := by
  rw [← List.forall₂_eq_eq_eq, List.forall₂_map_left_iff, List.forall₂_map_right_iff]
  simp only [Item.read_eq_ok_iff]

section Loading

variable {roots : String → Element} {file : String} {id : DeclId} {scope around : ScopedName}
  {inner : String → Element}

/-- The outlines differ in a pragma only. -/
theorem DiffersAt.exists_outline
    (differs : DiffersAt (pragmaNote file id scope around) inner fun text => (roots text).items)
    (tagged : ∀ text second, (roots text).tag = (roots second).tag) {given : String}
    {outline : Outline} (read : Outline.ofRoot (roots given) = .ok outline) :
    ∃ before after, ∀ text, ∃ other, Outline.ofRoot (roots text) = .ok other ∧
      other.unannotated = outline.unannotated ∧
      (roots text).items.map Item.read =
        (before ++ .pragma id (.ofText text) :: after).map .ok := by
  obtain ⟨first, last, notes⟩ := differs.map_note
  have reads : ∀ text, (roots text).items.map Item.read =
      first.map Note.read ++ .ok (.pragma id (.ofText text)) :: last.map Note.read := by
    intro text
    have noted := congrArg (List.map Note.read) (notes text)
    rw [List.map_map, List.map_append] at noted
    exact noted
  obtain ⟨isTree, filed, contents, named, carries, rfl⟩ := Outline.ofRoot_eq_ok_iff.mp read
  -- The contents are divided as the notes are, with the pragma in the middle.
  have held := forall₂_carries_iff.mp carries
  rw [reads] at held
  obtain ⟨before, rest, rfl, front, behind⟩ := List.append_eq_map_iff.mp held
  obtain ⟨content, after, rfl, own, back⟩ := List.map_eq_cons_iff.mp behind
  cases own
  refine ⟨before, after, fun text => ?_⟩
  have read : (roots text).items.map Item.read =
      (before ++ .pragma id (.ofText text) :: after).map .ok := by
    rw [reads, List.map_append, List.map_cons, front, back]
  refine ⟨(Outline.start (roots text) filed).putAll ((roots text).items.zip
    (before ++ .pragma id (.ofText text) :: after)), ?_, ?_, read⟩
  · refine Outline.ofRoot_eq_ok_iff.mpr ⟨?_, filed, _, ?_, forall₂_carries_iff.mpr read, rfl⟩
    · exact (congrArg Prod.fst (tagged text given)).trans isTree
    · rw [attr?_of_tag (tagged text given), named]
  · have lengths : first.length = before.length := by
      rw [← List.length_map Note.read, ← front, List.length_map]
    have start : Outline.start (roots text) filed = Outline.start (roots given) filed := by
      rw [Outline.start, Outline.start, attr?_of_tag (tagged text given)]
    have zipped : ∀ second, (first ++ pragmaNote file id scope around second :: last).zip
        (before ++ .pragma id (.ofText second) :: after) = first.zip before ++
          (pragmaNote file id scope around second, .pragma id (.ofText second)) ::
            last.zip after := by
      intro second
      rw [List.zip_append lengths, List.zip_cons_cons]
    rw [Outline.putAll_eq_foldl_lay, Outline.putAll_eq_foldl_lay, notes, notes, zipped, zipped,
      List.foldl_append, List.foldl_append, List.foldl_cons, List.foldl_cons, start]
    refine Outline.unannotated_foldl_lay ?_ (last.zip after)
    exact (Outline.unannotated_record_pragma ..).trans (Outline.unannotated_record_pragma ..).symm

/-- The pragma that a content adds to an interface. -/
def Content.pragmaOf? (id : DeclId) : Content → Option Pragma
  | pragma owner written => if owner = id then some written else none
  | _ => none

theorem Loads.pragmas_of_read {root : Element} {entries : List Entry} {outline : Outline}
    {tree : DeclTree} (loads : Loads root entries outline tree) {contents : List Content}
    (read : root.items.map Item.read = contents.map .ok) (id : DeclId) :
    tree.partOf DeclKind.pragmas id = contents.filterMap (Content.pragmaOf? id) := by
  have held : entries.map Prod.snd = contents := by
    refine List.map_injective_iff.mpr (fun _ _ => Except.ok.inj) (Eq.trans ?_ read)
    rw [← loads.items, List.map_map, List.map_map]
    refine List.map_congr_left fun entry listed => ?_
    exact (Item.read_eq_ok_iff.mpr (loads.laid.carries entry listed)).symm
  rw [loads.pragmas, ← held, List.filterMap_map]
  rfl

/-- The pragmas among elements. -/
def pragmasOf (elements : List Element) : List Pragma :=
  (elements.filter fun element => element.name = "pragma").map fun element =>
    Pragma.ofText element.text

/-- The pragmas of the interface in which the pragma stands. -/
theorem DiffersAt.pragmas_eq {attrs : List (String × String)} {interface : Element}
    {siblings : List Element}
    (differs : DiffersAt (pragmaNote file id scope around)
      (fun text => { interface with
        children := interface.children ++ pragmaElement attrs text :: siblings })
      fun text => (roots text).items)
    {text : String} {entries : List Entry} {outline : Outline} {tree : DeclTree}
    (loads : Loads (roots text) entries outline tree) :
    tree.scopedName id = scope ∧ tree.partOf DeclKind.pragmas id =
      pragmasOf interface.children ++ .ofText text :: pragmasOf siblings := by
  obtain ⟨before, after, parts⟩ := differs
  obtain ⟨front, item, back, items, -, -, noted, inside⟩ := parts text
  have listed : item ∈ (roots text).items := by
    rw [show (roots text).items = _ from items]
    simp
  have place : item.place = .interface id := congrArg Note.place noted
  have stands : item.scope = scope := congrArg Note.scope noted
  obtain ⟨⟨outermost, -⟩ | ⟨opener, isOpener, opens, outer⟩, named⟩ := loads.around listed
  · rw [place] at outermost
    cases outermost
  · have number := (Item.width_of_inner? opens).2
    rw [place] at opens number named
    cases number
    refine ⟨named.trans stands, (loads.pragmas_eq isOpener opens).trans ?_⟩
    rw [outer, List.head?_cons, Option.some.injEq] at inside
    rw [inside, pragmasOf, pragmasOf, List.filter_append, List.map_append,
      List.filter_cons_of_pos (by rfl)]
    rfl

end Loading

/-- **Documents that differ in the text of a pragma load as trees that differ in this pragma.** -/
theorem Markup.Hole.loads_setPragma {interface root : Element} {chain : List Element}
    {fill : Element → Element} (hole : Hole (chain ++ [root]) fill) (nest : IsNest interface chain)
    (attrs : List (String × String)) {given : String} {tree : DeclTree}
    (loaded : Outline.ofRoot (fill (pragmaElement attrs given)) >>= Outline.resolve = .ok tree) :
    ∃ id after, tree.scopedName id = chainScope (chain ++ [root]) ∧
      tree.partOf DeclKind.pragmas id =
        pragmasOf interface.children ++ .ofText given :: after ∧
      ∀ text, Outline.ofRoot (fill (pragmaElement attrs text)) >>= Outline.resolve =
        .ok (tree.setPragma id (pragmasOf interface.children).length (.ofText text)) := by
  obtain ⟨tagged, file, id, around, siblings, differs⟩ := hole.exists_items nest attrs
  obtain ⟨outline, read, resolved⟩ := bind_eq_ok_iff.mp loaded
  obtain ⟨entries, loads⟩ := exists_loads read resolved
  obtain ⟨named, pragmas⟩ := differs.pragmas_eq loads
  refine ⟨id, pragmasOf siblings, named, pragmas, fun text => ?_⟩
  obtain ⟨before, after, outlined⟩ := differs.exists_outline
    (fun text second => (tagged _).trans (tagged _).symm) read
  obtain ⟨other, otherRead, same, contents⟩ := outlined text
  obtain ⟨-, -, -, givenContents⟩ := outlined given
  have blank : other.resolve.map DeclTree.unannotated = .ok tree.unannotated := by
    rw [← Outline.resolve_unannotated, same, Outline.resolve_unannotated, resolved]
    rfl
  obtain ⟨second, otherResolved, alike⟩ := map_eq_ok_iff.mp blank
  obtain ⟨otherEntries, otherLoads⟩ := exists_loads otherRead otherResolved
  refine bind_eq_ok_iff.mpr ⟨other, otherRead, otherResolved.trans (congrArg Except.ok ?_)⟩
  -- The trees are the same without pragmas, and the pragmas are compared interface by interface.
  refine DeclTree.eq_of_unannotated (alike.trans (DeclTree.unannotated_setPragma ..).symm)
    fun position => ?_
  rw [DeclTree.pragmas_setPragma]
  by_cases own : position = id
  · subst own
    rw [if_pos rfl, (differs.pragmas_eq otherLoads).2, pragmas]
    simp
  · rw [if_neg own, otherLoads.pragmas_of_read contents, loads.pragmas_of_read givenContents]
    simp [Content.pragmaOf?, Ne.symm own]

end IdlBridge
