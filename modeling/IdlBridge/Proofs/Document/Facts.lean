import IdlBridge.Proofs.Document.Description

/-!
# Facts of a document

Much of what an element says stays true wherever it stands among its neighbours: the full names that
it declares, and the expressions and references in it with the scopes in which they are read. These
are the facts of a document (`Element.facts`). They mention no numbers, so they can be collected by
going down the document alone (`Element.facts_eq`). An element that cannot be read is a fact as
well: a document can be outlined exactly if it has no such fact (`Outline.exists_ofRoot_iff`).
-/

set_option autoImplicit false

namespace IdlBridge

open Markup

/-- What an element says wherever it stands among its neighbours. -/
inductive Fact
  | unreadable
  | interface (name : ScopedName) (parts : List Content)
  | forward (name : ScopedName)
  | enum (name : ScopedName)
  | typedef (scope name : ScopedName) (expression : String)
  | callable (scope : ScopedName) (text : CallableText)
  | base (scope : ScopedName) (reference : String)
  deriving DecidableEq, Repr

namespace Fact

/-- The name that an interface, an enumeration or a typedef declares. -/
def declared? : Fact → Option ScopedName
  | interface name _ | enum name | typedef _ name _ => some name
  | _ => none

/-- The name that is declared, if it is not the name of an object. -/
def plain? : Fact → Option ScopedName
  | enum name | typedef _ name _ => some name
  | _ => none

/-- The name that a forward declaration announces. -/
def announced? : Fact → Option ScopedName
  | forward name => some name
  | _ => none

/-- Every name is declared once, and announced only if it can be the name of an interface. -/
structure Distinct (facts : List Fact) : Prop where
  once : (facts.filterMap declared?).Nodup
  announced : ∀ name ∈ facts.filterMap announced?, name ∉ facts.filterMap plain?

theorem Distinct.of_perm {facts others : List Fact} (distinct : Distinct facts)
    (reordered : facts.Perm others) : Distinct others where
  once := (reordered.filterMap declared?).nodup_iff.mp distinct.once
  announced := by
    intro name announced plain
    exact distinct.announced name ((reordered.filterMap announced?).mem_iff.mpr announced)
      ((reordered.filterMap plain?).mem_iff.mpr plain)

end Fact

/-- The readable parts of an interface, all numbered alike. -/
def Markup.Element.parts (element : Element) : List Content :=
  element.children.filterMap fun child => (Content.ofPart 0 child).toOption

/-- The fact that a content states in its scope. Bases are looked up from the scope around it. -/
def Content.fact? (scope around : ScopedName) (parts : List Content) : Content → Option Fact
  | module _ | pragma _ _ => none
  | interface name => some (.interface (scope.child name) parts)
  | forward name => some (.forward (scope.child name))
  | typedef name expression => some (.typedef scope (scope.child name) expression)
  | enum name _ => some (.enum (scope.child name))
  | operation _ returns params => some (.callable scope (.operation returns params))
  | attributes _ _ type => some (.callable scope (.attributes type))
  | base _ reference => some (.base around reference)

/-- The fact that comes out of reading an element. -/
def Fact.ofRead (scope around : ScopedName) (parts : List Content) :
    Except LoadError Content → Option Fact
  | .ok content => content.fact? scope around parts
  | .error _ => some unreadable

/-- The fact that an item states. -/
def Item.fact? (item : Item) : Option Fact :=
  Fact.ofRead item.scope item.around item.element.parts item.read

/-- The facts of a document with the given root, in the order of its items. -/
def Markup.Element.facts (root : Element) : List Fact :=
  root.items.filterMap Item.fact?

/-! ## Facts from the document alone -/

/-- The fact of a definition in a scope. -/
def definitionFact (scope : ScopedName) (element : Element) : Option Fact :=
  Fact.ofRead scope .root element.parts (Content.ofDefinition "" element)

/-- The fact of a part of an interface. -/
def partFact (scope around : ScopedName) (element : Element) : Option Fact :=
  Fact.ofRead scope around element.parts (Content.ofPart 0 element)

mutual

/-- The facts of an element and of what stands inside it. -/
def factsOf (scope : ScopedName) : Element → List Fact
  | ⟨tag, attrs, children, text⟩ =>
    (definitionFact scope ⟨tag, attrs, children, text⟩).toList ++
      match tag with
      | "module" => factsIn (scope.child ((attrs.lookup "name").getD "")) children
      | "interface" =>
        children.filterMap (partFact (scope.child ((attrs.lookup "name").getD "")) scope)
      | _ => []

/-- The facts of elements and of what stands inside them. -/
def factsIn (scope : ScopedName) : List Element → List Fact
  | [] => []
  | element :: elements => factsOf scope element ++ factsIn scope elements

end

theorem Place.inner?_of_isScope {place : Place} (isScope : place.isScope = true) (id : DeclId)
    (tag : String) :
    place.inner? id tag =
      match tag with
      | "module" => some (.module id)
      | "interface" => some (.interface id)
      | _ => none := by
  cases place with
  | interface => cases isScope
  | outermost | module =>
    rw [inner?.eq_def]
    split <;> simp_all

theorem Item.fact?_of_isScope {item : Item} (isScope : item.place.isScope = true) :
    item.fact? = definitionFact item.scope item.element := by
  rw [fact?, read_of_isScope isScope, definitionFact, Content.ofDefinition, Content.ofDefinition]
  split
  · cases item.element.required "name" <;> rfl
  · cases item.element.required "name" <;> rfl
  · cases item.element.required "name" <;> rfl
  · rw [Content.ofTypedef]
    cases item.element.required "name" <;> cases item.element.required "type" <;> rfl
  · rw [Content.ofEnum]
    cases item.element.children.mapM Outline.readEnumerator <;>
      cases item.element.required "name" <;> rfl
  · rfl

theorem Item.fact?_of_interface {item : Item} {id : DeclId} (place : item.place = .interface id) :
    item.fact? = partFact item.scope item.around item.element := by
  rw [fact?, read_of_interface place, partFact, Content.ofPart, Content.ofPart]
  split
  · rfl
  · cases item.element.required "ref" <;> rfl
  all_goals rfl

/-- Parts of interfaces state their facts one by one. -/
theorem filterMap_itemsIn_interface (outer : List Element) (interface : DeclId) (next : Nat)
    (parts : List Element) :
    (itemsIn outer (.interface interface) next parts).filterMap Item.fact? =
      parts.filterMap (partFact (chainScope outer) (chainScope outer.tail)) := by
  induction parts generalizing next with
  | nil => rfl
  | cons part parts ih =>
    have single : itemsOf outer (.interface interface) next part =
        [⟨next, .interface interface, part, outer⟩] := by
      obtain ⟨tag, attrs, children, text⟩ := part
      rfl
    have own : Item.fact? ⟨next, .interface interface, part, outer⟩ =
        partFact (chainScope outer) (chainScope outer.tail) part :=
      Item.fact?_of_interface rfl
    rw [itemsIn, single, List.singleton_append, List.filterMap_cons, List.filterMap_cons, own, ih]

mutual

theorem filterMap_itemsOf (outer : List Element) (nested : outer ≠ []) (place : Place)
    (isScope : place.isScope = true) (next : Nat) :
    ∀ element : Element,
      (itemsOf outer place next element).filterMap Item.fact? = factsOf (chainScope outer) element
  | ⟨tag, attrs, children, text⟩ => by
    let element : Element := ⟨tag, attrs, children, text⟩
    have own : Item.fact? ⟨next, place, element, outer⟩ =
        definitionFact (chainScope outer) element :=
      Item.fact?_of_isScope isScope
    have inner : chainScope (element :: outer) =
        (chainScope outer).child ((attrs.lookup "name").getD "") :=
      Outline.chainScope_cons nested element
    unfold itemsOf factsOf
    rw [Place.inner?_of_isScope isScope, ← List.singleton_append, List.filterMap_append]
    refine congrArg₂ (· ++ ·) ?_ ?_
    · rw [← own, List.filterMap_cons]
      cases Item.fact? ⟨next, place, element, outer⟩ <;> rfl
    · rw [← inner]
      by_cases isModule : tag = "module"
      · subst isModule
        exact filterMap_itemsIn _ (List.cons_ne_nil _ _) (.module next) rfl _ children
      · by_cases isInterface : tag = "interface"
        · subst isInterface
          exact filterMap_itemsIn_interface ..
        · simp

theorem filterMap_itemsIn (outer : List Element) (nested : outer ≠ []) (place : Place)
    (isScope : place.isScope = true) (next : Nat) :
    ∀ elements : List Element,
      (itemsIn outer place next elements).filterMap Item.fact? = factsIn (chainScope outer) elements
  | [] => by rw [itemsIn, factsIn, List.filterMap_nil]
  | element :: elements => by
    rw [itemsIn, factsIn, List.filterMap_append,
      filterMap_itemsOf outer nested place isScope next element,
      filterMap_itemsIn outer nested place isScope _ elements]

end

/-- The facts of a document are those of the children of its root. -/
theorem Markup.Element.facts_eq (root : Element) : root.facts = factsIn .root root.children :=
  filterMap_itemsIn [root] (List.cons_ne_nil _ _) .outermost rfl 0 root.children

/-! ## Readable documents -/

theorem Content.fact?_ne_unreadable (content : Content) (scope around : ScopedName)
    (parts : List Content) : content.fact? scope around parts ≠ some .unreadable := by
  cases content <;> simp [fact?]

/-- An item states that it cannot be read exactly if it carries nothing. -/
theorem Item.fact?_eq_unreadable_iff {item : Item} :
    item.fact? = some .unreadable ↔ ∀ content, ¬ item.Carries content := by
  simp only [← read_eq_ok_iff, fact?]
  cases item.read with
  | error cause => simp [Fact.ofRead]
  | ok content => simp [Fact.ofRead, Content.fact?_ne_unreadable]

/-- **A document can be outlined exactly if everything in it can be read.** -/
theorem Outline.exists_ofRoot_iff {root : Element} :
    (∃ outline, ofRoot root = .ok outline) ↔
      root.name = "tree" ∧ (root.attr? "file").isSome ∧ Fact.unreadable ∉ root.facts := by
  have readable : Fact.unreadable ∉ root.facts ↔
      ∀ item ∈ root.items, ∃ content, item.Carries content := by
    simp [Element.facts, List.mem_filterMap, Item.fact?_eq_unreadable_iff]
  rw [readable]
  constructor
  · rintro ⟨outline, read⟩
    obtain ⟨tag, file, contents, named, carries, -⟩ := ofRoot_eq_ok_iff.mp read
    refine ⟨tag, by rw [named]; rfl, fun item listed => ?_⟩
    obtain ⟨content, -, carried⟩ := exists_mem_zip carries listed
    exact ⟨content, carried⟩
  · rintro ⟨tag, named, carries⟩
    obtain ⟨file, named⟩ := Option.isSome_iff_exists.mp named
    obtain ⟨contents, all⟩ := exists_forall₂ carries
    exact ⟨_, ofRoot_eq_ok_iff.mpr ⟨tag, file, contents, named, all, rfl⟩⟩

end IdlBridge
