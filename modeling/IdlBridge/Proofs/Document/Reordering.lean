import IdlBridge.Proofs.Document.Facts
import Mathlib.Data.List.Forall2
import Mathlib.Data.List.Perm.Basic

/-!
# Reordered documents

In the root of a document and in its modules the order of the children can be changed, at every
level at once (`Reordered`). Elsewhere the order stays: the parts of an interface, the parameters of
an operation and the enumerators of an enumeration. Elements that correspond to each other are read
alike (`Alike.ofDefinition`, `Alike.ofPart`), so a reordered document states the same facts in
another order (`Alike.perm_facts`).
-/

set_option autoImplicit false

namespace IdlBridge

open Markup

/-- The children of roots and modules may stand in any order. -/
def isUnordered (tag : String) : Bool :=
  tag = "tree" || tag = "module"

theorem isUnordered_iff {tag : String} :
    isUnordered tag = true ↔ tag = "tree" ∨ tag = "module" := by
  simp [isUnordered]

/-- Lists of elements that differ in the order of the children of roots and modules, and if `free`
also in their own order. The text of a root or a module is what stands between its children. -/
inductive Reordered : Bool → List Element → List Element → Prop
  | nil (free : Bool) : Reordered free [] []
  | cons {free : Bool} {tag text otherText : String} {attrs : List (String × String)}
      {children otherChildren elements others : List Element}
      (spelled : isUnordered tag = true ∨ otherText = text)
      (inside : Reordered (isUnordered tag) children otherChildren)
      (behind : Reordered free elements others) :
      Reordered free (⟨tag, attrs, children, text⟩ :: elements)
        (⟨tag, attrs, otherChildren, otherText⟩ :: others)
  | swap (first second : Element) (elements : List Element) :
      Reordered true (first :: second :: elements) (second :: first :: elements)
  | trans {free : Bool} {elements middle others : List Element}
      (before : Reordered free elements middle) (after : Reordered free middle others) :
      Reordered free elements others

/-- Elements that differ only in the order of what stands inside them. -/
structure Alike (element other : Element) : Prop where
  name : other.name = element.name
  attrs : other.attrs = element.attrs
  text : isUnordered element.name = true ∨ other.text = element.text
  children : Reordered (isUnordered element.name) element.children other.children

theorem Alike.trans {first second third : Element} (before : Alike first second)
    (after : Alike second third) : Alike first third where
  name := after.name.trans before.name
  attrs := after.attrs.trans before.attrs
  text := by
    rcases before.text with unordered | same
    · exact .inl unordered
    · rw [← same, ← before.name]
      exact after.text
  children := .trans before.children (before.name ▸ after.children)

/-- Where the order stays, elements correspond one by one. -/
theorem Reordered.forall₂ {free : Bool} {elements others : List Element}
    (reordered : Reordered free elements others) (fixed : free = false) :
    List.Forall₂ Alike elements others := by
  induction reordered with
  | nil => exact .nil
  | cons spelled inside _ _ ih => exact .cons ⟨rfl, rfl, spelled, inside⟩ (ih fixed)
  | swap => cases fixed
  | trans _ _ before after =>
    exact (forall₂_trans (before fixed) (after fixed)).imp
      fun _ _ ⟨_, first, second⟩ => first.trans second

theorem Reordered.symm {free : Bool} {elements others : List Element}
    (reordered : Reordered free elements others) : Reordered free others elements := by
  induction reordered with
  | nil free => exact .nil free
  | cons spelled _ _ inside behind => exact .cons (spelled.imp_right Eq.symm) inside behind
  | swap first second elements => exact .swap second first elements
  | trans _ _ before after => exact .trans after before

theorem Reordered.refl (free : Bool) : ∀ elements : List Element, Reordered free elements elements
  | [] => .nil free
  | ⟨_, _, children, _⟩ :: elements =>
    .cons (.inr rfl) (Reordered.refl _ children) (Reordered.refl free elements)

/-- Every permutation is allowed where the order is free. -/
theorem Reordered.of_perm {elements others : List Element} (permuted : elements.Perm others) :
    Reordered true elements others := by
  induction permuted with
  | nil => exact .nil true
  | @cons element _ _ _ ih =>
    obtain ⟨tag, attrs, children, text⟩ := element
    exact .cons (.inr rfl) (.refl _ children) ih
  | swap first second elements => exact .swap second first elements
  | trans _ _ before after => exact .trans before after

theorem Alike.symm {element other : Element} (alike : Alike element other) :
    Alike other element where
  name := alike.name.symm
  attrs := alike.attrs.symm
  text := alike.name ▸ alike.text.imp_right Eq.symm
  children := alike.name ▸ alike.children.symm

/-! ## Elements that correspond are read alike -/

namespace Alike

variable {element other : Element}

theorem children_forall₂ (alike : Alike element other)
    (ordered : isUnordered element.name = false) :
    List.Forall₂ Alike element.children other.children :=
  alike.children.forall₂ ordered

theorem text_eq (alike : Alike element other) (ordered : isUnordered element.name = false) :
    other.text = element.text := by
  rcases alike.text with unordered | same
  · rw [ordered] at unordered
    cases unordered
  · exact same

theorem attr?_eq (alike : Alike element other) (key : String) :
    other.attr? key = element.attr? key := by
  rw [Element.attr?, Element.attr?, alike.attrs]

theorem required_eq (alike : Alike element other) (key : String) :
    other.required key = element.required key := by
  rw [Element.required, Element.required, alike.attr?_eq, alike.name]

/-- Functions that give the same for corresponding elements give the same list. -/
theorem filterMap_eq {α : Type} {view : Element → Option α}
    (same : ∀ element other, Alike element other → view other = view element)
    {elements others : List Element} (alike : List.Forall₂ Alike elements others) :
    others.filterMap view = elements.filterMap view := by
  induction alike with
  | nil => rfl
  | cons first _ ih => rw [List.filterMap_cons, List.filterMap_cons, same _ _ first, ih]

theorem mapM_eq {α : Type} {read : Element → Except LoadError α}
    (same : ∀ element other, Alike element other → read other = read element)
    {elements others : List Element} (alike : List.Forall₂ Alike elements others) :
    others.mapM read = elements.mapM read := by
  induction alike with
  | nil => rfl
  | cons first _ ih => rw [List.mapM_cons, List.mapM_cons, same _ _ first, ih]

theorem ofTypedef (alike : Alike element other) :
    Content.ofTypedef other = Content.ofTypedef element := by
  rw [Content.ofTypedef, Content.ofTypedef, alike.required_eq, alike.required_eq]

theorem ofEnum (alike : Alike element other) (ordered : isUnordered element.name = false) :
    Content.ofEnum other = Content.ofEnum element := by
  have enumerators : other.children.mapM Outline.readEnumerator =
      element.children.mapM Outline.readEnumerator := by
    refine mapM_eq (fun first second same => ?_) (alike.children_forall₂ ordered)
    rw [Outline.readEnumerator, Outline.readEnumerator, same.name, same.required_eq]
  rw [Content.ofEnum, Content.ofEnum, enumerators, alike.required_eq]

theorem ofOperation (alike : Alike element other) (ordered : isUnordered element.name = false) :
    Content.ofOperation other = Content.ofOperation element := by
  have params : other.children.mapM Outline.readParameter =
      element.children.mapM Outline.readParameter := by
    refine mapM_eq (fun first second same => ?_) (alike.children_forall₂ ordered)
    simp only [Outline.readParameter, same.name, same.required_eq]
  rw [Content.ofOperation, Content.ofOperation, params, alike.required_eq, alike.attr?_eq]

theorem ofAttributes (alike : Alike element other) :
    Content.ofAttributes other = Content.ofAttributes element := by
  simp only [Content.ofAttributes, Outline.attributeNames, Element.flag, alike.name,
    alike.required_eq, alike.attr?_eq]

/-- Corresponding parts of interfaces are read alike. -/
theorem ofPart (alike : Alike element other) (interface : DeclId) :
    Content.ofPart interface other = Content.ofPart interface element := by
  rw [Content.ofPart, Content.ofPart, alike.name]
  split <;> rename_i tag
  · rw [alike.text_eq (by rw [tag]; rfl)]
  · rw [alike.required_eq]
  · exact alike.ofOperation (by rw [tag]; rfl)
  · exact alike.ofAttributes
  · exact alike.ofTypedef
  · exact alike.ofEnum (by rw [tag]; rfl)
  · rfl

/-- Corresponding definitions are read alike. -/
theorem ofDefinition (alike : Alike element other) (context : String) :
    Content.ofDefinition context other = Content.ofDefinition context element := by
  rw [Content.ofDefinition, Content.ofDefinition, alike.name]
  split <;> rename_i tag
  · rw [alike.required_eq]
  · rw [alike.required_eq]
  · rw [alike.required_eq]
  · exact alike.ofTypedef
  · exact alike.ofEnum (by rw [tag]; rfl)
  · rfl

theorem parts_eq (alike : Alike element other) (ordered : isUnordered element.name = false) :
    other.parts = element.parts :=
  filterMap_eq (fun _ _ same => congrArg Except.toOption (same.ofPart 0))
    (alike.children_forall₂ ordered)

/-- Corresponding parts of interfaces state the same fact. -/
theorem partFact_eq (alike : Alike element other) (scope around : ScopedName) :
    partFact scope around other = partFact scope around element := by
  rw [partFact, partFact, alike.ofPart]
  cases unordered : isUnordered element.name with
  | false => rw [alike.parts_eq unordered]
  | true =>
    -- Neither a root nor a module is a part of an interface.
    rw [Content.ofPart]
    rcases isUnordered_iff.mp unordered with tag | tag <;> rw [tag] <;> rfl

/-- Corresponding definitions state the same fact. -/
theorem definitionFact_eq (alike : Alike element other) (scope : ScopedName) :
    definitionFact scope other = definitionFact scope element := by
  rw [definitionFact, definitionFact, alike.ofDefinition]
  cases unordered : isUnordered element.name with
  | false => rw [alike.parts_eq unordered]
  | true =>
    rw [Content.ofDefinition]
    rcases isUnordered_iff.mp unordered with tag | tag <;> rw [tag]
    · rfl
    · cases element.required "name" <;> rfl

end Alike

/-! ## Reordered documents state the same facts -/

theorem Reordered.perm_factsIn {free : Bool} {elements others : List Element}
    (reordered : Reordered free elements others) (scope : ScopedName) :
    (factsIn scope elements).Perm (factsIn scope others) := by
  induction reordered generalizing scope with
  | nil => exact .refl _
  | @cons free tag text otherText attrs children otherChildren elements others spelled inside _
      ihInside ihBehind =>
    have alike : Alike ⟨tag, attrs, children, text⟩ ⟨tag, attrs, otherChildren, otherText⟩ :=
      ⟨rfl, rfl, spelled, inside⟩
    rw [factsIn, factsIn]
    unfold factsOf
    rw [alike.definitionFact_eq]
    refine .append (.append_left _ ?_) (ihBehind scope)
    split
    · exact ihInside _
    · refine .of_eq (Alike.filterMap_eq (fun _ _ same => ?_) (inside.forall₂ rfl)).symm
      exact same.partFact_eq ..
    · exact .refl _
  | swap first second elements =>
    rw [factsIn, factsIn, factsIn, factsIn]
    exact List.perm_append_comm_assoc ..
  | trans _ _ before after => exact (before scope).trans (after scope)

/-- **A reordered document states the same facts.** -/
theorem Alike.perm_facts {root other : Element} (alike : Alike root other) :
    root.facts.Perm other.facts := by
  rw [root.facts_eq, other.facts_eq]
  exact alike.children.perm_factsIn .root

end IdlBridge
