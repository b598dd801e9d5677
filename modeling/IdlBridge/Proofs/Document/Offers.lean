import IdlBridge.Proofs.Document.Agreement
import IdlBridge.Proofs.Document.Image

/-!
# What an interface holds, by its parts

The parts of an interface element say what the interface of the loaded tree holds: its pragmas
(`Loads.pragmas_of_parts`), the references that its bases are looked up from
(`Loads.bases_of_parts`) and its callables, each with its name and with the types that its
expressions mean (`Loads.callables_of_parts`). Nothing of this depends on the numbers of the tree,
so it can be compared between trees.
-/

set_option autoImplicit false

namespace IdlBridge

open Markup

/-! ## Parts -/

namespace Content

/-- The pragma that a part states. -/
def pragma? : Content → Option Pragma
  | pragma _ written => some written
  | _ => none

/-- The reference that a part derives the interface from. -/
def reference? : Content → Option String
  | base _ reference => some reference
  | _ => none

theorem ofPart_eq_ok_iff {id : DeclId} {element : Element} {content : Content} :
    ofPart id element = .ok content ↔ Item.Carries ⟨0, .interface id, element, []⟩ content := by
  rw [← Item.read_eq_ok_iff]
  rfl

theorem tag_of_ofPart {id : DeclId} {element : Element} {content : Content}
    (read : ofPart id element = .ok content) : element.name = content.tag :=
  (ofPart_eq_ok_iff.mp read).name_eq

end Content

theorem Markup.Element.pragmas_of_parts (element : Element) :
    element.parts.filterMap Content.pragma? =
      (element.children.filter fun child => child.name = "pragma").map fun child =>
        Pragma.ofText child.text := by
  rw [parts, List.filterMap_filterMap, ← List.filterMap_eq_map, List.filterMap_filter]
  refine List.filterMap_congr fun child _ => ?_
  by_cases tag : child.name = "pragma"
  · rw [Content.ofPart, tag]
    rfl
  · rw [if_neg (by simpa using tag)]
    cases read : Content.ofPart 0 child with
    | error => rfl
    | ok content =>
      rw [Content.tag_of_ofPart read] at tag
      cases content with
      | pragma => exact absurd rfl tag
      | _ => rfl

/-- Partners of the chosen members are partners of what these members are read as. -/
theorem forall₂_of_filter {α β γ : Type} {related : α → β → Prop} {chosen : α → Bool}
    {read : α → Option γ} {matched : γ → β → Prop} {list : List α} {partners : List β}
    (skipped : ∀ member ∈ list, chosen member = false → read member = none)
    (kept : ∀ member partner, chosen member = true → related member partner →
      ∃ value, read member = some value ∧ matched value partner)
    (all : List.Forall₂ related (list.filter chosen) partners) :
    List.Forall₂ matched (list.filterMap read) partners := by
  induction list generalizing partners with
  | nil =>
    cases all
    exact .nil
  | cons member list ih =>
    have rest := fun other listed => skipped other (List.mem_cons_of_mem _ listed)
    rw [List.filter_cons] at all
    cases isChosen : chosen member with
    | true =>
      rw [if_pos isChosen] at all
      cases all with
      | cons paired others =>
        obtain ⟨value, isRead, fits⟩ := kept _ _ isChosen paired
        rw [List.filterMap_cons, isRead]
        exact .cons fits (ih rest others)
    | false =>
      rw [if_neg (by simp [isChosen])] at all
      rw [List.filterMap_cons, skipped member List.mem_cons_self isChosen]
      exact ih rest all

/-! ## Offers -/

/-- A callable as it is offered: its name, and its kind with all names, directions and types. -/
def DeclTree.offer? (tree : DeclTree) (id : DeclId) : Option (String × DeclKind) :=
  (tree.decl? id).map fun decl => (decl.name, decl.kind)

namespace Outline

/-- A callable is offered under the name that its part gives, with the types that its expressions
mean in the scope. -/
def Presents (outline : Outline) (scope : ScopedName) : Content → String × DeclKind → Prop
  | .operation name returns params, (shown, .operation signature) =>
    shown = name ∧ outline.CallableMeans scope (.operation returns params) (.operation signature)
  | .attributes names readonly type, (shown, .attributes group) =>
    shown = names.head?.getD "" ∧ group.readonly = readonly ∧ group.names = names ∧
      outline.CallableMeans scope (.attributes type) (.attributes group.type)
  | _, _ => False

variable {outline other : Outline} {scope : ScopedName}

theorem CallableMeans.unique (registered : outline.Registered) {text : CallableText}
    {types others : CallableTypes} (means : outline.CallableMeans scope text types)
    (otherMeans : outline.CallableMeans scope text others) : others = types := by
  cases text with
  | operation returns params =>
    cases types with
    | attributes => exact means.elim
    | operation signature =>
      cases others with
      | attributes => exact otherMeans.elim
      | operation second =>
        obtain ⟨returned, given⟩ := means
        obtain ⟨otherReturned, otherGiven⟩ := otherMeans
        have params : second.params = signature.params := by
          have pairs := forall₂_trans otherGiven.flip given
          refine List.forall₂_eq_eq_eq ▸ pairs.imp ?_
          rintro ⟨_, _, _⟩ ⟨_, _, _⟩ ⟨text, second, first⟩
          obtain ⟨rfl, rfl, typed⟩ := first
          obtain ⟨rfl, rfl, otherTyped⟩ := second
          cases Means.unique registered typed otherTyped
          rfl
        obtain ⟨_, _⟩ := signature
        obtain ⟨_, _⟩ := second
        cases params
        cases Means.unique registered returned otherReturned
        rfl
  | attributes expression =>
    cases types with
    | operation => exact means.elim
    | attributes type =>
      cases others with
      | operation => exact otherMeans.elim
      | attributes second => exact congrArg _ (Means.unique registered means otherMeans)

/-- **A part is offered in one way only, in outlines that agree.** -/
theorem Presents.unique (agrees : outline.Agrees other) {content : Content}
    {offer otherOffer : String × DeclKind} (presents : outline.Presents scope content offer)
    (otherPresents : other.Presents scope content otherOffer) : otherOffer = offer := by
  obtain ⟨shown, kind⟩ := offer
  obtain ⟨otherShown, otherKind⟩ := otherOffer
  cases content with
  | operation name returns params =>
    cases kind with
    | operation signature =>
      cases otherKind with
      | operation second =>
        obtain ⟨rfl, means⟩ := presents
        obtain ⟨rfl, otherMeans⟩ := otherPresents
        cases (agrees.callableMeans means).unique agrees.otherRegistered otherMeans
        rfl
      | _ => exact otherPresents.elim
    | _ => exact presents.elim
  | attributes names readonly type =>
    cases kind with
    | attributes group =>
      cases otherKind with
      | attributes second =>
        obtain ⟨_, _, _⟩ := group
        obtain ⟨_, _, _⟩ := second
        obtain ⟨rfl, rfl, rfl, means⟩ := presents
        obtain ⟨rfl, rfl, rfl, otherMeans⟩ := otherPresents
        cases (agrees.callableMeans means).unique agrees.otherRegistered otherMeans
        rfl
      | _ => exact otherPresents.elim
    | _ => exact presents.elim
  | _ => exact presents.elim

end Outline

/-! ## Interfaces of loaded trees -/

namespace Loads

variable {root : Element} {entries : List Entry} {outline : Outline} {tree : DeclTree} {item : Item}
  {name : String}

theorem opens_interface (loads : Loads root entries outline tree)
    (listed : (item, .interface name) ∈ entries) :
    item ∈ root.items ∧ item.inner? = some (.interface item.id) := by
  refine ⟨loads.mem_items listed, ?_⟩
  obtain ⟨isScope, tag, -⟩ := loads.laid.carries _ listed
  have inner := Place.inner?_of_isScope isScope item.id item.element.name
  rw [tag] at inner
  rw [Item.inner?, tag, inner]
  rfl

theorem pragmas_of_parts (loads : Loads root entries outline tree)
    (listed : (item, .interface name) ∈ entries) :
    tree.partOf DeclKind.pragmas item.id = item.element.parts.filterMap Content.pragma? := by
  obtain ⟨isItem, opens⟩ := loads.opens_interface listed
  rw [loads.pragmas_eq isItem opens, item.element.pragmas_of_parts]

/-- Bases are looked up from the scope around the interface. -/
theorem bases_of_parts (loads : Loads root entries outline tree)
    (listed : (item, .interface name) ∈ entries) :
    List.Forall₂
      (fun reference base => ∃ found, tree.lookup? item.scope reference = some (found, base))
      (item.element.parts.filterMap Content.reference?) (tree.partOf DeclKind.bases item.id) := by
  obtain ⟨isItem, opens⟩ := loads.opens_interface listed
  rw [Element.parts, List.filterMap_filterMap]
  refine forall₂_of_filter ?_ ?_ (loads.bases_eq isItem opens)
  · intro child _ notBase
    have tag : child.name ≠ "inherits" := of_decide_eq_false notBase
    cases read : Content.ofPart 0 child with
    | error => rfl
    | ok content =>
      rw [Content.tag_of_ofPart read] at tag
      cases content with
      | base => exact absurd rfl tag
      | _ => rfl
  · rintro child base isBase ⟨reference, found, written, looked⟩
    have tag : child.name = "inherits" := of_decide_eq_true isBase
    have read : Content.ofPart 0 child = .ok (.base 0 reference) :=
      Content.ofPart_eq_ok_iff.mpr ⟨rfl, tag, written⟩
    exact ⟨reference, by rw [read]; rfl, found, looked⟩

/-- The parts of an interface stand in its own scope. -/
theorem scope_of_place (loads : Loads root entries outline tree)
    (listed : (item, .interface name) ∈ entries) {member : Item} (isMember : member ∈ root.items)
    (place : member.place = .interface item.id) : member.scope = item.scope.child name := by
  obtain ⟨isItem, opens⟩ := loads.opens_interface listed
  have outer := (Element.eq_opener isItem isMember opens (by rw [place])).2
  obtain ⟨-, -, named⟩ := loads.laid.carries _ listed
  rw [Item.scope, outer, Outline.chainScope_cons (loads.laid.outer_ne_nil listed), named]
  rfl

/-- An entry that is a callable is offered as it is written. -/
theorem presents (loads : Loads root entries outline tree) {content : Content}
    (listed : (item, content) ∈ entries) (callable : content.isCallable? = some true) :
    ∃ offer, tree.offer? item.id = some offer ∧ outline.Presents item.scope content offer := by
  have shown := loads.shown listed
  cases content with
  | operation name returns params =>
    obtain ⟨signature, stored, -⟩ := shown
    obtain ⟨kind, types, found, typed, means⟩ := loads.callable listed rfl
    rw [DeclTree.kind?, show tree.decl? item.id = _ from stored] at found
    cases found
    cases typed
    exact ⟨(name, .operation signature), by rw [DeclTree.offer?, stored]; rfl, rfl, means⟩
  | attributes names readonly type =>
    obtain ⟨meant, stored⟩ := shown
    obtain ⟨kind, types, found, typed, means⟩ := loads.callable listed rfl
    rw [DeclTree.kind?, show tree.decl? item.id = _ from stored] at found
    cases found
    cases typed
    exact ⟨(_, .attributes ⟨meant, readonly, names⟩), by rw [DeclTree.offer?, stored]; rfl, rfl,
      rfl, rfl, means⟩
  | _ => cases callable

/-- **The callables of an interface are offered as its parts are written, in their order.** -/
theorem callables_of_parts (loads : Loads root entries outline tree)
    (listed : (item, .interface name) ∈ entries) :
    List.Forall₂ (fun content id => ∃ offer, tree.offer? id = some offer ∧
        outline.Presents (item.scope.child name) content offer)
      (item.element.parts.filter fun content => content.isCallable? = some true)
      (tree.listing (some item.id) true) := by
  obtain ⟨isItem, opens⟩ := loads.opens_interface listed
  rw [Element.parts, List.filter_filterMap]
  refine forall₂_of_filter ?_ ?_ (loads.members (.inr ⟨item, isItem, opens, rfl⟩) true)
  · intro child _ notCallable
    have sort : child.isCallable? ≠ some true := of_decide_eq_false notCallable
    cases read : Content.ofPart 0 child with
    | error => rfl
    | ok content =>
      rw [Content.isCallable?_eq (Content.ofPart_eq_ok_iff.mp read)] at sort
      simp [Except.toOption, sort]
  · rintro _ id isCallable ⟨member, isMember, rfl, place, rfl⟩
    obtain ⟨content, isEntry⟩ := loads.exists_entry isMember
    have carries : member.Carries content := loads.laid.carries _ isEntry
    have callable : content.isCallable? = some true := by
      rw [← Content.isCallable?_eq carries]
      exact of_decide_eq_true isCallable
    have read : Content.ofPart 0 member.element = .ok content := by
      refine Content.ofPart_eq_ok_iff.mpr ?_
      cases content with
      | operation | attributes => exact ⟨by simp [Place.isScope], carries.2⟩
      | _ => cases callable
    refine ⟨content, by simp [read, Except.toOption, callable], ?_⟩
    rw [← loads.scope_of_place listed isMember place]
    exact loads.presents isEntry callable

end Loads

end IdlBridge
