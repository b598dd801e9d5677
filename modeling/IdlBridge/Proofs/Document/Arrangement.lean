import IdlBridge.Proofs.Document.Items
import Mathlib.Data.List.Induction

/-!
# The arrangement of items

The items of a document are numbered in the order in which they stand, and the place of an item is
opened by an item in front of it, whose element is the next one around (`arranged_itemsIn`). The
items in one place are the children of one element, in their order (`Element.children_outermost`,
`Element.children_inner`).
-/

set_option autoImplicit false

namespace IdlBridge

open Markup

namespace Item

/-- The place that an item opens. -/
def inner? (item : Item) : Option Place :=
  item.place.inner? item.id item.element.name

/-- The numbers of the declarations that an item makes. -/
def ids (item : Item) : List DeclId :=
  List.range' item.id item.element.width

/-- The item has the next number, and stands in the given place or in one that has been opened. -/
def StandsAfter (outer : List Element) (place : Place) (next : Nat) (before : List Item)
    (item : Item) : Prop :=
  item.id = next + widthOf before ∧
    (item.place = place ∧ item.outer = outer ∨
      ∃ around ∈ before, around.inner? = some item.place ∧
        item.outer = around.element :: around.outer)

end Item

/-- Every item stands after those in front of it. -/
def Arranged (outer : List Element) (place : Place) (next : Nat) (items : List Item) : Prop :=
  ∀ before item after, items = before ++ item :: after →
    item.StandsAfter outer place next before

/-! ## Numbers -/

theorem widthOf_append (first second : List Item) :
    widthOf (first ++ second) = widthOf first + widthOf second := by
  induction first with
  | nil => simp [widthOf]
  | cons item items ih => simp [widthOf, ih, Nat.add_assoc]

namespace Arranged

variable {outer : List Element} {place : Place} {next : Nat} {items : List Item}

theorem nil : Arranged outer place next [] := by
  intro before item after split
  simp at split

/-- Items behind others go on with the numbers. -/
theorem append {later : List Item} (first : Arranged outer place next items)
    (second : Arranged outer place (next + widthOf items) later) :
    Arranged outer place next (items ++ later) := by
  intro before item after split
  rcases List.append_eq_append_iff.mp split with ⟨front, rfl, rest⟩ | ⟨front, whole, rest⟩
  · obtain ⟨number, stands⟩ := second front item after rest
    refine ⟨by rw [number, widthOf_append, Nat.add_assoc], ?_⟩
    rcases stands with here | ⟨around, earlier, opened⟩
    · exact .inl here
    · exact .inr ⟨around, List.mem_append_right _ earlier, opened⟩
  · cases front with
    | nil =>
      rw [List.append_nil] at whole
      obtain ⟨number, stands⟩ := second [] item after rest.symm
      refine ⟨by rw [number, ← whole]; rfl, ?_⟩
      rcases stands with here | ⟨around, earlier, _⟩
      · exact .inl here
      · cases earlier
    | cons head front =>
      cases rest
      exact first before item front whole

/-- An item in front of those in the place that it opens. -/
theorem cons {item : Item} {inner : Place} (number : item.id = next) (own : item.place = place)
    (around : item.outer = outer) (opens : item.inner? = some inner)
    (inside : Arranged (item.element :: item.outer) inner (next + item.element.width) items) :
    Arranged outer place next (item :: items) := by
  intro before other after split
  cases before with
  | nil =>
    cases split
    exact ⟨number, .inl ⟨own, around⟩⟩
  | cons head before =>
    cases split
    obtain ⟨otherNumber, stands⟩ := inside before other after rfl
    refine ⟨by rw [otherNumber, widthOf, Nat.add_assoc], .inr ?_⟩
    rcases stands with ⟨otherPlace, otherOuter⟩ | ⟨opener, earlier, opened⟩
    · exact ⟨item, List.mem_cons_self, by rw [opens, otherPlace], otherOuter⟩
    · exact ⟨opener, List.mem_cons_of_mem _ earlier, opened⟩

theorem singleton {item : Item} (number : item.id = next) (own : item.place = place)
    (around : item.outer = outer) : Arranged outer place next [item] := by
  intro before other after split
  rw [List.singleton_eq_append_iff] at split
  rcases split with ⟨rfl, same⟩ | ⟨_, absurd⟩
  · cases same
    exact ⟨number, .inl ⟨own, around⟩⟩
  · cases absurd

/-- The numbers of items follow each other. -/
theorem flatMap_ids (arranged : Arranged outer place next items) :
    items.flatMap Item.ids = List.range' next (widthOf items) := by
  suffices fronts : ∀ front after, items = front ++ after →
      front.flatMap Item.ids = List.range' next (widthOf front) from
    fronts items [] (List.append_nil _).symm
  intro front
  induction front using List.reverseRecOn with
  | nil => exact fun _ _ => rfl
  | append_singleton front item ih =>
    intro after split
    rw [List.append_assoc] at split
    obtain ⟨number, -⟩ := arranged front item after split
    rw [List.flatMap_append, ih _ split, List.flatMap_singleton, Item.ids, number, widthOf_append,
      show widthOf [item] = item.element.width by simp [widthOf], List.range'_append_1]

theorem bounds (arranged : Arranged outer place next items) {item : Item} (listed : item ∈ items) :
    next ≤ item.id ∧ item.id + item.element.width ≤ next + widthOf items := by
  obtain ⟨before, after, rfl⟩ := List.append_of_mem listed
  obtain ⟨number, -⟩ := arranged before item after rfl
  rw [widthOf_append, widthOf, number]
  omega

/-- Items that make declarations are told apart by their numbers. -/
theorem eq_of_id (arranged : Arranged outer place next items) {first second : Item}
    (firstListed : first ∈ items) (secondListed : second ∈ items)
    (firstWide : 0 < first.element.width) (secondWide : 0 < second.element.width)
    (same : first.id = second.id) : first = second := by
  obtain ⟨before, after, rfl⟩ := List.append_of_mem firstListed
  have firstNumber := (arranged before first after rfl).1
  rcases List.mem_append.mp secondListed with earlier | later
  · obtain ⟨front, middle, rfl⟩ := List.append_of_mem earlier
    have secondNumber := (arranged front second (middle ++ first :: after) (by simp)).1
    rw [widthOf_append, widthOf] at firstNumber
    omega
  · rcases List.mem_cons.mp later with rfl | later
    · rfl
    · obtain ⟨middle, rest, rfl⟩ := List.append_of_mem later
      have secondNumber := (arranged (before ++ first :: middle) second rest (by simp)).1
      rw [widthOf_append, widthOf] at secondNumber
      omega

/-- An item stands in the given place, or in one that an item of the list has opened. -/
theorem exists_opener (arranged : Arranged outer place next items) {item : Item}
    (listed : item ∈ items) :
    item.place = place ∧ item.outer = outer ∨
      ∃ around ∈ items, around.inner? = some item.place ∧
        item.outer = around.element :: around.outer := by
  obtain ⟨before, after, rfl⟩ := List.append_of_mem listed
  rcases (arranged before item after rfl).2 with here | ⟨around, earlier, opened⟩
  · exact .inl here
  · exact .inr ⟨around, List.mem_append_left _ earlier, opened⟩

end Arranged

/-- An element that opens a place makes one declaration. -/
theorem Item.width_of_inner? {item : Item} {inner : Place} (opens : item.inner? = some inner) :
    item.element.width = 1 ∧ inner.parent? = some item.id := by
  obtain ⟨id, place, ⟨tag, attrs, children, text⟩, outer⟩ := item
  rw [inner?] at opens
  simp only [Place.inner?] at opens
  split at opens
  · cases opens
  · cases opens
    exact ⟨rfl, rfl⟩
  · cases opens
    exact ⟨rfl, rfl⟩
  · cases opens

mutual

theorem arranged_itemsOf (outer : List Element) (place : Place) (next : Nat) :
    ∀ element : Element, Arranged outer place next (itemsOf outer place next element)
  | ⟨tag, attrs, children, text⟩ => by
    let item : Item := ⟨next, place, ⟨tag, attrs, children, text⟩, outer⟩
    rw [itemsOf]
    cases opens : place.inner? next tag with
    | none => exact .singleton rfl rfl rfl
    | some inner =>
      have isOpener : item.inner? = some inner := opens
      refine .cons rfl rfl rfl isOpener ?_
      rw [(Item.width_of_inner? isOpener).1]
      exact arranged_itemsIn _ _ _ children

theorem arranged_itemsIn (outer : List Element) (place : Place) (next : Nat) :
    ∀ elements : List Element, Arranged outer place next (itemsIn outer place next elements)
  | [] => .nil
  | element :: elements => by
    rw [itemsIn]
    exact .append (arranged_itemsOf outer place next element)
      (arranged_itemsIn outer place _ elements)

end

/-! ## Children -/

/-- The items in one place. -/
def itemsAt (items : List Item) (place : Place) : List Item :=
  items.filter fun item => item.place = place

theorem itemsAt_append (first second : List Item) (place : Place) :
    itemsAt (first ++ second) place = itemsAt first place ++ itemsAt second place :=
  List.filter_append ..

/-- The place of a declaration with a number outside a list is opened elsewhere. -/
theorem Arranged.itemsAt_eq_nil {outer : List Element} {place other : Place} {next : Nat}
    {items : List Item} (arranged : Arranged outer place next items) (different : other ≠ place)
    (outside : ∀ id : Nat, other.parent? = some id → id < next ∨ next + widthOf items ≤ id) :
    itemsAt items other = [] := by
  refine List.filter_eq_nil_iff.mpr fun item listed isThere => ?_
  have there : item.place = other := of_decide_eq_true isThere
  rcases arranged.exists_opener listed with ⟨here, -⟩ | ⟨around, isOpener, opens, -⟩
  · exact different (there.symm.trans here)
  · obtain ⟨single, number⟩ := Item.width_of_inner? opens
    obtain ⟨least, most⟩ := arranged.bounds isOpener
    have sort := outside around.id (there ▸ number)
    omega

mutual

theorem children_itemsOf (outer : List Element) (place : Place) (next : Nat)
    (fits : ∀ id : Nat, place.parent? = some id → id < next) :
    ∀ element : Element,
      (itemsAt (itemsOf outer place next element) place).map (·.element) = [element] ∧
        ∀ around ∈ itemsOf outer place next element, ∀ inner ∈ around.inner?,
          (itemsAt (itemsOf outer place next element) inner).map (·.element) =
            around.element.children
  | ⟨tag, attrs, children, text⟩ => by
    let item : Item := ⟨next, place, ⟨tag, attrs, children, text⟩, outer⟩
    rw [itemsOf]
    cases opened : place.inner? next tag with
    | none =>
      have here : itemsAt [item] place = [item] := List.filter_cons_of_pos (decide_eq_true rfl)
      refine ⟨by rw [here]; rfl, fun around listed inner opens => ?_⟩
      cases List.mem_singleton.mp listed
      cases opened.symm.trans opens
    | some inner =>
      let rest := itemsIn (item.element :: outer) inner (next + 1) children
      have isOpener : item.inner? = some inner := opened
      have number : inner.parent? = some next := (Item.width_of_inner? isOpener).2
      have restArranged : Arranged (item.element :: outer) inner (next + 1) rest :=
        arranged_itemsIn _ _ _ children
      obtain ⟨restHere, restInner⟩ := children_itemsIn (item.element :: outer) inner (next + 1)
        (fun id isParent => by
          cases number.symm.trans isParent
          exact Nat.lt_succ_self _) children
      have apart : place ≠ inner := by
        rintro rfl
        exact Nat.lt_irrefl _ (fits next number)
      -- The item stands in its own place, so it is in none that it or its children open.
      have notThere : ∀ other, place ≠ other → itemsAt (item :: rest) other = itemsAt rest other :=
        fun other different => List.filter_cons_of_neg (by simpa using different)
      refine ⟨?_, fun around listed opens isInner => ?_⟩
      · have here : itemsAt (item :: rest) place = item :: itemsAt rest place :=
          List.filter_cons_of_pos (decide_eq_true rfl)
        show (itemsAt (item :: rest) place).map (·.element) = [item.element]
        rw [here, restArranged.itemsAt_eq_nil apart, List.map_singleton]
        exact fun id isParent => .inl (Nat.lt_succ_of_lt (fits id isParent))
      · show (itemsAt (item :: rest) opens).map (·.element) = around.element.children
        rcases List.mem_cons.mp listed with rfl | later
        · cases isOpener.symm.trans isInner
          rw [notThere inner apart, restHere]
        · obtain ⟨-, otherNumber⟩ := Item.width_of_inner? isInner
          rw [notThere opens, restInner around later opens isInner]
          rintro rfl
          have earlier := fits around.id otherNumber
          have least := (restArranged.bounds later).1
          omega

theorem children_itemsIn (outer : List Element) (place : Place) (next : Nat)
    (fits : ∀ id : Nat, place.parent? = some id → id < next) :
    ∀ elements : List Element,
      (itemsAt (itemsIn outer place next elements) place).map (·.element) = elements ∧
        ∀ around ∈ itemsIn outer place next elements, ∀ inner ∈ around.inner?,
          (itemsAt (itemsIn outer place next elements) inner).map (·.element) =
            around.element.children
  | [] => ⟨rfl, fun _ absurd => by cases absurd⟩
  | element :: elements => by
    let first := itemsOf outer place next element
    let rest := itemsIn outer place (next + widthOf first) elements
    have firstArranged : Arranged outer place next first :=
      arranged_itemsOf outer place next element
    have restArranged : Arranged outer place (next + widthOf first) rest :=
      arranged_itemsIn outer place _ elements
    obtain ⟨firstHere, firstInner⟩ := children_itemsOf outer place next fits element
    obtain ⟨restHere, restInner⟩ := children_itemsIn outer place (next + widthOf first)
      (fun id isParent => Nat.lt_of_lt_of_le (fits id isParent) (Nat.le_add_right _ _)) elements
    -- A place that is opened inside differs from the one around, which was opened before.
    have different : ∀ around ∈ first ++ rest, ∀ inner ∈ around.inner?, inner ≠ place := by
      intro around listed inner opens same
      obtain ⟨-, number⟩ := Item.width_of_inner? opens
      have earlier := fits around.id (same ▸ number)
      have least := ((firstArranged.append restArranged).bounds listed).1
      omega
    rw [itemsIn]
    refine ⟨?_, fun around listed inner opens => ?_⟩
    · rw [itemsAt_append, List.map_append, firstHere, restHere, List.singleton_append]
    · have apart := different around listed inner opens
      obtain ⟨single, number⟩ := Item.width_of_inner? opens
      rw [itemsAt_append, List.map_append]
      rcases List.mem_append.mp listed with isFirst | isLater
      · obtain ⟨least, most⟩ := firstArranged.bounds isFirst
        rw [firstInner around isFirst inner opens, restArranged.itemsAt_eq_nil apart, List.map_nil,
          List.append_nil]
        intro id isParent
        cases number.symm.trans isParent
        omega
      · obtain ⟨least, most⟩ := restArranged.bounds isLater
        rw [firstArranged.itemsAt_eq_nil apart, List.map_nil, List.nil_append,
          restInner around isLater inner opens]
        intro id isParent
        cases number.symm.trans isParent
        omega

end

namespace Markup.Element

theorem arranged_items (root : Element) : Arranged [root] .outermost 0 root.items :=
  arranged_itemsIn _ _ _ root.children

/-- The place of an item is opened by one item only, which is found by its number. -/
theorem eq_opener {root : Element} {around item : Item} {inner : Place}
    (aroundListed : around ∈ root.items) (listed : item ∈ root.items)
    (opens : around.inner? = some inner) (same : inner.parent? = item.place.parent?) :
    item.place = inner ∧ item.outer = around.element :: around.outer := by
  obtain ⟨width, number⟩ := Item.width_of_inner? opens
  rcases root.arranged_items.exists_opener listed with ⟨here, -⟩ | ⟨other, isOther, opened, outer⟩
  · rw [here, number] at same
    cases same
  · obtain ⟨otherWidth, otherNumber⟩ := Item.width_of_inner? opened
    have ids : around.id = other.id := by
      rw [number, otherNumber] at same
      exact Option.some.inj same
    cases root.arranged_items.eq_of_id aroundListed isOther (by omega) (by omega) ids
    exact ⟨Option.some.inj (opened.symm.trans opens), outer⟩

/-- The items outside everything are the children of the root. -/
theorem children_outermost (root : Element) :
    (itemsAt root.items .outermost).map (·.element) = root.children :=
  (children_itemsIn [root] .outermost 0 (fun _ isParent => by cases isParent) root.children).1

/-- The items in the place that an item opens are the children of its element. -/
theorem children_inner {root : Element} {around : Item} (listed : around ∈ root.items)
    {inner : Place} (opens : around.inner? = some inner) :
    (itemsAt root.items inner).map (·.element) = around.element.children :=
  (children_itemsIn [root] .outermost 0 (fun _ isParent => by cases isParent) root.children).2
    around listed inner opens

end Markup.Element

/-! ## Everything in a document -/

namespace Markup.Element

/-- The names of elements that make declarations. -/
def isDeclaration (element : Element) : Bool :=
  ["module", "interface", "forward", "typedef", "enum", "operation", "attribute"].contains
    element.name

mutual

/-- Everything inside an element, in the order of the document. -/
def inside : Element → List Element
  | ⟨_, _, children, _⟩ => allInside children

/-- Elements and everything inside them, in the order of the document. -/
def allInside : List Element → List Element
  | [] => []
  | element :: elements => element :: inside element ++ allInside elements

end

mutual

theorem filter_itemsOf (outer : List Element) (place : Place) (next : Nat) :
    ∀ element : Element,
      (∀ item ∈ itemsOf outer place next element, item.inner? = none →
        item.element.inside.filter isDeclaration = []) →
      ((itemsOf outer place next element).map (·.element)).filter isDeclaration =
        (element :: element.inside).filter isDeclaration
  | ⟨tag, attrs, children, text⟩, leaves => by
    let item : Item := ⟨next, place, ⟨tag, attrs, children, text⟩, outer⟩
    rw [itemsOf] at leaves ⊢
    cases opened : place.inner? next tag with
    | none =>
      rw [opened] at leaves
      rw [List.map_cons, List.filter_cons, List.filter_cons, leaves item List.mem_cons_self opened]
      rfl
    | some inner =>
      rw [opened] at leaves
      rw [List.map_cons, List.filter_cons, List.filter_cons,
        filter_itemsIn _ _ _ children fun other listed => leaves other (.tail _ listed)]
      rfl

theorem filter_itemsIn (outer : List Element) (place : Place) (next : Nat) :
    ∀ elements : List Element,
      (∀ item ∈ itemsIn outer place next elements, item.inner? = none →
        item.element.inside.filter isDeclaration = []) →
      ((itemsIn outer place next elements).map (·.element)).filter isDeclaration =
        (allInside elements).filter isDeclaration
  | [], _ => rfl
  | element :: elements, leaves => by
    rw [itemsIn] at leaves ⊢
    rw [List.map_append, List.filter_append, allInside, List.filter_append,
      filter_itemsOf outer place next element fun item listed =>
        leaves item (List.mem_append_left _ listed),
      filter_itemsIn outer place _ elements fun item listed =>
        leaves item (List.mem_append_right _ listed)]

end

/-- If elements that open no place hold no declarations, the items that make declarations are all
the elements of the document that do, in its order. -/
theorem filter_items (root : Element)
    (leaves : ∀ item ∈ root.items, item.inner? = none →
      item.element.inside.filter isDeclaration = []) :
    (root.items.map (·.element)).filter isDeclaration = root.inside.filter isDeclaration := by
  obtain ⟨tag, attrs, children, text⟩ := root
  exact filter_itemsIn _ _ _ children leaves

end Markup.Element

end IdlBridge
