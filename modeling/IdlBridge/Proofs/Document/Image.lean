import IdlBridge.Proofs.DeclTree.Construction
import IdlBridge.Proofs.Document.Loading
import Mathlib.Data.List.Perm.Basic

/-!
# Loaded trees mirror their documents

The declarations of a loaded tree are the items of its document, in its order and under its names,
each listed once, under its own parent and in document order (`DeclTree.Mirrors`). Items are found
by going down into modules and interfaces only. The document may hold more: what stands inside a
forward declaration, a typedef or a group of attributes is never looked at, so it has no image.
-/

set_option autoImplicit false

namespace IdlBridge

open Markup
open scoped List

/-! ## Images -/

/-- The list in which the declaration of an element is found. -/
def Markup.Element.isCallable? (element : Element) : Option Bool :=
  match element.name with
  | "module" | "interface" | "forward" | "typedef" | "enum" => some false
  | "operation" | "attribute" => some true
  | _ => none

/-- The element whose children stand in a place. -/
def Markup.Element.Opens (root : Element) (place : Place) (element : Element) : Prop :=
  place = .outermost ∧ element = root ∨
    ∃ around ∈ root.items, around.inner? = some place ∧ around.element = element

/-- Nothing is declared inside elements that are not entered. -/
def Markup.Element.Unhidden (root : Element) : Prop :=
  ∀ item ∈ root.items, item.inner? = none → item.element.inside.filter Element.isDeclaration = []

instance (root : Element) : Decidable root.Unhidden :=
  inferInstanceAs (Decidable (∀ item ∈ root.items, _))

/-- The declarators of a typedef. -/
def DeclKind.declarators : DeclKind → List DeclId
  | typedef _ declarators => declarators
  | _ => []

namespace DeclTree

/-- The tree has the declarations of an item with the given content. -/
def Shows (tree : DeclTree) (item : Item) : Content → Prop
  | .module name => ∃ members, tree.decl? item.id = some (item.declare name (.module members))
  | .interface name => ∃ parts, tree.decl? item.id = some (item.declare name (.interface parts))
  | .forward name => ∃ target, tree.decl? item.id = some (item.declare name (.forward target))
  | .typedef name _ => ∃ type target,
      tree.decl? item.id = some (item.declare name (.typedef type [item.id + 1])) ∧
      tree.decl? (item.id + 1) = some (item.declare name (.declarator target))
  | .enum name enumerators =>
      tree.decl? item.id = some (item.declare name (.enum enumerators))
  | .operation name _ params => ∃ signature,
      tree.decl? item.id = some (item.declare name (.operation signature)) ∧
      signature.params.map (fun param => (param.name, param.direction)) =
        params.map fun param => (param.name, param.direction)
  | .attributes names readonly _ => ∃ type,
      tree.decl? item.id =
        some (item.declare (names.head?.getD "") (.attributes ⟨type, readonly, names⟩))
  | .pragma _ _ | .base _ _ => True

/-- The tree mirrors the document with the given root. -/
structure Mirrors (tree : DeclTree) (root : Element) : Prop where
  /-- The root names the file of the tree. -/
  file : root.attr? "file" = some tree.file
  /-- The declarations are numbered in the order of the items that make them. -/
  numbers : root.items.flatMap Item.ids = tree.ids
  /-- Every item has its declarations, with its file and in its scope. -/
  shown : ∀ item ∈ root.items, ∃ content, item.Carries content ∧ tree.Shows item content
  /-- Around an item there are the elements around its parent, whose full name is its scope. -/
  around : ∀ item ∈ root.items,
    (item.place = .outermost ∧ item.outer = [root] ∨
      ∃ around ∈ root.items, around.inner? = some item.place ∧
        item.outer = around.element :: around.outer) ∧
    tree.scopeOf item.place.parent? = item.scope
  /-- The members of a parent are the children of its element, in their order. -/
  members : ∀ place element, root.Opens place element → ∀ callable,
    List.Forall₂
      (fun child id => ∃ item ∈ root.items, item.id = id ∧ item.place = place ∧
        item.element = child)
      (element.children.filter fun child => child.isCallable? = some callable)
      (tree.listing place.parent? callable)
  /-- Everything is listed once. -/
  once : (tree.declarations ++ tree.ids.flatMap fun id =>
    tree.listing (some id) true ++ tree.listing (some id) false ++
      tree.partOf DeclKind.declarators id).Perm tree.ids
  /-- The pragmas of an interface are those of its element. -/
  pragmas : ∀ item ∈ root.items, item.inner? = some (.interface item.id) →
    tree.partOf DeclKind.pragmas item.id =
      (item.element.children.filter fun child => child.name = "pragma").map fun child =>
        Pragma.ofText child.text
  /-- The bases of an interface are what its references stand for. -/
  bases : ∀ item ∈ root.items, item.inner? = some (.interface item.id) →
    List.Forall₂
      (fun child base => ∃ reference name, child.attr? "ref" = some reference ∧
        tree.lookup? item.scope reference = some (name, base))
      (item.element.children.filter fun child => child.name = "inherits")
      (tree.partOf DeclKind.bases item.id)

end DeclTree

/-! ## Items and entries -/

section Lists

variable {α β γ : Type}

/-- The groups of a list, one after another, hold what belongs to a group. -/
theorem perm_flatMap_groups [DecidableEq γ] (key : α → Option γ) (value : α → β) {keys : List γ}
    (distinct : keys.Nodup) {list : List α}
    (covered : ∀ member ∈ list, ∀ group ∈ key member, group ∈ keys) :
    (keys.flatMap fun group => list.filterMap fun member =>
      if key member = some group then some (value member) else none).Perm
      (list.filterMap fun member => (key member).map fun _ => value member) := by
  induction list with
  | nil => simp
  | cons member list ih =>
    have rest := ih fun other listed => covered other (List.mem_cons_of_mem _ listed)
    have split : ∀ group, ((member :: list).filterMap fun member =>
        if key member = some group then some (value member) else none) =
        (if key member = some group then [value member] else []) ++ list.filterMap fun member =>
          if key member = some group then some (value member) else none := by
      intro group
      rw [List.filterMap_cons]
      by_cases own : key member = some group <;> simp [own]
    simp only [split]
    refine (List.flatMap_append_perm ..).symm.trans ?_
    rw [List.filterMap_cons]
    cases own : key member with
    | none =>
      have nothing : (keys.flatMap fun group =>
          if none = some group then [value member] else []) = [] :=
        List.flatMap_eq_nil_iff.mpr fun group _ => if_neg nofun
      rw [nothing]
      exact rest
    | some group =>
      have listed := covered member List.mem_cons_self group own
      have once : (keys.flatMap fun other =>
          if some group = some other then [value member] else []) = [value member] := by
        obtain ⟨before, after, rfl⟩ := List.append_of_mem listed
        have absent := List.nodup_middle.mp distinct
        rw [List.nodup_cons, List.mem_append, not_or] at absent
        have others : ∀ list : List γ, group ∉ list → (list.flatMap fun other =>
            if some group = some other then [value member] else []) = [] := by
          intro list missing
          refine List.flatMap_eq_nil_iff.mpr fun other listed => if_neg fun same => ?_
          exact missing (Option.some.inj same ▸ listed)
        rw [List.flatMap_append, List.flatMap_cons, others _ absent.1.1, others _ absent.1.2,
          if_pos rfl]
        rfl
      rw [once]
      exact rest.cons _

end Lists

theorem Content.isCallable?_eq {item : Item} {content : Content} (carries : item.Carries content) :
    item.element.isCallable? = content.isCallable? := by
  rw [Element.isCallable?, carries.name_eq]
  cases content <;> rfl

/-- Parameters keep their names, directions and order. -/
theorem Outline.map_params_of_means {outline : Outline} {scope : ScopedName}
    {texts : List ParameterText} {params : List Parameter}
    (matched : List.Forall₂ (outline.ParameterMeans scope) texts params) :
    params.map (fun param => (param.name, param.direction)) =
      texts.map fun param => (param.name, param.direction) := by
  induction matched with
  | nil => rfl
  | cons means _ ih => rw [List.map_cons, List.map_cons, ih, means.name, means.direction]

namespace Loads

variable {root : Element} {entries : List Entry} {outline : Outline} {tree : DeclTree}

theorem exists_entry (loads : Loads root entries outline tree) {item : Item}
    (listed : item ∈ root.items) : ∃ content, (item, content) ∈ entries := by
  rw [← loads.items] at listed
  obtain ⟨⟨_, content⟩, isEntry, rfl⟩ := List.mem_map.mp listed
  exact ⟨content, isEntry⟩

theorem mem_items (loads : Loads root entries outline tree) {entry : Entry}
    (listed : entry ∈ entries) : entry.1 ∈ root.items := by
  rw [← loads.items]
  exact List.mem_map_of_mem listed

/-- The chosen children of an element are those of the entries in its place. -/
theorem filter_children (loads : Loads root entries outline tree) {place : Place}
    {element : Element} (opens : root.Opens place element) (chosen : Element → Bool) :
    element.children.filter chosen = entries.filterMap fun entry =>
      if entry.1.place = place ∧ chosen entry.1.element = true then some entry.1.element
      else none := by
  have children : ((itemsAt (entries.map Prod.fst) place).map (·.element)) = element.children := by
    rw [loads.items]
    rcases opens with ⟨rfl, rfl⟩ | ⟨around, listed, opens, rfl⟩
    · exact Element.children_outermost _
    · exact Element.children_inner listed opens
  rw [← children, itemsAt]
  generalize entries = list
  induction list with
  | nil => rfl
  | cons entry list ih =>
    rw [List.map_cons, List.filter_cons, List.filterMap_cons]
    by_cases own : entry.1.place = place
    · by_cases isChosen : chosen entry.1.element = true
      · simp [own, isChosen, ih]
      · simp [own, isChosen, ih]
    · simp [own, ih]

/-- The place of a parent is told by its number. -/
theorem place_eq (loads : Loads root entries outline tree) {place : Place} {element : Element}
    (opens : root.Opens place element) {entry : Entry} (listed : entry ∈ entries)
    (same : place.parent? = entry.1.place.parent?) : entry.1.place = place := by
  rcases opens with ⟨rfl, -⟩ | ⟨around, isItem, opens, -⟩
  · cases there : entry.1.place with
    | outermost => rfl
    | _ => rw [there] at same; cases same
  · exact (Element.eq_opener isItem (loads.mem_items listed) opens same).1

/-! ## Images of documents -/

theorem numbers (loads : Loads root entries outline tree) :
    root.items.flatMap Item.ids = tree.ids := by
  have size : tree.size = widthOf root.items := by
    rw [DeclTree.size_of_unresolved loads.same, ← DeclTree.length_bare, loads.holds.bare,
      loads.laid.length_flatMap_decls, loads.items]
  rw [root.arranged_items.flatMap_ids, DeclTree.ids, size, List.range_eq_range']

theorem shown (loads : Loads root entries outline tree) {item : Item} {content : Content}
    (listed : (item, content) ∈ entries) : tree.Shows item content := by
  have found := @decl?_of_mem _ _ _ _ loads _ listed
  cases content with
  | module name =>
    obtain ⟨kind, stored, alike⟩ := found 0 rfl
    cases kind with
    | module members => exact ⟨members, stored⟩
    | _ => cases alike
  | interface name =>
    obtain ⟨kind, stored, alike⟩ := found 0 rfl
    cases kind with
    | interface parts => exact ⟨parts, stored⟩
    | _ => cases alike
  | forward name =>
    obtain ⟨kind, stored, alike⟩ := found 0 rfl
    cases kind with
    | forward target => exact ⟨target, stored⟩
    | _ => cases alike
  | typedef name expression =>
    obtain ⟨kind, stored, alike⟩ := found 0 rfl
    obtain ⟨next, follows, alsoAlike⟩ := found 1 rfl
    cases kind with
    | typedef type declarators =>
      cases alike
      cases next with
      | declarator target => exact ⟨type, target, stored, follows⟩
      | _ => cases alsoAlike
    | _ => cases alike
  | enum name enumerators =>
    obtain ⟨kind, stored, alike⟩ := found 0 rfl
    cases kind with
    | enum other =>
      cases alike
      exact stored
    | _ => cases alike
  | operation name returns params =>
    obtain ⟨kind, stored, alike⟩ := found 0 rfl
    obtain ⟨typed, types, here, isTyped, means⟩ := loads.callable listed rfl
    rw [DeclTree.kind?, show tree.decl? item.id = _ from stored] at here
    cases here
    cases kind with
    | operation signature =>
      cases isTyped
      exact ⟨signature, stored, Outline.map_params_of_means means.2⟩
    | _ => cases alike
  | attributes names readonly type =>
    obtain ⟨kind, stored, alike⟩ := found 0 rfl
    cases kind with
    | attributes group =>
      obtain ⟨found, _, _⟩ := group
      cases alike
      exact ⟨found, stored⟩
    | _ => cases alike
  | pragma | base => trivial

theorem around (loads : Loads root entries outline tree) {item : Item}
    (listed : item ∈ root.items) :
    (item.place = .outermost ∧ item.outer = [root] ∨
      ∃ around ∈ root.items, around.inner? = some item.place ∧
        item.outer = around.element :: around.outer) ∧
    tree.scopeOf item.place.parent? = item.scope := by
  have stands := root.arranged_items.exists_opener listed
  refine ⟨stands, ?_⟩
  rcases stands with ⟨place, outer⟩ | ⟨around, isItem, opens, outer⟩
  · rw [place, Item.scope, outer]
    rfl
  · obtain ⟨content, isEntry⟩ := loads.exists_entry isItem
    have carries := loads.laid.carries _ isEntry
    obtain ⟨name, named, sort⟩ := carries.of_inner? opens
    have nested := loads.laid.outer_ne_nil isEntry
    have scope : item.scope = around.scope.child name := by
      rw [Item.scope, outer, Outline.chainScope_cons nested, named]
      rfl
    have declared : ∃ kind, tree.decl? around.id = some (around.declare name kind) := by
      rcases sort with ⟨rfl, -⟩ | ⟨rfl, -⟩
      · obtain ⟨members, stored⟩ := loads.shown isEntry
        exact ⟨_, stored⟩
      · obtain ⟨parts, stored⟩ := loads.shown isEntry
        exact ⟨_, stored⟩
    obtain ⟨kind, stored⟩ := declared
    rw [(Item.width_of_inner? opens).2, DeclTree.scopeOf, DeclTree.scopedName, stored, scope]
    rfl

theorem members (loads : Loads root entries outline tree) {place : Place} {element : Element}
    (opens : root.Opens place element) (callable : Bool) :
    List.Forall₂
      (fun child id => ∃ item ∈ root.items, item.id = id ∧ item.place = place ∧
        item.element = child)
      (element.children.filter fun child => child.isCallable? = some callable)
      (tree.listing place.parent? callable) := by
  rw [loads.listing, loads.filter_children opens]
  refine forall₂_filterMap fun entry listed => ?_
  have sort := Content.isCallable?_eq (loads.laid.carries entry listed)
  rw [Entry.listedUnder?, ← sort]
  by_cases there : entry.1.place = place ∧ entry.1.element.isCallable? = some callable
  · rw [if_pos ⟨there.1, decide_eq_true there.2⟩, if_pos ⟨by rw [there.1], there.2⟩]
    exact .some ⟨entry.1, loads.mem_items listed, rfl, there.1, rfl⟩
  · rw [if_neg fun both => there ⟨both.1, of_decide_eq_true both.2⟩,
      if_neg fun both => there ⟨loads.place_eq opens listed both.1, both.2⟩]
    exact .none

theorem pragmas_eq (loads : Loads root entries outline tree) {item : Item}
    (listed : item ∈ root.items) (opens : item.inner? = some (.interface item.id)) :
    tree.partOf DeclKind.pragmas item.id =
      (item.element.children.filter fun child => child.name = "pragma").map fun child =>
        Pragma.ofText child.text := by
  rw [loads.pragmas, loads.filter_children (.inr ⟨item, listed, opens, rfl⟩), List.map_filterMap]
  refine List.filterMap_congr fun entry isEntry => ?_
  obtain ⟨other, content⟩ := entry
  have carries : other.Carries content := loads.laid.carries _ isEntry
  by_cases isPragma : content.tag = "pragma"
  · cases content with
    | pragma interface pragma =>
      obtain ⟨place, name, rfl⟩ := carries
      by_cases own : interface = item.id
      · simp [Entry.pragmaOf?, own, place, name]
      · simp [Entry.pragmaOf?, own, place]
    | _ => simp [Content.tag] at isPragma
  · have missing : Entry.pragmaOf? item.id (other, content) = none := by
      cases content with
      | pragma => exact absurd rfl isPragma
      | _ => rfl
    rw [missing]
    simp [carries.name_eq, isPragma]

theorem bases_eq (loads : Loads root entries outline tree) {item : Item}
    (listed : item ∈ root.items) (opens : item.inner? = some (.interface item.id)) :
    List.Forall₂
      (fun child base => ∃ reference name, child.attr? "ref" = some reference ∧
        tree.lookup? item.scope reference = some (name, base))
      (item.element.children.filter fun child => child.name = "inherits")
      (tree.partOf DeclKind.bases item.id) := by
  obtain ⟨content, isEntry⟩ := loads.exists_entry listed
  obtain ⟨name, -, ⟨-, module⟩ | ⟨rfl, -⟩⟩ := (loads.laid.carries _ isEntry).of_inner? opens
  · cases module
  have written : List.Forall₂
      (fun (child : Element) (base : OpenBase) =>
        child.attr? "ref" = some base.reference ∧ base.scope = item.scope)
      (item.element.children.filter fun child => child.name = "inherits")
      (outline.bases.filter fun base => base.interface = item.id) := by
    rw [loads.filter_children (.inr ⟨item, listed, opens, rfl⟩), loads.holds.bases,
      List.filter_filterMap]
    refine forall₂_filterMap fun entry isEntry => ?_
    obtain ⟨other, content⟩ := entry
    have carries : other.Carries content := loads.laid.carries _ isEntry
    by_cases isBase : content.tag = "inherits"
    · cases content with
      | base interface reference =>
        obtain ⟨place, name, written⟩ := carries
        by_cases own : interface = item.id
        · have around : other.outer = item.element :: item.outer :=
            (Element.eq_opener listed (loads.mem_items isEntry) opens (by rw [place, own])).2
          have scope : other.around = item.scope := by
            rw [Item.around, around]
            rfl
          have kept : (Entry.openBase? (other, .base interface reference)).filter
              (fun base => base.interface = item.id) =
                some ⟨interface, reference, other.around⟩ := by
            simp [Entry.openBase?, Option.filter, own]
          rw [kept, if_pos ⟨by rw [place, own], decide_eq_true name⟩]
          exact .some ⟨written, scope⟩
        · have dropped : (Entry.openBase? (other, .base interface reference)).filter
              (fun base => base.interface = item.id) = none := by
            simp [Entry.openBase?, Option.filter, own]
          rw [dropped, if_neg fun both => own (Place.interface.inj (place.symm.trans both.1))]
          exact .none
      | _ => simp [Content.tag] at isBase
    · have missing : Entry.openBase? (other, content) = none := by
        cases content with
        | base => exact absurd rfl isBase
        | _ => rfl
      rw [missing]
      simp [carries.name_eq, isBase]
  refine (forall₂_trans written (loads.bases isEntry)).imp ?_
  rintro child target ⟨base, ⟨reference, scope⟩, found⟩
  obtain ⟨name, first⟩ := Outline.baseOf_eq_ok_iff.mp found
  refine ⟨base.reference, name, reference, ?_⟩
  rw [DeclTree.lookup?_of_unresolved loads.same, ← scope]
  exact DeclTree.lookup?_eq_some_iff.mpr first

/-! ## Every declaration is listed once -/

/-- The list in which an entry is found: its parent, and whether it is a callable. -/
def listOf (entry : Entry) : Option (Option DeclId × Bool) :=
  entry.2.isCallable?.map fun callable => (entry.1.place.parent?, callable)

/-- The declarator that an entry makes. -/
def declarator? (entry : Entry) : Option DeclId :=
  match entry.2 with
  | .typedef _ _ => some (entry.1.id + 1)
  | _ => none

/-- All lists of a tree: the outermost one, and two for each declaration. -/
def lists (tree : DeclTree) : List (Option DeclId × Bool) :=
  (none, false) :: tree.ids.flatMap fun id => [(some id, true), (some id, false)]

theorem nodup_lists (tree : DeclTree) : (lists tree).Nodup := by
  refine List.nodup_cons.mpr ⟨by simp, List.nodup_flatMap.mpr ⟨by simp, ?_⟩⟩
  refine List.Pairwise.imp ?_ (List.nodup_range : tree.ids.Nodup)
  intro first second different
  simpa [Function.onFun, List.Disjoint] using different

theorem listing_eq (loads : Loads root entries outline tree) (list : Option DeclId × Bool) :
    tree.listing list.1 list.2 = entries.filterMap fun entry =>
      if listOf entry = some list then some entry.1.id else none := by
  rw [loads.listing]
  refine List.filterMap_congr fun entry _ => ?_
  obtain ⟨parent, callable⟩ := list
  rw [Entry.listedUnder?, listOf]
  cases sort : entry.2.isCallable? with
  | none => simp
  | some other => simp [eq_comm]

theorem listOf_mem (loads : Loads root entries outline tree) {entry : Entry}
    (listed : entry ∈ entries) {list : Option DeclId × Bool} (found : listOf entry = some list) :
    list ∈ lists tree := by
  obtain ⟨callable, sort, rfl⟩ := Option.map_eq_some_iff.mp found
  rcases root.arranged_items.exists_opener (loads.mem_items listed) with ⟨place, -⟩ |
    ⟨around, isItem, opens, -⟩
  · have plain := (loads.laid.carries entry listed).callable_eq_false sort (by rw [place]; rfl)
    rw [plain, place]
    exact List.mem_cons_self
  · obtain ⟨single, number⟩ := Item.width_of_inner? opens
    have known : around.id ∈ tree.ids := by
      rw [← loads.numbers, List.mem_flatMap]
      exact ⟨around, isItem, by simp [Item.ids, single]⟩
    rw [number]
    refine List.mem_cons_of_mem _ (List.mem_flatMap.mpr ⟨around.id, known, ?_⟩)
    cases callable <;> simp

theorem flatMap_declarators (loads : Loads root entries outline tree) :
    tree.ids.flatMap (tree.partOf DeclKind.declarators) = entries.filterMap declarator? := by
  rw [← loads.numbers, ← loads.items, List.flatMap_assoc, List.flatMap_map,
    List.filterMap_eq_flatMap_toList]
  refine List.flatMap_congr fun entry listed => ?_
  obtain ⟨item, content⟩ := entry
  have shown := loads.shown listed
  have part := fun (id : DeclId) (decl : Decl) (found : tree.decl? id = some decl) =>
    DeclTree.partOf_of_decl? found DeclKind.declarators
  rw [Item.ids, Item.width_of_carries (loads.laid.carries _ listed)]
  cases content with
  | typedef name expression =>
    obtain ⟨type, target, typedef, declarator⟩ := shown
    simp [Content.width, List.range', part _ _ typedef, part _ _ declarator, DeclKind.declarators,
      Item.declare, declarator?]
  | enum name enumerators =>
    simp [Content.width, part _ _ shown, DeclKind.declarators, Item.declare, declarator?]
  | operation name returns params =>
    obtain ⟨signature, stored, -⟩ := shown
    simp [Content.width, part _ _ stored, DeclKind.declarators, Item.declare, declarator?]
  | pragma | base => rfl
  | _ =>
    obtain ⟨_, stored⟩ := shown
    simp [Content.width, part _ _ stored, DeclKind.declarators, Item.declare, declarator?]

theorem ids_eq {entry : Entry} (carries : entry.1.Carries entry.2) :
    entry.1.ids =
      ((listOf entry).map fun _ => entry.1.id).toList ++ (declarator? entry).toList := by
  rw [Item.ids, Item.width_of_carries carries, listOf, declarator?]
  cases entry.2 <;> rfl

theorem once (loads : Loads root entries outline tree) :
    (tree.declarations ++ tree.ids.flatMap fun id =>
      tree.listing (some id) true ++ tree.listing (some id) false ++
        tree.partOf DeclKind.declarators id).Perm tree.ids := by
  have groups := perm_flatMap_groups listOf (fun entry => entry.1.id) (nodup_lists tree)
    fun entry listed list found => loads.listOf_mem listed found
  simp only [← loads.listing_eq] at groups
  have all : (lists tree).flatMap (fun list => tree.listing list.1 list.2) =
      tree.declarations ++ tree.ids.flatMap fun id =>
        tree.listing (some id) true ++ tree.listing (some id) false := by
    rw [lists, List.flatMap_cons, List.flatMap_assoc]
    simp [DeclTree.listing]
  rw [all] at groups
  calc _
    _ ~ (tree.declarations ++ tree.ids.flatMap fun id =>
          tree.listing (some id) true ++ tree.listing (some id) false) ++
        tree.ids.flatMap (tree.partOf DeclKind.declarators) := by
      rw [List.append_assoc]
      exact (List.flatMap_append_perm ..).symm.append_left _
    _ ~ (entries.filterMap fun entry => (listOf entry).map fun _ => entry.1.id) ++
        entries.filterMap declarator? := by
      rw [loads.flatMap_declarators]
      exact groups.append_right _
    _ ~ entries.flatMap fun entry => entry.1.ids := by
      rw [List.filterMap_eq_flatMap_toList, List.filterMap_eq_flatMap_toList]
      refine (List.flatMap_append_perm ..).trans
        (.of_eq (List.flatMap_congr fun entry listed => ?_))
      exact (ids_eq (loads.laid.carries entry listed)).symm
    _ = tree.ids := by
      rw [← loads.numbers, ← loads.items, List.flatMap_map]

end Loads

/-- **A loaded tree mirrors its document.** If nothing is declared inside elements that are not
entered, its items are all the declarations of the document. -/
theorem loaded_mirrors_document {document : String} {tree : DeclTree}
    (loaded : DeclTree.ofDocument document = .ok tree) :
    ∃ root, Element.ofDocument document = .ok root ∧ tree.Mirrors root ∧
      (root.Unhidden → (root.items.map (·.element)).filter Element.isDeclaration =
        root.inside.filter Element.isDeclaration) := by
  simp only [DeclTree.ofDocument, bind_eq_ok_iff] at loaded
  obtain ⟨root, parsed, outline, read, resolved⟩ := loaded
  obtain ⟨entries, loads⟩ := exists_loads read resolved
  refine ⟨root, parsed, ?_, root.filter_items⟩
  exact
    { file := loads.file
      numbers := loads.numbers
      shown := fun item listed => by
        obtain ⟨content, isEntry⟩ := loads.exists_entry listed
        exact ⟨content, loads.laid.carries _ isEntry, loads.shown isEntry⟩
      around := fun _ => loads.around
      members := fun _ _ => loads.members
      once := loads.once
      pragmas := fun _ => loads.pragmas_eq
      bases := fun _ => loads.bases_eq }

/-- A document with declarations of every kind in two files. -/
def mixedKindsDocument : String :=
  "<tree file=\"a.idl\"><module name=\"m\"><forward name=\"J\"/>" ++
  "<interface name=\"I\" file=\"b.idl\"><pragma>terminal</pragma>" ++
  "<typedef name=\"T\" type=\"long\"/><operation name=\"f\" returns=\"T\">" ++
  "<param name=\"x\" direction=\"in\" type=\"J\"/></operation>" ++
  "<attribute names=\"p q\" type=\"E\" readonly=\"true\"/><enum name=\"E\">" ++
  "<enumerator name=\"e\"/></enum></interface><interface name=\"J\"><inherits ref=\"I\"/>" ++
  "</interface></module></tree>"

theorem mixedKindsDocument_mirrored :
    ∃ root tree, Element.ofDocument mixedKindsDocument = .ok root ∧
      DeclTree.ofDocument mixedKindsDocument = .ok tree ∧ root.Unhidden ∧ tree.Mirrors root ∧
      tree.ids.length = 9 ∧
      ((root.items.map (·.element)).filter Element.isDeclaration).length = 8 := by
  have facts : (Element.ofDocument mixedKindsDocument).toOption.map (fun root =>
      (decide root.Unhidden, (root.inside.filter Element.isDeclaration).length,
        (Outline.ofRoot root >>= Outline.resolve).toOption.map (·.ids.length))) =
      some (true, 8, some 9) := by
    decide +kernel
  obtain ⟨root, isRoot, facts⟩ := Option.map_eq_some_iff.mp facts
  have parsed := eq_ok_of_toOption isRoot
  simp only [Prod.mk.injEq, decide_eq_true_eq, ← DeclTree.ofDocument_eq parsed] at facts
  obtain ⟨unhidden, declarations, size⟩ := facts
  obtain ⟨tree, isTree, size⟩ := Option.map_eq_some_iff.mp size
  obtain ⟨again, alsoParsed, mirrors, complete⟩ :=
    loaded_mirrors_document (eq_ok_of_toOption isTree)
  cases parsed.symm.trans alsoParsed
  exact ⟨root, tree, parsed, eq_ok_of_toOption isTree, unhidden, mirrors, size,
    by rw [complete unhidden, declarations]⟩

/-- A document with a module inside a forward declaration. -/
def hiddenModuleDocument : String :=
  "<tree file=\"a.idl\"><forward name=\"F\"><module name=\"M\"/></forward></tree>"

/-- The module is an element of the document, and no declaration of its tree. -/
theorem hiddenModuleDocument_missing :
    (Element.ofDocument hiddenModuleDocument).toOption.map (fun root =>
        (root.inside.filter Element.isDeclaration).map (·.name)) = some ["forward", "module"] ∧
      (DeclTree.ofDocument hiddenModuleDocument).toOption.map (fun tree =>
        tree.decls.toList.map (·.scopedName)) = some [⟨["F"]⟩] := by
  decide +kernel

end IdlBridge
