import IdlBridge.Proofs.DeclTree.References
import IdlBridge.Proofs.Document.Loading

/-!
# References inside loaded trees

Loading edits its draft only at numbers that have been handed out before: the parent of an item is
the declaration of an earlier one, and what a reference is resolved to is found in the index. So a
loaded tree mentions no number without a declaration (`Loads.handed`).
-/

set_option autoImplicit false

namespace IdlBridge

open Markup

theorem DeclTree.lt_size_of_kind? {tree : DeclTree} {id : DeclId} {kind : DeclKind}
    (found : tree.kind? id = some kind) : id < tree.size := by
  obtain ⟨decl, here, -⟩ := Option.map_eq_some_iff.mp found
  exact (Array.getElem?_eq_some_iff.mp here).1

/-! ## The first half of loading -/

namespace Outline

variable {outline : Outline} {entry : Entry}

/-- An item is put down by an edit inside its parent. -/
theorem Ready.handed (ready : outline.Ready entry) (carries : entry.1.Carries entry.2)
    (handed : outline.draft.Handed) :
    (outline.record entry.1.place.parent? entry.1.around entry.2).draft.Handed := by
  obtain ⟨item, content⟩ := entry
  have known : ∀ id ∈ item.place.parent?.toList, id < outline.draft.nextId :=
    fun id isParent => ready.around.known id (Option.mem_toList.mp isParent)
  -- Callables stand in an interface, which the edit names without an option.
  have inside : ¬ item.place.isScope = true → ∃ interface, item.place.parent? = some interface :=
    fun isPart => (Item.exists_interface isPart).imp fun _ place => by rw [place]; rfl
  cases content with
  | module name => exact .edit handed (.addModule item.place.parent? name) known
  | interface name => exact .edit handed (.addInterface item.place.parent? name) known
  | forward name => exact .edit handed (.addForward item.place.parent? name) known
  | typedef name expression =>
    exact .edit handed (.addTypedef item.place.parent? name .void) known
  | enum name enumerators =>
    exact .edit handed (.addEnum item.place.parent? name enumerators) known
  | operation name returns params =>
    obtain ⟨interface, isParent⟩ := inside carries.1
    rw [isParent] at known ⊢
    exact .edit handed (.addOperation interface name _) known
  | attributes names readonly type =>
    obtain ⟨interface, isParent⟩ := inside carries.1
    rw [isParent] at known ⊢
    exact .edit handed (.addAttributes interface _) known
  | pragma interface pragma =>
    obtain ⟨parts, isInterface⟩ := ready.isInterface rfl
    refine .edit handed (.addPragma interface pragma) fun id named => ?_
    rw [List.mem_singleton.mp named]
    exact DeclTree.lt_size_of_kind? isInterface
  | base interface reference => exact handed

theorem handed_putAll {root : Element} {file : String} {entries : List Entry}
    (laid : Laid root entries) : ((start root file).putAll entries).draft.Handed := by
  induction entries using List.reverseRecOn with
  | nil => exact .edit (.empty file) (.setFilename _) fun _ absurd => by cases absurd
  | append_singleton entries entry ih =>
    have before : ((start root file).putAll entries).Holds entries := holds_putAll laid.front
    rw [putAll, List.foldl_append]
    refine (before.ready laid).handed (laid.carries entry (by simp)) ?_
    exact .edit (ih laid.front) (.setFile _) fun _ absurd => by cases absurd

/-! ## The second half of loading -/

/-- A series of changes that keep the size, each by edits at numbers below it. -/
theorem handed_foldl {β : Type} {change : Draft → β → Draft} {size : Nat} {entries : List β}
    (step : ∀ draft : Draft, draft.Handed → draft.tree.size = size → ∀ entry ∈ entries,
      (change draft entry).Handed ∧ (change draft entry).tree.size = size) {draft : Draft}
    (handed : draft.Handed) (sized : draft.tree.size = size) :
    (entries.foldl change draft).Handed ∧ (entries.foldl change draft).tree.size = size := by
  induction entries generalizing draft with
  | nil => exact ⟨handed, sized⟩
  | cons entry entries ih =>
    obtain ⟨first, firstSized⟩ := step draft handed sized entry List.mem_cons_self
    exact ih (fun draft handed sized other listed =>
      step draft handed sized other (List.mem_cons_of_mem _ listed)) first firstSized

theorem handed_setAliasType {draft : Draft} (handed : draft.Handed) {declarator : DeclId}
    (known : declarator < draft.nextId) (type : IdlType) :
    (draft.setAliasType declarator type).Handed := by
  have setAliased : ∀ larger : Draft, larger.Handed → larger.tree.size = draft.tree.size →
      (larger.setAliasedType declarator type).Handed := by
    intro larger handed sized
    refine .edit handed (.setAliasedType declarator type) fun id named => ?_
    rw [List.mem_singleton.mp named, Draft.nextId, sized]
    exact known
  rw [Draft.setAliasType]
  split
  · rename_i target found
    refine setAliased _ (.edit handed (.setAlias declarator target) fun id named => ?_)
      (Draft.size_modifyKind ..)
    rcases List.mem_cons.mp named with rfl | isTarget
    · exact known
    · rw [List.mem_singleton.mp isTarget]
      cases type with
      | interface name => exact handed.mentionsBelow target (DeclTree.mem_mentions_of_find? found)
      | _ => cases found
  · exact setAliased draft handed rfl

theorem handed_setTypes {draft : Draft} (handed : draft.Handed) {id : DeclId}
    (known : id < draft.nextId) (types : CallableTypes) : (draft.setTypes id types).Handed := by
  have named : ∀ other ∈ [id], other < draft.nextId := fun other listed => by
    rw [List.mem_singleton.mp listed]
    exact known
  cases types with
  | operation signature => exact .edit handed (.setOperation id signature) named
  | attributes type => exact .edit handed (.setAttributeType id type) named

end Outline

namespace Loads

variable {root : Element} {entries : List Entry} {outline : Outline} {tree : DeclTree}

/-- References are kept for interfaces that are there. -/
theorem interface_lt_size (loads : Loads root entries outline tree) {base : OpenBase}
    (listed : base ∈ outline.bases) : base.interface < outline.draft.tree.size := by
  rw [loads.holds.bases] at listed
  obtain ⟨⟨item, content⟩, isEntry, isBase⟩ := List.mem_filterMap.mp listed
  have carries : item.Carries content := loads.laid.carries _ isEntry
  cases content with
  | base interface reference =>
    cases isBase
    have isItem : item ∈ root.items := loads.items ▸ List.mem_map_of_mem isEntry
    rcases root.arranged_items.exists_opener isItem with ⟨place, -⟩ | ⟨around, isAround, opens, -⟩
    · cases place.symm.trans carries.1
    · obtain ⟨single, number⟩ := Item.width_of_inner? opens
      rw [carries.1] at number
      cases number
      have bound := (root.arranged_items.bounds isAround).2
      rw [← DeclTree.length_bare, loads.holds.bare, loads.laid.length_flatMap_decls, loads.items]
      show around.id < _
      omega
  | _ => cases isBase

/-- Typedefs and callables are registered under numbers of declarations. -/
theorem declarator_lt_size (loads : Loads root entries outline tree) {declarator : DeclId}
    {type : IdlType} (means : outline.Means (.typedef declarator) type) :
    declarator < outline.draft.tree.size := by
  have registered : ∀ entry ∈ outline.aliases, entry.declarator < outline.draft.tree.size := by
    intro entry listed
    obtain ⟨id, name, file, follows, -, -, introduced⟩ :=
      loads.registered.alias_introduced entry listed
    rw [follows, ← DeclTree.length_bare]
    exact (List.getElem?_eq_some_iff.mp introduced).1
  cases means with
  | sequence listed => exact registered _ listed
  | plain listed => exact registered _ listed

theorem callable_lt_size (loads : Loads root entries outline tree) {callable : OpenCallable}
    (listed : callable ∈ outline.callables) : callable.id < outline.draft.tree.size := by
  obtain ⟨decl, introduced, -⟩ := loads.registered.callable_introduced callable listed
  rw [← DeclTree.length_bare]
  exact (List.getElem?_eq_some_iff.mp introduced).1

/-- **A loaded tree is built from numbers that have been handed out.** -/
theorem handed (loads : Loads root entries outline tree) :
    ∃ draft : Draft, draft.Handed ∧ draft.tree = tree := by
  obtain ⟨table, types, bases, worked, typed, based, rfl⟩ :=
    Outline.resolve_eq_ok_iff.mp loads.resolved
  obtain ⟨sound, -⟩ := loads.registered.aliasTable worked
  have outlined : outline.draft.Handed := by
    obtain ⟨-, file, contents, -, carries, rfl⟩ := Outline.ofRoot_eq_ok_iff.mp loads.read
    exact Outline.handed_putAll (Laid.ofForall₂ carries)
  have aliased : (outline.withAliases table).Handed ∧
      (outline.withAliases table).tree.size = outline.draft.tree.size := by
    refine Outline.handed_foldl (fun draft handed sized entry listed => ⟨?_, ?_⟩) outlined rfl
    · refine Outline.handed_setAliasType handed ?_ entry.2
      rw [Draft.nextId, sized]
      exact loads.declarator_lt_size (sound entry listed)
    · exact (DeclTree.size_of_unresolved (draft.unresolved_setAliasType ..)).trans sized
  have called : (outline.withCallables table types).Handed ∧
      (outline.withCallables table types).tree.size = outline.draft.tree.size := by
    refine Outline.handed_foldl (fun draft handed sized entry listed => ⟨?_, ?_⟩) aliased.1
      aliased.2
    · refine Outline.handed_setTypes handed ?_ entry.2
      rw [Draft.nextId, sized]
      exact loads.callable_lt_size (List.of_mem_zip listed).1
    · exact (DeclTree.size_of_unresolved (draft.unresolved_setTypes ..)).trans sized
  refine ⟨_, (Outline.handed_foldl (fun draft handed sized entry listed => ⟨?_, ?_⟩) called.1
    called.2).1, rfl⟩
  · refine .edit handed (.addBase entry.1.interface entry.2) fun id named => ?_
    rw [Draft.nextId, sized]
    rcases List.mem_cons.mp named with rfl | isBase
    · exact loads.interface_lt_size (List.of_mem_zip listed).1
    · rw [List.mem_singleton.mp isBase]
      obtain ⟨name, -, -, -, -, found⟩ :=
        Outline.baseOf_eq_ok_iff.mp ((List.forall₂_iff_zip.mp based).2 listed)
      exact outlined.mentionsBelow _ (DeclTree.mem_mentions_of_find? found)
  · exact (Draft.size_modifyKind ..).trans sized

end Loads

end IdlBridge
