import IdlBridge.Proofs.Document.Resolver

/-!
# Types that are stored in a loaded tree

When every reference of an outline is resolved, the types are written into the declarations:
into the typedefs from the table, into the callables one by one. A write changes only the kind of
the declaration it is meant for, so later writes keep what earlier ones have stored
(`map_kind?_modifyKind`), and the typedef that introduces a declarator is always the declaration in
front of it (`setAliasedType_eq`).

A typedef that the table answers ends up with its meaning, whatever is written before and after
(`Outline.kind?_foldl_setAliasType`).
-/

set_option autoImplicit false

namespace IdlBridge

/-! ## Writes to single declarations -/

namespace Draft

/-- Changes at different declarations do not meet. -/
theorem kind?_foldl_modifyKind {β : Type} {position : β → DeclId}
    (change : β → DeclKind → DeclKind) {entries : List β} {entry : β} (draft : Draft)
    (distinct : (entries.map position).Nodup) (listed : entry ∈ entries) :
    (entries.foldl (fun draft entry => draft.modifyKind (position entry) (change entry))
        draft).tree.kind? (position entry) =
      (draft.tree.kind? (position entry)).map (change entry) := by
  have untouched : ∀ (others : List β) (draft : Draft),
      position entry ∉ others.map position →
      (others.foldl (fun draft entry => draft.modifyKind (position entry) (change entry))
        draft).tree.kind? (position entry) = draft.tree.kind? (position entry) := by
    intro others
    induction others with
    | nil => exact fun _ _ => rfl
    | cons other others ih =>
      intro draft absent
      rw [List.map_cons, List.mem_cons, not_or] at absent
      rw [List.foldl_cons, ih _ absent.2, kind?_modifyKind, if_neg (Ne.symm absent.1)]
  induction entries generalizing draft with
  | nil => cases listed
  | cons other entries ih =>
    rw [List.map_cons, List.nodup_cons] at distinct
    rw [List.foldl_cons]
    rcases List.mem_cons.mp listed with rfl | later
    · rw [untouched entries _ distinct.1, kind?_modifyKind, if_pos rfl]
    · have different : position other ≠ position entry := fun same =>
        distinct.1 (same ▸ List.mem_map_of_mem later)
      rw [ih _ distinct.2 later, kind?_modifyKind, if_neg different]

/-! ## Typedefs -/

/-- Every typedef introduces the declarator behind it. -/
def TypedefsPlaced (draft : Draft) : Prop :=
  ∀ id type declarators, draft.tree.kind? id = some (.typedef type declarators) →
    declarators = [id + 1]

/-- Gives a typedef another type. -/
def retyped (type : IdlType) : DeclKind → DeclKind
  | .typedef _ declarators => .typedef type declarators
  | kind => kind

/-- The typedef of a declarator is the declaration in front of it. -/
theorem setAliasedType_eq {draft : Draft} (placed : draft.TypedefsPlaced) {id : DeclId}
    {old type : IdlType} {declarators : List DeclId}
    (kind : draft.tree.kind? id = some (.typedef old declarators)) :
    draft.setAliasedType (id + 1) type = draft.modifyKind id (retyped type) := by
  have own := placed id old declarators kind
  subst own
  obtain ⟨decl, found, isTypedef⟩ := Option.map_eq_some_iff.mp kind
  obtain ⟨bound, here⟩ := Array.getElem?_eq_some_iff.mp found
  have first : draft.tree.decls.findIdx? (fun decl =>
      match decl.kind with
      | .typedef _ declarators => declarators.contains (id + 1)
      | _ => false) = some id := by
    rw [Array.findIdx?_eq_some_iff_getElem]
    refine ⟨bound, by simp [here, isTypedef], fun earlier before => ?_⟩
    -- A typedef further in front introduces another declarator.
    cases other : (draft.tree.decls[earlier]).kind with
    | typedef type declarators =>
      have alsoPlaced := placed earlier type declarators (by
        rw [DeclTree.kind?, DeclTree.decl?, Array.getElem?_eq_getElem (Nat.lt_trans before bound),
          Option.map_some, other])
      subst alsoPlaced
      simp
      omega
    | _ => simp
  rw [setAliasedType]
  split
  · rename_i absent
    cases absent.symm.trans first
  · rename_i chosen found
    cases found.symm.trans first
    rfl

/-- A typedef keeps its type when another declarator is given one. -/
theorem kind?_setAliasedType_of_ne {draft : Draft} (placed : draft.TypedefsPlaced) {id : DeclId}
    {declarator : DeclId} (other : declarator ≠ id + 1) (type : IdlType) :
    (draft.setAliasedType declarator type).tree.kind? id = draft.tree.kind? id := by
  rw [setAliasedType]
  split
  · rfl
  · rename_i chosen found
    obtain ⟨bound, introduces, -⟩ := Array.findIdx?_eq_some_iff_getElem.mp found
    rw [kind?_modifyKind, if_neg]
    rintro rfl
    -- The chosen typedef introduces the declarator, so it stands in front of it.
    cases kind : (draft.tree.decls[chosen]).kind with
    | typedef old declarators =>
      have own := placed chosen old declarators (by
        rw [DeclTree.kind?, DeclTree.decl?, Array.getElem?_eq_getElem bound, Option.map_some, kind])
      simp only [kind, own, List.contains_cons, List.contains_nil, Bool.or_false, beq_iff_eq]
        at introduces
      exact other introduces
    | _ => simp [kind] at introduces

theorem kind?_setAlias_eq_typedef_iff {draft : Draft} {declarator target id : DeclId}
    {type : IdlType} {declarators : List DeclId} :
    (draft.setAlias declarator target).tree.kind? id = some (.typedef type declarators) ↔
      draft.tree.kind? id = some (.typedef type declarators) := by
  rw [setAlias, kind?_modifyKind]
  split
  · cases draft.tree.kind? id with
    | none => simp
    | some kind => cases kind <;> simp
  · rfl

/-- Giving a typedef its type first points its declarator, if it names an object type. -/
theorem setAliasType_eq (draft : Draft) (declarator : DeclId) (type : IdlType) :
    ∃ pointed : Draft, draft.setAliasType declarator type = pointed.setAliasedType declarator type ∧
      (pointed = draft ∨ ∃ target, pointed = draft.setAlias declarator target) := by
  rw [setAliasType]
  split
  · exact ⟨_, rfl, .inr ⟨_, rfl⟩⟩
  · exact ⟨_, rfl, .inl rfl⟩

/-- What setting an alias and retyping a typedef keep, giving a typedef its type keeps. -/
theorem map_kind?_setAliasType {γ : Type} (view : DeclKind → γ)
    (alias_keeps : ∀ before after, view (.declarator before) = view (.declarator after))
    (typedef_keeps : ∀ before after declarators,
      view (.typedef before declarators) = view (.typedef after declarators))
    (draft : Draft) (declarator : DeclId) (type : IdlType) (position : DeclId) :
    ((draft.setAliasType declarator type).tree.kind? position).map view =
      (draft.tree.kind? position).map view := by
  obtain ⟨pointed, split, change⟩ := draft.setAliasType_eq declarator type
  have first : (pointed.tree.kind? position).map view = (draft.tree.kind? position).map view := by
    rcases change with rfl | ⟨target, rfl⟩
    · rfl
    · refine map_kind?_modifyKind (fun kind => ?_) position
      cases kind with
      | declarator before => exact alias_keeps _ _
      | _ => rfl
  rw [split, ← first, setAliasedType]
  split
  · rfl
  · refine map_kind?_modifyKind (fun kind => ?_) position
    cases kind with
    | typedef before declarators => exact typedef_keeps _ _ _
    | _ => rfl

/-- Giving a typedef its type keeps the typedefs in their places. -/
theorem TypedefsPlaced.setAliasType {draft : Draft} (placed : draft.TypedefsPlaced)
    (declarator : DeclId) (type : IdlType) :
    (draft.setAliasType declarator type).TypedefsPlaced := by
  intro id found declarators kind
  let introduced : DeclKind → Option (List DeclId)
    | .typedef _ declarators => some declarators
    | _ => none
  have same := map_kind?_setAliasType introduced (fun _ _ => rfl) (fun _ _ _ => rfl) draft
    declarator type id
  rw [kind] at same
  obtain ⟨before, here, lists⟩ := Option.map_eq_some_iff.mp same.symm
  cases before with
  | typedef old others =>
    cases lists
    exact placed id old declarators here
  | _ => cases lists

/-- A typedef gets the type that is meant for it and no other. -/
theorem kind?_setAliasType {draft : Draft} (placed : draft.TypedefsPlaced) {id : DeclId}
    {old : IdlType} {declarators : List DeclId}
    (kind : draft.tree.kind? id = some (.typedef old declarators)) (declarator : DeclId)
    (type : IdlType) :
    (draft.setAliasType declarator type).tree.kind? id =
      some (.typedef (if declarator = id + 1 then type else old) declarators) := by
  obtain ⟨pointed, split, change⟩ := draft.setAliasType_eq declarator type
  have same : ∀ position known others,
      pointed.tree.kind? position = some (.typedef known others) ↔
        draft.tree.kind? position = some (.typedef known others) := by
    intro position known others
    rcases change with rfl | ⟨target, rfl⟩
    · rfl
    · exact kind?_setAlias_eq_typedef_iff
  have stillPlaced : pointed.TypedefsPlaced := fun position known others here =>
    placed position known others ((same position known others).mp here)
  have stillTypedef := (same id old declarators).mpr kind
  rw [split]
  by_cases own : declarator = id + 1
  · rw [own, setAliasedType_eq stillPlaced stillTypedef, kind?_modifyKind, if_pos rfl, if_pos rfl,
      stillTypedef]
    rfl
  · rw [kind?_setAliasedType_of_ne stillPlaced own, stillTypedef, if_neg own]

end Draft

namespace Outline

variable {outline : Outline}

/-- Once the types of a table have been written, a typedef that the table answers holds its
meaning. -/
theorem kind?_foldl_setAliasType {table : AliasTable} (sound : outline.Sound table)
    {draft : Draft} (placed : draft.TypedefsPlaced) {id : DeclId} {old : IdlType}
    {declarators : List DeclId}
    (kind : draft.tree.kind? id = some (.typedef old declarators)) :
    ∃ type, (table.foldl (fun draft entry => draft.setAliasType entry.1 entry.2) draft).tree.kind?
        id = some (.typedef type declarators) ∧
      ((∃ answer, (id + 1, answer) ∈ table) ∨ outline.Means (.typedef (id + 1)) old →
        outline.Means (.typedef (id + 1)) type) := by
  induction table generalizing draft old with
  | nil => exact ⟨old, kind, by simp⟩
  | cons entry table ih =>
    have soundRest : outline.Sound table := fun other listed =>
      sound other (List.mem_cons_of_mem _ listed)
    obtain ⟨type, stored, holds⟩ := ih soundRest (placed.setAliasType entry.1 entry.2)
      (Draft.kind?_setAliasType placed kind entry.1 entry.2)
    refine ⟨type, stored, fun answered => holds ?_⟩
    have first := sound entry List.mem_cons_self
    by_cases own : entry.1 = id + 1
    · rw [if_pos own]
      exact .inr (own ▸ first)
    · rw [if_neg own]
      rcases answered with ⟨answer, listed⟩ | means
      · rcases List.mem_cons.mp listed with here | later
        · exact absurd (congrArg Prod.fst here).symm own
        · exact .inl ⟨answer, later⟩
      · exact .inr means

end Outline

/-! ## Callables and bases -/

/-- Gives a callable its types. -/
def CallableTypes.retyped : CallableTypes → DeclKind → DeclKind
  | .operation signature, .operation _ => .operation signature
  | .attributes type, .attributes group => .attributes { group with type }
  | _, kind => kind

namespace Draft

theorem setTypes_eq (draft : Draft) (id : DeclId) (types : CallableTypes) :
    draft.setTypes id types = draft.modifyKind id types.retyped := by
  cases types with
  | operation signature =>
    rw [setTypes, setOperation]
    congr 1
    funext kind
    cases kind <;> rfl
  | attributes type =>
    rw [setTypes, setAttributeType]
    congr 1
    funext kind
    cases kind <;> rfl

/-- What every step of a series keeps, the series keeps. -/
theorem map_kind?_foldl {β γ : Type} (view : DeclKind → γ) {step : Draft → β → Draft}
    (keeps : ∀ draft entry position,
      ((step draft entry).tree.kind? position).map view = (draft.tree.kind? position).map view)
    (entries : List β) (draft : Draft) (position : DeclId) :
    ((entries.foldl step draft).tree.kind? position).map view =
      (draft.tree.kind? position).map view := by
  induction entries generalizing draft with
  | nil => rfl
  | cons entry entries ih => rw [List.foldl_cons, ih, keeps]

/-- Writing types into callables keeps what does not depend on their types. -/
theorem map_kind?_setTypes {γ : Type} (view : DeclKind → γ)
    (operation_keeps : ∀ before after, view (.operation before) = view (.operation after))
    (attributes_keeps : ∀ group type,
      view (.attributes { group with type }) = view (.attributes group))
    (draft : Draft) (id : DeclId) (types : CallableTypes) (position : DeclId) :
    ((draft.setTypes id types).tree.kind? position).map view =
      (draft.tree.kind? position).map view := by
  rw [setTypes_eq]
  refine map_kind?_modifyKind (fun kind => ?_) position
  cases types with
  | operation signature =>
    cases kind with
    | operation before => exact operation_keeps _ _
    | _ => rfl
  | attributes type =>
    cases kind with
    | attributes group => exact attributes_keeps _ _
    | _ => rfl

/-- Adding a base keeps what does not depend on the bases of interfaces. -/
theorem map_kind?_addBase {γ : Type} (view : DeclKind → γ)
    (interface_keeps : ∀ parts bases,
      view (.interface { parts with bases }) = view (.interface parts))
    (draft : Draft) (interface base position : DeclId) :
    ((draft.addBase interface base).tree.kind? position).map view =
      (draft.tree.kind? position).map view := by
  refine map_kind?_modifyKind (fun kind => ?_) position
  cases kind with
  | interface parts => exact interface_keeps _ _
  | _ => rfl

end Draft

/-- A kind of a class that is kept. -/
theorem eq_some_of_map_guard {found before : Option DeclKind} {kind : DeclKind}
    {selected : DeclKind → Bool}
    (same : found.map (Option.guard selected) = before.map (Option.guard selected))
    (here : before = some kind) (chosen : selected kind = true) : found = some kind := by
  subst here
  obtain ⟨other, isFound, guarded⟩ := Option.map_eq_some_iff.mp same
  rw [Option.guard_pos chosen] at guarded
  rw [isFound, (Option.guard_eq_some_iff.mp guarded).1]

end IdlBridge
