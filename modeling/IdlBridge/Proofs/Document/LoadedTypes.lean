import IdlBridge.Proofs.Document.StoredTypes

/-!
# Loaded trees hold the meanings of their types

The second half of loading is exact. An outline of a document can be resolved exactly when it is
meaningful: every typedef and every expression of a callable has a meaning, and every base names
something (`Registered.meaningful`, `Registered.resolves`). The tree that results stores these
meanings in every typedef, operation and attribute group it has (`Registered.stores`). When a
cycle of typedefs is reported, the reported typedef leads back to itself
(`Registered.cycle_of_resolve`).
-/

set_option autoImplicit false

namespace IdlBridge

/-- The type expressions of a callable. -/
def CallableText.expressions : CallableText → List String
  | .operation returns params => returns :: params.map (·.type)
  | .attributes type => [type]

/-- The types that a declaration has as a callable. -/
def DeclKind.callableTypes? : DeclKind → Option CallableTypes
  | operation signature => some (.operation signature)
  | attributes group => some (.attributes group.type)
  | _ => none

namespace Outline

variable {outline : Outline}

/-- Every typedef and every expression has a meaning, and every base has a declared candidate. -/
structure Meaningful (outline : Outline) : Prop where
  aliases : ∀ entry ∈ outline.aliases, ∃ type, outline.Means (.typedef entry.declarator) type
  callables : ∀ callable ∈ outline.callables, ∀ text ∈ callable.text.expressions,
    ∃ type, outline.Means (.expression callable.scope text) type
  bases : ∀ base ∈ outline.bases, ∃ name ∈ base.scope.candidates base.reference,
    (outline.draft.tree.find? name).isSome

/-- The types in a tree are the meanings of what the outline registers, and everything that the
outline registers has its types in the tree. -/
structure Stores (outline : Outline) (tree : DeclTree) : Prop where
  typedef_registered : ∀ id type declarators,
    tree.kind? id = some (.typedef type declarators) →
      ∃ entry ∈ outline.aliases, declarators = [entry.declarator] ∧
        outline.Means (.typedef entry.declarator) type
  callable_registered : ∀ id kind types, tree.kind? id = some kind →
    kind.callableTypes? = some types →
      ∃ callable ∈ outline.callables, callable.id = id ∧
        outline.CallableMeans callable.scope callable.text types
  alias_stored : ∀ entry ∈ outline.aliases, ∃ id type,
    tree.kind? id = some (.typedef type [entry.declarator]) ∧
      outline.Means (.typedef entry.declarator) type
  callable_stored : ∀ callable ∈ outline.callables, ∃ kind types,
    tree.kind? callable.id = some kind ∧ kind.callableTypes? = some types ∧
      outline.CallableMeans callable.scope callable.text types

/-! ## When an outline is resolved -/

theorem baseOf_eq_ok_iff {base : OpenBase} {id : DeclId} :
    outline.baseOf base = .ok id ↔ ∃ name,
      outline.draft.tree.FirstDeclared (base.scope.candidates base.reference) name id := by
  simp only [← DeclTree.lookup?_eq_some_iff, baseOf]
  cases outline.draft.tree.lookup? base.scope base.reference with
  | none => simp
  | some entry =>
    obtain ⟨name, found⟩ := entry
    simp only [Except.ok.injEq, Option.some.injEq, Prod.mk.injEq]
    constructor
    · rintro rfl
      exact ⟨name, rfl, rfl⟩
    · rintro ⟨_, -, rfl⟩
      rfl

/-- Some candidate is declared exactly when there is a first one. -/
theorem exists_declared_iff {names : List ScopedName} :
    (∃ name ∈ names, (outline.draft.tree.find? name).isSome) ↔
      ∃ id name, outline.draft.tree.FirstDeclared names name id := by
  constructor
  · rintro ⟨name, listed, declared⟩
    have found : (names.findSome? outline.draft.tree.find?).isSome :=
      List.findSome?_isSome_iff.mpr ⟨name, listed, declared⟩
    obtain ⟨id, first⟩ := Option.isSome_iff_exists.mp found
    obtain ⟨before, other, after, split, here, absent⟩ := List.findSome?_eq_some_iff.mp first
    exact ⟨id, other, before, after, split, absent, here⟩
  · rintro ⟨id, name, before, after, rfl, -, here⟩
    exact ⟨name, by simp, by simp [here]⟩

/-- A callable has types exactly when all its expressions have meanings. -/
theorem exists_callableMeans_iff {scope : ScopedName} {text : CallableText} :
    (∃ types, outline.CallableMeans scope text types) ↔
      ∀ expression ∈ text.expressions,
        ∃ type, outline.Means (.expression scope expression) type := by
  cases text with
  | attributes text =>
    constructor
    · rintro ⟨types, means⟩ expression listed
      rw [CallableText.expressions, List.mem_singleton] at listed
      cases types with
      | operation => exact means.elim
      | attributes type => exact ⟨type, listed ▸ means⟩
    · intro meaningful
      obtain ⟨type, means⟩ := meaningful text (List.mem_singleton.mpr rfl)
      exact ⟨.attributes type, means⟩
  | operation returns params =>
    constructor
    · rintro ⟨types, means⟩ expression listed
      cases types with
      | attributes => exact means.elim
      | operation signature =>
        obtain ⟨returned, matched⟩ := means
        rcases List.mem_cons.mp listed with rfl | listed
        · exact ⟨signature.returns, returned⟩
        · obtain ⟨param, isParam, rfl⟩ := List.mem_map.mp listed
          obtain ⟨typed, -, meant⟩ := exists_mem_zip matched isParam
          exact ⟨typed.type, meant.type⟩
    · intro meaningful
      obtain ⟨type, returned⟩ := meaningful returns List.mem_cons_self
      have each : ∀ text ∈ params, ∃ param, outline.ParameterMeans scope text param := by
        intro text listed
        obtain ⟨type, means⟩ := meaningful text.type
          (List.mem_cons_of_mem _ (List.mem_map_of_mem listed))
        exact ⟨⟨text.name, type, text.direction⟩, rfl, rfl, means⟩
      obtain ⟨typed, matched⟩ := exists_forall₂ each
      exact ⟨.operation ⟨type, typed⟩, returned, matched⟩

/-! ## What is written into a tree -/

/-- The draft with the types of its typedefs. -/
def withAliases (outline : Outline) (table : AliasTable) : Draft :=
  table.foldl (fun draft entry => draft.setAliasType entry.1 entry.2) outline.draft

/-- The draft with the types of its typedefs and callables. -/
def withCallables (outline : Outline) (table : AliasTable) (types : List CallableTypes) : Draft :=
  (outline.callables.zip types).foldl (fun draft entry => draft.setTypes entry.1.id entry.2)
    (outline.withAliases table)

/-- The draft with all types and bases. -/
def withBases (outline : Outline) (table : AliasTable) (types : List CallableTypes)
    (bases : List DeclId) : Draft :=
  (outline.bases.zip bases).foldl (fun draft entry => draft.addBase entry.1.interface entry.2)
    (outline.withCallables table types)

theorem resolve_eq_ok_iff {tree : DeclTree} :
    outline.resolve = .ok tree ↔ ∃ table types bases, outline.aliasTable = .ok table ∧
      List.Forall₂ (fun callable types => outline.callableTypes table callable = .ok types)
        outline.callables types ∧
      List.Forall₂ (fun base id => outline.baseOf base = .ok id) outline.bases bases ∧
      (outline.withBases table types bases).tree = tree := by
  simp only [resolve, bind_eq_ok_iff, mapM_eq_ok_iff, Except.ok.injEq]
  constructor
  · rintro ⟨table, worked, types, typed, bases, based, written⟩
    exact ⟨table, types, bases, worked, typed, based, written⟩
  · rintro ⟨table, types, bases, worked, typed, based, written⟩
    exact ⟨table, worked, types, typed, bases, based, written⟩

section Written

variable {table : AliasTable} {types : List CallableTypes} {bases : List DeclId}

/-- Writing the types of typedefs keeps what depends on neither types nor targets. -/
theorem map_kind?_withAliases {γ : Type} (view : DeclKind → γ)
    (alias_keeps : ∀ before after, view (.declarator before) = view (.declarator after))
    (typedef_keeps : ∀ before after declarators,
      view (.typedef before declarators) = view (.typedef after declarators)) (id : DeclId) :
    ((outline.withAliases table).tree.kind? id).map view =
      (outline.draft.tree.kind? id).map view := by
  rw [withAliases]
  refine Draft.map_kind?_foldl view (fun draft entry position => ?_) table outline.draft id
  exact Draft.map_kind?_setAliasType view alias_keeps typedef_keeps draft entry.1 entry.2 position

theorem map_kind?_withCallables {γ : Type} (view : DeclKind → γ)
    (operation_keeps : ∀ before after, view (.operation before) = view (.operation after))
    (attributes_keeps : ∀ group type,
      view (.attributes { group with type }) = view (.attributes group)) (id : DeclId) :
    ((outline.withCallables table types).tree.kind? id).map view =
      ((outline.withAliases table).tree.kind? id).map view := by
  rw [withCallables]
  refine Draft.map_kind?_foldl view (fun draft entry position => ?_) _ _ id
  exact Draft.map_kind?_setTypes view operation_keeps attributes_keeps draft entry.1.id entry.2
    position

theorem map_kind?_withBases {γ : Type} (view : DeclKind → γ)
    (interface_keeps : ∀ parts bases,
      view (.interface { parts with bases }) = view (.interface parts)) (id : DeclId) :
    ((outline.withBases table types bases).tree.kind? id).map view =
      ((outline.withCallables table types).tree.kind? id).map view := by
  rw [withBases]
  refine Draft.map_kind?_foldl view (fun draft entry position => ?_) _ _ id
  exact Draft.map_kind?_addBase view interface_keeps draft entry.1.interface entry.2 position

/-- No write makes or unmakes a typedef. -/
theorem isTypedef_withBases (outline : Outline) (table : AliasTable)
    (types : List CallableTypes) (bases : List DeclId) (id : DeclId) :
    ((outline.withBases table types bases).tree.kind? id).map DeclKind.isTypedef =
      (outline.draft.tree.kind? id).map DeclKind.isTypedef := by
  rw [map_kind?_withBases _ (fun _ _ => rfl),
    map_kind?_withCallables _ (fun _ _ => rfl) (fun _ _ => rfl),
    map_kind?_withAliases _ (fun _ _ => rfl) (fun _ _ _ => rfl)]

/-- No write makes or unmakes a callable. -/
theorem isCallable_withBases (outline : Outline) (table : AliasTable)
    (types : List CallableTypes) (bases : List DeclId) (id : DeclId) :
    ((outline.withBases table types bases).tree.kind? id).map DeclKind.isCallable =
      (outline.draft.tree.kind? id).map DeclKind.isCallable := by
  rw [map_kind?_withBases _ (fun _ _ => rfl),
    map_kind?_withCallables _ (fun _ _ => rfl) (fun _ _ => rfl),
    map_kind?_withAliases _ (fun _ _ => rfl) (fun _ _ _ => rfl)]

/-- The typedefs are final once their types are written. -/
theorem kind?_withBases_of_typedef {id : DeclId} {kind : DeclKind}
    (written : (outline.withAliases table).tree.kind? id = some kind)
    (isTypedef : kind.isTypedef = true) :
    (outline.withBases table types bases).tree.kind? id = some kind := by
  refine eq_some_of_map_guard ?_ written isTypedef
  rw [map_kind?_withBases _ (fun _ _ => rfl),
    map_kind?_withCallables _ (fun _ _ => rfl) (fun _ _ => rfl)]

/-- The callables are final once their types are written. -/
theorem kind?_withBases_of_callable {id : DeclId} {kind : DeclKind}
    (written : (outline.withCallables table types).tree.kind? id = some kind)
    (isCallable : kind.isCallable = true) :
    (outline.withBases table types bases).tree.kind? id = some kind :=
  eq_some_of_map_guard (map_kind?_withBases _ (fun _ _ => rfl) id) written isCallable

/-! ## What is registered is stored -/

theorem Registered.typedef (registered : outline.Registered) {id : DeclId} {kind : DeclKind}
    (found : outline.draft.tree.kind? id = some kind) (isTypedef : kind.isTypedef = true) :
    kind = .typedef .void [id + 1] ∧ ∃ entry ∈ outline.aliases, entry.declarator = id + 1 := by
  have position : id ∈ positions DeclKind.isTypedef outline.draft.tree.bare := by
    refine mem_positions_bare found ?_
    cases kind with
    | typedef => rfl
    | _ => cases isTypedef
  have listed : id + 1 ∈ outline.aliases.map (·.declarator) := by
    rw [registered.alias_typedefs]
    exact List.mem_map_of_mem position
  obtain ⟨entry, isAlias, declares⟩ := List.mem_map.mp listed
  refine ⟨?_, entry, isAlias, declares⟩
  obtain ⟨_, name, file, follows, -, introduced, -⟩ := registered.alias_introduced entry isAlias
  cases Nat.succ.inj (follows.symm.trans declares)
  have here := DeclTree.kind?_eq_some_of_bare introduced (by simp) (by simp) (by simp)
  rw [DeclTree.kind?, here] at found
  exact (Option.some.inj found).symm

theorem Registered.typedefsPlaced (registered : outline.Registered) :
    outline.draft.TypedefsPlaced := by
  intro id type declarators kind
  cases (registered.typedef kind rfl).1
  rfl

/-- Every typedef of the draft receives its meaning. -/
theorem Registered.kind?_withAliases (registered : outline.Registered)
    (sound : outline.Sound table)
    (answered : ∀ entry ∈ outline.aliases, ∃ type, (entry.declarator, type) ∈ table)
    {id : DeclId} {kind : DeclKind} (found : outline.draft.tree.kind? id = some kind)
    (isTypedef : kind.isTypedef = true) :
    ∃ type, (outline.withAliases table).tree.kind? id = some (.typedef type [id + 1]) ∧
      outline.Means (.typedef (id + 1)) type := by
  obtain ⟨rfl, entry, listed, declares⟩ := registered.typedef found isTypedef
  obtain ⟨type, stored, holds⟩ := kind?_foldl_setAliasType sound registered.typedefsPlaced found
  exact ⟨type, stored, holds (.inl (declares ▸ answered entry listed))⟩

theorem Registered.exists_callable (registered : outline.Registered) {id : DeclId}
    {kind : DeclKind} (found : outline.draft.tree.kind? id = some kind)
    (isCallable : kind.isCallable = true) :
    ∃ callable ∈ outline.callables, callable.id = id := by
  have position : id ∈ positions DeclKind.isCallable outline.draft.tree.bare := by
    refine mem_positions_bare found ?_
    cases kind with
    | operation | attributes => rfl
    | _ => cases isCallable
  rw [← registered.callable_ids] at position
  exact List.mem_map.mp position

/-- A callable is declared without types. -/
theorem Registered.kind?_callable (registered : outline.Registered) {callable : OpenCallable}
    (listed : callable ∈ outline.callables) :
    ∃ kind, outline.draft.tree.kind? callable.id = some kind ∧ callable.text.Untyped kind := by
  obtain ⟨decl, introduced, -, untyped⟩ := registered.callable_introduced callable listed
  refine ⟨decl.kind, ?_, untyped⟩
  have leaf : (∀ members, decl.kind ≠ .module members) ∧
      (∀ parts, decl.kind ≠ .interface parts) ∧ ∀ target, decl.kind ≠ .forward target := by
    cases text : callable.text with
    | operation returns params =>
      rw [text] at untyped
      have kind : decl.kind = .operation _ := untyped
      simp [kind]
    | attributes type =>
      rw [text] at untyped
      obtain ⟨readonly, names, kind⟩ := untyped
      simp [kind]
  rw [DeclTree.kind?, DeclTree.kind?_eq_some_of_bare introduced leaf.1 leaf.2.1 leaf.2.2]
  rfl

/-- An untyped callable takes the types that its expressions mean. -/
theorem CallableMeans.callableTypes?_retyped {scope : ScopedName} {text : CallableText}
    {found : CallableTypes} {kind : DeclKind} (means : outline.CallableMeans scope text found)
    (untyped : text.Untyped kind) :
    (found.retyped kind).callableTypes? = some found := by
  cases text with
  | operation returns params =>
    cases found with
    | operation signature =>
      cases untyped
      rfl
    | attributes type => exact means.elim
  | attributes expression =>
    cases found with
    | operation signature => exact means.elim
    | attributes type =>
      obtain ⟨readonly, names, rfl⟩ := untyped
      rfl

/-- Every callable receives the meanings of its expressions. -/
theorem Registered.kind?_withCallables (registered : outline.Registered) (table : AliasTable)
    (matched : List.Forall₂
      (fun callable found => outline.CallableMeans callable.scope callable.text found)
      outline.callables types)
    {callable : OpenCallable} (listed : callable ∈ outline.callables) :
    ∃ kind found, (outline.withCallables table types).tree.kind? callable.id = some kind ∧
      kind.callableTypes? = some found ∧
      outline.CallableMeans callable.scope callable.text found := by
  obtain ⟨found, paired, means⟩ := exists_mem_zip matched listed
  obtain ⟨kind, declared, untyped⟩ := registered.kind?_callable listed
  have isCallable : kind.isCallable = true := by
    cases text : callable.text with
    | operation returns params =>
      rw [text] at untyped
      cases untyped
      rfl
    | attributes type =>
      rw [text] at untyped
      obtain ⟨readonly, names, rfl⟩ := untyped
      rfl
  -- The typedefs written before leave the callable as it was declared.
  have kept : (outline.withAliases table).tree.kind? callable.id = some kind :=
    eq_some_of_map_guard (map_kind?_withAliases _ (fun _ _ => rfl) (fun _ _ _ => rfl) callable.id)
      declared isCallable
  have distinct : ((outline.callables.zip types).map (·.1.id)).Nodup := by
    have ids : ((outline.callables.zip types).map Prod.fst).map (·.id) =
        positions DeclKind.isCallable outline.draft.tree.bare := by
      rw [List.map_fst_zip (Nat.le_of_eq matched.length_eq), registered.callable_ids]
    rw [List.map_map] at ids
    exact ids ▸ nodup_positions _ _
  have stored := Draft.kind?_foldl_modifyKind (fun entry => entry.2.retyped)
    (outline.withAliases table) distinct paired
  simp only [← Draft.setTypes_eq, kept] at stored
  exact ⟨_, found, stored, means.callableTypes?_retyped untyped, means⟩

end Written

/-! ## Resolution and meaning -/

/-- A table that is worked out answers every typedef with its meaning. -/
theorem Registered.aliasTable (registered : outline.Registered) {table : AliasTable}
    (worked : outline.aliasTable = .ok table) :
    outline.Sound table ∧
      ∀ entry ∈ outline.aliases, ∃ type, (entry.declarator, type) ∈ table := by
  obtain ⟨sound, -, answered⟩ := foldlM_typeOfAlias_sound registered .nil worked
  exact ⟨sound, answered⟩

/-- A tree that results stores the meanings of all types. -/
theorem Registered.stores (registered : outline.Registered) {tree : DeclTree}
    (resolved : outline.resolve = .ok tree) : outline.Stores tree := by
  obtain ⟨table, types, bases, worked, typed, -, rfl⟩ := resolve_eq_ok_iff.mp resolved
  obtain ⟨sound, answered⟩ := registered.aliasTable worked
  have matched : List.Forall₂
      (fun callable found => outline.CallableMeans callable.scope callable.text found)
      outline.callables types :=
    typed.imp fun _ _ computed => (callableTypes_eq_ok_iff registered sound).mp computed
  have typedefStored : ∀ id kind, outline.draft.tree.kind? id = some kind →
      kind.isTypedef = true → ∃ type,
        (outline.withBases table types bases).tree.kind? id = some (.typedef type [id + 1]) ∧
          outline.Means (.typedef (id + 1)) type := by
    intro id kind found isTypedef
    obtain ⟨type, written, means⟩ := registered.kind?_withAliases sound answered found isTypedef
    exact ⟨type, kind?_withBases_of_typedef written rfl, means⟩
  have callableStored : ∀ callable ∈ outline.callables, ∃ kind found,
      (outline.withBases table types bases).tree.kind? callable.id = some kind ∧
        kind.callableTypes? = some found ∧
        outline.CallableMeans callable.scope callable.text found := by
    intro callable listed
    obtain ⟨kind, found, written, typed, means⟩ :=
      registered.kind?_withCallables table matched listed
    have isCallable : kind.isCallable = true := by
      cases kind with
      | operation | attributes => rfl
      | _ => cases typed
    exact ⟨kind, found, kind?_withBases_of_callable written isCallable, typed, means⟩
  constructor
  · intro id type declarators stored
    have sort := isTypedef_withBases outline table types bases id
    rw [stored] at sort
    obtain ⟨kind, found, isTypedef⟩ := Option.map_eq_some_iff.mp sort.symm
    obtain ⟨-, entry, listed, declares⟩ := registered.typedef found isTypedef
    obtain ⟨meant, written, means⟩ := typedefStored id kind found isTypedef
    cases stored.symm.trans written
    exact ⟨entry, listed, by rw [declares], declares ▸ means⟩
  · intro id kind found stored typed
    have sort := isCallable_withBases outline table types bases id
    have isCallable : kind.isCallable = true := by
      cases kind with
      | operation | attributes => rfl
      | _ => cases typed
    rw [stored, Option.map_some, isCallable] at sort
    obtain ⟨declared, before, wasCallable⟩ := Option.map_eq_some_iff.mp sort.symm
    obtain ⟨callable, listed, rfl⟩ := registered.exists_callable before wasCallable
    obtain ⟨_, _, written, alsoTyped, means⟩ := callableStored callable listed
    cases stored.symm.trans written
    cases typed.symm.trans alsoTyped
    exact ⟨callable, listed, rfl, means⟩
  · intro entry listed
    obtain ⟨id, name, file, follows, -, introduced, -⟩ :=
      registered.alias_introduced entry listed
    have here := DeclTree.kind?_eq_some_of_bare introduced (by simp) (by simp) (by simp)
    obtain ⟨type, written, means⟩ := typedefStored id _ (by rw [DeclTree.kind?, here]; rfl) rfl
    exact ⟨id, type, follows ▸ written, follows ▸ means⟩
  · exact callableStored

/-- Only a meaningful outline is resolved. -/
theorem Registered.meaningful (registered : outline.Registered) {tree : DeclTree}
    (resolved : outline.resolve = .ok tree) : outline.Meaningful := by
  obtain ⟨table, types, bases, worked, typed, based, -⟩ := resolve_eq_ok_iff.mp resolved
  obtain ⟨sound, answered⟩ := registered.aliasTable worked
  constructor
  · intro entry listed
    obtain ⟨type, isAnswer⟩ := answered entry listed
    exact ⟨type, sound _ isAnswer⟩
  · intro callable listed
    obtain ⟨found, -, computed⟩ := exists_mem_zip typed listed
    exact exists_callableMeans_iff.mp
      ⟨found, (callableTypes_eq_ok_iff registered sound).mp computed⟩
  · intro base listed
    obtain ⟨id, -, found⟩ := exists_mem_zip based listed
    exact exists_declared_iff.mpr ⟨id, baseOf_eq_ok_iff.mp found⟩

/-- Every meaningful outline is resolved. -/
theorem Registered.resolves (registered : outline.Registered) (meaningful : outline.Meaningful) :
    ∃ tree, outline.resolve = .ok tree := by
  obtain ⟨table, worked⟩ := foldlM_typeOfAlias_complete registered .nil meaningful.aliases
  obtain ⟨sound, -⟩ := registered.aliasTable worked
  have typed : ∀ callable ∈ outline.callables, ∃ types,
      outline.callableTypes table callable = .ok types := by
    intro callable listed
    obtain ⟨types, means⟩ :=
      exists_callableMeans_iff.mpr (meaningful.callables callable listed)
    exact ⟨types, (callableTypes_eq_ok_iff registered sound).mpr means⟩
  have based : ∀ base ∈ outline.bases, ∃ id, outline.baseOf base = .ok id := by
    intro base listed
    obtain ⟨id, first⟩ := exists_declared_iff.mp (meaningful.bases base listed)
    exact ⟨id, baseOf_eq_ok_iff.mpr first⟩
  obtain ⟨types, allTyped⟩ := exists_forall₂ typed
  obtain ⟨bases, allBased⟩ := exists_forall₂ based
  exact ⟨_, resolve_eq_ok_iff.mpr ⟨table, types, bases, worked, allTyped, allBased, rfl⟩⟩

/-- A cycle found while the types of an expression are worked out is a cycle of typedefs. -/
theorem Registered.cycle_of_typeOf (registered : outline.Registered) {table : AliasTable}
    {scope name : ScopedName} {context text : String}
    (failed : outline.typeOf table scope context text = .error (.aliasCycle name)) :
    ∃ cyclic, name = outline.draft.tree.scopedName cyclic ∧
      Relation.TransGen outline.RefersTo cyclic cyclic := by
  rw [typeOf] at failed
  split at failed
  · rename_i cause read
    cases failed
    exact absurd read (DeclTree.readType_ne_cycle _ _ _ _ _)
  · cases failed
  · rename_i declarator read
    obtain ⟨target, kind⟩ := kind?_of_aliased read
    exact typeOfAlias_cycle registered (registered.exists_alias kind)
      (map_eq_error_iff.mp failed)

theorem Registered.cycle_of_callableTypes (registered : outline.Registered) {table : AliasTable}
    {callable : OpenCallable} {name : ScopedName}
    (failed : outline.callableTypes table callable = .error (.aliasCycle name)) :
    ∃ cyclic, name = outline.draft.tree.scopedName cyclic ∧
      Relation.TransGen outline.RefersTo cyclic cyclic := by
  rw [callableTypes] at failed
  split at failed
  · rcases bind_eq_error_iff.mp failed with returns | ⟨type, -, failed⟩
    · exact registered.cycle_of_typeOf returns
    · rcases bind_eq_error_iff.mp failed with params | ⟨params, -, failed⟩
      · obtain ⟨param, -, failed⟩ := exists_of_mapM_eq_error params
        rcases bind_eq_error_iff.mp failed with type | ⟨type, -, failed⟩
        · exact registered.cycle_of_typeOf type
        · cases failed
      · cases failed
  · rcases bind_eq_error_iff.mp failed with type | ⟨type, -, failed⟩
    · exact registered.cycle_of_typeOf type
    · cases failed

/-- A cycle is only reported for a typedef that leads back to itself. -/
theorem Registered.cycle_of_resolve (registered : outline.Registered) {name : ScopedName}
    (failed : outline.resolve = .error (.aliasCycle name)) :
    ∃ cyclic, name = outline.draft.tree.scopedName cyclic ∧
      Relation.TransGen outline.RefersTo cyclic cyclic := by
  rw [resolve, bind_eq_error_iff] at failed
  rcases failed with aliases | ⟨table, -, failed⟩
  · obtain ⟨entry, listed, before, failed⟩ := exists_of_foldlM_eq_error aliases
    exact typeOfAlias_cycle registered ⟨entry, listed, rfl⟩ (map_eq_error_iff.mp failed)
  rcases bind_eq_error_iff.mp failed with callables | ⟨types, -, failed⟩
  · obtain ⟨callable, -, failed⟩ := exists_of_mapM_eq_error callables
    exact registered.cycle_of_callableTypes failed
  rcases bind_eq_error_iff.mp failed with bases | ⟨bases, -, failed⟩
  · obtain ⟨base, -, failed⟩ := exists_of_mapM_eq_error bases
    rw [baseOf] at failed
    split at failed <;> cases failed
  · cases failed

/-- A typedef that leads back to itself keeps an outline from being meaningful. -/
theorem Registered.not_meaningful_of_cycle (registered : outline.Registered) {cyclic : DeclId}
    (cycle : Relation.TransGen outline.RefersTo cyclic cyclic) : ¬ outline.Meaningful := by
  intro meaningful
  obtain ⟨next, ⟨entry, listed, rfl, -⟩, -⟩ := Relation.TransGen.head'_iff.mp cycle
  obtain ⟨type, means⟩ := meaningful.aliases entry listed
  exact means.acyclic registered cycle

/-- **Resolution agrees with meaning.** A document that can be outlined is resolved exactly when
everything in it has a meaning. The tree then stores these meanings, each of which is unique. A
cycle that is reported is there, and a cycle that is there keeps the outline from being
resolved. -/
theorem resolve_iff_meaningful {root : Markup.Element} (read : ofRoot root = .ok outline) :
    ((∃ tree, outline.resolve = .ok tree) ↔ outline.Meaningful) ∧
      (∀ tree, outline.resolve = .ok tree → outline.Stores tree) ∧
      (∀ phrase type other, outline.Means phrase type → outline.Means phrase other →
        other = type) ∧
      (∀ name, outline.resolve = .error (.aliasCycle name) →
        ∃ cyclic, name = outline.draft.tree.scopedName cyclic ∧
          Relation.TransGen outline.RefersTo cyclic cyclic) ∧
      ∀ cyclic, Relation.TransGen outline.RefersTo cyclic cyclic → ¬ outline.Meaningful := by
  have registered := ofRoot_registers read
  refine ⟨⟨?_, registered.resolves⟩, fun _ => registered.stores, ?_, ?_, ?_⟩
  · rintro ⟨tree, resolved⟩
    exact registered.meaningful resolved
  · exact fun _ _ _ means => means.unique registered
  · exact fun _ => registered.cycle_of_resolve
  · exact fun _ => registered.not_meaningful_of_cycle

/-- An interface that uses a typedef before it is declared, through another one. -/
def lateTypedefs : Markup.Element :=
  ⟨"tree", [("file", "late.idl")],
    [⟨"module", [("name", "M")],
      [⟨"interface", [("name", "Base")], [], ""⟩,
        ⟨"interface", [("name", "User")],
          [⟨"inherits", [("ref", "Base")], [], ""⟩,
            ⟨"operation", [("name", "get"), ("returns", "Names")], [], ""⟩,
            ⟨"attribute", [("names", "first last"), ("type", "M::Name")], [], ""⟩], ""⟩,
        ⟨"typedef", [("name", "Names"), ("type", "sequence<Name>")], [], ""⟩,
        ⟨"typedef", [("name", "Name"), ("type", "string")], [], ""⟩], ""⟩], ""⟩

theorem lateTypedefs_stored : ∃ outline tree, ofRoot lateTypedefs = .ok outline ∧
    outline.resolve = .ok tree ∧ outline.Meaningful ∧ outline.Stores tree := by
  have loads : ((ofRoot lateTypedefs).bind resolve).isOk = true := by decide +kernel
  cases read : ofRoot lateTypedefs with
  | error cause =>
    rw [read] at loads
    cases loads
  | ok outline =>
    cases resolved : outline.resolve with
    | error cause =>
      rw [read, Except.bind, resolved] at loads
      cases loads
    | ok tree =>
      obtain ⟨meaningful, stores, -⟩ := resolve_iff_meaningful read
      exact ⟨outline, tree, rfl, resolved, meaningful.mp ⟨tree, resolved⟩, stores tree resolved⟩

end Outline

end IdlBridge
