import IdlBridge.DeclTree.Draft

/-!
# Growth of drafts

An addition to a draft appends one declaration. What it changes in earlier declarations is only
what is filled in later: the members of a module, the parts of an interface and the target of a
forward declaration. Leaving these out gives the bare declarations of a tree, and on them every
addition is an append (`bare_add`, `bare_addTypedef`, `bare_addInterface`) and every other change
of a draft during the first half of loading is none.

The positions of a kind of declaration among the bare declarations are listed by `positions`; an
append adds at most the last position to the list.
-/

set_option autoImplicit false

namespace IdlBridge

/-! ## Bare declarations -/

namespace DeclKind

/-- The kind without what later additions fill in. -/
def bare : DeclKind → DeclKind
  | module _ => module []
  | interface _ => interface .empty
  | forward _ => forward none
  | kind => kind

@[simp]
theorem bare_listMember (member : DeclId) (callable : Bool) (kind : DeclKind) :
    (kind.listMember member callable).bare = kind.bare := by
  cases kind with
  | interface parts => cases callable <;> rfl
  | _ => rfl

@[simp]
theorem bare_announce (target : DeclId) (kind : DeclKind) :
    (kind.announce target).bare = kind.bare := by
  cases kind with
  | forward known => cases known <;> rfl
  | _ => rfl

/-- Nothing is filled in later in a declaration whose bare kind is one of these. -/
theorem eq_of_bare_eq {kind leaf : DeclKind} (same : kind.bare = leaf)
    (notModule : ∀ members, leaf ≠ module members)
    (notInterface : ∀ parts, leaf ≠ interface parts)
    (notForward : ∀ target, leaf ≠ forward target) : kind = leaf := by
  cases kind with
  | module members => exact absurd same.symm (notModule _)
  | interface parts => exact absurd same.symm (notInterface _)
  | forward target => exact absurd same.symm (notForward _)
  | typedef | declarator | enum | operation | attributes => exact same

end DeclKind

/-- The declaration without what later additions fill in. -/
def Decl.bare (decl : Decl) : Decl :=
  { decl with kind := decl.kind.bare }

namespace DeclTree

/-- The declarations of a tree without what later additions fill in. -/
def bare (tree : DeclTree) : List Decl :=
  tree.decls.toList.map Decl.bare

@[simp]
theorem length_bare (tree : DeclTree) : tree.bare.length = tree.size := by
  simp [bare, size]

theorem getElem?_bare (tree : DeclTree) (id : DeclId) :
    tree.bare[id]? = (tree.decl? id).map Decl.bare := by
  simp [bare, decl?]

/-- Names are part of the bare declarations. -/
theorem scopedName_eq_bare (tree : DeclTree) (id : DeclId) :
    tree.scopedName id = (tree.bare[id]?.map (·.scopedName)).getD .root := by
  rw [getElem?_bare, scopedName]
  cases tree.decl? id with
  | none => rfl
  | some decl => rfl

/-- Trees that agree on the bare declarations so far agree on the names of these. -/
theorem scopedName_of_prefix {tree larger : DeclTree} (grows : tree.bare <+: larger.bare)
    {id : DeclId} (known : id < tree.size) : larger.scopedName id = tree.scopedName id := by
  obtain ⟨added, equal⟩ := grows
  rw [scopedName_eq_bare, scopedName_eq_bare, ← equal,
    List.getElem?_append_left (by simpa using known)]

/-- The kind of a declaration in which nothing is filled in later. -/
theorem kind?_eq_some_of_bare {tree : DeclTree} {id : DeclId} {decl : Decl}
    (found : tree.bare[id]? = some decl) (notModule : ∀ members, decl.kind ≠ .module members)
    (notInterface : ∀ parts, decl.kind ≠ .interface parts)
    (notForward : ∀ target, decl.kind ≠ .forward target) :
    tree.decl? id = some decl := by
  rw [getElem?_bare, Option.map_eq_some_iff] at found
  obtain ⟨full, here, rfl⟩ := found
  have same : full.kind = full.bare.kind :=
    DeclKind.eq_of_bare_eq rfl notModule notInterface notForward
  rw [here]
  exact congrArg (fun kind => some { full with kind }) same

end DeclTree

namespace Draft

/-- A parent that is named when a declaration is added has been added before. -/
def Knows (draft : Draft) (parent : Option DeclId) : Prop :=
  ∀ id ∈ parent, id < draft.nextId

instance (draft : Draft) (parent : Option DeclId) : Decidable (draft.Knows parent) :=
  inferInstanceAs (Decidable (∀ id ∈ parent, id < draft.nextId))

/-- The global scope is always known. -/
theorem knows_none (draft : Draft) : draft.Knows none := fun id isMember => by
  cases isMember

/-! ## Changes of kinds -/

theorem kind?_modifyKind (draft : Draft) (id position : DeclId) (change : DeclKind → DeclKind) :
    (draft.modifyKind id change).tree.kind? position =
      if id = position then (draft.tree.kind? position).map change
      else draft.tree.kind? position := by
  simp only [DeclTree.kind?, DeclTree.decl?, modifyKind, mapDecls, Array.getElem?_modify]
  split
  · cases draft.tree.decls[position]? <;> rfl
  · rfl

/-- What a change of kinds keeps, it keeps at every declaration. -/
theorem map_kind?_modifyKind {γ : Type} {view : DeclKind → γ} {draft : Draft} {id : DeclId}
    {change : DeclKind → DeclKind} (keeps : ∀ kind, view (change kind) = view kind)
    (position : DeclId) :
    ((draft.modifyKind id change).tree.kind? position).map view =
      (draft.tree.kind? position).map view := by
  rw [kind?_modifyKind]
  split
  · rw [Option.map_map]
    exact congrArg (Option.map · (draft.tree.kind? position)) (funext keeps)
  · rfl

/-! ## Changes that leave the bare declarations alone -/

theorem bare_modifyKind {draft : Draft} {id : DeclId} {change : DeclKind → DeclKind}
    (keeps : ∀ kind, (change kind).bare = kind.bare) :
    (draft.modifyKind id change).tree.bare = draft.tree.bare := by
  apply List.ext_getElem?
  intro position
  rw [DeclTree.getElem?_bare, DeclTree.getElem?_bare]
  simp only [DeclTree.decl?, modifyKind, mapDecls, Array.getElem?_modify]
  split
  · cases draft.tree.decls[position]? with
    | none => rfl
    | some decl => simp [Decl.bare, keeps]
  · rfl

@[simp]
theorem bare_listUnder (draft : Draft) (parent : Option DeclId) (member : DeclId)
    (callable : Bool) :
    (draft.listUnder parent member callable).tree.bare = draft.tree.bare := by
  cases parent with
  | none => rfl
  | some id => exact bare_modifyKind fun kind => kind.bare_listMember member callable

@[simp]
theorem bare_enterName (draft : Draft) (id : DeclId) :
    (draft.enterName id).tree.bare = draft.tree.bare := by
  unfold enterName
  split
  · rfl
  · split <;> rfl

@[simp]
theorem bare_addPragma (draft : Draft) (interface : DeclId) (pragma : Pragma) :
    (draft.addPragma interface pragma).tree.bare = draft.tree.bare := by
  refine bare_modifyKind fun kind => ?_
  cases kind <;> rfl

/-! ## Additions -/

@[simp]
theorem bare_append (draft : Draft) (parent : Option DeclId) (name : String) (kind : DeclKind) :
    (draft.append parent name kind).tree.bare = draft.tree.bare ++
      [⟨name, draft.memberName parent name, draft.currentFile, kind.bare⟩] := by
  simp [append, mapDecls, DeclTree.bare, Decl.bare]

/-- An addition appends its bare declaration. -/
@[simp]
theorem bare_add (draft : Draft) (parent : Option DeclId) (name : String) (kind : DeclKind) :
    (draft.add parent name kind).tree.bare = draft.tree.bare ++
      [⟨name, draft.memberName parent name, draft.currentFile, kind.bare⟩] := by
  simp only [add, bare_enterName, bare_listUnder, bare_append]

@[simp]
theorem currentFile_add (draft : Draft) (parent : Option DeclId) (name : String)
    (kind : DeclKind) : (draft.add parent name kind).currentFile = draft.currentFile := by
  have listed : ∀ (larger : Draft) (member : DeclId) (callable : Bool),
      (larger.listUnder parent member callable).currentFile = larger.currentFile := by
    intro larger member callable
    cases parent <;> rfl
  have entered : ∀ (larger : Draft) (id : DeclId),
      (larger.enterName id).currentFile = larger.currentFile := by
    intro larger id
    unfold enterName
    split
    · rfl
    · split <;> rfl
  rw [add, entered, listed]
  rfl

@[simp]
theorem bare_addInterface (draft : Draft) (parent : Option DeclId) (name : String) :
    (draft.addInterface parent name).tree.bare = draft.tree.bare ++
      [⟨name, draft.memberName parent name, draft.currentFile, .interface .empty⟩] := by
  have announced : ∀ (target : DeclId) (own : ScopedName) (decl : Decl),
      (if decl.scopedName = own then { decl with kind := decl.kind.announce target }
        else decl).bare = decl.bare := by
    intro target own decl
    split
    · simp [Decl.bare]
    · rfl
  rw [addInterface, mapDecls, DeclTree.bare, Array.toList_map, List.map_map]
  simp only [Function.comp_def, announced]
  exact bare_add draft parent name (.interface .empty)

/-- The name of a member is kept when the draft grows. -/
theorem memberName_of_prefix {draft larger : Draft} {parent : Option DeclId}
    (grows : draft.tree.bare <+: larger.tree.bare) (known : draft.Knows parent) (name : String) :
    larger.memberName parent name = draft.memberName parent name := by
  cases parent with
  | none => rfl
  | some id => simp only [memberName, DeclTree.scopedName_of_prefix grows (known id rfl)]

/-- A typedef appends itself and its declarator. -/
theorem bare_addTypedef {draft : Draft} {parent : Option DeclId} (known : draft.Knows parent)
    (name : String) (aliased : IdlType) :
    (draft.addTypedef parent name aliased).tree.bare = draft.tree.bare ++
      [⟨name, draft.memberName parent name, draft.currentFile,
          .typedef aliased [draft.nextDeclarator]⟩,
        ⟨name, draft.memberName parent name, draft.currentFile,
          .declarator (draft.aliasOf aliased)⟩] := by
  have grows : draft.tree.bare <+:
      (draft.add parent name (.typedef aliased [draft.nextDeclarator])).tree.bare := by
    rw [bare_add]
    exact List.prefix_append _ _
  rw [addTypedef, bare_enterName, bare_append, memberName_of_prefix grows known, currentFile_add,
    bare_add, List.append_assoc]
  rfl

/-! ## Sizes -/

theorem size_add (draft : Draft) (parent : Option DeclId) (name : String) (kind : DeclKind) :
    (draft.add parent name kind).tree.size = draft.nextId + 1 := by
  rw [← DeclTree.length_bare, bare_add, List.length_append, DeclTree.length_bare]
  rfl

theorem size_addInterface (draft : Draft) (parent : Option DeclId) (name : String) :
    (draft.addInterface parent name).tree.size = draft.nextId + 1 := by
  rw [← DeclTree.length_bare, bare_addInterface, List.length_append, DeclTree.length_bare]
  rfl

theorem size_modifyKind (draft : Draft) (id : DeclId) (change : DeclKind → DeclKind) :
    (draft.modifyKind id change).tree.size = draft.tree.size := by
  simp [modifyKind, mapDecls, DeclTree.size]

theorem size_addTypedef (draft : Draft) (parent : Option DeclId) (name : String)
    (aliased : IdlType) :
    (draft.addTypedef parent name aliased).tree.size = draft.nextId + 2 := by
  rw [← DeclTree.length_bare, addTypedef, bare_enterName, bare_append, List.length_append,
    DeclTree.length_bare, size_add]
  rfl

end Draft

/-! ## Positions -/

/-- The positions of the declarations whose kind is selected, in order. -/
def positions (selected : DeclKind → Bool) (decls : List Decl) : List DeclId :=
  (decls.zipIdx.filter fun entry => selected entry.1.kind).map (·.2)

theorem mem_positions {selected : DeclKind → Bool} {decls : List Decl} {id : DeclId} :
    id ∈ positions selected decls ↔ ∃ decl, decls[id]? = some decl ∧ selected decl.kind = true := by
  simp only [positions, List.mem_map, List.mem_filter, Prod.exists, List.mem_zipIdx_iff_getElem?]
  constructor
  · rintro ⟨decl, position, ⟨found, chosen⟩, rfl⟩
    exact ⟨decl, found, chosen⟩
  · rintro ⟨decl, found, chosen⟩
    exact ⟨decl, id, ⟨found, chosen⟩, rfl⟩

/-- A declaration whose bare kind is selected has its position among the selected ones. -/
theorem mem_positions_bare {selected : DeclKind → Bool} {tree : DeclTree} {id : DeclId}
    {kind : DeclKind} (found : tree.kind? id = some kind)
    (chosen : selected kind.bare = true) : id ∈ positions selected tree.bare := by
  obtain ⟨decl, here, rfl⟩ := Option.map_eq_some_iff.mp found
  rw [mem_positions, DeclTree.getElem?_bare, here]
  exact ⟨decl.bare, rfl, chosen⟩

theorem positions_append (selected : DeclKind → Bool) (decls : List Decl) (decl : Decl) :
    positions selected (decls ++ [decl]) =
      positions selected decls ++ if selected decl.kind then [decls.length] else [] := by
  simp only [positions, List.zipIdx_append, List.filter_append, List.map_append]
  cases chosen : selected decl.kind <;> simp [chosen]

theorem nodup_positions (selected : DeclKind → Bool) (decls : List Decl) :
    (positions selected decls).Nodup := by
  have inOrder : (positions selected decls).Sublist (decls.zipIdx.map (·.2)) :=
    List.filter_sublist.map _
  refine inOrder.nodup ?_
  rw [List.zipIdx_map_snd]
  exact List.nodup_range'

end IdlBridge
