import IdlBridge.Proofs.DeclTree.Construction

/-!
# Places of modules and interfaces

Modules and interfaces are declared outside every module or inside one. Drafts that are built in this
way are nested (`Draft.Nested`). In the tree of a nested draft every module and every interface is
listed, in one place and once (`Draft.Nested.placed`), so the modules around a declaration are found
by following its places outward.
-/

set_option autoImplicit false

namespace IdlBridge

namespace DeclKind

/-- The kind of modules. -/
def isModule : DeclKind → Bool
  | module _ => true
  | _ => false

/-- The kinds that are declared in modules only. -/
def isPlaced (kind : DeclKind) : Bool :=
  kind.isModule || kind.isInterface

theorem isPlaced_bare (kind : DeclKind) : kind.bare.isPlaced = kind.isPlaced := by
  cases kind <;> rfl

theorem isModule_bare (kind : DeclKind) : kind.bare.isModule = kind.isModule := by
  cases kind <;> rfl

end DeclKind

namespace DeclTree

/-- The given number belongs to a module. -/
def isModule (tree : DeclTree) (id : DeclId) : Bool :=
  (tree.kind? id).any DeclKind.isModule

/-- The given number belongs to a module or an interface. -/
def isPlaced (tree : DeclTree) (id : DeclId) : Bool :=
  (tree.kind? id).any DeclKind.isPlaced

/-- Declarations are listed outside every module or in one. -/
def isScope (tree : DeclTree) : Option DeclId → Bool
  | some id => tree.isModule id
  | none => true

/-- Every module and every interface is listed in one place and once. -/
structure Placed (tree : DeclTree) : Prop where
  nodup : ∀ place, (tree.membersOf place).Nodup
  unique : ∀ member place other, member ∈ tree.membersOf place → member ∈ tree.membersOf other →
    place = other
  listed : ∀ id, tree.isPlaced id = true → ∃ place, id ∈ tree.membersOf place

variable {tree other : DeclTree}

/-- What is said of kinds without what is filled in later is said of bare declarations. -/
theorem any_kind?_eq_bare {holds : DeclKind → Bool} (bare : ∀ kind, holds kind.bare = holds kind)
    (tree : DeclTree) (id : DeclId) :
    (tree.kind? id).any holds = (tree.bare[id]?).any fun decl => holds decl.kind := by
  rw [kind?, getElem?_bare]
  cases tree.decl? id with
  | none => rfl
  | some decl => exact (bare decl.kind).symm

theorem isPlaced_eq_bare (tree : DeclTree) (id : DeclId) :
    tree.isPlaced id = (tree.bare[id]?).any fun decl => decl.kind.isPlaced :=
  any_kind?_eq_bare DeclKind.isPlaced_bare tree id

theorem isModule_eq_bare (tree : DeclTree) (id : DeclId) :
    tree.isModule id = (tree.bare[id]?).any fun decl => decl.kind.isModule :=
  any_kind?_eq_bare DeclKind.isModule_bare tree id

/-- A module stays one when declarations are appended. -/
theorem isModule_of_prefix {larger : DeclTree} (grows : tree.bare <+: larger.bare) {id : DeclId}
    (isModule : tree.isModule id = true) : larger.isModule id = true := by
  rw [isModule_eq_bare] at isModule ⊢
  obtain ⟨decl, found, isModule⟩ := (Option.any_eq_true _ _).mp isModule
  obtain ⟨added, equal⟩ := grows
  rw [← equal, List.getElem?_append_left (List.getElem?_eq_some_iff.mp found).1, found]
  exact isModule

/-- Nothing else matters for places than what is listed and what has to be. -/
theorem Placed.of_same (placed : tree.Placed)
    (members : ∀ place, other.membersOf place = tree.membersOf place)
    (kinds : ∀ id, other.isPlaced id = tree.isPlaced id) : other.Placed where
  nodup place := by
    rw [members]
    exact placed.nodup place
  unique member place place' := by
    rw [members, members]
    exact placed.unique member place place'
  listed id isPlaced := by
    rw [kinds] at isPlaced
    obtain ⟨place, listed⟩ := placed.listed id isPlaced
    exact ⟨place, by rwa [members]⟩

end DeclTree

/-- The place in which an edit puts a module or an interface. -/
def Edit.place? : Edit → Option DeclId
  | addModule parent _ | addInterface parent _ => parent
  | _ => none

namespace Draft

/-- The draft can be reached by edits that put modules and interfaces into modules only. -/
inductive Nested : Draft → Prop
  | empty (file : String) : Nested (.empty file)
  | edit {draft : Draft} (nested : Nested draft) (edit : Edit) (known : draft.Knows edit.parent?)
      (inModule : draft.tree.isScope edit.place? = true) : Nested (edit.apply draft)

theorem Nested.built {draft : Draft} (nested : draft.Nested) : draft.Built := by
  induction nested with
  | empty file => exact .empty file
  | edit _ edit known _ built => exact .edit built edit known

variable {draft : Draft}

/-! ## What an addition lists -/

/-- A declaration is listed behind the other members of its place. -/
theorem membersOf_listUnder (draft : Draft) (parent place : Option DeclId) (new : DeclId)
    (callable : Bool) :
    (draft.listUnder parent new callable).tree.membersOf place = draft.tree.membersOf place ++
      if place = parent ∧ draft.tree.isScope parent = true then [new] else [] := by
  cases parent with
  | none => cases place <;> simp [listUnder, DeclTree.membersOf, DeclTree.isScope, DeclTree.kind?,
      DeclTree.decl?]
  | some id =>
    cases place with
    | none => simp [listUnder, DeclTree.membersOf, modifyKind, mapDecls]
    | some position =>
      simp only [DeclTree.membersOf, listUnder, kind?_modifyKind, DeclTree.isScope,
        DeclTree.isModule, Option.some.injEq]
      by_cases same : id = position
      · subst same
        cases draft.tree.kind? id with
        | none => simp
        | some kind =>
          cases kind with
          | interface parts =>
            cases callable <;> simp [DeclKind.listMember, DeclKind.members, DeclKind.isModule]
          | _ => simp [DeclKind.listMember, DeclKind.members, DeclKind.isModule]
      · simp [same, Ne.symm same]

theorem isScope_append (draft : Draft) {parent : Option DeclId} (known : draft.Knows parent)
    (name : String) (kind : DeclKind) :
    (draft.append parent name kind).tree.isScope parent = draft.tree.isScope parent := by
  cases parent with
  | none => rfl
  | some id =>
    have earlier : id ≠ draft.tree.decls.size := Nat.ne_of_lt (known id rfl)
    simp only [DeclTree.isScope, DeclTree.isModule, DeclTree.kind?, DeclTree.decl?, append,
      mapDecls, Array.getElem?_push, earlier, if_false]

/-- An addition is listed behind the other members of its place. -/
theorem membersOf_add {parent : Option DeclId} (known : draft.Knows parent) (name : String)
    {kind : DeclKind} (lists : kind.members = []) (place : Option DeclId) :
    (draft.add parent name kind).tree.membersOf place = draft.tree.membersOf place ++
      if place = parent ∧ draft.tree.isScope parent = true then [draft.nextId] else [] := by
  rw [add, (sameListing_enterName _ _).membersOf, membersOf_listUnder,
    membersOf_append _ _ _ lists, isScope_append draft known]

/-- Everything listed has been declared. -/
theorem lt_nextId_of_listed (listed : draft.tree.Listed) {place : Option DeclId} {member : DeclId}
    (isMember : member ∈ draft.tree.membersOf place) : member < draft.nextId := by
  obtain ⟨⟨decl, found, -⟩, -⟩ := listed place member isMember
  exact (Array.getElem?_eq_some_iff.mp found).1

theorem isPlaced_append (draft : Draft) (parent : Option DeclId) (name : String)
    (kind : DeclKind) (id : DeclId) :
    (draft.append parent name kind).tree.isPlaced id =
      if id = draft.nextId then kind.isPlaced else draft.tree.isPlaced id := by
  simp only [DeclTree.isPlaced, DeclTree.kind?, DeclTree.decl?, append, mapDecls,
    Array.getElem?_push, nextId, DeclTree.size]
  by_cases last : id = draft.tree.decls.size
  · simp [last]
  · simp [last]

theorem isPlaced_add (draft : Draft) (parent : Option DeclId) (name : String) (kind : DeclKind)
    (id : DeclId) :
    (draft.add parent name kind).tree.isPlaced id =
      if id = draft.nextId then kind.isPlaced else draft.tree.isPlaced id := by
  rw [DeclTree.isPlaced_eq_bare, bare_add, ← bare_append, ← DeclTree.isPlaced_eq_bare,
    isPlaced_append]

theorem isModule_addModule (draft : Draft) (parent : Option DeclId) (name : String) :
    (draft.addModule parent name).tree.isModule draft.nextId = true := by
  rw [addModule, DeclTree.isModule_eq_bare, bare_add, nextId, ← DeclTree.length_bare,
    List.getElem?_concat_length]
  rfl

/-- Additions keep modules and interfaces in their places, if they are in one themselves. -/
theorem placed_add (listed : draft.tree.Listed) (placed : draft.tree.Placed)
    {parent : Option DeclId} (known : draft.Knows parent) (name : String) {kind : DeclKind}
    (lists : kind.members = [])
    (inModule : kind.isPlaced = true → draft.tree.isScope parent = true) :
    (draft.add parent name kind).tree.Placed := by
  have members := membersOf_add known name lists
  have new : ∀ place, draft.nextId ∉ draft.tree.membersOf place := fun place isMember =>
    Nat.lt_irrefl _ (lt_nextId_of_listed listed isMember)
  have either : ∀ member place, member ∈ (draft.add parent name kind).tree.membersOf place →
      member ∈ draft.tree.membersOf place ∨ member = draft.nextId ∧ place = parent :=
    fun _ _ => mem_membersOf_add lists
  refine ⟨fun place => ?_, fun member place other here there => ?_, fun id isPlaced => ?_⟩
  · rw [members]
    split
    · refine List.nodup_append.mpr ⟨placed.nodup place, List.pairwise_singleton _ _, ?_⟩
      rintro old isMember added isNew rfl
      exact new place (List.mem_singleton.mp isNew ▸ isMember)
    · rw [List.append_nil]
      exact placed.nodup place
  · rcases either member place here with old | ⟨rfl, rfl⟩
    · rcases either member other there with older | ⟨rfl, -⟩
      · exact placed.unique member place other old older
      · exact absurd old (new place)
    · rcases either _ other there with old | ⟨-, rfl⟩
      · exact absurd old (new other)
      · rfl
  · rw [isPlaced_add] at isPlaced
    split at isPlaced
    · rename_i last
      refine ⟨parent, ?_⟩
      rw [members, if_pos ⟨rfl, inModule isPlaced⟩, last]
      exact List.mem_append_right _ (List.mem_singleton_self _)
    · obtain ⟨place, isMember⟩ := placed.listed id isPlaced
      refine ⟨place, ?_⟩
      rw [members]
      exact List.mem_append_left _ isMember

/-! ## Edits -/

theorem isPlaced_modifyKind {id : DeclId} {change : DeclKind → DeclKind}
    (keeps : ∀ kind, (change kind).isPlaced = kind.isPlaced) (position : DeclId) :
    (draft.modifyKind id change).tree.isPlaced position = draft.tree.isPlaced position := by
  rw [DeclTree.isPlaced, DeclTree.isPlaced, kind?_modifyKind]
  split
  · rw [Option.any_map]
    exact congrArg (Option.any · (draft.tree.kind? position)) (funext keeps)
  · rfl

theorem placed_modifyKind (placed : draft.tree.Placed) {id : DeclId}
    {change : DeclKind → DeclKind}
    (keeps : ∀ kind, (change kind).members = kind.members ∧
      (change kind).isPlaced = kind.isPlaced) :
    (draft.modifyKind id change).tree.Placed :=
  placed.of_same (sameListing_modifyKind fun kind => (keeps kind).1).membersOf
    (isPlaced_modifyKind fun kind => (keeps kind).2)

theorem placed_addInterface (listed : draft.tree.Listed) (placed : draft.tree.Placed)
    {parent : Option DeclId} (known : draft.Knows parent) (name : String)
    (inModule : draft.tree.isScope parent = true) :
    (draft.addInterface parent name).tree.Placed := by
  have added : (draft.add parent name (.interface .empty)).tree.Placed :=
    placed_add listed placed known name rfl fun _ => inModule
  refine added.of_same (sameListing_addInterface draft parent name).membersOf fun id => ?_
  rw [DeclTree.isPlaced_eq_bare, DeclTree.isPlaced_eq_bare, bare_addInterface, bare_add]
  rfl

/-- The declarator of a typedef is listed nowhere. -/
theorem placed_addTypedef (listed : draft.tree.Listed) (placed : draft.tree.Placed)
    {parent : Option DeclId} (known : draft.Knows parent) (name : String) (aliased : IdlType) :
    (draft.addTypedef parent name aliased).tree.Placed := by
  let typedef := draft.add parent name (.typedef aliased [draft.nextDeclarator])
  have added : typedef.tree.Placed := placed_add listed placed known name rfl nofun
  refine added.of_same (fun place => ?_) fun id => ?_
  · rw [addTypedef, (sameListing_enterName _ _).membersOf, membersOf_append _ _ _ rfl]
  · rw [addTypedef, DeclTree.isPlaced_eq_bare, bare_enterName, ← DeclTree.isPlaced_eq_bare,
      isPlaced_append]
    split
    · rename_i last
      have beyond : typedef.tree.decls[id]? = none := by
        rw [last]
        exact Array.getElem?_eq_none (Nat.le_refl _)
      rw [DeclTree.isPlaced, DeclTree.kind?, DeclTree.decl?, beyond]
      rfl
    · rfl

theorem placed_setAliasedType (placed : draft.tree.Placed) (declarator : DeclId)
    (type : IdlType) : (draft.setAliasedType declarator type).tree.Placed := by
  rw [setAliasedType]
  split
  · exact placed
  · refine placed_modifyKind placed fun kind => ?_
    cases kind <;> exact ⟨rfl, rfl⟩

/-- **In a nested draft every module and every interface has its place.** -/
theorem Nested.placed (nested : draft.Nested) : draft.tree.Placed := by
  induction nested with
  | empty file =>
    have none : ∀ place, (Draft.empty file).tree.membersOf place = [] := by
      rintro (_ | id) <;> rfl
    refine ⟨fun place => ?_, fun member place _ listed => ?_, fun id isPlaced => ?_⟩
    · rw [none]
      exact List.nodup_nil
    · rw [none] at listed
      cases listed
    · cases isPlaced
  | @edit draft nested edit known inModule placed =>
    have listed := nested.built.listed
    cases edit with
    | setFilename | setFile => exact placed.of_same (fun place => by cases place <;> rfl) fun _ => rfl
    | addModule parent name => exact placed_add listed placed known name rfl fun _ => inModule
    | addInterface parent name => exact placed_addInterface listed placed known name inModule
    | addForward parent name => exact placed_add listed placed known name rfl nofun
    | addTypedef parent name aliased => exact placed_addTypedef listed placed known name aliased
    | addEnum parent name enumerators => exact placed_add listed placed known name rfl nofun
    | addOperation interface name signature => exact placed_add listed placed known name rfl nofun
    | addAttributes interface group => exact placed_add listed placed known _ rfl nofun
    | setAliasedType declarator type => exact placed_setAliasedType placed declarator type
    | setAlias | addBase | addPragma | setOperation | setAttributeType =>
      refine placed_modifyKind placed fun kind => ?_
      cases kind <;> exact ⟨rfl, rfl⟩

end Draft

end IdlBridge
