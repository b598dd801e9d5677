import IdlBridge.Proofs.DeclTree.Growth

/-!
# Trees that can be built

A draft is built from an empty one by edits. Additions name a parent that exists already; nothing
else is asked of an edit, so aliases and bases may point anywhere. What is listed in a built tree
is in its place (`Draft.Built.listed`): the full name of a listed declaration is the full name of
the module that lists it, followed by its own name, and it was declared after that module.
-/

set_option autoImplicit false

namespace IdlBridge

/-! ## Edits -/

/-- One change of a draft. -/
inductive Edit
  | setFilename (filename : String)
  | setFile (file : String)
  | addModule (parent : Option DeclId) (name : String)
  | addInterface (parent : Option DeclId) (name : String)
  | addForward (parent : Option DeclId) (name : String)
  | addTypedef (parent : Option DeclId) (name : String) (aliased : IdlType)
  | addEnum (parent : Option DeclId) (name : String) (enumerators : List String)
  | addOperation (interface : DeclId) (name : String) (signature : Operation)
  | addAttributes (interface : DeclId) (group : AttributeGroup)
  | setAlias (declarator target : DeclId)
  | setAliasedType (declarator : DeclId) (type : IdlType)
  | addBase (interface base : DeclId)
  | addPragma (interface : DeclId) (pragma : Pragma)
  | setOperation (id : DeclId) (signature : Operation)
  | setAttributeType (id : DeclId) (type : IdlType)
  deriving DecidableEq, Repr

namespace Edit

/-- Makes the change. -/
def apply (draft : Draft) : Edit → Draft
  | setFilename filename => draft.setFilename filename
  | setFile file => draft.setFile file
  | addModule parent name => draft.addModule parent name
  | addInterface parent name => draft.addInterface parent name
  | addForward parent name => draft.addForward parent name
  | addTypedef parent name aliased => draft.addTypedef parent name aliased
  | addEnum parent name enumerators => draft.addEnum parent name enumerators
  | addOperation interface name signature => draft.addOperation (some interface) name signature
  | addAttributes interface group => draft.addAttributes (some interface) group
  | setAlias declarator target => draft.setAlias declarator target
  | setAliasedType declarator type => draft.setAliasedType declarator type
  | addBase interface base => draft.addBase interface base
  | addPragma interface pragma => draft.addPragma interface pragma
  | setOperation id signature => draft.setOperation id signature
  | setAttributeType id type => draft.setAttributeType id type

/-- The declaration under which the edit adds another. -/
def parent? : Edit → Option DeclId
  | addModule parent _ | addInterface parent _ | addForward parent _ | addTypedef parent _ _
  | addEnum parent _ _ => parent
  | addOperation interface _ _ | addAttributes interface _ => some interface
  | _ => none

end Edit

/-- The draft can be reached by edits under parents that exist. -/
inductive Draft.Built : Draft → Prop
  | empty (file : String) : Built (.empty file)
  | edit {draft : Draft} (built : Built draft) (edit : Edit) (known : draft.Knows edit.parent?) :
      Built (edit.apply draft)

/-- The tree of a built draft. -/
def DeclTree.Built (tree : DeclTree) : Prop :=
  ∃ draft : Draft, draft.Built ∧ draft.tree = tree

/-! ## Listed declarations -/

/-- The members of a module; other declarations list none that are gone through. -/
def DeclKind.members : DeclKind → List DeclId
  | module members => members
  | _ => []

/-- What listing depends on: the names of a declaration and its members. -/
def Decl.face (decl : Decl) : String × ScopedName × List DeclId :=
  (decl.name, decl.scopedName, decl.kind.members)

namespace DeclTree

/-- The declarations listed in a module, or outside every module. -/
def membersOf (tree : DeclTree) : Option DeclId → List DeclId
  | some id => ((tree.kind? id).map DeclKind.members).getD []
  | none => tree.declarations

/-- The full name of the scope in which members are declared. -/
def scopeOf (tree : DeclTree) : Option DeclId → ScopedName
  | some id => tree.scopedName id
  | none => .root

/-- The declaration is named as a member of the given parent. -/
def NamedUnder (tree : DeclTree) (parent : Option DeclId) (member : DeclId) : Prop :=
  ∃ decl, tree.decl? member = some decl ∧
    decl.scopedName = (tree.scopeOf parent).child decl.name

/-- Everything that is listed has the name of its place and comes after what lists it. -/
def Listed (tree : DeclTree) : Prop :=
  ∀ parent, ∀ member ∈ tree.membersOf parent,
    tree.NamedUnder parent member ∧ ∀ id ∈ parent, id < member

/-- The other tree lists the same declarations under the same names. -/
structure SameListing (tree other : DeclTree) : Prop where
  declarations : other.declarations = tree.declarations
  faces : ∀ id, (other.decl? id).map Decl.face = (tree.decl? id).map Decl.face

variable {tree other : DeclTree}

theorem membersOf_eq_face (tree : DeclTree) (id : DeclId) :
    tree.membersOf (some id) = (((tree.decl? id).map Decl.face).map (·.2.2)).getD [] := by
  rw [membersOf, kind?, Option.map_map, Option.map_map]
  rfl

theorem scopeOf_eq_face (tree : DeclTree) (id : DeclId) :
    tree.scopeOf (some id) = (((tree.decl? id).map Decl.face).map (·.2.1)).getD .root := by
  rw [scopeOf, scopedName, Option.map_map]
  rfl

theorem namedUnder_iff_face {parent : Option DeclId} {member : DeclId} :
    tree.NamedUnder parent member ↔
      ∃ face, (tree.decl? member).map Decl.face = some face ∧
        face.2.1 = (tree.scopeOf parent).child face.1 := by
  constructor
  · rintro ⟨decl, found, named⟩
    exact ⟨decl.face, by rw [found]; rfl, named⟩
  · rintro ⟨face, found, named⟩
    obtain ⟨decl, here, rfl⟩ := Option.map_eq_some_iff.mp found
    exact ⟨decl, here, named⟩

namespace SameListing

theorem membersOf (same : tree.SameListing other) (parent : Option DeclId) :
    other.membersOf parent = tree.membersOf parent := by
  cases parent with
  | none => exact same.declarations
  | some id => rw [membersOf_eq_face, membersOf_eq_face, same.faces]

theorem scopeOf (same : tree.SameListing other) (parent : Option DeclId) :
    other.scopeOf parent = tree.scopeOf parent := by
  cases parent with
  | none => rfl
  | some id => rw [scopeOf_eq_face, scopeOf_eq_face, same.faces]

theorem listed (same : tree.SameListing other) (listed : tree.Listed) : other.Listed := by
  intro parent member isMember
  rw [same.membersOf] at isMember
  obtain ⟨named, later⟩ := listed parent member isMember
  refine ⟨?_, later⟩
  rw [namedUnder_iff_face] at named ⊢
  rwa [same.faces, same.scopeOf]

end SameListing

/-- Names stay when declarations are appended. -/
theorem NamedUnder.of_grows {parent : Option DeclId} {member : DeclId}
    (grows : tree.bare <+: other.bare) (known : ∀ id ∈ parent, id < tree.size)
    (named : tree.NamedUnder parent member) : other.NamedUnder parent member := by
  obtain ⟨decl, found, named⟩ := named
  have scope : other.scopeOf parent = tree.scopeOf parent := by
    cases parent with
    | none => rfl
    | some id => exact scopedName_of_prefix grows (known id rfl)
  have bare : other.bare[member]? = some decl.bare := by
    obtain ⟨added, equal⟩ := grows
    have bound : member < tree.bare.length := by
      rw [length_bare]
      exact (Array.getElem?_eq_some_iff.mp found).1
    rw [← equal, List.getElem?_append_left bound, getElem?_bare, found]
    rfl
  rw [getElem?_bare, Option.map_eq_some_iff] at bare
  obtain ⟨larger, here, same⟩ := bare
  refine ⟨larger, here, ?_⟩
  rw [scope, ← show larger.bare.scopedName = larger.scopedName from rfl,
    ← show larger.bare.name = larger.name from rfl, same]
  exact named

end DeclTree

/-! ## Edits keep listed declarations in place -/

namespace Draft

theorem sameListing_modifyKind {draft : Draft} {id : DeclId} {change : DeclKind → DeclKind}
    (keeps : ∀ kind, (change kind).members = kind.members) :
    draft.tree.SameListing (draft.modifyKind id change).tree where
  declarations := rfl
  faces position := by
    simp only [DeclTree.decl?, modifyKind, mapDecls, Array.getElem?_modify]
    split
    · cases draft.tree.decls[position]? with
      | none => rfl
      | some decl => simp [Decl.face, keeps]
    · rfl

theorem sameListing_enterName (draft : Draft) (id : DeclId) :
    draft.tree.SameListing (draft.enterName id).tree := by
  unfold enterName
  split
  · exact ⟨rfl, fun _ => rfl⟩
  · split <;> exact ⟨rfl, fun _ => rfl⟩

/-- An appended declaration lists nothing and is listed nowhere. -/
theorem membersOf_append (draft : Draft) (parent : Option DeclId) (name : String)
    {kind : DeclKind} (lists : kind.members = []) (place : Option DeclId) :
    (draft.append parent name kind).tree.membersOf place = draft.tree.membersOf place := by
  cases place with
  | none => rfl
  | some id =>
    simp only [DeclTree.membersOf, DeclTree.kind?, DeclTree.decl?, append, mapDecls,
      Array.getElem?_push]
    split
    · rename_i last
      subst last
      simp [lists]
    · rfl

/-- Listing a declaration adds it to the members of its parent only. -/
theorem mem_membersOf_listUnder {draft : Draft} {parent place : Option DeclId}
    {new member : DeclId} {callable : Bool}
    (listed : member ∈ (draft.listUnder parent new callable).tree.membersOf place) :
    member ∈ draft.tree.membersOf place ∨ member = new ∧ place = parent := by
  cases parent with
  | none =>
    cases place with
    | none => simpa [listUnder, DeclTree.membersOf] using listed
    | some id => exact .inl listed
  | some id =>
    cases place with
    | none => exact .inl listed
    | some position =>
      rw [DeclTree.membersOf, listUnder, kind?_modifyKind] at listed
      split at listed
      · rename_i same
        subst same
        rw [DeclTree.membersOf]
        cases found : draft.tree.kind? id with
        | none => simp [found] at listed
        | some kind =>
          cases kind with
          | module members => simpa [found, DeclKind.listMember, DeclKind.members] using listed
          | interface parts =>
            cases callable <;> simp [found, DeclKind.listMember, DeclKind.members] at listed
          | _ => simp [found, DeclKind.listMember, DeclKind.members] at listed
      · exact .inl listed

theorem mem_membersOf_add {draft : Draft} {parent place : Option DeclId} {name : String}
    {kind : DeclKind} {member : DeclId} (lists : kind.members = [])
    (listed : member ∈ (draft.add parent name kind).tree.membersOf place) :
    member ∈ draft.tree.membersOf place ∨ member = draft.nextId ∧ place = parent := by
  rw [add, (sameListing_enterName _ _).membersOf] at listed
  have known := mem_membersOf_listUnder listed
  rwa [membersOf_append _ _ _ lists] at known

/-- Additions keep listed declarations in place. -/
theorem listed_add {draft : Draft} (listed : draft.tree.Listed) {parent : Option DeclId}
    (known : draft.Knows parent) (name : String) {kind : DeclKind} (lists : kind.members = []) :
    (draft.add parent name kind).tree.Listed := by
  have appended := draft.bare_add parent name kind
  have grows : draft.tree.bare <+: (draft.add parent name kind).tree.bare := by
    rw [appended]
    exact List.prefix_append _ _
  intro place member isMember
  rcases mem_membersOf_add lists isMember with old | ⟨rfl, rfl⟩
  · obtain ⟨named, later⟩ := listed place member old
    obtain ⟨decl, found, -⟩ := id named
    have bound : member < draft.tree.size := (Array.getElem?_eq_some_iff.mp found).1
    exact ⟨named.of_grows grows fun id isParent => Nat.lt_trans (later id isParent) bound, later⟩
  · refine ⟨?_, known⟩
    have here : (draft.add place name kind).tree.bare[draft.nextId]? =
        some ⟨name, draft.memberName place name, draft.currentFile, kind.bare⟩ := by
      rw [appended, nextId, ← DeclTree.length_bare, List.getElem?_concat_length]
    rw [DeclTree.getElem?_bare, Option.map_eq_some_iff] at here
    obtain ⟨decl, found, same⟩ := here
    refine ⟨decl, found, ?_⟩
    have named : decl.scopedName = draft.memberName place name :=
      congrArg Decl.scopedName same
    have own : decl.name = name := congrArg Decl.name same
    rw [named, own]
    cases place with
    | none => rfl
    | some id =>
      rw [memberName, DeclTree.scopeOf, DeclTree.scopedName_of_prefix grows (known id rfl)]

theorem sameListing_addInterface (draft : Draft) (parent : Option DeclId) (name : String) :
    (draft.add parent name (.interface .empty)).tree.SameListing
      (draft.addInterface parent name).tree where
  declarations := rfl
  faces position := by
    simp only [DeclTree.decl?, addInterface, mapDecls, Array.getElem?_map, Option.map_map]
    congr 1
    funext decl
    simp only [Function.comp_apply]
    split
    · simp only [Decl.face, Prod.mk.injEq, true_and]
      cases decl.kind with
      | forward target => cases target <;> rfl
      | _ => rfl
    · rfl

theorem listed_addTypedef {draft : Draft} (listed : draft.tree.Listed) {parent : Option DeclId}
    (known : draft.Knows parent) (name : String) (aliased : IdlType) :
    (draft.addTypedef parent name aliased).tree.Listed := by
  have added := listed_add listed known name
    (show (DeclKind.typedef aliased [draft.nextDeclarator]).members = [] from rfl)
  refine (sameListing_enterName _ _).listed fun place member isMember => ?_
  rw [membersOf_append _ _ _ (by rfl)] at isMember
  obtain ⟨named, later⟩ := added place member isMember
  obtain ⟨decl, found, -⟩ := id named
  have bound : member < (draft.add parent name _).tree.size :=
    (Array.getElem?_eq_some_iff.mp found).1
  refine ⟨named.of_grows ?_ fun id isParent => Nat.lt_trans (later id isParent) bound, later⟩
  rw [bare_append]
  exact List.prefix_append _ _

theorem sameListing_setAliasedType (draft : Draft) (declarator : DeclId) (type : IdlType) :
    draft.tree.SameListing (draft.setAliasedType declarator type).tree := by
  rw [setAliasedType]
  split
  · exact ⟨rfl, fun _ => rfl⟩
  · refine sameListing_modifyKind fun kind => ?_
    cases kind <;> rfl

/-- **What is listed in a built tree is in its place.** -/
theorem Built.listed {draft : Draft} (built : draft.Built) : draft.tree.Listed := by
  induction built with
  | empty file =>
    intro parent member isMember
    cases parent with
    | none => cases isMember
    | some id => simp [DeclTree.membersOf, DeclTree.kind?, DeclTree.decl?, Draft.empty,
        DeclTree.empty] at isMember
  | @edit draft built edit known ih =>
    cases edit with
    | setFilename | setFile => exact DeclTree.SameListing.listed ⟨rfl, fun _ => rfl⟩ ih
    | addModule parent name => exact listed_add ih known name rfl
    | addInterface parent name =>
      exact (sameListing_addInterface draft parent name).listed (listed_add ih known name rfl)
    | addForward parent name => exact listed_add ih known name rfl
    | addTypedef parent name aliased => exact listed_addTypedef ih known name aliased
    | addEnum parent name enumerators => exact listed_add ih known name rfl
    | addOperation interface name signature => exact listed_add ih known name rfl
    | addAttributes interface group => exact listed_add ih known _ rfl
    | setAliasedType declarator type =>
      exact (sameListing_setAliasedType draft declarator type).listed ih
    | setAlias | addBase | addPragma | setOperation | setAttributeType =>
      refine (sameListing_modifyKind fun kind => ?_).listed ih
      cases kind <;> rfl

end Draft

theorem DeclTree.Built.listed {tree : DeclTree} (built : tree.Built) : tree.Listed := by
  obtain ⟨draft, built, rfl⟩ := built
  exact Draft.Built.listed built

end IdlBridge
