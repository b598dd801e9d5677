import IdlBridge.Proofs.DeclTree.Forwards
import IdlBridge.Proofs.Document.Nesting
import IdlBridge.Proofs.Document.Unresolved

/-!
# Closed types

The types of a loaded tree mention names. They are closed if every name leads to a declaration of
the kind that the type says (`DeclTree.ClosesType`): an object type to an interface or a forward
declaration, an enumeration to an enumeration, and a sequence to the declarator of a typedef that
holds exactly this sequence. All types that callables exchange are closed (`Means.closes`), although
a typedef may itself be hidden behind an interface of its name: what an expression names is found
through the index, and so is every typedef that it leads to.

A declarator keeps what it stands for a second time, as the number of a declaration. The two always
agree (`Registered.kind?_eq_aliasOf`), so resolving a declarator is resolving the name in its type
(`DeclTree.resolve?_of_alias`).
-/

set_option autoImplicit false

namespace IdlBridge

/-- The types that a callable exchanges with its caller. -/
def DeclKind.exchanged : DeclKind → List IdlType
  | operation signature => signature.returns :: signature.params.map (·.type)
  | attributes group => [group.type]
  | _ => []

/-- Interfaces and forward declarations stand for objects. -/
def DeclKind.isObject : DeclKind → Bool
  | interface _ | forward _ => true
  | _ => false

/-- The kind of enumerations. -/
def DeclKind.isEnum : DeclKind → Bool
  | enum _ => true
  | _ => false

namespace DeclTree

variable {tree : DeclTree}

/-- A name leads to a declaration of a kind. -/
def Names (tree : DeclTree) (name : ScopedName) (sort : DeclKind → Bool) : Prop :=
  ∃ id kind, tree.find? name = some id ∧ tree.kind? id = some kind ∧ sort kind = true

/-- The typedef is the only one that introduces the declarator, and it is of the given type. -/
structure Owns (tree : DeclTree) (typedef declarator : DeclId) (aliased : IdlType) : Prop where
  introduces : tree.kind? typedef = some (.typedef aliased [declarator])
  only : ∀ other type declarators, tree.kind? other = some (.typedef type declarators) →
    declarator ∈ declarators → other = typedef

/-- The names in a type lead to what the type says. -/
def ClosesType (tree : DeclTree) : IdlType → Prop
  | .basic _ => True
  | .enum name => tree.Names name DeclKind.isEnum
  | .interface name => tree.Names name DeclKind.isObject
  | .sequence name element => element.isSequence = false ∧ tree.ClosesType element ∧
      ∃ declarator target typedef, tree.find? name = some declarator ∧
        tree.kind? declarator = some (.declarator target) ∧
        tree.Owns typedef declarator (.sequence name element)

/-- The declaration that a type stands for, if it is an object type. -/
def aliasOf (tree : DeclTree) : IdlType → Option DeclId
  | .interface name => tree.find? name
  | _ => none

end DeclTree

namespace Outline

variable {outline : Outline} {tree : DeclTree}

/-! ## Owners of declarators -/

/-- Resolution keeps typedefs in front of their declarators. -/
theorem Registered.declarators_eq (registered : outline.Registered)
    (same : tree.unresolved = outline.draft.tree.unresolved) {id : DeclId} {type : IdlType}
    {declarators : List DeclId} (stored : tree.kind? id = some (.typedef type declarators)) :
    declarators = [id + 1] := by
  obtain ⟨kind, found, isTypedef⟩ := DeclTree.exists_kind?_of_unresolved same.symm stored
  cases kind with
  | typedef old others =>
    cases isTypedef
    exact registered.typedefsPlaced id old declarators found
  | _ => cases isTypedef

/-- The typedef of a declarator is found in the loaded tree, with its meaning. -/
theorem Registered.owns (registered : outline.Registered)
    (same : tree.unresolved = outline.draft.tree.unresolved) (stores : outline.Stores tree)
    {entry : TypeAlias} (listed : entry ∈ outline.aliases) {type : IdlType}
    (means : outline.Means (.typedef entry.declarator) type) :
    ∃ typedef, tree.Owns typedef entry.declarator type := by
  obtain ⟨typedef, stored, found, meant⟩ := stores.alias_stored entry listed
  cases means.unique registered meant
  refine ⟨typedef, found, fun other _ declarators otherFound introduced => ?_⟩
  have own := registered.declarators_eq same found
  have otherOwn := registered.declarators_eq same otherFound
  rw [otherOwn, List.mem_singleton] at introduced
  exact Nat.succ.inj (introduced.symm.trans (List.cons.inj own).1)

/-! ## Types of callables -/

theorem names_of_kind? (same : tree.unresolved = outline.draft.tree.unresolved)
    {sort : DeclKind → Bool} (kept : ∀ kind, sort kind.unresolved = sort kind) {name : ScopedName}
    {id : DeclId} {kind : DeclKind} (found : outline.draft.tree.find? name = some id)
    (declared : outline.draft.tree.kind? id = some kind) (chosen : sort kind = true) :
    tree.Names name sort := by
  obtain ⟨full, here, alike⟩ := DeclTree.exists_kind?_of_unresolved same declared
  refine ⟨id, full, ?_, here, ?_⟩
  · rw [DeclTree.find?_of_unresolved same, found]
  · rw [← kept, alike, kept, chosen]

/-- A registered typedef has a declarator that stands for nothing yet. -/
theorem Registered.kind?_introduced (registered : outline.Registered) {entry : TypeAlias}
    (listed : entry ∈ outline.aliases) :
    outline.draft.tree.kind? entry.declarator = some (.declarator none) := by
  obtain ⟨id, _, _, follows, -, -, introduced⟩ := registered.alias_introduced entry listed
  rw [follows, DeclTree.kind?,
    DeclTree.kind?_eq_some_of_bare introduced (by simp) (by simp) (by simp)]
  rfl

/-- A registered typedef has a declarator, in the loaded tree as in the outline. -/
theorem Registered.kind?_declarator (registered : outline.Registered)
    (same : tree.unresolved = outline.draft.tree.unresolved) {entry : TypeAlias}
    (listed : entry ∈ outline.aliases) :
    ∃ target, tree.kind? entry.declarator = some (.declarator target) := by
  have declared := registered.kind?_introduced listed
  obtain ⟨kind, found, isDeclarator⟩ := DeclTree.exists_kind?_of_unresolved same declared
  cases kind with
  | declarator target => exact ⟨target, found⟩
  | _ => cases isDeclarator

/-- **What an expression means is closed.** So is what a typedef means, unless it is a sequence
whose own name leads elsewhere. -/
theorem Means.closes (registered : outline.Registered) (indexed : outline.draft.tree.Indexed)
    (same : tree.unresolved = outline.draft.tree.unresolved) (stores : outline.Stores tree)
    {phrase : TypePhrase} {type : IdlType} (means : outline.Means phrase type)
    (visible : ∀ declarator, phrase = .typedef declarator → type.isSequence = true →
      outline.draft.tree.find? (outline.draft.tree.scopedName declarator) = some declarator) :
    tree.ClosesType type := by
  induction means with
  | basic => trivial
  | interface stands kind | forward stands kind | enum stands kind =>
    obtain ⟨-, -, -, -, found⟩ := stands.first
    exact names_of_kind? same (fun kind => by cases kind <;> rfl) found kind rfl
  | named stands kind _ ih =>
    -- An expression finds the typedef through the index, so the name of the typedef leads to it.
    obtain ⟨-, -, -, -, found⟩ := stands.first
    refine ih fun declarator isTypedef _ => ?_
    cases isTypedef
    rw [indexed.scopedName_of_find? found, found]
  | @sequence entry inner element listed written means flat ih =>
    have closed := ih fun declarator isTypedef _ => by cases isTypedef
    have found := visible entry.declarator rfl rfl
    obtain ⟨target, declared⟩ := registered.kind?_declarator same listed
    obtain ⟨typedef, owns⟩ :=
      registered.owns same stores listed (.sequence listed written means flat)
    refine ⟨flat, closed, entry.declarator, target, typedef, ?_, declared, owns⟩
    rw [DeclTree.find?_of_unresolved same, found]
  | plain _ _ _ ih => exact ih fun declarator isTypedef _ => by cases isTypedef

/-- The types that a callable exchanges are meanings of expressions. -/
theorem Stores.exists_means (stores : outline.Stores tree) {id : DeclId} {kind : DeclKind}
    (stored : tree.kind? id = some kind) {type : IdlType} (exchanged : type ∈ kind.exchanged) :
    ∃ scope text, outline.Means (.expression scope text) type := by
  cases kind with
  | operation signature =>
    obtain ⟨callable, -, -, means⟩ := stores.callable_registered id _ _ stored rfl
    cases text : callable.text with
    | attributes =>
      rw [text] at means
      exact means.elim
    | operation returns params =>
      rw [text] at means
      rcases List.mem_cons.mp exchanged with rfl | isParam
      · exact ⟨callable.scope, returns, means.1⟩
      · obtain ⟨param, listed, rfl⟩ := List.mem_map.mp isParam
        obtain ⟨written, -, meant⟩ := exists_mem_zip means.2.flip listed
        exact ⟨callable.scope, written.type, meant.type⟩
  | attributes group =>
    obtain ⟨callable, -, -, means⟩ := stores.callable_registered id _ _ stored rfl
    rw [DeclKind.exchanged, List.mem_singleton] at exchanged
    subst exchanged
    cases text : callable.text with
    | attributes expression =>
      rw [text] at means
      exact ⟨callable.scope, expression, means⟩
    | operation returns params =>
      rw [text] at means
      exact means.elim
  | _ => cases exchanged

/-! ## Targets of declarators -/

end Outline

namespace Draft

variable {draft : Draft}

/-- Giving a typedef its type points its own declarator and no other. -/
theorem kind?_setAliasType_of_declarator {position : DeclId} {target : Option DeclId}
    (kind : draft.tree.kind? position = some (.declarator target)) (declarator : DeclId)
    (type : IdlType) :
    (draft.setAliasType declarator type).tree.kind? position =
      some (.declarator (if declarator = position then (draft.aliasOf type).or target
        else target)) := by
  have retyped : ∀ (pointed : Draft) (target : Option DeclId),
      pointed.tree.kind? position = some (.declarator target) →
      (pointed.setAliasedType declarator type).tree.kind? position =
        some (.declarator target) := by
    intro pointed target found
    rw [setAliasedType]
    split
    · exact found
    · rw [kind?_modifyKind, found]
      split <;> rfl
  rw [setAliasType]
  split
  · rename_i next names
    refine retyped _ _ ?_
    rw [setAlias, kind?_modifyKind, kind, names]
    split <;> rfl
  · rename_i nothing
    rw [nothing, Option.none_or, ite_self]
    exact retyped _ _ kind

end Draft

namespace Outline

variable {outline : Outline} {tree : DeclTree}

/-- Once the types of a table have been written, a declarator that the table answers stands for what
its meaning names. -/
theorem kind?_foldl_setAliasType_of_declarator (registered : outline.Registered)
    {table : AliasTable} (sound : outline.Sound table) {declarator : DeclId} {type : IdlType}
    (means : outline.Means (.typedef declarator) type) {draft : Draft}
    (index : draft.tree.index = outline.draft.tree.index) {target : Option DeclId}
    (kind : draft.tree.kind? declarator = some (.declarator target))
    (start : target = none ∨ target = outline.draft.tree.aliasOf type) :
    ∃ final, (table.foldl (fun draft entry => draft.setAliasType entry.1 entry.2)
        draft).tree.kind? declarator = some (.declarator final) ∧
      ((∃ answer, (declarator, answer) ∈ table) ∨ target = outline.draft.tree.aliasOf type →
        final = outline.draft.tree.aliasOf type) := by
  induction table generalizing draft target with
  | nil => exact ⟨target, kind, by simp⟩
  | cons entry table ih =>
    have soundRest : outline.Sound table := fun other listed =>
      sound other (List.mem_cons_of_mem _ listed)
    have indexNext : (draft.setAliasType entry.1 entry.2).tree.index = outline.draft.tree.index :=
      (DeclTree.index_of_unresolved (draft.unresolved_setAliasType entry.1 entry.2)).trans index
    have written := Draft.kind?_setAliasType_of_declarator kind entry.1 entry.2
    by_cases own : entry.1 = declarator
    · -- The entry holds the one meaning of the typedef.
      have first := sound entry List.mem_cons_self
      rw [own] at first
      have pointed : (draft.aliasOf entry.2).or target = outline.draft.tree.aliasOf type := by
        rw [means.unique registered first]
        have names : draft.aliasOf type = outline.draft.tree.aliasOf type := by
          cases type with
          | interface name =>
            rw [Draft.aliasOf, DeclTree.aliasOf, DeclTree.find?, DeclTree.find?, index]
          | _ => rfl
        rw [names]
        rcases start with rfl | rfl
        · exact Option.or_none
        · exact Option.or_self
      rw [if_pos own, pointed] at written
      obtain ⟨final, stored, holds⟩ := ih soundRest indexNext written (.inr rfl)
      exact ⟨final, stored, fun _ => holds (.inr rfl)⟩
    · rw [if_neg own] at written
      obtain ⟨final, stored, holds⟩ := ih soundRest indexNext written start
      refine ⟨final, stored, fun answered => holds ?_⟩
      rcases answered with ⟨answer, listed⟩ | same
      · rcases List.mem_cons.mp listed with here | later
        · exact absurd (congrArg Prod.fst here).symm own
        · exact .inl ⟨answer, later⟩
      · exact .inr same

/-- **A declarator stands for what the type of its typedef names.** -/
theorem Registered.kind?_eq_aliasOf (registered : outline.Registered)
    (resolved : outline.resolve = .ok tree) {entry : TypeAlias} (listed : entry ∈ outline.aliases)
    {type : IdlType} (means : outline.Means (.typedef entry.declarator) type) :
    tree.kind? entry.declarator = some (.declarator (tree.aliasOf type)) := by
  have same := unresolved_of_resolve resolved
  obtain ⟨table, types, bases, worked, -, -, rfl⟩ := resolve_eq_ok_iff.mp resolved
  obtain ⟨sound, answered⟩ := registered.aliasTable worked
  have declared := registered.kind?_introduced listed
  obtain ⟨final, stored, holds⟩ :=
    kind?_foldl_setAliasType_of_declarator registered sound means rfl declared (.inl rfl)
  rw [holds (.inl (answered entry listed))] at stored
  have kept : (outline.withBases table types bases).tree.kind? entry.declarator =
      some (.declarator (outline.draft.tree.aliasOf type)) := by
    refine eq_some_of_map_guard ?_ stored (show DeclKind.isDeclarator _ = true from rfl)
    rw [map_kind?_withBases _ (fun _ _ => rfl),
      map_kind?_withCallables _ (fun _ _ => rfl) (fun _ _ => rfl)]
    rfl
  rw [kept]
  cases type with
  | interface name => rw [DeclTree.aliasOf, DeclTree.aliasOf, DeclTree.find?_of_unresolved same]
  | _ => rfl

end Outline

/-! ## Resolving declarators -/

namespace DeclTree

variable {tree : DeclTree}

/-- A declarator that stands for nothing resolves to nothing. -/
theorem resolve?_eq_none {declarator : DeclId}
    (declared : tree.kind? declarator = some (.declarator none)) :
    tree.resolve? declarator = none := by
  rw [resolve?, follow, declared]

/-- **Resolving a declarator is resolving the name in its type.** The name leads to an interface or
to a forward declaration without target, so no chain is longer than that. -/
theorem resolve?_of_alias (indexed : tree.Indexed) (announced : tree.Announced)
    {declarator : DeclId} {name : ScopedName}
    (declared : tree.kind? declarator = some (.declarator (tree.find? name)))
    (object : tree.Names name DeclKind.isObject) :
    tree.resolve? declarator = (tree.find? name).bind tree.resolve? := by
  obtain ⟨target, kind, found, here, isObject⟩ := object
  have inhabited : ∃ smaller, tree.size = smaller + 1 := by
    obtain ⟨decl, isDecl, -⟩ := Option.map_eq_some_iff.mp declared
    have bound : declarator < tree.size := (Array.getElem?_eq_some_iff.mp isDecl).1
    exact ⟨tree.size - 1, (Nat.succ_pred_eq_of_pos (Nat.zero_lt_of_lt bound)).symm⟩
  obtain ⟨smaller, size⟩ := inhabited
  rw [found] at declared
  rw [found, Option.bind_some, resolve?, resolve?, follow, declared]
  cases kind with
  | interface parts => simp only [size, follow, here]
  | forward next =>
    cases indexed.target_of_find? announced found here
    simp only [size, follow, here]
  | _ => cases isObject

end DeclTree

/-- **Types in a loaded tree are closed, and declarators agree with their typedefs.** In every type
that a callable exchanges, each name leads to a declaration of the kind that the type says. Every
declarator has one typedef, and stands for the declaration that the name in its type leads to, or
for nothing if it is no object type. -/
theorem loaded_types_closed {document : String} {tree : DeclTree}
    (loaded : DeclTree.ofDocument document = .ok tree) :
    (∀ id kind, tree.kind? id = some kind → ∀ type ∈ kind.exchanged, tree.ClosesType type) ∧
      ∀ declarator target, tree.kind? declarator = some (.declarator target) →
        ∃ typedef aliased, tree.Owns typedef declarator aliased ∧
          (∀ name, aliased = .interface name → tree.Names name DeclKind.isObject ∧
            target = tree.find? name ∧
            tree.resolve? declarator = (tree.find? name).bind tree.resolve?) ∧
          ((∀ name, aliased ≠ .interface name) → target = none ∧
            tree.resolve? declarator = none) := by
  obtain ⟨nestedDraft, nested, drafted⟩ := DeclTree.nested_ofDocument loaded
  have built : tree.Built := ⟨nestedDraft, nested.built, drafted⟩
  simp only [DeclTree.ofDocument, bind_eq_ok_iff] at loaded
  obtain ⟨root, -, outline, read, resolved⟩ := loaded
  have registered := Outline.ofRoot_registers read
  have indexed := (Outline.nested_ofRoot read).built.indexed
  have same := Outline.unresolved_of_resolve resolved
  have stores := registered.stores resolved
  constructor
  · intro id kind stored type exchanged
    obtain ⟨scope, text, means⟩ := stores.exists_means stored exchanged
    exact means.closes registered indexed same stores fun _ isTypedef => by cases isTypedef
  · intro declarator target declared
    have before : ∃ old, outline.draft.tree.kind? declarator = some (.declarator old) := by
      have blank := DeclTree.map_kind?_of_unresolved same declarator
      rw [declared] at blank
      obtain ⟨kind, found, isDeclarator⟩ := Option.map_eq_some_iff.mp blank.symm
      cases kind with
      | declarator old => exact ⟨old, found⟩
      | _ => cases isDeclarator
    obtain ⟨old, wasDeclared⟩ := before
    obtain ⟨entry, listed, rfl⟩ := registered.exists_alias wasDeclared
    obtain ⟨type, means⟩ := (registered.meaningful resolved).aliases entry listed
    obtain ⟨typedef, owns⟩ := registered.owns same stores listed means
    have stands := registered.kind?_eq_aliasOf resolved listed means
    cases declared.symm.trans stands
    refine ⟨typedef, type, owns, ?_, ?_⟩
    · rintro name rfl
      have object : tree.Names name DeclKind.isObject :=
        means.closes registered indexed same stores fun _ _ isSequence => by cases isSequence
      exact ⟨object, rfl, DeclTree.resolve?_of_alias built.indexed built.announced stands object⟩
    · intro notObject
      have nothing : tree.aliasOf type = none := by
        cases type with
        | interface name => exact absurd rfl (notObject name)
        | _ => rfl
      rw [nothing] at stands ⊢
      exact ⟨rfl, DeclTree.resolve?_eq_none stands⟩

/-- A document in which an alias of an alias of an interface is the element of a sequence. All three
typedefs are declared behind their first use. -/
def chainedDocument : String :=
  "<tree file=\"a.idl\"><module name=\"m\"><interface name=\"I\">" ++
  "<operation name=\"all\" returns=\"Seq\"/></interface><typedef name=\"B\" type=\"A\"/>" ++
  "<typedef name=\"A\" type=\"I\"/><typedef name=\"Seq\" type=\"sequence&lt;B&gt;\"/>" ++
  "</module></tree>"

theorem chainedDocument_closed :
    ∃ tree, DeclTree.ofDocument chainedDocument = .ok tree ∧
      tree.ClosesType (.sequence ⟨["m", "Seq"]⟩ (.interface ⟨["m", "I"]⟩)) ∧
      (∃ typedef, tree.Owns typedef 4 (.interface ⟨["m", "I"]⟩)) ∧
      tree.resolve? 4 = (tree.find? ⟨["m", "I"]⟩).bind tree.resolve? := by
  have facts : ((DeclTree.ofDocument chainedDocument).toOption.map fun tree =>
      (tree.kind? 2, tree.kind? 3, tree.kind? 4)) =
      some (some (.operation ⟨.sequence ⟨["m", "Seq"]⟩ (.interface ⟨["m", "I"]⟩), []⟩),
        some (.typedef (.interface ⟨["m", "I"]⟩) [4]), some (.declarator (some 1))) := by
    decide +kernel
  cases loaded : DeclTree.ofDocument chainedDocument with
  | error cause =>
    rw [loaded] at facts
    cases facts
  | ok tree =>
    rw [loaded] at facts
    simp only [Except.toOption, Option.map_some, Option.some.injEq, Prod.mk.injEq] at facts
    obtain ⟨operation, introduced, declared⟩ := facts
    obtain ⟨closed, agree⟩ := loaded_types_closed loaded
    obtain ⟨typedef, aliased, owns, object, -⟩ := agree 4 _ declared
    have same := owns.only 3 _ _ introduced List.mem_cons_self
    subst same
    cases introduced.symm.trans owns.introduces
    exact ⟨tree, rfl, closed 2 _ operation _ List.mem_cons_self, ⟨3, owns⟩,
      (object _ rfl).2.2⟩

end IdlBridge
