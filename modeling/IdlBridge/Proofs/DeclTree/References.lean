import IdlBridge.Proofs.DeclTree.Linearization
import IdlBridge.Proofs.DeclTree.Walk

/-!
# References inside a tree

A tree mentions declarations by number: as outermost declarations, as members of modules and
interfaces, as bases, targets and declarators, and in its index (`DeclTree.mentions`). An edit can
be asked to name only numbers that the draft has handed out before. In a tree that is built in that
way every mentioned number belongs to a declaration (`Draft.Handed.mentionsBelow`), so whatever is
looked up while going through the tree is there.

The bound is kept apart from the size of the tree, because a typedef mentions its declarator before
that is appended.
-/

set_option autoImplicit false

namespace IdlBridge

/-! ## Numbers in a tree -/

/-- The declarations that a declaration mentions. -/
def DeclKind.mentions : DeclKind → List DeclId
  | module members => members
  | interface parts => parts.bases ++ parts.callables ++ parts.contents
  | forward target | declarator target => target.toList
  | typedef _ declarators => declarators
  | enum _ | operation _ | attributes _ => []

namespace DeclTree

variable {tree : DeclTree} {bound : Nat}

/-- The declarations that a tree mentions. -/
def mentions (tree : DeclTree) : List DeclId :=
  tree.declarations ++ tree.decls.toList.flatMap (·.kind.mentions) ++ tree.index.map (·.2)

/-- Everything that is mentioned lies below the bound. -/
def MentionsBelow (tree : DeclTree) (bound : Nat) : Prop :=
  ∀ id ∈ tree.mentions, id < bound

theorem mem_mentions {id : DeclId} :
    id ∈ tree.mentions ↔ id ∈ tree.declarations ∨
      (∃ decl ∈ tree.decls, id ∈ decl.kind.mentions) ∨ ∃ entry ∈ tree.index, entry.2 = id := by
  simp only [mentions, List.mem_append, List.mem_flatMap, List.mem_map, Array.mem_toList_iff,
    or_assoc]

theorem mem_mentions_of_kind? {position id : DeclId} {kind : DeclKind}
    (found : tree.kind? position = some kind) (mentioned : id ∈ kind.mentions) :
    id ∈ tree.mentions := by
  obtain ⟨decl, here, rfl⟩ := Option.map_eq_some_iff.mp found
  exact mem_mentions.mpr (.inr (.inl ⟨decl, Array.mem_of_getElem? here, mentioned⟩))

theorem mem_mentions_of_find? {name : ScopedName} {id : DeclId}
    (found : tree.find? name = some id) : id ∈ tree.mentions := by
  obtain ⟨before, after, split, -⟩ := List.lookup_eq_some_iff.mp found
  exact mem_mentions.mpr (.inr (.inr ⟨(name, id), by simp [split], rfl⟩))

theorem MentionsBelow.mono {larger : Nat} (below : tree.MentionsBelow bound)
    (grows : bound ≤ larger) : tree.MentionsBelow larger :=
  fun id mentioned => Nat.lt_of_lt_of_le (below id mentioned) grows

end DeclTree

/-! ## Edits that name what has been handed out -/

/-- The declarations that an edit names. -/
def Edit.named : Edit → List DeclId
  | setAlias declarator target => [declarator, target]
  | setAliasedType declarator _ => [declarator]
  | addBase interface base => [interface, base]
  | addPragma interface _ => [interface]
  | setOperation id _ | setAttributeType id _ => [id]
  | edit => edit.parent?.toList

theorem Edit.mem_named_of_parent? {edit : Edit} {id : DeclId} (isParent : id ∈ edit.parent?) :
    id ∈ edit.named := by
  cases edit with
  | setAlias | setAliasedType | addBase | addPragma | setOperation | setAttributeType =>
    cases isParent
  | _ => exact Option.mem_toList.mpr isParent

namespace Draft

/-- The draft can be reached by edits that name only numbers it has handed out. -/
inductive Handed : Draft → Prop
  | empty (file : String) : Handed (.empty file)
  | edit {draft : Draft} (handed : Handed draft) (edit : Edit)
      (known : ∀ id ∈ edit.named, id < draft.nextId) : Handed (edit.apply draft)

theorem Handed.built {draft : Draft} (handed : draft.Handed) : draft.Built := by
  induction handed with
  | empty file => exact .empty file
  | edit _ edit known built =>
    exact .edit built edit fun id isParent => known id (Edit.mem_named_of_parent? isParent)

variable {draft : Draft} {bound : Nat}

theorem mentionsBelow_modifyKind (below : draft.tree.MentionsBelow bound) {id : DeclId}
    {change : DeclKind → DeclKind}
    (adds : ∀ kind, ∀ other ∈ (change kind).mentions, other ∈ kind.mentions ∨ other < bound) :
    (draft.modifyKind id change).tree.MentionsBelow bound := by
  intro other mentioned
  rcases DeclTree.mem_mentions.mp mentioned with outermost | ⟨decl, isDecl, inside⟩ | indexed
  · exact below other (DeclTree.mem_mentions.mpr (.inl outermost))
  · obtain ⟨position, here⟩ := Array.mem_iff_getElem?.mp isDecl
    have kind : (draft.modifyKind id change).tree.kind? position = some decl.kind := by
      rw [DeclTree.kind?, DeclTree.decl?, here]
      rfl
    rw [kind?_modifyKind] at kind
    split at kind
    · obtain ⟨old, found, changed⟩ := Option.map_eq_some_iff.mp kind
      rw [← changed] at inside
      rcases adds old other inside with before | new
      · exact below other (DeclTree.mem_mentions_of_kind? found before)
      · exact new
    · exact below other (DeclTree.mem_mentions_of_kind? kind inside)
  · exact below other (DeclTree.mem_mentions.mpr (.inr (.inr indexed)))

theorem mentionsBelow_append (below : draft.tree.MentionsBelow bound) (parent : Option DeclId)
    (name : String) {kind : DeclKind} (new : ∀ id ∈ kind.mentions, id < bound) :
    (draft.append parent name kind).tree.MentionsBelow bound := by
  intro id mentioned
  rcases DeclTree.mem_mentions.mp mentioned with outermost | ⟨decl, isDecl, inside⟩ | indexed
  · exact below id (DeclTree.mem_mentions.mpr (.inl outermost))
  · rcases Array.mem_push.mp isDecl with old | rfl
    · exact below id (DeclTree.mem_mentions.mpr (.inr (.inl ⟨decl, old, inside⟩)))
    · exact new id inside
  · exact below id (DeclTree.mem_mentions.mpr (.inr (.inr indexed)))

theorem mentionsBelow_listUnder (below : draft.tree.MentionsBelow bound) (parent : Option DeclId)
    {member : DeclId} (known : member < bound) (callable : Bool) :
    (draft.listUnder parent member callable).tree.MentionsBelow bound := by
  cases parent with
  | none =>
    intro id mentioned
    rcases DeclTree.mem_mentions.mp mentioned with outermost | rest
    · rcases List.mem_append.mp outermost with old | new
      · exact below id (DeclTree.mem_mentions.mpr (.inl old))
      · exact List.mem_singleton.mp new ▸ known
    · exact below id (DeclTree.mem_mentions.mpr (.inr rest))
  | some id =>
    refine mentionsBelow_modifyKind below fun kind other mentioned => ?_
    cases kind with
    | module members =>
      rcases List.mem_append.mp mentioned with old | new
      · exact .inl old
      · exact .inr (List.mem_singleton.mp new ▸ known)
    | interface parts =>
      have listed : other ∈ (DeclKind.interface parts).mentions ∨ other = member := by
        cases callable <;>
          simp only [DeclKind.listMember, DeclKind.mentions, List.mem_append, if_true, if_false,
            List.mem_singleton, Bool.false_eq_true] at mentioned ⊢ <;> tauto
      rcases listed with old | rfl
      · exact .inl old
      · exact .inr known
    | _ => exact .inl mentioned

theorem mentionsBelow_enterName (below : draft.tree.MentionsBelow bound) {id : DeclId}
    (known : id < bound) : (draft.enterName id).tree.MentionsBelow bound := by
  rw [enterName]
  split
  · exact below
  · split
    · intro other mentioned
      rcases DeclTree.mem_mentions.mp mentioned with outermost | inside | ⟨entry, listed, rfl⟩
      · exact below other (DeclTree.mem_mentions.mpr (.inl outermost))
      · exact below other (DeclTree.mem_mentions.mpr (.inr (.inl inside)))
      · rcases List.mem_cons.mp listed with rfl | old
        · exact known
        · exact below _ (DeclTree.mem_mentions.mpr (.inr (.inr ⟨entry, old, rfl⟩)))
    · exact below

theorem mentionsBelow_add (below : draft.tree.MentionsBelow bound) (next : draft.nextId < bound)
    (parent : Option DeclId) (name : String) {kind : DeclKind}
    (new : ∀ id ∈ kind.mentions, id < bound) :
    (draft.add parent name kind).tree.MentionsBelow bound :=
  mentionsBelow_enterName
    (mentionsBelow_listUnder (mentionsBelow_append below parent name new) parent next _) next

/-- An interface is mentioned by the forward declarations that announced it. -/
theorem mentionsBelow_addInterface (below : draft.tree.MentionsBelow bound)
    (next : draft.nextId < bound) (parent : Option DeclId) (name : String) :
    (draft.addInterface parent name).tree.MentionsBelow bound := by
  have added := mentionsBelow_add below next parent name
    (show ∀ id ∈ (DeclKind.interface .empty).mentions, id < bound from
      fun id empty => by cases empty)
  intro id mentioned
  rcases DeclTree.mem_mentions.mp mentioned with outermost | ⟨decl, isDecl, inside⟩ | indexed
  · exact added id (DeclTree.mem_mentions.mpr (.inl outermost))
  · obtain ⟨old, isOld, rfl⟩ := Array.mem_map.mp isDecl
    have kept : id ∈ old.kind.mentions → id < bound := fun before =>
      added id (DeclTree.mem_mentions.mpr (.inr (.inl ⟨old, isOld, before⟩)))
    split at inside
    · cases kind : old.kind with
      | forward target =>
        cases target with
        | none =>
          simp only [kind, DeclKind.announce, DeclKind.mentions, Option.toList_some,
            List.mem_singleton] at inside
          exact inside ▸ next
        | some target =>
          rw [kind] at inside kept
          exact kept inside
      | _ =>
        rw [kind] at inside kept
        exact kept inside
    · exact kept inside
  · exact added id (DeclTree.mem_mentions.mpr (.inr (.inr indexed)))

/-- **Everything that a tree mentions is there**, if edits name only what has been handed out. -/
theorem Handed.mentionsBelow (handed : draft.Handed) :
    draft.tree.MentionsBelow draft.tree.size := by
  induction handed with
  | empty file =>
    intro id mentioned
    simp [DeclTree.mentions, Draft.empty, DeclTree.empty] at mentioned
  | @edit draft handed edit known ih =>
    have found : ∀ (name : ScopedName) (id : DeclId), draft.tree.find? name = some id →
        id < draft.nextId := fun name id isFound => ih id (DeclTree.mem_mentions_of_find? isFound)
    have added : ∀ (parent : Option DeclId) (name : String) (kind : DeclKind),
        (∀ id ∈ kind.mentions, id < draft.nextId) →
        (draft.add parent name kind).tree.MentionsBelow (draft.add parent name kind).tree.size := by
      intro parent name kind new
      rw [size_add]
      exact mentionsBelow_add (ih.mono (Nat.le_succ _)) (Nat.lt_succ_self _) parent name
        fun id mentioned => Nat.lt_succ_of_lt (new id mentioned)
    have changed : ∀ (id : DeclId) (change : DeclKind → DeclKind),
        (∀ kind, ∀ other ∈ (change kind).mentions, other ∈ kind.mentions ∨ other < draft.nextId) →
        (draft.modifyKind id change).tree.MentionsBelow (draft.modifyKind id change).tree.size := by
      intro id change adds
      rw [size_modifyKind]
      exact mentionsBelow_modifyKind ih adds
    cases edit with
    | setFilename | setFile => exact ih
    | addModule parent name => exact added parent name _ fun id empty => by cases empty
    | addEnum parent name enumerators => exact added parent name _ fun id empty => by cases empty
    | addOperation interface name signature =>
      exact added _ name _ fun id empty => by cases empty
    | addAttributes interface group => exact added _ _ _ fun id empty => by cases empty
    | addForward parent name =>
      refine added parent name _ fun id mentioned => ?_
      have isTarget := Option.mem_toList.mp mentioned
      exact found _ id (Option.filter_eq_some_iff.mp isTarget).1
    | addInterface parent name =>
      rw [Edit.apply, size_addInterface]
      exact mentionsBelow_addInterface (ih.mono (Nat.le_succ _)) (Nat.lt_succ_self _) parent name
    | addTypedef parent name aliased =>
      rw [Edit.apply, size_addTypedef]
      have typedef := mentionsBelow_add (ih.mono (Nat.le_add_right _ 2))
        (Nat.lt_add_of_pos_right (Nat.zero_lt_succ 1)) parent name
        (show ∀ id ∈ (DeclKind.typedef aliased [draft.nextDeclarator]).mentions,
          id < draft.nextId + 2 from fun id mentioned =>
            List.mem_singleton.mp mentioned ▸ Nat.lt_succ_self _)
      refine mentionsBelow_enterName
        (mentionsBelow_append typedef parent name fun id mentioned => ?_)
        (Nat.lt_succ_self _)
      have isTarget := Option.mem_toList.mp mentioned
      cases aliased with
      | interface name => exact Nat.lt_succ_of_lt (Nat.lt_succ_of_lt (found name id isTarget))
      | _ => cases isTarget
    | setAlias declarator target =>
      refine changed _ _ fun kind other mentioned => ?_
      cases kind with
      | declarator old =>
        exact .inr (List.mem_singleton.mp mentioned ▸ known target (by simp [Edit.named]))
      | _ => exact .inl mentioned
    | addBase interface base =>
      refine changed _ _ fun kind other mentioned => ?_
      cases kind with
      | interface parts =>
        simp only [DeclKind.mentions, List.mem_append, List.mem_singleton] at mentioned ⊢
        rcases mentioned with ((old | rfl) | callable) | content
        · exact .inl (.inl (.inl old))
        · exact .inr (known other (by simp [Edit.named]))
        · exact .inl (.inl (.inr callable))
        · exact .inl (.inr content)
      | _ => exact .inl mentioned
    | setAliasedType declarator type =>
      rw [Edit.apply, setAliasedType]
      split
      · exact ih
      · refine changed _ _ fun kind other mentioned => .inl ?_
        cases kind <;> exact mentioned
    | addPragma | setOperation | setAttributeType =>
      refine changed _ _ fun kind other mentioned => .inl ?_
      cases kind <;> exact mentioned

end Draft

end IdlBridge
