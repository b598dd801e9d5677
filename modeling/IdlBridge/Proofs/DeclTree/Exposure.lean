import IdlBridge.DeclTree.Visits
import IdlBridge.Proofs.DeclTree.Placement
import Mathlib.Data.List.Nodup
import Mathlib.Logic.Relation

/-!
# Exposed interfaces

Going through a tree stops at a module of another file, so an interface of the main file is met only
if no module around it belongs to another file: it is exposed (`DeclTree.Exposed`). The interfaces
that are met are exactly the exposed ones, and each is met once (`Draft.Nested.mem_interfacesMet`,
`Draft.Nested.nodup_interfacesMet`).
-/

set_option autoImplicit false

namespace IdlBridge

/-- The interface that is met in a visit. -/
def Visit.interface? : Visit → Option DeclId
  | interface id => some id
  | _ => none

namespace DeclTree

/-- The interfaces that are met in going through the tree, in order. -/
def interfacesMet (tree : DeclTree) : List DeclId :=
  tree.visits.filterMap Visit.interface?

/-- The declaration stands in the module. -/
def InModule (tree : DeclTree) (member outer : DeclId) : Prop :=
  member ∈ tree.membersOf (some outer)

/-- The declaration belongs to the main file, and so does every module around it. -/
def Exposed (tree : DeclTree) (id : DeclId) : Prop :=
  ∀ outer, Relation.ReflTransGen tree.InModule id outer → tree.isLocal outer = true

/-- Going through the tree leads to the members of the place. -/
inductive Entered (tree : DeclTree) : Option DeclId → Prop
  | outermost : Entered tree none
  | module {place : Option DeclId} {id : DeclId} (entered : Entered tree place)
      (isMember : id ∈ tree.membersOf place) (isLocal : tree.isLocal id = true) :
      Entered tree (some id)

variable {tree : DeclTree}

/-! ## Modules around a declaration -/

theorem Placed.rightUnique (placed : tree.Placed) : Relator.RightUnique tree.InModule := by
  intro member outer other inside within
  exact Option.some.inj (placed.unique member (some outer) (some other) inside within)

/-- What is around a declaration was declared before it. -/
theorem Listed.le_of_around (listed : tree.Listed) {id outer : DeclId}
    (around : Relation.ReflTransGen tree.InModule id outer) : outer ≤ id := by
  induction around with
  | refl => exact Nat.le_refl _
  | @tail middle outer _ inside before =>
    have later : outer < middle := (listed (some outer) middle inside).2 outer rfl
    exact Nat.le_of_lt (Nat.lt_of_lt_of_le later before)

/-- Of two members of one place, none is around the other. -/
theorem Placed.eq_of_around (placed : tree.Placed) (listed : tree.Listed)
    {place : Option DeclId} {first second : DeclId} (here : first ∈ tree.membersOf place)
    (there : second ∈ tree.membersOf place)
    (around : Relation.ReflTransGen tree.InModule first second) : first = second := by
  rcases Relation.ReflTransGen.cases_head around with same | ⟨outer, inside, beyond⟩
  · exact same
  · -- The module around the first is the place of both, but the second is around that module.
    obtain rfl := placed.unique first place (some outer) here inside
    have later : outer < second := (listed (some outer) second there).2 outer rfl
    exact absurd (listed.le_of_around beyond) (Nat.not_le_of_lt later)

theorem Entered.isLocal_of_around (placed : tree.Placed) {place : Option DeclId}
    (entered : tree.Entered place) :
    ∀ id ∈ place, ∀ outer, Relation.ReflTransGen tree.InModule id outer →
      tree.isLocal outer = true := by
  induction entered with
  | outermost => exact fun _ isPlace => nomatch isPlace
  | @module place id _ isMember isLocal ih =>
    rintro _ ⟨⟩ outer around
    rcases Relation.ReflTransGen.cases_head around with rfl | ⟨middle, inside, beyond⟩
    · exact isLocal
    · obtain rfl := placed.unique id place (some middle) isMember inside
      exact ih middle rfl outer beyond

theorem isPlaced_of_inModule {member outer : DeclId}
    (inside : tree.InModule member outer) : tree.isPlaced outer = true := by
  rw [InModule, membersOf] at inside
  rw [isPlaced]
  cases found : tree.kind? outer with
  | none => simp [found] at inside
  | some kind =>
    cases kind with
    | module members => rfl
    | _ => simp [found, DeclKind.members] at inside

theorem isPlaced_of_isInterface {id : DeclId} (isInterface : tree.isInterface id = true) :
    tree.isPlaced id = true := by
  rw [DeclTree.isInterface, interface?] at isInterface
  rw [isPlaced, kind?]
  cases found : tree.decl? id with
  | none => simp [found] at isInterface
  | some decl =>
    rw [found, Option.bind_some] at isInterface
    cases kind : decl.kind with
    | interface parts => simp [kind, DeclKind.isPlaced, DeclKind.isInterface]
    | _ => simp [Decl.interface?, kind] at isInterface

/-- Exposed modules and interfaces stand in places that are entered. -/
theorem Placed.entered_of_exposed (placed : tree.Placed) (listed : tree.Listed) (id : DeclId)
    (isPlaced : tree.isPlaced id = true) (exposed : tree.Exposed id) :
    ∃ place, tree.Entered place ∧ id ∈ tree.membersOf place := by
  -- The place of a declaration was declared before it.
  induction id using Nat.strongRecOn with
  | _ id ih =>
    obtain ⟨place, isMember⟩ := placed.listed id isPlaced
    cases place with
    | none => exact ⟨none, .outermost, isMember⟩
    | some outer =>
      have inside : tree.InModule id outer := isMember
      have later : outer < id := (listed (some outer) id isMember).2 outer rfl
      have outerExposed : tree.Exposed outer := fun beyond around =>
        exposed beyond (.head inside around)
      obtain ⟨place, entered, outerMember⟩ :=
        ih outer later (isPlaced_of_inModule inside) outerExposed
      exact ⟨some outer, .module entered outerMember (outerExposed outer .refl), isMember⟩

/-- A declaration is exposed if it is local and stands in a place that is entered. -/
theorem Entered.exposed (placed : tree.Placed) {place : Option DeclId}
    (entered : tree.Entered place) {id : DeclId} (isMember : id ∈ tree.membersOf place)
    (isLocal : tree.isLocal id = true) : tree.Exposed id :=
  (Entered.module entered isMember isLocal).isLocal_of_around placed id rfl

/-! ## Interfaces that are met -/

/-- The interfaces that are met in going through the given declarations. -/
def metIn (tree : DeclTree) (depth : Nat) (ids : List DeclId) : List DeclId :=
  (tree.visitsOf depth ids).filterMap Visit.interface?

/-- The interfaces that are met in going through one declaration. -/
def metAt (tree : DeclTree) (depth : Nat) (id : DeclId) : List DeclId :=
  if tree.isLocal id then
    (if tree.isInterface id then [id] else []) ++ tree.metIn depth (tree.membersOf (some id))
  else []

theorem metIn_nil (tree : DeclTree) (depth : Nat) : tree.metIn depth [] = [] := by
  cases depth <;> rfl

theorem metIn_succ (tree : DeclTree) (depth : Nat) (ids : List DeclId) :
    tree.metIn (depth + 1) ids = ids.flatMap (tree.metAt depth) := by
  rw [metIn, visitsOf, List.filterMap_flatMap]
  refine List.flatMap_congr fun id _ => ?_
  rw [metAt, isLocal, isInterface, interface?, membersOf, kind?]
  cases tree.decl? id with
  | none => rfl
  | some decl =>
    simp only [Option.any_some, Option.bind_some, Option.map_some, Option.getD_some]
    by_cases isLocal : decl.file == tree.file
    · rw [if_pos isLocal, if_pos isLocal]
      cases kind : decl.kind with
      | module members =>
        have inside : (Visit.enter decl.name :: tree.visitsOf depth members ++ [Visit.leave]).filterMap
            Visit.interface? = tree.metIn depth members := by
          rw [List.cons_append, List.filterMap_cons_none rfl, List.filterMap_append]
          exact List.append_nil _
        simpa [Decl.interface?, kind, DeclKind.members] using inside
      | _ => simp [Decl.interface?, kind, DeclKind.members, metIn_nil, Visit.interface?]
    · rw [if_neg isLocal, if_neg isLocal]
      rfl

theorem mem_metAt {depth : Nat} {id met : DeclId} :
    met ∈ tree.metAt depth id ↔ tree.isLocal id = true ∧
      (met = id ∧ tree.isInterface id = true ∨
        met ∈ tree.metIn depth (tree.membersOf (some id))) := by
  rw [metAt]
  cases tree.isLocal id <;> cases tree.isInterface id <;> simp

/-- An interface lists no declarations that are gone through. -/
theorem membersOf_of_isInterface {id : DeclId} (isInterface : tree.isInterface id = true) :
    tree.membersOf (some id) = [] := by
  rw [DeclTree.isInterface, interface?] at isInterface
  rw [membersOf, kind?]
  cases found : tree.decl? id with
  | none => rfl
  | some decl =>
    rw [found, Option.bind_some] at isInterface
    cases kind : decl.kind with
    | module members => simp [Decl.interface?, kind] at isInterface
    | _ => simp [kind, DeclKind.members]

/-- What is met in going through a declaration is inside it. -/
theorem around_of_met {depth : Nat} {id met : DeclId} (isMet : met ∈ tree.metAt depth id) :
    Relation.ReflTransGen tree.InModule met id := by
  induction depth generalizing id with
  | zero =>
    rcases (mem_metAt.mp isMet).2 with ⟨rfl, -⟩ | inside
    · exact .refl
    · cases inside
  | succ depth ih =>
    rcases (mem_metAt.mp isMet).2 with ⟨rfl, -⟩ | inside
    · exact .refl
    · rw [metIn_succ, List.mem_flatMap] at inside
      obtain ⟨member, isMember, isMet⟩ := inside
      exact (ih isMet).tail isMember

/-- What is met in an entered place is an interface of the main file in such a place. -/
theorem Entered.of_met {depth : Nat} {place : Option DeclId} {ids : List DeclId} {met : DeclId}
    (entered : tree.Entered place) (members : ids ⊆ tree.membersOf place)
    (isMet : met ∈ tree.metIn depth ids) :
    tree.isInterface met = true ∧ tree.isLocal met = true ∧
      ∃ place, tree.Entered place ∧ met ∈ tree.membersOf place := by
  induction depth generalizing place ids with
  | zero => cases isMet
  | succ depth ih =>
    rw [metIn_succ, List.mem_flatMap] at isMet
    obtain ⟨top, listed, isMet⟩ := isMet
    obtain ⟨isLocal, either⟩ := mem_metAt.mp isMet
    rcases either with ⟨rfl, isInterface⟩ | inside
    · exact ⟨isInterface, isLocal, place, entered, members listed⟩
    · exact ih (.module entered (members listed) isLocal) (List.Subset.refl _) inside

/-- Depth that is enough for a module leaves enough for its members, which come later. -/
theorem Listed.size_le_inside (listed : tree.Listed) {id : DeclId} {depth : Nat}
    (enough : tree.size ≤ id + (depth + 1)) :
    ∀ member ∈ tree.membersOf (some id), tree.size ≤ member + depth := by
  intro member inside
  have later : id + 1 ≤ member := (listed (some id) member inside).2 id rfl
  calc tree.size ≤ id + (depth + 1) := enough
    _ = id + 1 + depth := by rw [Nat.add_right_comm, Nat.add_assoc]
    _ ≤ member + depth := Nat.add_le_add_right later depth

/-- An entered place is gone through with enough depth left for everything in it. -/
theorem Entered.metIn_subset (listed : tree.Listed) {place : Option DeclId}
    (entered : tree.Entered place) :
    ∃ depth, (∀ member ∈ tree.membersOf place, tree.size ≤ member + depth) ∧
      tree.metIn depth (tree.membersOf place) ⊆ tree.interfacesMet := by
  induction entered with
  | outermost =>
    refine ⟨tree.size + 1, fun member _ => ?_, List.Subset.refl _⟩
    omega
  | @module place id _ isMember isLocal ih =>
    obtain ⟨depth, enough, met⟩ := ih
    have bound := enough id isMember
    obtain ⟨⟨decl, found, -⟩, -⟩ := listed place id isMember
    have declared : id < tree.size := (Array.getElem?_eq_some_iff.mp found).1
    cases depth with
    | zero => exact absurd bound (Nat.not_le_of_lt declared)
    | succ depth =>
      refine ⟨depth, listed.size_le_inside bound, fun interface isMet => ?_⟩
      apply met
      rw [metIn_succ, List.mem_flatMap]
      exact ⟨id, isMember, mem_metAt.mpr ⟨isLocal, .inr isMet⟩⟩

/-- Everything is met once. -/
theorem Placed.nodup_metIn (placed : tree.Placed) (listed : tree.Listed) (depth : Nat)
    (place : Option DeclId) {ids : List DeclId} (distinct : ids.Nodup)
    (members : ids ⊆ tree.membersOf place) : (tree.metIn depth ids).Nodup := by
  induction depth generalizing place ids with
  | zero => exact List.nodup_nil
  | succ depth ih =>
    rw [metIn_succ, List.nodup_flatMap]
    constructor
    · intro id _
      have inside := ih (some id) (placed.nodup (some id)) (List.Subset.refl _)
      rw [metAt]
      split
      · split
        · rename_i isInterface
          rw [membersOf_of_isInterface isInterface, metIn_nil, List.append_nil]
          exact List.pairwise_singleton _ _
        · exact inside
      · exact List.nodup_nil
    · refine distinct.imp_of_mem fun {first second} here there different => ?_
      intro met inFirst inSecond
      apply different
      -- Both are around what is met in both, so one is around the other.
      rcases Relation.ReflTransGen.total_of_right_unique placed.rightUnique
        (around_of_met inFirst) (around_of_met inSecond) with around | around
      · exact placed.eq_of_around listed (members here) (members there) around
      · exact (placed.eq_of_around listed (members there) (members here) around).symm

end DeclTree

namespace Draft.Nested

variable {draft : Draft}

/-- **The interfaces that are met are the exposed ones.** -/
theorem mem_interfacesMet (nested : draft.Nested) {id : DeclId} :
    id ∈ draft.tree.interfacesMet ↔ draft.tree.isInterface id = true ∧ draft.tree.Exposed id := by
  have placed := nested.placed
  have listed := nested.built.listed
  constructor
  · intro isMet
    obtain ⟨isInterface, isLocal, place, entered, isMember⟩ :=
      DeclTree.Entered.of_met .outermost (List.Subset.refl _) isMet
    exact ⟨isInterface, entered.exposed placed isMember isLocal⟩
  · rintro ⟨isInterface, exposed⟩
    have isPlaced := DeclTree.isPlaced_of_isInterface isInterface
    obtain ⟨place, entered, isMember⟩ := placed.entered_of_exposed listed id isPlaced exposed
    obtain ⟨depth, enough, met⟩ := entered.metIn_subset listed
    have bound := enough id isMember
    have declared : id < draft.tree.size := Draft.lt_nextId_of_listed listed isMember
    cases depth with
    | zero => exact absurd bound (Nat.not_le_of_lt declared)
    | succ depth =>
      apply met
      rw [DeclTree.metIn_succ, List.mem_flatMap]
      exact ⟨id, isMember, DeclTree.mem_metAt.mpr ⟨exposed id .refl, .inl ⟨rfl, isInterface⟩⟩⟩

/-- **Each interface is met once.** -/
theorem nodup_interfacesMet (nested : draft.Nested) : draft.tree.interfacesMet.Nodup :=
  nested.placed.nodup_metIn nested.built.listed _ none (nested.placed.nodup none)
    (List.Subset.refl _)

end Draft.Nested

end IdlBridge
