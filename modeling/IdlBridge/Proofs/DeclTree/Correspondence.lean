import IdlBridge.Proofs.DeclTree.Linearization

/-!
# Corresponding interfaces

Two trees may hold the same interfaces under different numbers. If the interfaces correspond one to
one and the bases of corresponding interfaces correspond in their order (`DeclTree.Corresponds`),
linearization finds corresponding interfaces in the same order (`Corresponds.linearize`). Which
numbers are still undiscovered differs on both sides, also in number, but corresponding interfaces
are always undiscovered together (`Tracks`).
-/

set_option autoImplicit false

namespace IdlBridge.DeclTree

/-- A one-to-one correspondence between interfaces of two trees that keeps their bases. -/
structure Corresponds (tree other : DeclTree) (same : DeclId → DeclId → Prop) : Prop where
  functional : ∀ {id otherId third}, same id otherId → same id third → third = otherId
  injective : ∀ {id third otherId}, same id otherId → same third otherId → third = id
  resolved : ∀ {id otherId}, same id otherId →
    tree.resolve? id = some id ∧ other.resolve? otherId = some otherId
  bases : ∀ {id otherId}, same id otherId →
    List.Forall₂ same (tree.resolvedBases id) (other.resolvedBases otherId)

/-- Corresponding numbers are undiscovered together. -/
structure Tracks (same : DeclId → DeclId → Prop) (undiscovered others : List DeclId) : Prop where
  nodup : undiscovered.Nodup
  othersNodup : others.Nodup
  together : ∀ {id otherId}, same id otherId → (id ∈ undiscovered ↔ otherId ∈ others)

namespace Corresponds

variable {tree other : DeclTree} {same : DeclId → DeclId → Prop}

/-- Discovering one of two corresponding numbers is discovering the other. -/
theorem tracks_erase (corresponds : tree.Corresponds other same) {undiscovered others : List DeclId}
    (tracks : Tracks same undiscovered others) {id otherId : DeclId} (paired : same id otherId) :
    Tracks same (undiscovered.erase id) (others.erase otherId) where
  nodup := tracks.nodup.erase id
  othersNodup := tracks.othersNodup.erase otherId
  together := by
    intro first second alsoPaired
    have apart : first ≠ id ↔ second ≠ otherId := by
      refine not_congr ⟨?_, ?_⟩
      · rintro rfl
        exact corresponds.functional paired alsoPaired
      · rintro rfl
        exact corresponds.injective paired alsoPaired
    rw [tracks.nodup.mem_erase_iff, tracks.othersNodup.mem_erase_iff, apart,
      tracks.together alsoPaired]

/-- From corresponding numbers, corresponding ones are discovered. -/
theorem discover (corresponds : tree.Corresponds other same) {ids otherIds : List DeclId}
    (paired : List.Forall₂ same ids otherIds) {undiscovered others : List DeclId}
    (tracks : Tracks same undiscovered others) :
    List.Forall₂ same (DeclTree.discover undiscovered ids).1 (DeclTree.discover others otherIds).1 ∧
      Tracks same (DeclTree.discover undiscovered ids).2 (DeclTree.discover others otherIds).2 := by
  induction paired generalizing undiscovered others with
  | nil => exact ⟨.nil, tracks⟩
  | @cons id otherId ids otherIds first _ ih =>
    by_cases fresh : id ∈ undiscovered
    · have otherFresh := (tracks.together first).mp fresh
      obtain ⟨found, rest⟩ := ih (corresponds.tracks_erase tracks first)
      rw [DeclTree.discover, DeclTree.discover, if_pos fresh, if_pos otherFresh]
      exact ⟨.cons first found, rest⟩
    · have otherKnown : otherId ∉ others := fun listed => fresh ((tracks.together first).mpr listed)
      rw [DeclTree.discover, DeclTree.discover, if_neg fresh, if_neg otherKnown]
      exact ih tracks

/-- From corresponding stacks, the searches find corresponding interfaces. -/
theorem search (corresponds : tree.Corresponds other same) {undiscovered stack : List DeclId} :
    ∀ {others otherStack : List DeclId}, Tracks same undiscovered others →
      List.Forall₂ same stack otherStack →
      List.Forall₂ same (tree.search undiscovered stack) (other.search others otherStack) := by
  fun_induction DeclTree.search tree undiscovered stack with
  | case1 undiscovered =>
    intro others otherStack _ paired
    cases paired
    rw [DeclTree.search]
    exact .nil
  | case2 undiscovered id stack ih =>
    intro others otherStack tracks paired
    cases paired with
    | cons first rest =>
      obtain ⟨found, later⟩ := corresponds.discover (corresponds.bases first) tracks
      rw [DeclTree.search]
      exact List.rel_append found (ih later (List.rel_append (List.rel_reverse found) rest))

/-- **Corresponding interfaces derive from corresponding interfaces, in the same order.** -/
theorem linearize (corresponds : tree.Corresponds other same) {id otherId : DeclId}
    (paired : same id otherId) :
    List.Forall₂ same (tree.linearize id) (other.linearize otherId) := by
  obtain ⟨own, otherOwn⟩ := corresponds.resolved paired
  have all : Tracks same tree.ids other.ids := by
    refine ⟨List.nodup_range, List.nodup_range, fun alsoPaired => ?_⟩
    obtain ⟨isInterface, otherInterface⟩ := corresponds.resolved alsoPaired
    exact iff_of_true
      (List.mem_range.mpr (lt_size_of_isInterface (isInterface_of_follow isInterface)))
      (List.mem_range.mpr (lt_size_of_isInterface (isInterface_of_follow otherInterface)))
  rw [linearize_of_resolve? own, linearize_of_resolve? otherOwn]
  exact .cons paired (corresponds.search (corresponds.tracks_erase all paired) (.cons paired .nil))

end Corresponds

end IdlBridge.DeclTree
