import IdlBridge.DeclTree.Inheritance
import Mathlib.Data.List.Nodup
import Mathlib.Data.List.Perm.Subperm
import Mathlib.Logic.Relation

/-!
# Linearization finds what can be reached

The search behind `linearize` walks over any graph of bases, with cycles, diamonds and bases that
lead nowhere. Its step splits the bases of one interface off from what is still undiscovered
(`discover_perm`, `mem_discover`), and three facts follow along the search. What it lists is
different and was undiscovered (`search_subperm`). Whatever it lists is a base of something that
was on the stack or listed before (`search_derived`). And no base is left behind: an undiscovered
base of a listed interface is listed itself (`search_closed`).

Together they give that `linearize` lists exactly the interfaces that can be reached along direct
bases, each once and behind something that derives from it (`isLinearization_linearize`).
-/

set_option autoImplicit false

namespace IdlBridge.DeclTree

variable {tree : DeclTree}

/-- The class of one interface has the other among its direct bases, whichever way it inherits. -/
def HasBase (tree : DeclTree) (root : ScopedName) (derived base : DeclId) : Prop :=
  ∃ inheritance, (base, inheritance) ∈ tree.edges root derived

/-- Which interfaces are direct bases does not depend on the root interface. -/
theorem hasBase_iff {root : ScopedName} {derived base : DeclId} :
    tree.HasBase root derived base ↔ base ∈ tree.resolvedBases derived := by
  rw [HasBase, edges, resolvedBases]
  cases tree.interface? derived with
  | none => simp
  | some parts =>
    simp only [List.mem_filterMap, Option.map_eq_some_iff, Prod.mk.injEq]
    constructor
    · rintro ⟨_, written, listed, _, resolved, rfl, _⟩
      exact ⟨written, listed, resolved⟩
    · rintro ⟨written, listed, resolved⟩
      exact ⟨_, written, listed, base, resolved, rfl, rfl⟩

/-- An order in which an interface and everything it derives from can be listed. -/
structure IsLinearization (tree : DeclTree) (id : DeclId) (order : List DeclId) : Prop where
  empty_iff : order = [] ↔ tree.resolve? id = none
  first : ∀ start ∈ tree.resolve? id, order.head? = some start
  different : order.Nodup
  bounded : order.length ≤ tree.size
  interfaces : ∀ other ∈ order, tree.isInterface other = true
  reachable : ∀ start ∈ tree.resolve? id, ∀ root other,
    other ∈ order ↔ Relation.ReflTransGen (tree.HasBase root) start other
  derived : ∀ before base after, order = before ++ base :: after → before ≠ [] →
    ∃ derived ∈ before, ∀ root, tree.HasBase root derived base

/-! ## Resolved declarations -/

theorem interface?_eq_some_iff {id : DeclId} {parts : Interface} :
    tree.interface? id = some parts ↔ tree.kind? id = some (.interface parts) := by
  rw [interface?, kind?]
  cases tree.decl? id with
  | none => simp
  | some decl =>
    rw [Option.bind_some, Option.map_some, Decl.interface?]
    cases decl.kind <;> simp

theorem isInterface_iff {id : DeclId} :
    tree.isInterface id = true ↔ ∃ parts, tree.kind? id = some (.interface parts) := by
  simp only [isInterface, Option.isSome_iff_exists, interface?_eq_some_iff]

/-- An interface stands for itself. -/
theorem resolve?_of_isInterface {id : DeclId} (isInterface : tree.isInterface id = true) :
    tree.resolve? id = some id := by
  obtain ⟨parts, kind⟩ := isInterface_iff.mp isInterface
  rw [resolve?, follow, kind]

theorem isInterface_of_follow {visits : Nat} {id target : DeclId}
    (found : tree.follow visits id = some target) : tree.isInterface target = true := by
  fun_induction follow tree visits id with
  | case1 => cases found
  | case2 visits id parts kind =>
    cases found
    obtain ⟨decl, here, isInterface⟩ := Option.map_eq_some_iff.mp kind
    rw [DeclTree.isInterface, interface?, here, Option.bind_some, Decl.interface?, isInterface]
    rfl
  | case3 visits id next _ ih => exact ih found
  | case4 visits id next _ ih => exact ih found
  | case5 => cases found

theorem lt_size_of_isInterface {id : DeclId} (interface : tree.isInterface id = true) :
    id < tree.size := by
  by_contra outside
  have missing : tree.decl? id = none := Array.getElem?_eq_none (Nat.le_of_not_lt outside)
  simp [isInterface, interface?, missing] at interface

theorem isInterface_of_mem_resolvedBases {derived base : DeclId}
    (listed : base ∈ tree.resolvedBases derived) : tree.isInterface base = true := by
  rw [resolvedBases] at listed
  split at listed
  · obtain ⟨written, -, resolved⟩ := List.mem_filterMap.mp listed
    exact isInterface_of_follow resolved
  · cases listed

/-! ## One step of the search -/

/-- Discovery only sorts the undiscovered numbers into two lists. -/
theorem discover_perm (undiscovered ids : List DeclId) :
    ((discover undiscovered ids).1 ++ (discover undiscovered ids).2).Perm undiscovered := by
  fun_induction discover undiscovered ids with
  | case1 => exact .refl _
  | case2 undiscovered id ids member found rest split ih =>
    rw [split] at ih
    exact (ih.cons id).trans (List.perm_cons_erase member).symm
  | case3 undiscovered id ids absent ih => exact ih

/-- What is discovered was listed. -/
theorem mem_ids_of_mem_discover {undiscovered ids : List DeclId} {id : DeclId}
    (found : id ∈ (discover undiscovered ids).1) : id ∈ ids := by
  fun_induction discover undiscovered ids with
  | case1 => cases found
  | case2 undiscovered first ids member _ rest split ih =>
    rw [split] at ih
    rcases List.mem_cons.mp found with rfl | later
    · exact List.mem_cons_self
    · exact List.mem_cons_of_mem _ (ih later)
  | case3 undiscovered first ids absent ih => exact List.mem_cons_of_mem _ (ih found)

/-- What is listed and undiscovered is discovered. -/
theorem mem_discover {undiscovered ids : List DeclId} {id : DeclId} (listed : id ∈ ids)
    (fresh : id ∈ undiscovered) : id ∈ (discover undiscovered ids).1 := by
  fun_induction discover undiscovered ids with
  | case1 => cases listed
  | case2 undiscovered first ids member found rest split ih =>
    rw [split] at ih
    by_cases same : id = first
    · exact same ▸ List.mem_cons_self
    · have later := (List.mem_cons.mp listed).resolve_left same
      exact List.mem_cons_of_mem _ (ih later ((List.mem_erase_of_ne same).mpr fresh))
  | case3 undiscovered first ids absent ih =>
    rcases List.mem_cons.mp listed with rfl | later
    · exact absurd fresh absent
    · exact ih later fresh

/-! ## The whole search -/

/-- The search lists undiscovered numbers, each as often as it is undiscovered at most. -/
theorem search_subperm (undiscovered stack : List DeclId) :
    (tree.search undiscovered stack).Subperm undiscovered := by
  fun_induction search tree undiscovered stack with
  | case1 => exact List.nil_subperm
  | case2 undiscovered id stack ih =>
    have sorted := discover_perm undiscovered (tree.resolvedBases id)
    exact ((List.subperm_append_left _).mpr ih).trans sorted.subperm

/-- Whatever is listed is a base of something that was on the stack or listed before. -/
theorem search_derived {undiscovered stack before after : List DeclId} {base : DeclId}
    (split : tree.search undiscovered stack = before ++ base :: after) :
    ∃ derived ∈ stack ++ before, base ∈ tree.resolvedBases derived := by
  fun_induction search tree undiscovered stack generalizing before with
  | case1 => simp at split
  | case2 undiscovered id stack ih =>
    rcases List.append_eq_append_iff.mp split with ⟨later, rfl, rest⟩ | ⟨earlier, all, rest⟩
    · obtain ⟨derived, known, isBase⟩ := ih rest
      refine ⟨derived, ?_, isBase⟩
      simp only [List.mem_append, List.mem_reverse, List.mem_cons] at known ⊢
      tauto
    · cases earlier with
      | nil =>
        rw [List.append_nil] at all
        obtain ⟨derived, known, isBase⟩ := @ih [] rest.symm
        refine ⟨derived, ?_, isBase⟩
        simp only [← all, List.mem_append, List.mem_reverse, List.mem_cons] at known ⊢
        tauto
      | cons first earlier =>
        cases rest
        have found : base ∈ (discover undiscovered (tree.resolvedBases id)).1 := by
          rw [all]
          exact List.mem_append_right _ List.mem_cons_self
        exact ⟨id, List.mem_cons_self, mem_ids_of_mem_discover found⟩

/-- No base is left behind: if it was undiscovered, it is listed. -/
theorem search_closed {undiscovered stack : List DeclId} {derived base : DeclId}
    (known : derived ∈ stack ++ tree.search undiscovered stack)
    (isBase : base ∈ tree.resolvedBases derived) (fresh : base ∈ undiscovered) :
    base ∈ tree.search undiscovered stack := by
  fun_induction search tree undiscovered stack with
  | case1 => simp at known
  | case2 undiscovered id stack ih =>
    rw [List.mem_append]
    have sorted := discover_perm undiscovered (tree.resolvedBases id)
    rcases List.mem_append.mp (sorted.mem_iff.mpr fresh) with found | rest
    · exact .inl found
    · by_cases first : derived = id
      · subst first
        exact .inl (mem_discover isBase fresh)
      · refine .inr (ih ?_ rest)
        simp only [List.mem_append, List.mem_reverse, List.mem_cons] at known ⊢
        tauto

/-! ## Linearization -/

theorem linearize_eq_nil_iff {id : DeclId} : tree.linearize id = [] ↔ tree.resolve? id = none := by
  rw [linearize]
  cases tree.resolve? id <;> simp

theorem linearize_of_resolve? {id start : DeclId} (resolved : tree.resolve? id = some start) :
    tree.linearize id = start :: tree.search (tree.ids.erase start) [start] := by
  rw [linearize, resolved]

/-- Linearization lists declarations of the tree, each once. -/
theorem linearize_subperm (tree : DeclTree) (id : DeclId) :
    (tree.linearize id).Subperm tree.ids := by
  cases resolved : tree.resolve? id with
  | none =>
    rw [linearize_eq_nil_iff.mpr resolved]
    exact List.nil_subperm
  | some start =>
    have listed : start ∈ tree.ids :=
      List.mem_range.mpr (lt_size_of_isInterface (isInterface_of_follow resolved))
    rw [linearize_of_resolve? resolved]
    have shorter : (tree.search (tree.ids.erase start) [start]).Subperm (tree.ids.erase start) :=
      search_subperm _ _
    exact ((List.subperm_cons start).mpr shorter).trans
      (List.perm_cons_erase listed).symm.subperm

theorem nodup_linearize (tree : DeclTree) (id : DeclId) : (tree.linearize id).Nodup := by
  obtain ⟨ordered, same, sublist⟩ := tree.linearize_subperm id
  exact same.nodup (sublist.nodup List.nodup_range)

theorem length_linearize_le (tree : DeclTree) (id : DeclId) :
    (tree.linearize id).length ≤ tree.size := by
  have bound := (tree.linearize_subperm id).length_le
  rwa [ids, List.length_range] at bound

/-- Every interface behind the first is a direct base of one before it. -/
theorem exists_derived_of_linearize {id base : DeclId} {before after : List DeclId}
    (split : tree.linearize id = before ++ base :: after) (later : before ≠ []) :
    ∃ derived ∈ before, base ∈ tree.resolvedBases derived := by
  cases resolved : tree.resolve? id with
  | none =>
    rw [linearize_eq_nil_iff.mpr resolved] at split
    simp at split
  | some start =>
    rw [linearize_of_resolve? resolved] at split
    cases before with
    | nil => exact absurd rfl later
    | cons first before =>
      rw [List.cons_append, List.cons.injEq] at split
      obtain ⟨rfl, split⟩ := split
      obtain ⟨derived, known, isBase⟩ := search_derived split
      exact ⟨derived, by simpa using known, isBase⟩

/-- **Linearization lists exactly what can be reached along direct bases.** -/
theorem mem_linearize_iff {id start other : DeclId} (resolved : tree.resolve? id = some start)
    (root : ScopedName) :
    other ∈ tree.linearize id ↔ Relation.ReflTransGen (tree.HasBase root) start other := by
  constructor
  · -- By strong induction on the place in the list, since bases come after what they derive from.
    have reached : ∀ (place : Nat) (base : DeclId), (tree.linearize id)[place]? = some base →
        Relation.ReflTransGen (tree.HasBase root) start base := by
      intro place
      induction place using Nat.strongRecOn with
      | ind place ih =>
        intro base found
        obtain ⟨bound, here⟩ := List.getElem?_eq_some_iff.mp found
        by_cases first : place = 0
        · subst first
          rw [linearize_of_resolve? resolved] at found
          cases found
          exact .refl
        · have split : tree.linearize id =
              (tree.linearize id).take place ++ base :: (tree.linearize id).drop (place + 1) := by
            rw [← here, List.getElem_cons_drop, List.take_append_drop]
          have later : (tree.linearize id).take place ≠ [] := by
            intro empty
            have length := congrArg List.length empty
            rw [List.length_take, List.length_nil] at length
            omega
          obtain ⟨derived, earlier, isBase⟩ := exists_derived_of_linearize split later
          obtain ⟨position, before, known⟩ := List.mem_take_iff_getElem.mp earlier
          have known : (tree.linearize id)[position]? = some derived :=
            List.getElem?_eq_some_iff.mpr ⟨by omega, known⟩
          exact (ih position (by omega) derived known).tail (hasBase_iff.mpr isBase)
    intro listed
    obtain ⟨place, found⟩ := List.mem_iff_getElem?.mp listed
    exact reached place other found
  · intro reachable
    rw [linearize_of_resolve? resolved]
    induction reachable with
    | refl => exact List.mem_cons_self
    | @tail derived base _ step ih =>
      have isBase := hasBase_iff.mp step
      by_cases same : base = start
      · exact same ▸ List.mem_cons_self
      · have fresh : base ∈ tree.ids.erase start :=
          (List.mem_erase_of_ne same).mpr (List.mem_range.mpr
            (lt_size_of_isInterface (isInterface_of_mem_resolvedBases isBase)))
        exact List.mem_cons_of_mem _ (search_closed ih isBase fresh)

theorem isInterface_of_mem_linearize {id other : DeclId} (listed : other ∈ tree.linearize id) :
    tree.isInterface other = true := by
  cases resolved : tree.resolve? id with
  | none =>
    rw [linearize_eq_nil_iff.mpr resolved] at listed
    cases listed
  | some start =>
    have reachable := (mem_linearize_iff resolved .root).mp listed
    cases reachable with
    | refl => exact isInterface_of_follow resolved
    | tail _ step => exact isInterface_of_mem_resolvedBases (hasBase_iff.mp step)

theorem isLinearization_linearize (tree : DeclTree) (id : DeclId) :
    tree.IsLinearization id (tree.linearize id) where
  empty_iff := linearize_eq_nil_iff
  first start resolved := by rw [linearize_of_resolve? resolved, List.head?_cons]
  different := tree.nodup_linearize id
  bounded := tree.length_linearize_le id
  interfaces _ := isInterface_of_mem_linearize
  reachable _ resolved root _ := mem_linearize_iff resolved root
  derived before base after split later := by
    obtain ⟨derived, earlier, isBase⟩ := exists_derived_of_linearize split later
    exact ⟨derived, earlier, fun root => hasBase_iff.mpr isBase⟩

end IdlBridge.DeclTree
