import IdlBridge.DeclTree.Draft
import IdlBridge.Proofs.DeclTree.Linearization

/-!
# What an alias stands for

Aliases and forward declarations lead from one declaration to the next. Nothing is known about where
they lead: a chain of them can end at an interface, at some other declaration or nowhere, and it can
run in a loop. `resolve?` follows a chain for a limited number of visits.

A chain has one continuation at most, so it has one end at most, and a chain that ends does not loop
(`Stops.unique`, `not_loops_of_stops`). A chain that does not loop visits different declarations, so
it is not longer than the tree is large (`Leads.le_size`). Hence the limit cuts off loops only, and
`resolve?` finds an interface exactly if the chain ends at it (`aliases_resolve_exactly`).
-/

set_option autoImplicit false

namespace IdlBridge

/-- Aliases and forward declarations stand for other declarations. -/
def DeclKind.isLink : DeclKind → Bool
  | forward _ | declarator _ => true
  | _ => false

namespace DeclTree

/-! ## Chains -/

/-- The declaration is an alias or a forward declaration of the next one. -/
inductive LinksTo (tree : DeclTree) : DeclId → DeclId → Prop
  | forward {id next : DeclId} (kind : tree.kind? id = some (.forward (some next))) :
      LinksTo tree id next
  | declarator {id next : DeclId} (kind : tree.kind? id = some (.declarator (some next))) :
      LinksTo tree id next

/-- The chain from the first declaration comes to the second. -/
abbrev Meets (tree : DeclTree) : DeclId → DeclId → Prop :=
  Relation.ReflTransGen tree.LinksTo

/-- There is no such declaration, or it is a link that leads nowhere. -/
inductive Dangling (tree : DeclTree) (id : DeclId) : Prop
  | missing (absent : tree.decl? id = none)
  | forward (kind : tree.kind? id = some (.forward none))
  | declarator (kind : tree.kind? id = some (.declarator none))

/-- The declaration is neither an interface nor a link. -/
def IsOther (tree : DeclTree) (id : DeclId) : Prop :=
  ∃ kind, tree.kind? id = some kind ∧ kind.isInterface = false ∧ kind.isLink = false

/-- The chain comes to a declaration twice. -/
def Loops (tree : DeclTree) (id : DeclId) : Prop :=
  ∃ node, tree.Meets id node ∧ Relation.TransGen tree.LinksTo node node

/-- No chain goes on behind the declaration. -/
def Stops (tree : DeclTree) (id : DeclId) : Prop :=
  ∀ next, ¬ tree.LinksTo id next

variable {tree : DeclTree} {id next last target : DeclId}

theorem LinksTo.lt_size (links : tree.LinksTo id next) : id < tree.size := by
  by_contra outside
  have absent : tree.kind? id = none := by
    rw [kind?, decl?, Array.getElem?_eq_none (Nat.le_of_not_lt outside), Option.map_none]
  cases links with
  | forward kind => rw [absent] at kind; cases kind
  | declarator kind => rw [absent] at kind; cases kind

/-- There is one way to go on at most. -/
theorem rightUnique_linksTo (tree : DeclTree) : Relator.RightUnique tree.LinksTo := by
  intro id next other links others
  cases links with
  | forward kind | declarator kind =>
    cases others with
    | forward same | declarator same => rw [kind] at same; cases same <;> rfl

theorem stops_of_isInterface (interface : tree.isInterface id = true) : tree.Stops id := by
  obtain ⟨parts, isInterface⟩ := isInterface_iff.mp interface
  intro next links
  cases links with
  | forward kind | declarator kind => rw [isInterface] at kind; cases kind

theorem Dangling.stops (dangling : tree.Dangling id) : tree.Stops id := by
  intro next links
  have kinds : tree.kind? id = none ∨ tree.kind? id = some (.forward none) ∨
      tree.kind? id = some (.declarator none) := by
    cases dangling with
    | missing absent => exact .inl (by rw [kind?, absent, Option.map_none])
    | forward kind => exact .inr (.inl kind)
    | declarator kind => exact .inr (.inr kind)
  cases links with
  | forward kind | declarator kind => simp [kind] at kinds

theorem IsOther.stops (other : tree.IsOther id) : tree.Stops id := by
  obtain ⟨kind, here, -, noLink⟩ := other
  intro next links
  cases links with
  | forward kind | declarator kind =>
    rw [here] at kind
    cases kind
    cases noLink

/-- The four things that a declaration can be for a chain that comes to it. -/
theorem linksTo_cases (tree : DeclTree) (id : DeclId) :
    (∃ next, tree.LinksTo id next) ∨ tree.isInterface id = true ∨ tree.Dangling id ∨
      tree.IsOther id := by
  cases found : tree.kind? id with
  | none =>
    have absent : tree.decl? id = none := Option.map_eq_none_iff.mp found
    exact .inr (.inr (.inl (.missing absent)))
  | some kind =>
    cases kind with
    | interface parts => exact .inr (.inl (isInterface_iff.mpr ⟨parts, found⟩))
    | forward target =>
      cases target with
      | none => exact .inr (.inr (.inl (.forward found)))
      | some next => exact .inl ⟨next, .forward found⟩
    | declarator target =>
      cases target with
      | none => exact .inr (.inr (.inl (.declarator found)))
      | some next => exact .inl ⟨next, .declarator found⟩
    | module | typedef | enum | operation | attributes =>
      exact .inr (.inr (.inr ⟨_, found, rfl, rfl⟩))

/-! ## Ends -/

theorem Stops.eq_of_meets (stops : tree.Stops id) (meets : tree.Meets id last) : last = id := by
  cases meets.cases_head with
  | inl same => exact same.symm
  | inr goes =>
    obtain ⟨next, links, -⟩ := goes
    exact absurd links (stops next)

/-- A chain has one end. -/
theorem Stops.unique {end₁ end₂ : DeclId} (stops₁ : tree.Stops end₁) (stops₂ : tree.Stops end₂)
    (meets₁ : tree.Meets id end₁) (meets₂ : tree.Meets id end₂) : end₁ = end₂ := by
  rcases Relation.ReflTransGen.total_of_right_unique (rightUnique_linksTo tree) meets₁ meets₂ with
    onward | onward
  · exact (stops₁.eq_of_meets onward).symm
  · exact stops₂.eq_of_meets onward

/-- Whatever a loop comes to is on the loop. -/
theorem transGen_of_meets (loop : Relation.TransGen tree.LinksTo id id)
    (meets : tree.Meets id last) : Relation.TransGen tree.LinksTo last last := by
  induction meets with
  | refl => exact loop
  | tail _ links ih =>
    obtain ⟨onward, first, rest⟩ := Relation.TransGen.head'_iff.mp ih
    cases rightUnique_linksTo tree links first
    exact Relation.TransGen.tail' rest links

/-- A chain that ends does not loop. -/
theorem not_loops_of_stops (stops : tree.Stops last) (meets : tree.Meets id last) :
    ¬ tree.Loops id := by
  rintro ⟨node, reached, loop⟩
  have leaves : ¬ Relation.TransGen tree.LinksTo last last := by
    intro around
    obtain ⟨next, links, -⟩ := Relation.TransGen.head'_iff.mp around
    exact stops next links
  rcases Relation.ReflTransGen.total_of_right_unique (rightUnique_linksTo tree) reached meets with
    onward | onward
  · exact leaves (transGen_of_meets loop onward)
  · cases stops.eq_of_meets onward
    exact leaves loop

/-! ## Lengths -/

/-- The chain comes from the first declaration to the second by the given number of links. -/
inductive Leads (tree : DeclTree) : Nat → DeclId → DeclId → Prop
  | here (id : DeclId) : Leads tree 0 id id
  | link {length : Nat} {id next last : DeclId} (links : tree.LinksTo id next)
      (rest : Leads tree length next last) : Leads tree (length + 1) id last

theorem exists_leads (meets : tree.Meets id last) : ∃ length, tree.Leads length id last := by
  induction meets using Relation.ReflTransGen.head_induction_on with
  | refl => exact ⟨0, .here last⟩
  | head links _ ih =>
    obtain ⟨length, rest⟩ := ih
    exact ⟨length + 1, .link links rest⟩

/-- The declarations that lead on are different unless the chain loops: what lies behind a
declaration does not lead back to it. -/
theorem Leads.exists_trail {length : Nat} (leads : tree.Leads length id last)
    (straight : ¬ tree.Loops id) :
    ∃ trail : List DeclId, trail.Nodup ∧ trail.length = length ∧
      ∀ node ∈ trail, node < tree.size ∧ tree.Meets id node := by
  induction leads with
  | here id => exact ⟨[], List.nodup_nil, rfl, nofun⟩
  | @link length id next last links rest ih =>
    have further : ¬ tree.Loops next := by
      rintro ⟨node, meets, loop⟩
      exact straight ⟨node, meets.head links, loop⟩
    obtain ⟨trail, different, counted, visited⟩ := ih further
    refine ⟨id :: trail, List.nodup_cons.mpr ⟨fun back => ?_, different⟩, by simp [counted], ?_⟩
    · exact straight ⟨id, .refl, Relation.TransGen.head' links (visited id back).2⟩
    · rw [List.forall_mem_cons]
      refine ⟨⟨links.lt_size, .refl⟩, fun node listed => ?_⟩
      exact ⟨(visited node listed).1, (visited node listed).2.head links⟩

/-- **A chain that does not loop has no more links than the tree has declarations.** -/
theorem Leads.le_size {length : Nat} (leads : tree.Leads length id last)
    (straight : ¬ tree.Loops id) : length ≤ tree.size := by
  obtain ⟨trail, different, rfl, visited⟩ := leads.exists_trail straight
  have inside : trail ⊆ List.range tree.size :=
    fun node listed => List.mem_range.mpr (visited node listed).1
  simpa using (different.subperm inside).length_le

/-! ## Following a chain -/

theorem follow_succ_of_linksTo (links : tree.LinksTo id next) (visits : Nat) :
    tree.follow (visits + 1) id = tree.follow visits next := by
  cases links with
  | forward kind | declarator kind => rw [follow, kind]

theorem meets_of_follow {visits : Nat} (found : tree.follow visits id = some target) :
    tree.Meets id target := by
  fun_induction follow tree visits id with
  | case1 => cases found
  | case2 =>
    cases found
    exact .refl
  | case3 visits id next kind ih => exact (ih found).head (.forward kind)
  | case4 visits id next kind ih => exact (ih found).head (.declarator kind)
  | case5 => cases found

/-- An interface is found if there are enough visits for the links in front of it. -/
theorem Leads.follow_eq {length : Nat} (leads : tree.Leads length id target)
    (interface : tree.isInterface target = true) {visits : Nat} (enough : length < visits) :
    tree.follow visits id = some target := by
  induction leads generalizing visits with
  | here id =>
    obtain ⟨parts, kind⟩ := isInterface_iff.mp interface
    obtain ⟨fewer, rfl⟩ := Nat.exists_eq_add_one.mpr enough
    rw [follow, kind]
  | link links _ ih =>
    obtain ⟨fewer, rfl⟩ := Nat.exists_eq_add_one.mpr (Nat.zero_lt_of_lt enough)
    rw [follow_succ_of_linksTo links]
    exact ih interface (Nat.lt_of_succ_lt_succ enough)

/-- If nothing is found, the chain ends somewhere else or uses up all visits. -/
theorem cases_of_follow_eq_none {visits : Nat} (lost : tree.follow visits id = none) :
    (∃ last, tree.Meets id last ∧ (tree.Dangling last ∨ tree.IsOther last)) ∨
      ∃ last, tree.Leads visits id last := by
  induction visits generalizing id with
  | zero => exact .inr ⟨id, .here id⟩
  | succ visits ih =>
    rcases linksTo_cases tree id with ⟨next, links⟩ | interface | elsewhere
    · rw [follow_succ_of_linksTo links] at lost
      rcases ih lost with ⟨last, meets, ends⟩ | ⟨last, leads⟩
      · exact .inl ⟨last, meets.head links, ends⟩
      · exact .inr ⟨last, .link links leads⟩
    · rw [(Leads.here id).follow_eq interface (Nat.zero_lt_succ visits)] at lost
      cases lost
    · exact .inl ⟨id, .refl, elsewhere⟩

theorem resolve?_eq_some_iff :
    tree.resolve? id = some target ↔ tree.isInterface target = true ∧ tree.Meets id target := by
  constructor
  · intro found
    exact ⟨isInterface_of_follow found, meets_of_follow found⟩
  · rintro ⟨interface, meets⟩
    obtain ⟨length, leads⟩ := exists_leads meets
    have straight := not_loops_of_stops (stops_of_isInterface interface) meets
    exact leads.follow_eq interface (Nat.lt_succ_of_le (leads.le_size straight))

/-- **Following aliases is exact.** In every tree, whatever its aliases and forward declarations
lead to, a declaration stands for an interface exactly if its chain of links comes to that
interface. It stands for none exactly if the chain comes to a link that leads nowhere, to a
declaration of another kind, or to some declaration twice. -/
theorem aliases_resolve_exactly (tree : DeclTree) (id : DeclId) :
    (∀ target, tree.resolve? id = some target ↔
      tree.isInterface target = true ∧ tree.Meets id target) ∧
    (tree.resolve? id = none ↔
      (∃ last, tree.Meets id last ∧ tree.Dangling last) ∨
        (∃ last, tree.Meets id last ∧ tree.IsOther last) ∨ tree.Loops id) := by
  refine ⟨fun target => resolve?_eq_some_iff, fun lost => ?_, fun reasons => ?_⟩
  · rcases cases_of_follow_eq_none lost with ⟨last, meets, dangling | other⟩ | ⟨last, leads⟩
    · exact .inl ⟨last, meets, dangling⟩
    · exact .inr (.inl ⟨last, meets, other⟩)
    · -- All visits were used up, one more than there are declarations.
      refine .inr (.inr (by_contra fun straight => ?_))
      exact Nat.not_succ_le_self tree.size (leads.le_size straight)
  · rw [Option.eq_none_iff_forall_ne_some]
    intro target found
    obtain ⟨interface, meets⟩ := resolve?_eq_some_iff.mp found
    have stops := stops_of_isInterface interface
    obtain ⟨parts, isInterface⟩ := isInterface_iff.mp interface
    rcases reasons with ⟨last, comes, dangling⟩ | ⟨last, comes, other⟩ | loops
    · cases stops.unique dangling.stops meets comes
      cases dangling with
      | missing absent => rw [kind?, absent] at isInterface; cases isInterface
      | forward kind | declarator kind => rw [isInterface] at kind; cases kind
    · cases stops.unique other.stops meets comes
      obtain ⟨kind, here, noInterface, -⟩ := other
      rw [isInterface] at here
      cases here
      cases noInterface
    · exact not_loops_of_stops stops meets loops

/-- Two aliases of each other stand for nothing. -/
example :
    let draft := ((Draft.empty "a.idl").addTypedef none "A" (.basic .long)).addTypedef none "B"
      (.basic .long)
    ((draft.setAlias 1 3).setAlias 3 1).tree.resolve? 1 = none := by
  decide

end DeclTree

end IdlBridge
