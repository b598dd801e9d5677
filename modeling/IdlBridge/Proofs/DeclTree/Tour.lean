import IdlBridge.Proofs.DeclTree.Exposure

/-!
# Tours through a tree

Going through a tree meets declarations depth first and looks into every module of the main file.
A tour lists what is met, with the modules around it, and counts no depth (`DeclTree.Tour`). A built
tree has a tour, and its visits are read off the tour (`Listed.exists_tour`). The tour meets the
declarations that modules of the main file lead to, and no others (`Tour.mem_ids_iff`).
-/

set_option autoImplicit false

namespace IdlBridge

/-- A declaration that is met, with the names of the modules around it, outermost first. -/
structure Stop where
  modules : List String
  id : DeclId
  deriving DecidableEq, Repr, Inhabited

namespace Visit

/-- The visit meets a declaration that is looked at as a whole. -/
def meets : Visit → Bool
  | interface _ | external _ => true
  | _ => false

/-- The file of a declaration that the main file does not declare. -/
def file? : Visit → Option String
  | external file => some file
  | _ => none

theorem filterMap_filter_meets {α : Type} {select : Visit → Option α} (visits : List Visit)
    (enter : ∀ name, select (.enter name) = none) (leave : select .leave = none) :
    (visits.filter meets).filterMap select = visits.filterMap select := by
  rw [List.filterMap_filter]
  refine List.filterMap_congr fun visit _ => ?_
  cases visit with
  | enter name => rw [enter]; rfl
  | leave => rw [leave]; rfl
  | interface id => rfl
  | external file => rfl

end Visit

namespace DeclTree

/-- Going through the declarations, which stand in modules of the given names, makes the stops.
What a module of the main file lists follows the module. -/
inductive Tour (tree : DeclTree) : List String → List DeclId → List Stop → Prop
  | nil {modules : List String} : Tour tree modules [] []
  | main {modules : List String} {id : DeclId} {decl : Decl} {ids : List DeclId}
      {inner rest : List Stop} (found : tree.decl? id = some decl)
      (own : decl.file = tree.file)
      (inside : Tour tree (modules ++ [decl.name]) (tree.membersOf (some id)) inner)
      (later : Tour tree modules ids rest) :
      Tour tree modules (id :: ids) (⟨modules, id⟩ :: inner ++ rest)
  | other {modules : List String} {id : DeclId} {decl : Decl} {ids : List DeclId}
      {rest : List Stop} (found : tree.decl? id = some decl) (foreign : decl.file ≠ tree.file)
      (later : Tour tree modules ids rest) :
      Tour tree modules (id :: ids) (⟨modules, id⟩ :: rest)

/-- The declaration is listed outside all modules, or in a module to which modules of the main file
lead. -/
def Reached (tree : DeclTree) (id : DeclId) : Prop :=
  ∃ place, tree.Entered place ∧ id ∈ tree.membersOf place

/-- How a declaration is met, if it is looked at as a whole. -/
def visitAt? (tree : DeclTree) (id : DeclId) : Option Visit :=
  (tree.decl? id).bind fun decl =>
    if decl.file = tree.file then
      if decl.interface?.isSome then some (.interface id) else none
    else some (.external decl.file)

/-- The file of a declaration, if that is not the main file. -/
def otherFile? (tree : DeclTree) (id : DeclId) : Option String :=
  (tree.decl? id).bind fun decl => if decl.file = tree.file then none else some decl.file

variable {tree : DeclTree}

theorem bind_visitAt?_file? (id : DeclId) :
    (tree.visitAt? id).bind Visit.file? = tree.otherFile? id := by
  rw [visitAt?, otherFile?]
  cases tree.decl? id with
  | none => rfl
  | some decl =>
    rw [Option.bind_some, Option.bind_some]
    split
    · split <;> rfl
    · rfl

/-- What is met in going through one declaration and then others. -/
theorem filter_meets_visitsOf (depth : Nat) (id : DeclId) (ids : List DeclId) {decl : Decl}
    (found : tree.decl? id = some decl) :
    (tree.visitsOf (depth + 1) (id :: ids)).filter Visit.meets =
      (tree.visitAt? id).toList ++
        (if decl.file = tree.file then
          (tree.visitsOf depth (tree.membersOf (some id))).filter Visit.meets else []) ++
        (tree.visitsOf (depth + 1) ids).filter Visit.meets := by
  rw [visitsOf, List.flatMap_cons, List.filter_append, visitsOf]
  refine congrArg (· ++ _) ?_
  rw [visitAt?, membersOf, kind?, found]
  simp only [Option.bind_some, Option.map_some, Option.getD_some, beq_iff_eq]
  split
  · cases kind : decl.kind with
    | module members =>
      simp [Decl.interface?, kind, DeclKind.members, Visit.meets]
    | interface parts =>
      cases depth <;> simp [Decl.interface?, kind, DeclKind.members, Visit.meets, visitsOf]
    | _ => cases depth <;> simp [Decl.interface?, kind, DeclKind.members, visitsOf]
  · rfl

/-- **Going through listed declarations is a tour**, if there is enough depth left for everything in
them. -/
theorem Listed.exists_tour (listed : tree.Listed) (depth : Nat) (modules : List String)
    (place : Option DeclId) {ids : List DeclId} (members : ids ⊆ tree.membersOf place)
    (enough : ∀ member ∈ ids, tree.size ≤ member + depth) :
    ∃ stops, tree.Tour modules ids stops ∧
      (tree.visitsOf depth ids).filter Visit.meets =
        stops.filterMap fun stop => tree.visitAt? stop.id := by
  induction depth generalizing modules place ids with
  | zero =>
    cases ids with
    | nil => exact ⟨[], .nil, rfl⟩
    | cons id ids =>
      obtain ⟨⟨decl, found, -⟩, -⟩ := listed place id (members List.mem_cons_self)
      have declared : id < tree.size := (Array.getElem?_eq_some_iff.mp found).1
      exact absurd (enough id List.mem_cons_self) (Nat.not_le_of_lt declared)
  | succ depth ih =>
    induction ids with
    | nil => exact ⟨[], .nil, rfl⟩
    | cons id ids ihIds =>
      obtain ⟨⟨decl, found, -⟩, -⟩ := listed place id (members List.mem_cons_self)
      obtain ⟨rest, later, restVisits⟩ :=
        ihIds (List.subset_of_cons_subset members)
          fun member isMember => enough member (List.mem_cons_of_mem _ isMember)
      rw [filter_meets_visitsOf depth id ids found, restVisits]
      by_cases own : decl.file = tree.file
      · have below := listed.size_le_inside (enough id List.mem_cons_self)
        obtain ⟨inner, inside, innerVisits⟩ :=
          ih (modules ++ [decl.name]) (some id) (List.Subset.refl _) below
        refine ⟨_, .main found own inside later, ?_⟩
        rw [if_pos own, innerVisits, List.cons_append, List.filterMap_cons, List.filterMap_append]
        cases tree.visitAt? id <;> simp
      · refine ⟨_, .other found own later, ?_⟩
        rw [if_neg own, List.append_nil, List.filterMap_cons]
        cases tree.visitAt? id <;> simp

/-- A built tree has a tour, and its visits meet what the tour meets. -/
theorem Built.exists_tour (built : tree.Built) :
    ∃ stops, tree.Tour [] tree.declarations stops ∧
      tree.visits.filter Visit.meets = stops.filterMap fun stop => tree.visitAt? stop.id :=
  built.listed.exists_tour (tree.size + 1) [] none (List.Subset.refl _) fun member _ => by omega

namespace Tour

variable {modules : List String} {ids : List DeclId} {stops : List Stop}

/-- There is one tour through given declarations. -/
theorem unique (tour : tree.Tour modules ids stops) :
    ∀ {others : List Stop}, tree.Tour modules ids others → others = stops := by
  induction tour with
  | nil =>
    intro others again
    cases again
    rfl
  | main found own _ _ ihInside ihLater =>
    intro others again
    cases again with
    | main foundAgain ownAgain insideAgain laterAgain =>
      obtain rfl := Option.some.inj (found.symm.trans foundAgain)
      rw [ihInside insideAgain, ihLater laterAgain]
    | other foundAgain foreign =>
      obtain rfl := Option.some.inj (found.symm.trans foundAgain)
      exact absurd own foreign
  | other found foreign _ ih =>
    intro others again
    cases again with
    | main foundAgain own =>
      obtain rfl := Option.some.inj (found.symm.trans foundAgain)
      exact absurd own foreign
    | other _ _ laterAgain => rw [ih laterAgain]

/-- Everything that is gone through is met. -/
theorem mem_ids (tour : tree.Tour modules ids stops) {id : DeclId} (listed : id ∈ ids) :
    id ∈ stops.map Stop.id := by
  induction tour with
  | nil => cases listed
  | main _ _ _ _ _ ih =>
    rcases List.mem_cons.mp listed with rfl | behind
    · exact List.mem_cons_self
    · rw [List.map_append]
      exact List.mem_append_right _ (ih behind)
  | other _ _ _ ih =>
    rcases List.mem_cons.mp listed with rfl | behind
    · exact List.mem_cons_self
    · exact List.mem_cons_of_mem _ (ih behind)

/-- The tour through what a declaration of the main file lists is part of the tour. -/
theorem exists_inside (tour : tree.Tour modules ids stops) {id : DeclId} (listed : id ∈ ids)
    (isLocal : tree.isLocal id = true) :
    ∃ names inner, tree.Tour names (tree.membersOf (some id)) inner ∧ inner ⊆ stops := by
  induction tour with
  | nil => cases listed
  | @main modules first decl ids inner rest found own inside _ _ ih =>
    rcases List.mem_cons.mp listed with rfl | behind
    · refine ⟨_, inner, inside, fun stop isStop => ?_⟩
      exact List.mem_append_left _ (List.mem_cons_of_mem _ isStop)
    · obtain ⟨names, others, tour, subset⟩ := ih behind
      exact ⟨names, others, tour, fun stop isStop => List.mem_append_right _ (subset isStop)⟩
  | @other modules first decl ids rest found foreign _ ih =>
    rcases List.mem_cons.mp listed with rfl | behind
    · simp [DeclTree.isLocal, found, foreign] at isLocal
    · obtain ⟨names, others, tour, subset⟩ := ih behind
      exact ⟨names, others, tour, fun stop isStop => List.mem_cons_of_mem _ (subset isStop)⟩

theorem reached_of_mem (tour : tree.Tour modules ids stops) :
    ∀ place, tree.Entered place → ids ⊆ tree.membersOf place →
      ∀ stop ∈ stops, tree.Reached stop.id := by
  induction tour with
  | nil => exact fun _ _ _ _ isStop => nomatch isStop
  | @main modules id decl ids inner rest found own _ _ ihInside ihLater =>
    intro place entered members stop isStop
    have here : id ∈ tree.membersOf place := members List.mem_cons_self
    rcases List.mem_append.mp isStop with atOrIn | behind
    · rcases List.mem_cons.mp atOrIn with rfl | within
      · exact ⟨place, entered, here⟩
      · have isLocal : tree.isLocal id = true := by simp [DeclTree.isLocal, found, own]
        exact ihInside (some id) (.module entered here isLocal) (List.Subset.refl _) stop within
    · exact ihLater place entered (List.subset_of_cons_subset members) stop behind
  | @other modules id decl ids rest _ _ _ ih =>
    intro place entered members stop isStop
    rcases List.mem_cons.mp isStop with rfl | behind
    · exact ⟨place, entered, members List.mem_cons_self⟩
    · exact ih place entered (List.subset_of_cons_subset members) stop behind

/-- **A tour through the whole tree meets exactly what is reached.** -/
theorem mem_ids_iff (tour : tree.Tour [] tree.declarations stops) (id : DeclId) :
    id ∈ stops.map Stop.id ↔ tree.Reached id := by
  constructor
  · intro met
    obtain ⟨stop, isStop, rfl⟩ := List.mem_map.mp met
    exact tour.reached_of_mem none .outermost (List.Subset.refl _) stop isStop
  · rintro ⟨place, entered, isMember⟩
    -- Each place that is entered is gone through in some part of the tour.
    have part : ∃ names inner, tree.Tour names (tree.membersOf place) inner ∧ inner ⊆ stops := by
      clear isMember
      induction entered with
      | outermost => exact ⟨[], stops, tour, List.Subset.refl _⟩
      | module _ isMember isLocal ih =>
        obtain ⟨names, inner, within, subset⟩ := ih
        obtain ⟨more, deeper, inside, smaller⟩ := within.exists_inside isMember isLocal
        exact ⟨more, deeper, inside, fun stop isStop => subset (smaller isStop)⟩
    obtain ⟨names, inner, within, subset⟩ := part
    obtain ⟨stop, isStop, rfl⟩ := List.mem_map.mp (within.mem_ids isMember)
    exact List.mem_map_of_mem (subset isStop)

/-- The full name of what is met is made of the modules around it and its own name. -/
theorem named (listed : tree.Listed) (tour : tree.Tour modules ids stops) :
    ∀ place, tree.scopeOf place = ⟨modules⟩ → ids ⊆ tree.membersOf place →
      ∀ stop ∈ stops, ∃ decl, tree.decl? stop.id = some decl ∧
        decl.scopedName = ScopedName.child ⟨stop.modules⟩ decl.name := by
  induction tour with
  | nil => exact fun _ _ _ _ isStop => nomatch isStop
  | @main modules id decl ids inner rest found own _ _ ihInside ihLater =>
    intro place scope members stop isStop
    obtain ⟨⟨known, foundAgain, name⟩, -⟩ := listed place id (members List.mem_cons_self)
    obtain rfl : decl = known := Option.some.inj (found.symm.trans foundAgain)
    rw [scope] at name
    rcases List.mem_append.mp isStop with atOrIn | behind
    · rcases List.mem_cons.mp atOrIn with rfl | within
      · exact ⟨decl, found, name⟩
      · have inner : tree.scopeOf (some id) = ⟨modules ++ [decl.name]⟩ := by
          rw [scopeOf, scopedName, found]
          exact name
        exact ihInside (some id) inner (List.Subset.refl _) stop within
    · exact ihLater place scope (List.subset_of_cons_subset members) stop behind
  | @other modules id decl ids rest found _ _ ih =>
    intro place scope members stop isStop
    rcases List.mem_cons.mp isStop with rfl | behind
    · obtain ⟨⟨known, foundAgain, name⟩, -⟩ := listed place id (members List.mem_cons_self)
      rw [scope] at name
      exact ⟨known, foundAgain, name⟩
    · exact ih place scope (List.subset_of_cons_subset members) stop behind

/-- What is reached is met in the modules that its full name tells. -/
theorem mem_of_reached (listed : tree.Listed) (tour : tree.Tour [] tree.declarations stops)
    {id : DeclId} {decl : Decl} {modules : List String} (reached : tree.Reached id)
    (found : tree.decl? id = some decl)
    (name : decl.scopedName = ScopedName.child ⟨modules⟩ decl.name) : ⟨modules, id⟩ ∈ stops := by
  obtain ⟨stop, isStop, rfl⟩ := List.mem_map.mp ((tour.mem_ids_iff id).mpr reached)
  obtain ⟨known, foundAgain, nameAgain⟩ :=
    tour.named listed none rfl (List.Subset.refl _) stop isStop
  obtain rfl : decl = known := Option.some.inj (found.symm.trans foundAgain)
  have parts : modules ++ [decl.name] = stop.modules ++ [decl.name] :=
    congrArg ScopedName.parts (name.symm.trans nameAgain)
  obtain rfl : modules = stop.modules := List.append_cancel_right parts
  exact isStop

end Tour

end DeclTree

end IdlBridge
