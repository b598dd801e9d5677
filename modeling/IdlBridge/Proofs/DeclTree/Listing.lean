import IdlBridge.Proofs.DeclTree.Growth

/-!
# Where declarations are listed

Outermost declarations are listed by the tree, the others by their parents: a module lists all its
members, an interface lists its callables apart from the rest. One function gives all these lists
(`DeclTree.listing`). An addition puts the new declaration at the end of one of them and leaves the
others alone (`Draft.listing_add`). What interfaces hold besides, their bases and pragmas, is not
touched by additions (`Draft.partOf_add`).
-/

set_option autoImplicit false

namespace IdlBridge

namespace DeclKind

/-- The members that a declaration lists, callables apart from others. -/
def lists (callable : Bool) : DeclKind → List DeclId
  | module members => if callable then [] else members
  | interface parts => if callable then parts.callables else parts.contents
  | _ => []

/-- The pragmas of an interface. -/
def pragmas : DeclKind → List Pragma
  | interface parts => parts.pragmas
  | _ => []

/-- The bases of an interface. -/
def bases : DeclKind → List DeclId
  | interface parts => parts.bases
  | _ => []

/-- A part of declarations that neither new members nor announced interfaces change. -/
structure IsKept {γ : Type} (part : DeclKind → List γ) : Prop where
  listMember : ∀ kind member callable, part (kind.listMember member callable) = part kind
  announce : ∀ target kind, part (kind.announce target) = part kind

/-- The kind can list members of the given sort. -/
def canList (callable : Bool) : DeclKind → Bool
  | module _ => !callable
  | interface _ => true
  | _ => false

theorem canList_bare (callable : Bool) (kind : DeclKind) :
    kind.bare.canList callable = kind.canList callable := by
  cases kind <;> rfl

theorem lists_listMember {kind : DeclKind} {callable : Bool} (can : kind.canList callable = true)
    (member : DeclId) (sort : Bool) :
    (kind.listMember member callable).lists sort =
      kind.lists sort ++ if sort = callable then [member] else [] := by
  cases kind with
  | module members => cases callable <;> cases sort <;> simp_all [listMember, lists, canList]
  | interface parts => cases callable <;> cases sort <;> simp [listMember, lists]
  | _ => cases can

theorem isKept_pragmas : IsKept pragmas where
  listMember kind _ callable := by
    cases kind with
    | interface parts => cases callable <;> rfl
    | _ => rfl
  announce _ kind := by
    cases kind with
    | forward known => cases known <;> rfl
    | _ => rfl

theorem isKept_bases : IsKept bases where
  listMember kind _ callable := by
    cases kind with
    | interface parts => cases callable <;> rfl
    | _ => rfl
  announce _ kind := by
    cases kind with
    | forward known => cases known <;> rfl
    | _ => rfl

end DeclKind

namespace DeclTree

/-- The declarations listed by a parent or by the tree itself, callables apart from others. -/
def listing (tree : DeclTree) : Option DeclId → Bool → List DeclId
  | none, callable => if callable then [] else tree.declarations
  | some id, callable => ((tree.kind? id).map (·.lists callable)).getD []

/-- A part of the declaration with the given number. -/
def partOf {γ : Type} (tree : DeclTree) (part : DeclKind → List γ) (id : DeclId) : List γ :=
  ((tree.kind? id).map part).getD []

theorem partOf_of_decl? {γ : Type} {tree : DeclTree} {id : DeclId} {decl : Decl}
    (found : tree.decl? id = some decl) (part : DeclKind → List γ) :
    tree.partOf part id = part decl.kind := by
  rw [partOf, kind?, found]
  rfl

/-- A parent can list members of the given sort. -/
def CanList (tree : DeclTree) : Option DeclId → Bool → Prop
  | none, callable => callable = false
  | some id, callable => ∃ kind, tree.kind? id = some kind ∧ kind.canList callable = true

/-- Whether a declaration can list members is known before any are listed. -/
theorem canList_of_bare {tree : DeclTree} {id : DeclId} {decl : Decl} {callable : Bool}
    (found : tree.bare[id]? = some decl) (can : decl.kind.canList callable = true) :
    tree.CanList (some id) callable := by
  rw [getElem?_bare, Option.map_eq_some_iff] at found
  obtain ⟨full, here, rfl⟩ := found
  refine ⟨full.kind, by rw [kind?, here]; rfl, ?_⟩
  rw [← DeclKind.canList_bare]
  exact can

theorem interface_of_bare {tree : DeclTree} {id : DeclId} {decl : Decl}
    (found : tree.bare[id]? = some decl) (isInterface : decl.kind = .interface .empty) :
    ∃ parts, tree.kind? id = some (.interface parts) := by
  rw [getElem?_bare, Option.map_eq_some_iff] at found
  obtain ⟨full, here, rfl⟩ := found
  rw [kind?, here]
  cases kind : full.kind with
  | interface parts => exact ⟨parts, congrArg some kind⟩
  | _ => rw [Decl.bare, kind] at isInterface; cases isInterface

end DeclTree

namespace Draft

variable {draft : Draft}

/-! ## Kinds after an addition -/

theorem kind?_append (draft : Draft) (parent : Option DeclId) (name : String) (kind : DeclKind)
    (id : DeclId) :
    (draft.append parent name kind).tree.kind? id =
      if id = draft.nextId then some kind else draft.tree.kind? id := by
  simp only [DeclTree.kind?, DeclTree.decl?, append, mapDecls, Array.getElem?_push]
  split
  · rw [if_pos ‹_›]
    rfl
  · rw [if_neg ‹_›]

theorem kind?_enterName (draft : Draft) (entered id : DeclId) :
    (draft.enterName entered).tree.kind? id = draft.tree.kind? id := by
  unfold enterName
  split
  · rfl
  · split <;> rfl

/-- Listing a declaration changes nothing but its parent. -/
theorem kind?_listUnder (draft : Draft) (parent : Option DeclId) (member : DeclId)
    (callable : Bool) (id : DeclId) :
    (draft.listUnder parent member callable).tree.kind? id =
      if parent = some id then (draft.tree.kind? id).map (·.listMember member callable)
      else draft.tree.kind? id := by
  cases parent with
  | none => exact (if_neg nofun).symm
  | some owner =>
    rw [listUnder, kind?_modifyKind]
    by_cases own : owner = id
    · rw [if_pos own, if_pos (congrArg some own)]
    · rw [if_neg own, if_neg fun same => own (Option.some.inj same)]

theorem kind?_nextId (draft : Draft) : draft.tree.kind? draft.nextId = none := by
  have missing : draft.tree.decls[draft.nextId]? = none := Array.getElem?_eq_none (Nat.le_refl _)
  rw [DeclTree.kind?, DeclTree.decl?, missing, Option.map_none]

/-- An addition makes the new declaration and lists it under its parent. -/
theorem kind?_add {parent : Option DeclId} (known : draft.Knows parent) (name : String)
    (kind : DeclKind) (id : DeclId) :
    (draft.add parent name kind).tree.kind? id =
      if id = draft.nextId then some kind
      else if parent = some id then
        (draft.tree.kind? id).map (·.listMember draft.nextId kind.isCallable)
      else draft.tree.kind? id := by
  rw [add, kind?_enterName, kind?_listUnder, kind?_append]
  by_cases new : id = draft.nextId
  · have other : parent ≠ some id := by
      rintro rfl
      exact Nat.lt_irrefl _ (new ▸ known id rfl)
    rw [if_neg other, if_pos new, if_pos new]
  · rw [if_neg new, if_neg new]

/-- What does not depend on the targets of forward declarations is the same for an interface as for
any other addition. -/
theorem map_kind?_addInterface {γ : Type} {view : DeclKind → γ}
    (keeps : ∀ target kind, view (kind.announce target) = view kind) (parent : Option DeclId)
    (name : String) (id : DeclId) :
    ((draft.addInterface parent name).tree.kind? id).map view =
      ((draft.add parent name (.interface .empty)).tree.kind? id).map view := by
  simp only [DeclTree.kind?, DeclTree.decl?, addInterface, mapDecls, Array.getElem?_map,
    Option.map_map]
  congr 1
  funext decl
  simp only [Function.comp_apply]
  split
  · exact keeps _ _
  · rfl

/-! ## Lists after an addition -/

theorem declarations_enterName (draft : Draft) (id : DeclId) :
    (draft.enterName id).tree.declarations = draft.tree.declarations := by
  unfold enterName
  split
  · rfl
  · split <;> rfl

theorem declarations_add (draft : Draft) (parent : Option DeclId) (name : String)
    (kind : DeclKind) :
    (draft.add parent name kind).tree.declarations = draft.tree.declarations ++
      if parent = none then [draft.nextId] else [] := by
  rw [add, declarations_enterName]
  cases parent with
  | none => rfl
  | some owner =>
    rw [if_neg (by simp), List.append_nil]
    rfl

/-- **A new declaration is listed once**, at the end of the list of its parent. -/
theorem listing_add {parent : Option DeclId} (known : draft.Knows parent) (name : String)
    (kind : DeclKind) (can : draft.tree.CanList parent kind.isCallable)
    (empty : ∀ callable, kind.lists callable = []) (place : Option DeclId) (callable : Bool) :
    (draft.add parent name kind).tree.listing place callable =
      draft.tree.listing place callable ++
        if place = parent ∧ callable = kind.isCallable then [draft.nextId] else [] := by
  cases place with
  | none =>
    rw [DeclTree.listing, DeclTree.listing, declarations_add]
    cases parent with
    | none =>
      have plain : kind.isCallable = false := can
      cases callable <;> simp [plain]
    | some owner => simp
  | some id =>
    rw [DeclTree.listing, DeclTree.listing, kind?_add known]
    by_cases new : id = draft.nextId
    · -- The new declaration lists nothing yet, and it is not its own parent.
      have other : some id ≠ parent := by
        rintro rfl
        exact Nat.lt_irrefl _ (new ▸ known id rfl)
      rw [if_pos new, if_neg fun same => other same.1, new, kind?_nextId]
      simp [empty]
    · rw [if_neg new]
      by_cases own : parent = some id
      · subst own
        obtain ⟨owner, isOwner, able⟩ := can
        simp [isOwner, DeclKind.lists_listMember able]
      · rw [if_neg own, if_neg fun same => own same.1.symm, List.append_nil]

theorem partOf_append {γ : Type} {part : DeclKind → List γ} (draft : Draft)
    (parent : Option DeclId) (name : String) {kind : DeclKind} (empty : part kind = [])
    (id : DeclId) :
    (draft.append parent name kind).tree.partOf part id = draft.tree.partOf part id := by
  rw [DeclTree.partOf, DeclTree.partOf, kind?_append]
  by_cases new : id = draft.nextId
  · rw [if_pos new, new, kind?_nextId]
    exact empty
  · rw [if_neg new]

/-- An addition leaves alone what interfaces hold besides their members. -/
theorem partOf_add {γ : Type} {part : DeclKind → List γ} (kept : DeclKind.IsKept part)
    {parent : Option DeclId} (name : String) {kind : DeclKind} (empty : part kind = [])
    (id : DeclId) :
    (draft.add parent name kind).tree.partOf part id = draft.tree.partOf part id := by
  rw [← partOf_append draft parent name empty, add, DeclTree.partOf, kind?_enterName,
    kind?_listUnder, DeclTree.partOf]
  by_cases own : parent = some id
  · rw [if_pos own, Option.map_map]
    simp only [Function.comp_def, kept.listMember]
  · rw [if_neg own]

/-! ## Other changes -/

/-- A declaration that lists nothing leaves all lists alone while it is not listed itself. -/
theorem listing_append (draft : Draft) (parent : Option DeclId) (name : String) {kind : DeclKind}
    (empty : ∀ callable, kind.lists callable = []) (place : Option DeclId) (callable : Bool) :
    (draft.append parent name kind).tree.listing place callable =
      draft.tree.listing place callable := by
  cases place with
  | none => rfl
  | some id =>
    rw [DeclTree.listing, DeclTree.listing, kind?_append]
    by_cases new : id = draft.nextId
    · rw [if_pos new, new, kind?_nextId]
      exact empty callable
    · rw [if_neg new]

theorem listing_enterName (draft : Draft) (id : DeclId) (place : Option DeclId) (callable : Bool) :
    (draft.enterName id).tree.listing place callable = draft.tree.listing place callable := by
  cases place with
  | none => rw [DeclTree.listing, DeclTree.listing, declarations_enterName]
  | some owner => rw [DeclTree.listing, DeclTree.listing, kind?_enterName]

/-- A typedef is listed, and its declarator is not. -/
theorem listing_addTypedef {parent : Option DeclId} (known : draft.Knows parent) (name : String)
    (can : draft.tree.CanList parent false) (aliased : IdlType) (place : Option DeclId)
    (callable : Bool) :
    (draft.addTypedef parent name aliased).tree.listing place callable =
      draft.tree.listing place callable ++
        if place = parent ∧ callable = false then [draft.nextId] else [] := by
  rw [addTypedef, listing_enterName, listing_append _ _ _ fun _ => rfl]
  exact listing_add known name (.typedef aliased _) can (fun _ => rfl) place callable

theorem partOf_addTypedef {γ : Type} {part : DeclKind → List γ} (kept : DeclKind.IsKept part)
    {parent : Option DeclId} (name : String) {aliased : IdlType}
    (empty : ∀ declarators, part (.typedef aliased declarators) = [])
    (alsoEmpty : ∀ target, part (.declarator target) = []) (id : DeclId) :
    (draft.addTypedef parent name aliased).tree.partOf part id = draft.tree.partOf part id := by
  rw [addTypedef, DeclTree.partOf, kind?_enterName]
  exact (partOf_append _ _ _ (alsoEmpty _) id).trans (partOf_add kept name (empty _) id)

/-- An interface is listed as any other declaration. -/
theorem listing_addInterface {parent : Option DeclId} (known : draft.Knows parent) (name : String)
    (can : draft.tree.CanList parent false) (place : Option DeclId) (callable : Bool) :
    (draft.addInterface parent name).tree.listing place callable =
      draft.tree.listing place callable ++
        if place = parent ∧ callable = false then [draft.nextId] else [] := by
  have announced : ∀ target kind, (DeclKind.announce target kind).lists callable =
      kind.lists callable := by
    intro target kind
    cases kind with
    | forward known => cases known <;> rfl
    | _ => rfl
  have added : (draft.add parent name (.interface .empty)).tree.listing place callable =
      draft.tree.listing place callable ++
        if place = parent ∧ callable = false then [draft.nextId] else [] :=
    listing_add known name (.interface .empty) can (fun sort => by cases sort <;> rfl) place
      callable
  rw [← added]
  cases place with
  | none => rfl
  | some id => rw [DeclTree.listing, map_kind?_addInterface announced, DeclTree.listing]

theorem partOf_addInterface {γ : Type} {part : DeclKind → List γ} (kept : DeclKind.IsKept part)
    {parent : Option DeclId} (name : String) (empty : part (.interface .empty) = []) (id : DeclId) :
    (draft.addInterface parent name).tree.partOf part id = draft.tree.partOf part id := by
  rw [DeclTree.partOf, map_kind?_addInterface kept.announce]
  exact partOf_add kept name empty id

theorem listing_addPragma (draft : Draft) (interface : DeclId) (pragma : Pragma)
    (place : Option DeclId) (callable : Bool) :
    (draft.addPragma interface pragma).tree.listing place callable =
      draft.tree.listing place callable := by
  cases place with
  | none => rfl
  | some id =>
    rw [DeclTree.listing, addPragma, map_kind?_modifyKind, DeclTree.listing]
    intro kind
    cases kind <;> rfl

/-- A pragma goes to the end of the pragmas of its interface. -/
theorem pragmas_addPragma {interface : DeclId} {parts : Interface}
    (isInterface : draft.tree.kind? interface = some (.interface parts)) (pragma : Pragma)
    (id : DeclId) :
    (draft.addPragma interface pragma).tree.partOf DeclKind.pragmas id =
      draft.tree.partOf DeclKind.pragmas id ++ if interface = id then [pragma] else [] := by
  rw [DeclTree.partOf, DeclTree.partOf, addPragma, kind?_modifyKind]
  by_cases own : interface = id
  · subst own
    rw [if_pos rfl, if_pos rfl, isInterface]
    rfl
  · rw [if_neg own, if_neg own, List.append_nil]

theorem bases_addPragma (draft : Draft) (interface : DeclId) (pragma : Pragma) (id : DeclId) :
    (draft.addPragma interface pragma).tree.partOf DeclKind.bases id =
      draft.tree.partOf DeclKind.bases id := by
  rw [DeclTree.partOf, addPragma, map_kind?_modifyKind, DeclTree.partOf]
  intro kind
  cases kind <;> rfl

/-! ## The main file -/

theorem file_enterName (draft : Draft) (id : DeclId) :
    (draft.enterName id).tree.file = draft.tree.file := by
  unfold enterName
  split
  · rfl
  · split <;> rfl

theorem file_add (draft : Draft) (parent : Option DeclId) (name : String) (kind : DeclKind) :
    (draft.add parent name kind).tree.file = draft.tree.file := by
  rw [add, file_enterName]
  cases parent <;> rfl

theorem file_addTypedef (draft : Draft) (parent : Option DeclId) (name : String)
    (aliased : IdlType) : (draft.addTypedef parent name aliased).tree.file = draft.tree.file := by
  rw [addTypedef, file_enterName]
  exact file_add ..

end Draft

end IdlBridge
