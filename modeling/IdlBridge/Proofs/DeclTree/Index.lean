import IdlBridge.Proofs.DeclTree.Construction

/-!
# What the index leads to

Every addition enters its name into the index, but not always to effect: an interface takes over
its name, any other kind takes only a name that is free. Over a whole construction this comes down
to one rule (`DeclTree.Chosen`). A name leads to the latest interface that has it, and if there is
no interface, to the first declaration with the name that can be referred to. The index of a built
tree follows the rule (`Draft.Built.indexed`, `Indexed.find?_eq_some_iff`), and a name that leads
nowhere belongs to nothing that could be referred to (`Indexed.find?_eq_none_iff`).

The rule looks only at the labels of declarations, which no later edit changes
(`Draft.labels_modifyKind`).
-/

set_option autoImplicit false

namespace IdlBridge

/-! ## Labels -/

/-- What the index depends on: the full name of a declaration, whether it can be referred to, and
whether it is an interface. -/
structure Label where
  name : ScopedName
  isIndexed : Bool
  isInterface : Bool
  deriving DecidableEq, Repr

/-- The label of a declaration with the given name and kind. -/
def DeclKind.label (name : ScopedName) (kind : DeclKind) : Label :=
  ⟨name, kind.isIndexed, kind.isInterface⟩

/-- Interfaces can be referred to. -/
theorem DeclKind.isIndexed_of_isInterface {kind : DeclKind} (interface : kind.isInterface = true) :
    kind.isIndexed = true := by
  cases kind with
  | interface => rfl
  | _ => cases interface

namespace DeclTree

/-- The labels of all declarations, in order. -/
def labels (tree : DeclTree) : List Label :=
  tree.decls.toList.map fun decl => decl.kind.label decl.scopedName

@[simp]
theorem length_labels (tree : DeclTree) : tree.labels.length = tree.size := by
  simp [labels, size]

theorem getElem?_labels (tree : DeclTree) (id : DeclId) :
    tree.labels[id]? = (tree.decl? id).map fun decl => decl.kind.label decl.scopedName := by
  simp [labels, decl?]

/-- The declaration has the name and is of the given sort. -/
def Bears (tree : DeclTree) (sort : Label → Bool) (name : ScopedName) (id : DeclId) : Prop :=
  ∃ label, tree.labels[id]? = some label ∧ label.name = name ∧ sort label = true

/-- The declaration that a name leads to: the latest interface of that name, or without any
interface the first declaration of that name that can be referred to. -/
def Chosen (tree : DeclTree) (name : ScopedName) (id : DeclId) : Prop :=
  tree.Bears Label.isInterface name id ∧
      (∀ later, id < later → ¬ tree.Bears Label.isInterface name later) ∨
    (∀ other, ¬ tree.Bears Label.isInterface name other) ∧ tree.Bears Label.isIndexed name id ∧
      ∀ earlier, earlier < id → ¬ tree.Bears Label.isIndexed name earlier

/-- The index leads from names to the declarations chosen for them. -/
structure Indexed (tree : DeclTree) : Prop where
  chosen : ∀ name id, tree.find? name = some id → tree.Chosen name id
  absent : ∀ name, tree.find? name = none → ∀ id, ¬ tree.Bears Label.isIndexed name id

variable {tree larger : DeclTree} {name : ScopedName} {id : DeclId}

theorem bears_iff {sort : Label → Bool} :
    tree.Bears sort name id ↔
      ∃ decl, tree.decl? id = some decl ∧ decl.scopedName = name ∧
        sort (decl.kind.label decl.scopedName) = true := by
  rw [Bears, getElem?_labels]
  cases tree.decl? id with
  | none => simp
  | some decl => simp [DeclKind.label]

theorem Bears.isIndexed (interface : tree.Bears Label.isInterface name id) :
    tree.Bears Label.isIndexed name id := by
  obtain ⟨decl, found, named, isInterface⟩ := bears_iff.mp interface
  exact bears_iff.mpr ⟨decl, found, named, DeclKind.isIndexed_of_isInterface isInterface⟩

theorem Chosen.isIndexed (chosen : tree.Chosen name id) : tree.Bears Label.isIndexed name id := by
  rcases chosen with ⟨interface, -⟩ | ⟨-, indexed, -⟩
  · exact interface.isIndexed
  · exact indexed

/-- At most one declaration is chosen. -/
theorem Chosen.unique {other : DeclId} (chosen : tree.Chosen name id)
    (alsoChosen : tree.Chosen name other) : other = id := by
  rcases chosen with ⟨interface, latest⟩ | ⟨none, indexed, first⟩
  · rcases alsoChosen with ⟨otherInterface, otherLatest⟩ | ⟨otherNone, -, -⟩
    · rcases Nat.lt_trichotomy id other with later | same | earlier
      · exact absurd otherInterface (latest other later)
      · exact same.symm
      · exact absurd interface (otherLatest id earlier)
    · exact absurd interface (otherNone id)
  · rcases alsoChosen with ⟨otherInterface, -⟩ | ⟨-, otherIndexed, otherFirst⟩
    · exact absurd otherInterface (none other)
    · rcases Nat.lt_trichotomy id other with later | same | earlier
      · exact absurd indexed (otherFirst id later)
      · exact same.symm
      · exact absurd otherIndexed (first other earlier)

/-! ## Entering a name -/

/-- A new declaration bears its own name and changes nothing for the others. -/
theorem bears_of_appended {label : Label} (appended : larger.labels = tree.labels ++ [label])
    {sort : Label → Bool} :
    larger.Bears sort name id ↔
      tree.Bears sort name id ∨ id = tree.size ∧ label.name = name ∧ sort label = true := by
  rcases Nat.lt_trichotomy id tree.size with known | rfl | beyond
  · have old : larger.labels[id]? = tree.labels[id]? := by
      rw [appended, List.getElem?_append_left (by simpa using known)]
    simp [Bears, old, Nat.ne_of_lt known]
  · have new : larger.labels[tree.size]? = some label := by simp [appended, ← length_labels]
    simp [Bears, new]
  · have outside : larger.labels[id]? = none :=
      List.getElem?_eq_none (by simp [appended]; omega)
    have before : tree.labels[id]? = none := List.getElem?_eq_none (by simp; omega)
    simp [Bears, outside, before, Nat.ne_of_gt beyond]

theorem lt_size_of_bears {sort : Label → Bool} (bears : tree.Bears sort name id) :
    id < tree.size := by
  obtain ⟨label, found, -⟩ := bears
  simpa using (List.getElem?_eq_some_iff.mp found).1

/-- A choice stands as long as no interface of the same name follows. -/
theorem Chosen.of_appended {label : Label} (chosen : tree.Chosen name id)
    (appended : larger.labels = tree.labels ++ [label])
    (harmless : label.name = name → label.isInterface = false) : larger.Chosen name id := by
  have interfaces : ∀ other, larger.Bears Label.isInterface name other ↔
      tree.Bears Label.isInterface name other := by
    intro other
    rw [bears_of_appended appended, or_iff_left]
    rintro ⟨-, named, isInterface⟩
    exact absurd isInterface (by simp [harmless named])
  rcases chosen with ⟨interface, latest⟩ | ⟨none, indexed, first⟩
  · refine .inl ⟨(interfaces id).mpr interface, fun later behind => ?_⟩
    exact fun otherInterface => latest later behind ((interfaces later).mp otherInterface)
  · refine .inr ⟨fun other => mt (interfaces other).mp (none other),
      (bears_of_appended appended).mpr (.inl indexed), fun earlier before bears => ?_⟩
    rcases (bears_of_appended appended).mp bears with old | ⟨rfl, -⟩
    · exact first earlier before old
    · exact absurd (lt_size_of_bears indexed) (Nat.lt_asymm before)

/-- The name of a new declaration is entered: of an interface always, of others if it is free. -/
def enters (tree : DeclTree) (label : Label) : Bool :=
  label.isIndexed && (label.isInterface || (tree.find? label.name).isNone)

/-- The index stays right when a declaration is added and its name entered. -/
theorem Indexed.enter (indexed : tree.Indexed) {label : Label}
    (appended : larger.labels = tree.labels ++ [label])
    (indexable : label.isInterface = true → label.isIndexed = true)
    (index : larger.index =
      if tree.enters label then (label.name, tree.size) :: tree.index else tree.index) :
    larger.Indexed := by
  cases taken : tree.enters label with
  | true =>
    rw [taken, if_pos rfl] at index
    rw [enters, Bool.and_eq_true, Bool.or_eq_true, Option.isNone_iff_eq_none] at taken
    have find : ∀ name, larger.find? name =
        if name = label.name then some tree.size else tree.find? name := by
      intro name
      rw [find?, index, List.lookup_cons, find?]
      split <;> simp_all
    constructor
    · intro name id found
      rw [find] at found
      by_cases own : name = label.name
      · rw [if_pos own, Option.some.injEq] at found
        subst own found
        cases isInterface : label.isInterface with
        | true =>
          -- An interface is the latest of its name, because it is the last declaration.
          refine .inl ⟨(bears_of_appended appended).mpr (.inr ⟨rfl, rfl, isInterface⟩), ?_⟩
          intro later behind interface
          rcases (bears_of_appended appended).mp interface with old | ⟨rfl, -⟩
          · exact Nat.lt_asymm behind (lt_size_of_bears old)
          · exact Nat.lt_irrefl _ behind
        | false =>
          -- The name was free, so nothing in front of the declaration has it.
          have free := indexed.absent label.name (by simpa [isInterface] using taken.2)
          refine .inr ⟨fun other interface => ?_,
            (bears_of_appended appended).mpr (.inr ⟨rfl, rfl, taken.1⟩),
            fun earlier before bears => ?_⟩
          · rcases (bears_of_appended appended).mp interface with old | ⟨-, -, new⟩
            · exact free other old.isIndexed
            · exact absurd new (by simp [isInterface])
          · rcases (bears_of_appended appended).mp bears with old | ⟨rfl, -⟩
            · exact free earlier old
            · exact Nat.lt_irrefl _ before
      · rw [if_neg own] at found
        exact (indexed.chosen name id found).of_appended appended fun same => absurd same.symm own
    · intro name missing id bears
      rw [find] at missing
      by_cases own : name = label.name
      · simp [own] at missing
      · rw [if_neg own] at missing
        rcases (bears_of_appended appended).mp bears with old | ⟨-, same, -⟩
        · exact indexed.absent name missing id old
        · exact own same.symm
  | false =>
    rw [taken, if_neg Bool.false_ne_true] at index
    have find : ∀ name, larger.find? name = tree.find? name := fun name => by
      rw [find?, index, find?]
    have notInterface : label.isInterface = false := by
      cases isInterface : label.isInterface with
      | false => rfl
      | true => simp [enters, isInterface, indexable isInterface] at taken
    constructor
    · intro name id found
      rw [find] at found
      exact (indexed.chosen name id found).of_appended appended fun _ => notInterface
    · intro name missing id bears
      rw [find] at missing
      rcases (bears_of_appended appended).mp bears with old | ⟨-, rfl, isIndexed⟩
      · exact indexed.absent name missing id old
      · simp [enters, isIndexed, missing] at taken

/-- Only labels and the index count. -/
theorem Indexed.of_same (indexed : tree.Indexed) (labels : larger.labels = tree.labels)
    (index : larger.index = tree.index) : larger.Indexed := by
  have bears : ∀ sort name id, larger.Bears sort name id ↔ tree.Bears sort name id := by
    intro sort name id
    rw [Bears, Bears, labels]
  have find : ∀ name, larger.find? name = tree.find? name := fun name => by
    rw [find?, index, find?]
  constructor
  · intro name id found
    rw [find] at found
    simpa only [Chosen, bears] using indexed.chosen name id found
  · intro name missing id
    rw [find] at missing
    rw [bears]
    exact indexed.absent name missing id

end DeclTree

/-! ## Edits -/

namespace Draft

variable {draft : Draft}

/-- What a change of one kind keeps of a single declaration, it keeps of all. -/
theorem map_decls_modifyKind {γ : Type} {view : Decl → γ} {id : DeclId}
    {change : DeclKind → DeclKind}
    (keeps : ∀ decl : Decl, view { decl with kind := change decl.kind } = view decl) :
    (draft.modifyKind id change).tree.decls.toList.map view =
      draft.tree.decls.toList.map view := by
  apply List.ext_getElem?
  intro position
  simp only [modifyKind, mapDecls, List.getElem?_map, Array.getElem?_toList, Array.getElem?_modify]
  split
  · cases draft.tree.decls[position]? with
    | none => rfl
    | some decl => simp [keeps]
  · rfl

/-- What can be referred to stays so whatever is filled in. -/
theorem labels_modifyKind {id : DeclId} {change : DeclKind → DeclKind}
    (keeps : ∀ name kind, (change kind).label name = kind.label name) :
    (draft.modifyKind id change).tree.labels = draft.tree.labels :=
  map_decls_modifyKind fun decl => keeps decl.scopedName decl.kind

theorem labels_append (draft : Draft) (parent : Option DeclId) (name : String) (kind : DeclKind) :
    (draft.append parent name kind).tree.labels =
      draft.tree.labels ++ [kind.label (draft.memberName parent name)] := by
  simp [append, mapDecls, DeclTree.labels]

theorem labels_listUnder (draft : Draft) (parent : Option DeclId) (member : DeclId)
    (callable : Bool) :
    (draft.listUnder parent member callable).tree.labels = draft.tree.labels := by
  cases parent with
  | none => rfl
  | some id =>
    refine labels_modifyKind fun name kind => ?_
    cases kind with
    | interface parts => cases callable <;> rfl
    | _ => rfl

theorem labels_enterName (draft : Draft) (id : DeclId) :
    (draft.enterName id).tree.labels = draft.tree.labels := by
  unfold enterName
  split
  · rfl
  · split <;> rfl

theorem labels_add (draft : Draft) (parent : Option DeclId) (name : String) (kind : DeclKind) :
    (draft.add parent name kind).tree.labels =
      draft.tree.labels ++ [kind.label (draft.memberName parent name)] := by
  rw [add, labels_enterName, labels_listUnder, labels_append]

/-- Linking forward declarations changes no label. -/
theorem labels_addInterface (draft : Draft) (parent : Option DeclId) (name : String) :
    (draft.addInterface parent name).tree.labels =
      (draft.add parent name (.interface .empty)).tree.labels := by
  have linked : ∀ (target : DeclId) (own : ScopedName) (decl : Decl),
      (if decl.scopedName = own then { decl with kind := decl.kind.announce target }
        else decl).kind.label (if decl.scopedName = own then
          { decl with kind := decl.kind.announce target } else decl).scopedName =
        decl.kind.label decl.scopedName := by
    intro target own decl
    split
    · cases decl.kind with
      | forward known => cases known <;> rfl
      | _ => rfl
    · rfl
  simp only [addInterface, DeclTree.labels, mapDecls, Array.toList_map, List.map_map,
    Function.comp_def, linked]

theorem index_listUnder (draft : Draft) (parent : Option DeclId) (member : DeclId)
    (callable : Bool) :
    (draft.listUnder parent member callable).tree.index = draft.tree.index := by
  cases parent <;> rfl

/-- Entering a name follows the label of the declaration. -/
theorem index_enterName {id : DeclId} {label : Label}
    (found : draft.tree.labels[id]? = some label) :
    (draft.enterName id).tree.index =
      if draft.tree.enters label then (label.name, id) :: draft.tree.index
      else draft.tree.index := by
  rw [DeclTree.getElem?_labels, Option.map_eq_some_iff] at found
  obtain ⟨decl, here, rfl⟩ := found
  rw [enterName, here]
  by_cases taken : draft.tree.enters (decl.kind.label decl.scopedName) = true
  · rw [if_pos taken]
    exact congrArg (fun larger : Draft => larger.tree.index) (if_pos taken)
  · rw [if_neg taken]
    exact congrArg (fun larger : Draft => larger.tree.index) (if_neg taken)

/-- Appending a declaration and entering its name keeps the index right, whatever is done in
between without touching labels and index. -/
theorem indexed_enterName (indexed : draft.tree.Indexed) {larger : Draft} {name : ScopedName}
    {kind : DeclKind} (labels : larger.tree.labels = draft.tree.labels ++ [kind.label name])
    (index : larger.tree.index = draft.tree.index) :
    (larger.enterName draft.nextId).tree.Indexed := by
  have found : larger.tree.labels[draft.nextId]? = some (kind.label name) := by
    simp [labels, nextId, ← DeclTree.length_labels]
  have appended : (larger.enterName draft.nextId).tree.labels =
      draft.tree.labels ++ [kind.label name] := by
    rw [labels_enterName, labels]
  refine indexed.enter appended DeclKind.isIndexed_of_isInterface ?_
  rw [index_enterName found, DeclTree.enters, DeclTree.enters, DeclTree.find?, DeclTree.find?,
    index]
  rfl

theorem indexed_add (indexed : draft.tree.Indexed) (parent : Option DeclId) (name : String)
    (kind : DeclKind) : (draft.add parent name kind).tree.Indexed := by
  have labels : ((draft.append parent name kind).listUnder parent draft.nextId
      kind.isCallable).tree.labels =
        draft.tree.labels ++ [kind.label (draft.memberName parent name)] := by
    rw [labels_listUnder, labels_append]
  refine indexed_enterName indexed labels ?_
  rw [index_listUnder]
  rfl

theorem indexed_addInterface (indexed : draft.tree.Indexed) (parent : Option DeclId)
    (name : String) : (draft.addInterface parent name).tree.Indexed := by
  exact (indexed_add indexed parent name (.interface .empty)).of_same
    (labels_addInterface draft parent name) rfl

theorem indexed_addTypedef (indexed : draft.tree.Indexed) (parent : Option DeclId)
    (name : String) (aliased : IdlType) : (draft.addTypedef parent name aliased).tree.Indexed := by
  have typedef := indexed_add indexed parent name (.typedef aliased [draft.nextDeclarator])
  have next : draft.nextDeclarator =
      (draft.add parent name (.typedef aliased [draft.nextDeclarator])).nextId := by
    rw [nextId, ← DeclTree.length_bare, bare_add, List.length_append, DeclTree.length_bare]
    rfl
  rw [addTypedef]
  have entered := indexed_enterName typedef (labels_append _ parent name
    (.declarator (draft.aliasOf aliased))) rfl
  rwa [← next] at entered

theorem indexed_modifyKind (indexed : draft.tree.Indexed) {id : DeclId}
    {change : DeclKind → DeclKind}
    (keeps : ∀ name kind, (change kind).label name = kind.label name) :
    (draft.modifyKind id change).tree.Indexed :=
  indexed.of_same (labels_modifyKind keeps) rfl

theorem indexed_setAliasedType (indexed : draft.tree.Indexed) (declarator : DeclId)
    (type : IdlType) : (draft.setAliasedType declarator type).tree.Indexed := by
  rw [setAliasedType]
  split
  · exact indexed
  · refine indexed_modifyKind indexed fun name kind => ?_
    cases kind <;> rfl

/-- **The index of a built draft is right.** -/
theorem Built.indexed (built : draft.Built) : draft.tree.Indexed := by
  induction built with
  | empty file =>
    constructor
    · intro name id found
      cases found
    · rintro name - id ⟨label, found, -⟩
      simp [DeclTree.labels, Draft.empty, DeclTree.empty] at found
  | @edit draft built edit known ih =>
    cases edit with
    | setFilename | setFile => exact ih.of_same rfl rfl
    | addInterface parent name => exact indexed_addInterface ih parent name
    | addTypedef parent name aliased => exact indexed_addTypedef ih parent name aliased
    | addModule | addForward | addEnum | addOperation | addAttributes => exact indexed_add ih ..
    | setAliasedType declarator type => exact indexed_setAliasedType ih declarator type
    | setAlias | addBase | addPragma | setOperation | setAttributeType =>
      refine indexed_modifyKind ih fun name kind => ?_
      cases kind <;> rfl

end Draft

/-! ## Names of built trees -/

namespace DeclTree

variable {tree : DeclTree} {name : ScopedName} {id : DeclId}

theorem Built.indexed (built : tree.Built) : tree.Indexed := by
  obtain ⟨draft, built, rfl⟩ := built
  exact Draft.Built.indexed built

/-- A name leads nowhere exactly if nothing that can be referred to has it. -/
theorem Indexed.find?_eq_none_iff (indexed : tree.Indexed) :
    tree.find? name = none ↔ ∀ id, ¬ tree.Bears Label.isIndexed name id := by
  constructor
  · exact indexed.absent name
  · intro free
    cases found : tree.find? name with
    | none => rfl
    | some id => exact absurd (indexed.chosen name id found).isIndexed (free id)

/-- **A name leads to the declaration that is chosen for it.** -/
theorem Indexed.find?_eq_some_iff (indexed : tree.Indexed) :
    tree.find? name = some id ↔ tree.Chosen name id := by
  constructor
  · exact indexed.chosen name id
  · intro chosen
    cases found : tree.find? name with
    | none => exact absurd chosen.isIndexed (indexed.absent name found id)
    | some other => rw [chosen.unique (indexed.chosen name other found)]

/-- The declaration that a name leads to has that name. -/
theorem Indexed.scopedName_of_find? (indexed : tree.Indexed) (found : tree.find? name = some id) :
    tree.scopedName id = name := by
  obtain ⟨decl, here, named, -⟩ := bears_iff.mp (indexed.chosen name id found).isIndexed
  rw [scopedName, here]
  exact named

end DeclTree

end IdlBridge
