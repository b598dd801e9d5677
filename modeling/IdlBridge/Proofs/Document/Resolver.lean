import IdlBridge.Proofs.Document.Meaning

/-!
# The resolver agrees with the meaning of types

The resolver follows a typedef with a table of what it has worked out and a list of typedefs it
may still use. Whatever is in the table, as long as it is sound, the resolver finds exactly the
meanings: what it finds is a meaning and goes into a table that is sound again
(`aliasType_sound`), and what has a meaning is found (`aliasType_complete`), because the typedefs
that are no longer free lie before it on an acyclic path. If it reports a cycle there is one
(`aliasType_cycle`).

Hence the table of all typedefs exists exactly when every typedef has a meaning, and with it the
type of an expression is its meaning (`typeOf_eq_ok_iff`).
-/

set_option autoImplicit false

namespace IdlBridge

namespace TypeAlias

/-- Without one typedef the others are found as before. -/
theorem find?_remove_of_ne (free : List TypeAlias) {declarator other : DeclId}
    (different : other ≠ declarator) :
    find? (remove free declarator) other = find? free other := by
  induction free with
  | nil => rfl
  | cons entry free ih =>
    by_cases here : entry.declarator = declarator
    · simp [find?, remove, here, different.symm]
    · have kept : remove (entry :: free) declarator = entry :: remove free declarator := by
        simp [remove, here]
      rw [kept, find?, find?, List.find?_cons, List.find?_cons]
      split
      · rfl
      · exact ih

theorem record_eq_ok_iff {entry : TypeAlias} {target type : IdlType} {table larger : AliasTable} :
    entry.record (target, table) = .ok (type, larger) ↔
      entry.wrap target = .ok type ∧ larger = (entry.declarator, type) :: table := by
  rw [record, map_eq_ok_iff]
  constructor
  · rintro ⟨wrapped, found, same⟩
    cases same
    exact ⟨found, rfl⟩
  · rintro ⟨found, rfl⟩
    exact ⟨type, found, rfl⟩

/-- A typedef that cannot take its target is a sequence of sequences. -/
theorem record_ne_cycle (entry : TypeAlias) (found : IdlType × AliasTable) (name : ScopedName) :
    entry.record found ≠ .error (.aliasCycle name) := by
  rw [record, wrap]
  split
  · split <;> simp [Except.map]
  · simp [Except.map]

end TypeAlias

/-- Reading an expression follows no typedef, so it reports no cycle. -/
theorem DeclTree.readType_ne_cycle (tree : DeclTree) (scope name : ScopedName)
    (context text : String) : tree.readType scope context text ≠ .error (.aliasCycle name) := by
  rw [readType]
  split
  · simp
  · split
    · simp
    · split
      · simp
      · split <;> simp

/-- A typedef that is not in the table is worked out from its target. -/
theorem aliasType_of_find {read : TypeAlias → Except LoadError TypeReference}
    {name : DeclId → ScopedName} {free : List TypeAlias} {table : AliasTable}
    {declarator : DeclId} {entry : TypeAlias} (miss : table.lookup declarator = none)
    (found : TypeAlias.find? free declarator = some entry) :
    aliasType read name free table declarator =
      match read entry with
      | .error error => .error error
      | .ok (.known type) => entry.record (type, table)
      | .ok (.aliased next) =>
        (aliasType read name (TypeAlias.remove free declarator) table next).bind entry.record := by
  rw [aliasType, miss]
  dsimp only
  split
  · rename_i absent
    cases found.symm.trans absent
  · rename_i other again
    cases found.symm.trans again
    rfl

/-- A typedef in the table has the type that stands there. -/
theorem aliasType_of_lookup {read : TypeAlias → Except LoadError TypeReference}
    {name : DeclId → ScopedName} {free : List TypeAlias} {table : AliasTable}
    {declarator : DeclId} {type : IdlType} (hit : table.lookup declarator = some type) :
    aliasType read name free table declarator = .ok (type, table) := by
  rw [aliasType, hit]

namespace Outline

variable {outline : Outline}

/-- Every type in the table is the meaning of its typedef. -/
def Sound (outline : Outline) (table : AliasTable) : Prop :=
  ∀ entry ∈ table, outline.Means (.typedef entry.1) entry.2

theorem Sound.nil : outline.Sound [] := by
  intro entry listed
  cases listed

theorem Sound.lookup {table : AliasTable} (sound : outline.Sound table) {declarator : DeclId}
    {type : IdlType} (found : table.lookup declarator = some type) :
    (declarator, type) ∈ table ∧ outline.Means (.typedef declarator) type := by
  obtain ⟨before, after, split, -⟩ := List.lookup_eq_some_iff.mp found
  have listed : (declarator, type) ∈ table := by simp [split]
  exact ⟨listed, sound _ listed⟩

/-! ## What is found is a meaning -/

/-- A table that has grown is sound, holds what it held, and has an entry for a typedef. -/
structure Answers (outline : Outline) (table larger : AliasTable) (declarator : DeclId)
    (type : IdlType) : Prop where
  means : outline.Means (.typedef declarator) type
  sound : outline.Sound larger
  keeps : table ⊆ larger
  listed : (declarator, type) ∈ larger

/-- Recording a typedef whose target is known answers it. -/
theorem Answers.of_record (registered : outline.Registered) {entry : TypeAlias}
    {target type : IdlType} {table known larger : AliasTable} (listed : entry ∈ outline.aliases)
    (means : outline.Means (.expression entry.scope entry.target) target)
    (sound : outline.Sound known) (keeps : table ⊆ known)
    (recorded : entry.record (target, known) = .ok (type, larger)) :
    outline.Answers table larger entry.declarator type := by
  obtain ⟨wrapped, rfl⟩ := TypeAlias.record_eq_ok_iff.mp recorded
  have meaning := Means.of_wrap registered listed means wrapped
  refine ⟨meaning, ?_, ?_, List.mem_cons_self⟩
  · intro other isListed
    rcases List.mem_cons.mp isListed with rfl | earlier
    · exact meaning
    · exact sound other earlier
  · exact List.subset_cons_of_subset _ keeps

theorem aliasType_sound (registered : outline.Registered) {free : List TypeAlias}
    {table larger : AliasTable} {declarator : DeclId} {type : IdlType}
    (subset : free ⊆ outline.aliases) (sound : outline.Sound table)
    (found : aliasType outline.readTarget outline.draft.tree.scopedName free table declarator =
      .ok (type, larger)) :
    outline.Answers table larger declarator type := by
  fun_induction aliasType outline.readTarget outline.draft.tree.scopedName free table declarator
    generalizing type larger with
  | case1 free declarator known hit =>
    cases found
    obtain ⟨listed, means⟩ := sound.lookup hit
    exact ⟨means, sound, fun _ => id, listed⟩
  | case2 | case3 => cases found
  | case4 free declarator _ entry free? target read =>
    have listed := subset (List.mem_of_find?_eq_some free?)
    have same : entry.declarator = declarator := by simpa using List.find?_some free?
    cases same
    exact .of_record registered listed (.of_known read) sound (fun _ => id) found
  | case5 free declarator _ entry free? next read ih =>
    have listed := subset (List.mem_of_find?_eq_some free?)
    have same : entry.declarator = declarator := by simpa using List.find?_some free?
    cases same
    obtain ⟨⟨target, known⟩, inner, recorded⟩ := bind_eq_ok_iff.mp found
    have answer := ih (fun _ member => subset (List.eraseP_subset member)) inner
    exact .of_record registered listed (.of_aliased read answer.means) answer.sound answer.keeps
      recorded

/-! ## What has a meaning is found -/

/-- The typedefs on the path from a declarator are still free. -/
def FreeFrom (outline : Outline) (free : List TypeAlias) (declarator : DeclId) : Prop :=
  ∀ other, Relation.ReflTransGen outline.RefersTo declarator other →
    TypeAlias.find? free other = TypeAlias.find? outline.aliases other

/-- Using up a typedef with a meaning leaves the rest of its path free. -/
theorem FreeFrom.remove (registered : outline.Registered) {free : List TypeAlias}
    {declarator next : DeclId} {type : IdlType} (path : outline.FreeFrom free declarator)
    (means : outline.Means (.typedef declarator) type)
    (refers : outline.RefersTo declarator next) :
    outline.FreeFrom (TypeAlias.remove free declarator) next := by
  intro other reached
  have different : other ≠ declarator := by
    rintro rfl
    exact means.acyclic registered (Relation.TransGen.head' refers reached)
  rw [TypeAlias.find?_remove_of_ne free different]
  exact path other (Relation.ReflTransGen.head refers reached)

theorem aliasType_complete (registered : outline.Registered) {declarator : DeclId}
    {type : IdlType} (means : outline.Means (.typedef declarator) type) :
    ∀ (free : List TypeAlias) (table : AliasTable), outline.FreeFrom free declarator →
      outline.Sound table → ∃ larger,
        aliasType outline.readTarget outline.draft.tree.scopedName free table declarator =
          .ok (type, larger) := by
  -- A hit in the table gives the only meaning there is, whatever the typedef refers to.
  have answered : ∀ {declarator : DeclId} {type known : IdlType} (free : List TypeAlias)
      {table : AliasTable}, outline.Means (.typedef declarator) type → outline.Sound table →
      table.lookup declarator = some known → ∃ larger,
        aliasType outline.readTarget outline.draft.tree.scopedName free table declarator =
          .ok (type, larger) := by
    intro declarator type known free table meaning sound hit
    cases meaning.unique registered (sound.lookup hit).2
    exact ⟨table, aliasType_of_lookup hit⟩
  refine means.typedef_induction registered ?_ ?_
  · intro entry listed target type read wrapped free table path sound
    have meaning := Means.of_wrap registered listed (.of_known read) wrapped
    have here := (path _ .refl).trans (registered.find?_eq_some listed)
    cases hit : table.lookup entry.declarator with
    | some known => exact answered free meaning sound hit
    | none =>
      rw [aliasType_of_find hit here, read]
      exact ⟨_, TypeAlias.record_eq_ok_iff.mpr ⟨wrapped, rfl⟩⟩
  · intro entry listed next target type read nextMeans ih wrapped free table path sound
    have meaning := Means.of_wrap registered listed (.of_aliased read nextMeans) wrapped
    have here := (path _ .refl).trans (registered.find?_eq_some listed)
    cases hit : table.lookup entry.declarator with
    | some known => exact answered free meaning sound hit
    | none =>
      have rest := path.remove registered meaning ⟨entry, listed, rfl, read⟩
      obtain ⟨larger, found⟩ := ih _ table rest sound
      rw [aliasType_of_find hit here, read]
      simp only [found, Except.bind]
      exact ⟨_, TypeAlias.record_eq_ok_iff.mpr ⟨wrapped, rfl⟩⟩

/-! ## Reported cycles are cycles -/

/-- The typedefs that are no longer free lead to the declarator at hand. -/
def UsedBefore (outline : Outline) (free : List TypeAlias) (declarator : DeclId) : Prop :=
  ∀ entry ∈ outline.aliases, TypeAlias.find? free entry.declarator = none →
    Relation.TransGen outline.RefersTo entry.declarator declarator

/-- Following a reference keeps that the used typedefs lead to where the resolver is. -/
theorem UsedBefore.remove {free : List TypeAlias} {declarator next : DeclId}
    (used : outline.UsedBefore free declarator) (refers : outline.RefersTo declarator next) :
    outline.UsedBefore (TypeAlias.remove free declarator) next := by
  intro entry listed absent
  by_cases same : entry.declarator = declarator
  · rw [same]
    exact .single refers
  · rw [TypeAlias.find?_remove_of_ne free same] at absent
    exact (used entry listed absent).tail refers

theorem aliasType_cycle (registered : outline.Registered) {free : List TypeAlias}
    {table : AliasTable} {declarator : DeclId} {name : ScopedName}
    (subset : free ⊆ outline.aliases) (used : outline.UsedBefore free declarator)
    (isAlias : ∃ entry ∈ outline.aliases, entry.declarator = declarator)
    (failed : aliasType outline.readTarget outline.draft.tree.scopedName free table declarator =
      .error (.aliasCycle name)) :
    ∃ cyclic, name = outline.draft.tree.scopedName cyclic ∧
      Relation.TransGen outline.RefersTo cyclic cyclic := by
  fun_induction aliasType outline.readTarget outline.draft.tree.scopedName free table declarator with
  | case1 => cases failed
  | case2 free declarator _ absent =>
    cases failed
    obtain ⟨entry, listed, rfl⟩ := isAlias
    exact ⟨entry.declarator, rfl, used entry listed absent⟩
  | case3 free declarator _ entry _ error read =>
    cases failed
    exact absurd read (DeclTree.readType_ne_cycle _ _ _ _ _)
  | case4 free declarator _ entry => exact absurd failed (entry.record_ne_cycle _ _)
  | case5 free declarator _ entry free? next read ih =>
    have listed := subset (List.mem_of_find?_eq_some free?)
    have same : entry.declarator = declarator := by simpa using List.find?_some free?
    obtain ⟨target, kind⟩ := kind?_of_aliased read
    cases inner : aliasType outline.readTarget outline.draft.tree.scopedName
        (TypeAlias.remove free declarator) table next with
    | error cause =>
      rw [inner] at failed
      cases failed
      exact ih (fun _ member => subset (List.eraseP_subset member))
        (used.remove ⟨entry, listed, same, read⟩) (registered.exists_alias kind) inner
    | ok found =>
      rw [inner] at failed
      exact absurd failed (entry.record_ne_cycle _ _)

/-! ## The table of all typedefs -/

theorem typeOfAlias_sound (registered : outline.Registered) {table larger : AliasTable}
    {declarator : DeclId} {type : IdlType} (sound : outline.Sound table)
    (found : outline.typeOfAlias table declarator = .ok (type, larger)) :
    outline.Answers table larger declarator type :=
  aliasType_sound registered (fun _ => id) sound found

theorem typeOfAlias_complete (registered : outline.Registered) {table : AliasTable}
    {declarator : DeclId} {type : IdlType} (sound : outline.Sound table)
    (means : outline.Means (.typedef declarator) type) :
    ∃ larger, outline.typeOfAlias table declarator = .ok (type, larger) :=
  aliasType_complete registered means outline.aliases table (fun _ _ => rfl) sound

theorem typeOfAlias_cycle (registered : outline.Registered) {table : AliasTable}
    {declarator : DeclId} {name : ScopedName}
    (isAlias : ∃ entry ∈ outline.aliases, entry.declarator = declarator)
    (failed : outline.typeOfAlias table declarator = .error (.aliasCycle name)) :
    ∃ cyclic, name = outline.draft.tree.scopedName cyclic ∧
      Relation.TransGen outline.RefersTo cyclic cyclic := by
  refine aliasType_cycle registered (fun _ => id) ?_ isAlias failed
  intro entry listed absent
  cases absent.symm.trans (registered.find?_eq_some listed)

/-- A table that is made for some typedefs is sound and answers each of them. -/
theorem foldlM_typeOfAlias_sound (registered : outline.Registered) {entries : List TypeAlias}
    {table larger : AliasTable} (sound : outline.Sound table)
    (done : entries.foldlM
      (fun table entry => (outline.typeOfAlias table entry.declarator).map (·.2)) table =
        .ok larger) :
    outline.Sound larger ∧ table ⊆ larger ∧
      ∀ entry ∈ entries, ∃ type, (entry.declarator, type) ∈ larger := by
  induction entries generalizing table with
  | nil =>
    cases done
    exact ⟨sound, fun _ => id, by simp⟩
  | cons entry entries ih =>
    rw [List.foldlM_cons, bind_eq_ok_iff] at done
    obtain ⟨middle, first, rest⟩ := done
    obtain ⟨⟨type, _⟩, found, rfl⟩ := map_eq_ok_iff.mp first
    have answer := typeOfAlias_sound registered sound found
    obtain ⟨soundAfter, keeps, answered⟩ := ih answer.sound rest
    refine ⟨soundAfter, fun _ member => keeps (answer.keeps member), ?_⟩
    intro other listed
    rcases List.mem_cons.mp listed with rfl | later
    · exact ⟨type, keeps answer.listed⟩
    · exact answered other later

theorem foldlM_typeOfAlias_complete (registered : outline.Registered) {entries : List TypeAlias}
    {table : AliasTable} (sound : outline.Sound table)
    (meaningful : ∀ entry ∈ entries, ∃ type, outline.Means (.typedef entry.declarator) type) :
    ∃ larger, entries.foldlM
      (fun table entry => (outline.typeOfAlias table entry.declarator).map (·.2)) table =
        .ok larger := by
  induction entries generalizing table with
  | nil => exact ⟨table, rfl⟩
  | cons entry entries ih =>
    obtain ⟨type, means⟩ := meaningful entry List.mem_cons_self
    obtain ⟨middle, found⟩ := typeOfAlias_complete registered sound means
    have answer := typeOfAlias_sound registered sound found
    obtain ⟨larger, rest⟩ := ih answer.sound
      fun other listed => meaningful other (List.mem_cons_of_mem _ listed)
    refine ⟨larger, ?_⟩
    rw [List.foldlM_cons, found]
    exact rest

/-! ## Expressions and callables -/

/-- **The type of an expression is its meaning**, whichever sound table is used. -/
theorem typeOf_eq_ok_iff (registered : outline.Registered) {table : AliasTable}
    (sound : outline.Sound table) {scope : ScopedName} {context text : String} {type : IdlType} :
    outline.typeOf table scope context text = .ok type ↔
      outline.Means (.expression scope text) type := by
  rw [means_expression_iff context, typeOf]
  cases read : outline.draft.tree.readType scope context text with
  | error cause => simp
  | ok reference =>
    cases reference with
    | known found => simp
    | aliased declarator =>
      simp only [map_eq_ok_iff, Except.ok.injEq, TypeReference.aliased.injEq, reduceCtorEq,
        false_or]
      constructor
      · rintro ⟨⟨found, larger⟩, resolved, rfl⟩
        exact ⟨declarator, rfl, (typeOfAlias_sound registered sound resolved).means⟩
      · rintro ⟨_, rfl, means⟩
        obtain ⟨larger, resolved⟩ := typeOfAlias_complete registered sound means
        exact ⟨(type, larger), resolved, rfl⟩

/-- A parameter has the name and direction that are written and the type that is meant. -/
structure ParameterMeans (outline : Outline) (scope : ScopedName) (text : ParameterText)
    (param : Parameter) : Prop where
  name : param.name = text.name
  direction : param.direction = text.direction
  type : outline.Means (.expression scope text.type) param.type

/-- The types of a callable are the meanings of its expressions. -/
def CallableMeans (outline : Outline) (scope : ScopedName) :
    CallableText → CallableTypes → Prop
  | .operation returns params, .operation signature =>
    outline.Means (.expression scope returns) signature.returns ∧
      List.Forall₂ (outline.ParameterMeans scope) params signature.params
  | .attributes text, .attributes type => outline.Means (.expression scope text) type
  | _, _ => False

theorem callableTypes_eq_ok_iff (registered : outline.Registered) {table : AliasTable}
    (sound : outline.Sound table) {callable : OpenCallable} {types : CallableTypes} :
    outline.callableTypes table callable = .ok types ↔
      outline.CallableMeans callable.scope callable.text types := by
  obtain ⟨id, text, scope⟩ := callable
  cases text with
  | attributes text =>
    simp only [callableTypes, bind_eq_ok_iff, typeOf_eq_ok_iff registered sound]
    cases types <;> simp [CallableMeans]
  | operation returns params =>
    have single : ∀ (text : ParameterText) (param : Parameter),
        (do
          let type ← outline.typeOf table scope (outline.draft.tree.scopedName id).text text.type
          Except.ok (Parameter.mk text.name type text.direction) : Except LoadError Parameter) =
            .ok param ↔ outline.ParameterMeans scope text param := by
      intro text param
      rw [bind_eq_ok_iff]
      simp only [typeOf_eq_ok_iff registered sound]
      constructor
      · rintro ⟨type, means, same⟩
        cases same
        exact ⟨rfl, rfl, means⟩
      · rintro ⟨name, direction, means⟩
        exact ⟨param.type, means, by rw [← name, ← direction]⟩
    simp only [callableTypes, bind_eq_ok_iff, typeOf_eq_ok_iff registered sound, mapM_eq_ok_iff,
      single]
    cases types with
    | attributes => simp [CallableMeans]
    | operation signature =>
      constructor
      · rintro ⟨type, means, rest, matched, same⟩
        cases same
        exact ⟨means, matched⟩
      · rintro ⟨means, matched⟩
        exact ⟨signature.returns, means, signature.params, matched, rfl⟩

end Outline

end IdlBridge
