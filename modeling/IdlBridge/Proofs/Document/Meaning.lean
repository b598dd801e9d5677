import IdlBridge.Document.Resolution
import IdlBridge.Proofs.Document.Registration
import Mathlib.Data.List.Nodup
import Mathlib.Logic.Relation

/-!
# The meaning of type expressions

What a type expression means is defined by rules over the names that an outline declares
(`Outline.Means`), without any table or order of work: a keyword means its basic type, and any
other expression means what its first declared candidate stands for. A typedef of a sequence
means the sequence under the typedef's own name, any other typedef means what its expression
means in the scope around it. A derivation is finite, so a typedef that leads back to itself has
no meaning.

The rules are then joined to the two functions that a resolver is made of. Reading an expression
gives its type or the typedef it names (`Means.of_known`, `Means.of_aliased`), and an induction
principle follows a typedef from one to the next (`Means.typedef_induction`). From it, meanings are
unique (`Means.unique`), and no typedef with a meaning leads back to itself (`Means.acyclic`).
-/

set_option autoImplicit false

namespace IdlBridge

/-- What may have a meaning: an expression read inside a scope, or the typedef that introduces a
declarator. -/
inductive TypePhrase
  | expression (scope : ScopedName) (text : String)
  | typedef (declarator : DeclId)

/-- The first of the names that is declared, and its declaration. -/
def DeclTree.FirstDeclared (tree : DeclTree) (names : List ScopedName) (name : ScopedName)
    (id : DeclId) : Prop :=
  ∃ before after, names = before ++ name :: after ∧ (∀ other ∈ before, tree.find? other = none) ∧
    tree.find? name = some id

namespace Outline

/-- An expression that is neither a keyword nor a sequence stands for its first declared
candidate. -/
structure StandsFor (outline : Outline) (scope : ScopedName) (text : String) (name : ScopedName)
    (id : DeclId) : Prop where
  notBasic : BasicType.ofText? text = none
  notSequence : sequenceElement? text = none
  first : outline.draft.tree.FirstDeclared (scope.candidates text) name id

/-- The meaning of expressions and typedefs. -/
inductive Means (outline : Outline) : TypePhrase → IdlType → Prop where
  | basic {scope : ScopedName} {text : String} {type : BasicType}
      (spelled : BasicType.ofText? text = some type) :
      Means outline (.expression scope text) (.basic type)
  | interface {scope name : ScopedName} {text : String} {id : DeclId} {parts : Interface}
      (stands : outline.StandsFor scope text name id)
      (kind : outline.draft.tree.kind? id = some (.interface parts)) :
      Means outline (.expression scope text) (.interface name)
  | forward {scope name : ScopedName} {text : String} {id : DeclId} {target : Option DeclId}
      (stands : outline.StandsFor scope text name id)
      (kind : outline.draft.tree.kind? id = some (.forward target)) :
      Means outline (.expression scope text) (.interface name)
  | enum {scope name : ScopedName} {text : String} {id : DeclId} {enumerators : List String}
      (stands : outline.StandsFor scope text name id)
      (kind : outline.draft.tree.kind? id = some (.enum enumerators)) :
      Means outline (.expression scope text) (.enum name)
  | named {scope name : ScopedName} {text : String} {id : DeclId} {target : Option DeclId}
      {type : IdlType} (stands : outline.StandsFor scope text name id)
      (kind : outline.draft.tree.kind? id = some (.declarator target))
      (means : Means outline (.typedef id) type) :
      Means outline (.expression scope text) type
  | sequence {entry : TypeAlias} {inner : String} {element : IdlType}
      (listed : entry ∈ outline.aliases)
      (written : sequenceElement? entry.expression = some inner)
      (means : Means outline (.expression entry.scope inner) element)
      (flat : element.isSequence = false) :
      Means outline (.typedef entry.declarator)
        (.sequence (outline.draft.tree.scopedName entry.declarator) element)
  | plain {entry : TypeAlias} {type : IdlType} (listed : entry ∈ outline.aliases)
      (notSequence : sequenceElement? entry.expression = none)
      (means : Means outline (.expression entry.scope entry.expression) type) :
      Means outline (.typedef entry.declarator) type

/-- The target of one typedef names the other. -/
def RefersTo (outline : Outline) (declarator next : DeclId) : Prop :=
  ∃ entry ∈ outline.aliases, entry.declarator = declarator ∧
    outline.readTarget entry = .ok (.aliased next)

end Outline

/-! ## Reading a single expression -/

namespace DeclTree

theorem lookup?_eq_some_iff {tree : DeclTree} {scope name : ScopedName} {reference : String}
    {id : DeclId} :
    tree.lookup? scope reference = some (name, id) ↔
      tree.FirstDeclared (scope.candidates reference) name id := by
  rw [lookup?, List.findSome?_eq_some_iff]
  constructor
  · rintro ⟨before, other, after, split, found, absent⟩
    obtain ⟨declared, here, same⟩ := Option.map_eq_some_iff.mp found
    cases same
    exact ⟨before, after, split, fun earlier listed =>
      Option.map_eq_none_iff.mp (absent earlier listed), here⟩
  · rintro ⟨before, after, split, absent, here⟩
    refine ⟨before, name, after, split, by simp [here], fun earlier listed => ?_⟩
    rw [absent earlier listed]
    rfl

end DeclTree

namespace Outline

variable {outline : Outline} {scope name : ScopedName} {text context : String} {id : DeclId}
  {type : IdlType}

/-- An expression that stands for a declaration is read by the kind of that declaration. -/
theorem StandsFor.readType (stands : outline.StandsFor scope text name id) (context : String) :
    outline.draft.tree.readType scope context text =
      match outline.draft.tree.kind? id with
      | some (.interface _) | some (.forward _) => .ok (.known (.interface name))
      | some (.enum _) => .ok (.known (.enum name))
      | some (.declarator _) => .ok (.aliased id)
      | _ => .error (.unknownType text context) := by
  rw [DeclTree.readType, stands.notBasic, stands.notSequence,
    DeclTree.lookup?_eq_some_iff.mpr stands.first]
  rfl

/-- An expression that is read is a keyword or stands for a declaration. -/
theorem readType_cases {reference : TypeReference}
    (read : outline.draft.tree.readType scope context text = .ok reference) :
    (∃ basic, BasicType.ofText? text = some basic ∧ reference = .known (.basic basic)) ∨
      ∃ name id, outline.StandsFor scope text name id := by
  cases spelled : BasicType.ofText? text with
  | some basic =>
    rw [DeclTree.readType, spelled] at read
    cases read
    exact .inl ⟨basic, rfl, rfl⟩
  | none =>
    cases written : sequenceElement? text with
    | some inner => simp [DeclTree.readType, spelled, written] at read
    | none =>
      cases found : outline.draft.tree.lookup? scope text with
      | none => simp [DeclTree.readType, spelled, written, found] at read
      | some entry =>
        exact .inr ⟨entry.1, entry.2, spelled, written, DeclTree.lookup?_eq_some_iff.mp found⟩

/-- An expression whose type is read at once means that type. -/
theorem Means.of_known
    (read : outline.draft.tree.readType scope context text = .ok (.known type)) :
    outline.Means (.expression scope text) type := by
  rcases readType_cases read with ⟨basic, spelled, same⟩ | ⟨name, id, stands⟩
  · cases same
    exact .basic spelled
  · rw [stands.readType] at read
    split at read
    · cases read
      exact .interface stands ‹_›
    · cases read
      exact .forward stands ‹_›
    · cases read
      exact .enum stands ‹_›
    · cases read
    · cases read

/-- An expression that names a typedef means what the typedef means. -/
theorem Means.of_aliased
    (read : outline.draft.tree.readType scope context text = .ok (.aliased id))
    (means : outline.Means (.typedef id) type) : outline.Means (.expression scope text) type := by
  rcases readType_cases read with ⟨basic, _, same⟩ | ⟨name, found, stands⟩
  · cases same
  · rw [stands.readType] at read
    split at read
    · cases read
    · cases read
    · cases read
    · cases read
      exact .named stands ‹_› means
    · cases read

/-- The declaration that an expression names as a typedef is a declarator. -/
theorem kind?_of_aliased
    (read : outline.draft.tree.readType scope context text = .ok (.aliased id)) :
    ∃ target, outline.draft.tree.kind? id = some (.declarator target) := by
  rcases readType_cases read with ⟨basic, _, same⟩ | ⟨name, found, stands⟩
  · cases same
  · rw [stands.readType] at read
    split at read
    · cases read
    · cases read
    · cases read
    · cases read
      exact ⟨_, ‹_›⟩
    · cases read

/-! ## Following typedefs -/

/-- The typedefs of the outline have different declarators. -/
theorem Registered.find?_eq_some (registered : outline.Registered) {entry : TypeAlias}
    (listed : entry ∈ outline.aliases) :
    TypeAlias.find? outline.aliases entry.declarator = some entry := by
  have different : (outline.aliases.map (·.declarator)).Nodup := by
    rw [registered.alias_declarators]
    exact nodup_positions _ _
  obtain ⟨found, here⟩ : ∃ found, TypeAlias.find? outline.aliases entry.declarator = some found :=
    Option.isSome_iff_exists.mp (List.find?_isSome.mpr ⟨entry, listed, by simp⟩)
  have same : found.declarator = entry.declarator := by simpa using List.find?_some here
  rw [here, List.inj_on_of_nodup_map different (List.mem_of_find?_eq_some here) listed same]

/-- A typedef is registered under the name that its declarator has. -/
theorem Registered.name_eq (registered : outline.Registered) {entry : TypeAlias}
    (listed : entry ∈ outline.aliases) :
    entry.name = outline.draft.tree.scopedName entry.declarator := by
  obtain ⟨id, name, file, follows, -, -, declarator⟩ := registered.alias_introduced entry listed
  rw [DeclTree.scopedName_eq_bare, follows, declarator]
  rfl

/-- Every declarator comes from a typedef of the outline. -/
theorem Registered.exists_alias (registered : outline.Registered) {target : Option DeclId}
    (kind : outline.draft.tree.kind? id = some (.declarator target)) :
    ∃ entry ∈ outline.aliases, entry.declarator = id := by
  have position : id ∈ positions DeclKind.isDeclarator outline.draft.tree.bare :=
    mem_positions_bare kind rfl
  rw [← registered.alias_declarators] at position
  exact List.mem_map.mp position

/-- A typedef means what becomes of the meaning of its target. -/
theorem Means.of_wrap (registered : outline.Registered) {entry : TypeAlias} {target : IdlType}
    (listed : entry ∈ outline.aliases)
    (means : outline.Means (.expression entry.scope entry.target) target)
    (wrapped : entry.wrap target = .ok type) :
    outline.Means (.typedef entry.declarator) type := by
  cases written : sequenceElement? entry.expression with
  | none =>
    simp only [TypeAlias.target, TypeAlias.wrap, written] at means wrapped
    cases wrapped
    exact .plain listed written means
  | some inner =>
    cases nested : target.isSequence with
    | true => simp [TypeAlias.wrap, written, nested] at wrapped
    | false =>
      simp only [TypeAlias.target, TypeAlias.wrap, written, nested] at means wrapped
      cases wrapped
      rw [registered.name_eq listed]
      exact .sequence listed written means nested

/-- **Induction along typedefs.** What holds of a typedef whose target is read at once, and passes
from a typedef to one whose target names it, holds of every typedef with a meaning. -/
@[elab_as_elim]
theorem Means.typedef_induction (registered : outline.Registered)
    {motive : DeclId → IdlType → Prop}
    (known : ∀ entry ∈ outline.aliases, ∀ target type,
      outline.readTarget entry = .ok (.known target) → entry.wrap target = .ok type →
      motive entry.declarator type)
    (aliased : ∀ entry ∈ outline.aliases, ∀ next target type,
      outline.readTarget entry = .ok (.aliased next) → outline.Means (.typedef next) target →
      motive next target → entry.wrap target = .ok type → motive entry.declarator type)
    {declarator : DeclId} (means : outline.Means (.typedef declarator) type) :
    motive declarator type := by
  -- An expression is read at once, or it names a typedef of which the motive holds.
  let holds : TypePhrase → IdlType → Prop
    | .typedef declarator, type => motive declarator type
    | .expression scope text, type => ∀ context,
        outline.draft.tree.readType scope context text = .ok (.known type) ∨
          ∃ next, outline.draft.tree.readType scope context text = .ok (.aliased next) ∧
            outline.Means (.typedef next) type ∧ motive next type
  have close : ∀ entry ∈ outline.aliases, ∀ target type,
      holds (.expression entry.scope entry.target) target → entry.wrap target = .ok type →
      motive entry.declarator type := by
    intro entry listed target type read wrapped
    rcases read entry.name.text with atOnce | ⟨next, names, means, ih⟩
    · exact known entry listed target type atOnce wrapped
    · exact aliased entry listed next target type names means ih wrapped
  have all : ∀ phrase type, outline.Means phrase type → holds phrase type := by
    intro phrase type means
    induction means with
    | basic spelled =>
      intro context
      rw [DeclTree.readType, spelled]
      exact .inl rfl
    | interface stands kind =>
      intro context
      rw [stands.readType, kind]
      exact .inl rfl
    | forward stands kind =>
      intro context
      rw [stands.readType, kind]
      exact .inl rfl
    | enum stands kind =>
      intro context
      rw [stands.readType, kind]
      exact .inl rfl
    | named stands kind means ih =>
      intro context
      rw [stands.readType, kind]
      exact .inr ⟨_, rfl, means, ih⟩
    | @sequence entry inner element listed written _ flat ih =>
      refine close entry listed element _ ?_ ?_
      · rw [TypeAlias.target, written]
        exact ih
      · simp [TypeAlias.wrap, written, flat, registered.name_eq listed]
    | @plain entry type listed notSequence _ ih =>
      refine close entry listed type _ ?_ ?_
      · rw [TypeAlias.target, notSequence]
        exact ih
      · simp [TypeAlias.wrap, notSequence]
  exact all _ _ means

/-- An expression is read at once, or it names a typedef with the same meaning. -/
theorem means_expression_iff (context : String) :
    outline.Means (.expression scope text) type ↔
      outline.draft.tree.readType scope context text = .ok (.known type) ∨
        ∃ next, outline.draft.tree.readType scope context text = .ok (.aliased next) ∧
          outline.Means (.typedef next) type := by
  constructor
  · intro means
    cases means with
    | basic spelled =>
      rw [DeclTree.readType, spelled]
      exact .inl rfl
    | interface stands kind | forward stands kind | enum stands kind =>
      rw [stands.readType, kind]
      exact .inl rfl
    | named stands kind means =>
      rw [stands.readType, kind]
      exact .inr ⟨_, rfl, means⟩
  · rintro (atOnce | ⟨next, names, means⟩)
    · exact .of_known atOnce
    · exact .of_aliased names means

/-- A typedef gets its meaning from its target. -/
theorem Means.exists_target (registered : outline.Registered) {declarator : DeclId}
    (means : outline.Means (.typedef declarator) type) :
    ∃ entry ∈ outline.aliases, entry.declarator = declarator ∧
      ∃ target, outline.Means (.expression entry.scope entry.target) target ∧
        entry.wrap target = .ok type := by
  refine typedef_induction registered ?_ ?_ means
  · intro entry listed target type read wrapped
    exact ⟨entry, listed, rfl, target, .of_known read, wrapped⟩
  · intro entry listed next target type read means _ wrapped
    exact ⟨entry, listed, rfl, target, .of_aliased read means, wrapped⟩

/-- Typedefs with the same declarator are the same. -/
theorem Registered.alias_unique (registered : outline.Registered) {entry other : TypeAlias}
    (listed : entry ∈ outline.aliases) (alsoListed : other ∈ outline.aliases)
    (same : other.declarator = entry.declarator) : other = entry := by
  have found := registered.find?_eq_some alsoListed
  rw [same, registered.find?_eq_some listed] at found
  exact (Option.some.inj found).symm

theorem Means.typedef_unique (registered : outline.Registered) {declarator : DeclId}
    (means : outline.Means (.typedef declarator) type) :
    ∀ other, outline.Means (.typedef declarator) other → other = type := by
  refine typedef_induction registered ?_ ?_ means
  · intro entry listed target type read wrapped other otherMeans
    obtain ⟨again, alsoListed, same, otherTarget, targetMeans, otherWrapped⟩ :=
      otherMeans.exists_target registered
    cases registered.alias_unique listed alsoListed same
    rcases (means_expression_iff entry.name.text).mp targetMeans with atOnce | ⟨next, names, -⟩
    · cases read.symm.trans atOnce
      exact Except.ok.inj (otherWrapped.symm.trans wrapped)
    · cases read.symm.trans names
  · intro entry listed next target type read _ ih wrapped other otherMeans
    obtain ⟨again, alsoListed, same, otherTarget, targetMeans, otherWrapped⟩ :=
      otherMeans.exists_target registered
    cases registered.alias_unique listed alsoListed same
    rcases (means_expression_iff entry.name.text).mp targetMeans with atOnce | ⟨_, names, nextMeans⟩
    · cases read.symm.trans atOnce
    · cases read.symm.trans names
      cases ih otherTarget nextMeans
      exact Except.ok.inj (otherWrapped.symm.trans wrapped)

/-- **A phrase has at most one meaning.** -/
theorem Means.unique (registered : outline.Registered) {phrase : TypePhrase} {other : IdlType}
    (means : outline.Means phrase type) (otherMeans : outline.Means phrase other) :
    other = type := by
  cases phrase with
  | typedef declarator => exact means.typedef_unique registered other otherMeans
  | expression scope text =>
    rcases (means_expression_iff "").mp means with atOnce | ⟨next, names, nextMeans⟩
    · rcases (means_expression_iff "").mp otherMeans with again | ⟨_, otherNames, -⟩
      · cases atOnce.symm.trans again
        rfl
      · cases atOnce.symm.trans otherNames
    · rcases (means_expression_iff "").mp otherMeans with again | ⟨_, otherNames, nextOther⟩
      · cases names.symm.trans again
      · cases names.symm.trans otherNames
        exact nextMeans.typedef_unique registered other nextOther

/-- A typedef refers to what its target names. -/
theorem RefersTo.readTarget (registered : outline.Registered) {entry : TypeAlias} {next : DeclId}
    (listed : entry ∈ outline.aliases) (refers : outline.RefersTo entry.declarator next) :
    outline.readTarget entry = .ok (.aliased next) := by
  obtain ⟨other, alsoListed, same, read⟩ := refers
  cases registered.alias_unique listed alsoListed same
  exact read

/-- **No typedef with a meaning leads back to itself.** -/
theorem Means.acyclic (registered : outline.Registered) {declarator : DeclId}
    (means : outline.Means (.typedef declarator) type) :
    ¬ Relation.TransGen outline.RefersTo declarator declarator := by
  refine typedef_induction registered ?_ ?_ means
  · intro entry listed target type read _ cycle
    obtain ⟨next, refers, -⟩ := Relation.TransGen.head'_iff.mp cycle
    cases read.symm.trans (refers.readTarget registered listed)
  · intro entry listed next target type read _ ih _ cycle
    obtain ⟨first, refers, back⟩ := Relation.TransGen.head'_iff.mp cycle
    cases read.symm.trans (refers.readTarget registered listed)
    exact ih (Relation.TransGen.tail' back refers)

end Outline

end IdlBridge
