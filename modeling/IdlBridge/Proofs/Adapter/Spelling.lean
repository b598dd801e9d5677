import IdlBridge.Adapter.Method
import IdlBridge.Proofs.Text.Braces

/-!
# Spellings without braces and line ends

The spelling of a type, of a parameter and of a list of parameters consists of fixed words and of
names. If the names avoid a set of shaping characters, so do the spellings.
-/

set_option autoImplicit false

namespace IdlBridge

open Text (Shaping)

/-! ## Conditions on names -/

/-- Every component avoids the characters. -/
def ScopedName.Avoids (chosen : Char → Bool) (name : ScopedName) : Prop :=
  ∀ part ∈ name.parts, Text.Avoids chosen part

/-- Every name in the type avoids the characters. -/
def IdlType.Avoids (chosen : Char → Bool) : IdlType → Prop
  | .basic _ => True
  | .enum name | .interface name => name.Avoids chosen
  | .sequence name element => name.Avoids chosen ∧ element.Avoids chosen

/-- The name of the parameter and those in its type avoid the characters. -/
structure Parameter.Avoids (chosen : Char → Bool) (param : Parameter) : Prop where
  name : Text.Avoids chosen param.name
  type : param.type.Avoids chosen

/-- The names in the signature of an operation avoid the characters. -/
structure Operation.Avoids (chosen : Char → Bool) (operation : Operation) : Prop where
  returns : operation.returns.Avoids chosen
  params : ∀ param ∈ operation.params, param.Avoids chosen

/-- The names that a callable contributes to generated methods avoid the characters. -/
def Decl.Avoids (chosen : Char → Bool) (callable : Decl) : Prop :=
  match callable.kind with
  | .operation operation => Text.Avoids chosen callable.name ∧ operation.Avoids chosen
  | .attributes group =>
    group.type.Avoids chosen ∧ ∀ name ∈ group.names, Text.Avoids chosen name
  | _ => True

/-! ## Deciding the conditions -/

section Deciding

variable (chosen : Char → Bool)

instance (name : ScopedName) : Decidable (name.Avoids chosen) :=
  inferInstanceAs (Decidable (∀ part ∈ name.parts, Text.Avoids chosen part))

instance IdlType.decidableAvoids : (type : IdlType) → Decidable (type.Avoids chosen)
  | .basic _ => .isTrue trivial
  | .enum name | .interface name => inferInstanceAs (Decidable (name.Avoids chosen))
  | .sequence name element =>
    @instDecidableAnd (name.Avoids chosen) _ _ (decidableAvoids element)

instance (param : Parameter) : Decidable (param.Avoids chosen) :=
  decidable_of_iff (Text.Avoids chosen param.name ∧ param.type.Avoids chosen)
    ⟨fun parts => ⟨parts.1, parts.2⟩, fun avoids => ⟨avoids.name, avoids.type⟩⟩

instance (operation : Operation) : Decidable (operation.Avoids chosen) :=
  decidable_of_iff
    (operation.returns.Avoids chosen ∧ ∀ param ∈ operation.params, param.Avoids chosen)
    ⟨fun parts => ⟨parts.1, parts.2⟩, fun avoids => ⟨avoids.returns, avoids.params⟩⟩

instance : (callable : Decl) → Decidable (callable.Avoids chosen)
  | ⟨name, _, _, .operation operation⟩ =>
    inferInstanceAs (Decidable (Text.Avoids chosen name ∧ operation.Avoids chosen))
  | ⟨_, _, _, .attributes group⟩ =>
    inferInstanceAs
      (Decidable (group.type.Avoids chosen ∧ ∀ name ∈ group.names, Text.Avoids chosen name))
  | ⟨_, _, _, .module _⟩ | ⟨_, _, _, .interface _⟩ | ⟨_, _, _, .forward _⟩
  | ⟨_, _, _, .typedef _ _⟩ | ⟨_, _, _, .declarator _⟩ | ⟨_, _, _, .enum _⟩ => .isTrue trivial

end Deciding

/-! ## Fewer characters -/

section Fewer

variable {chosen other : Char → Bool} (fewer : ∀ c, other c = true → chosen c = true)
include fewer

theorem ScopedName.Avoids.mono {name : ScopedName} (avoids : name.Avoids chosen) :
    name.Avoids other :=
  fun part isPart => (avoids part isPart).mono fewer

theorem IdlType.Avoids.mono {type : IdlType} (avoids : type.Avoids chosen) :
    type.Avoids other := by
  induction type with
  | basic type => trivial
  | enum name | interface name => exact ScopedName.Avoids.mono fewer avoids
  | sequence name element ih => exact ⟨avoids.1.mono fewer, ih avoids.2⟩

theorem Operation.Avoids.mono {operation : Operation} (avoids : operation.Avoids chosen) :
    operation.Avoids other where
  returns := avoids.returns.mono fewer
  params param isParam :=
    ⟨(avoids.params param isParam).name.mono fewer, (avoids.params param isParam).type.mono fewer⟩

theorem Decl.Avoids.mono {callable : Decl} (avoids : callable.Avoids chosen) :
    callable.Avoids other := by
  cases kind : callable.kind with
  | operation operation =>
    simp only [Decl.Avoids, kind] at avoids ⊢
    exact ⟨avoids.1.mono fewer, avoids.2.mono fewer⟩
  | attributes group =>
    simp only [Decl.Avoids, kind] at avoids ⊢
    exact ⟨avoids.1.mono fewer, fun name isName => (avoids.2 name isName).mono fewer⟩
  | module | interface | forward | typedef | declarator | enum => simp only [Decl.Avoids, kind]

end Fewer

/-! ## Names -/

variable {chosen : Char → Bool} [Shaping chosen]

theorem ScopedName.Avoids.text {name : ScopedName} (avoids : name.Avoids chosen) :
    Text.Avoids chosen name.text := .join (.literal _ rfl) avoids

theorem ScopedName.Avoids.joined {name : ScopedName} (avoids : name.Avoids chosen) :
    Text.Avoids chosen name.joined := .join (.literal _ rfl) avoids

namespace Adapter

/-! ## Types -/

theorem avoids_localName {name : ScopedName} (avoids : name.Avoids chosen) :
    Text.Avoids chosen (localName name) :=
  .append (.append (show Text.Avoids chosen "iface" from .literal _ rfl) (.literal _ rfl))
    avoids.text

theorem avoids_valueType {type : IdlType} (avoids : type.Avoids chosen) :
    Text.Avoids chosen (valueType type) := by
  induction type with
  | basic type => cases type <;> exact .literal _ rfl
  | enum name => exact avoids_localName avoids
  | interface name => exact .append (avoids_localName avoids) (.literal _ rfl)
  | sequence name element ih => exact .append (ih avoids.2) (.literal _ rfl)

theorem avoids_constType {type : IdlType} (avoids : type.Avoids chosen) :
    Text.Avoids chosen (constType type) := by
  have spelled := avoids_valueType avoids
  rw [constType.eq_def]
  split
  · have element := avoids_valueType avoids.2
    split
    · exact .append element (.literal _ rfl)
    · exact .append (.append (.literal _ rfl) element) (.literal _ rfl)
  · split
    · exact .append (.literal _ rfl) spelled
    · exact spelled

theorem avoids_localType {type : IdlType} (avoids : type.Avoids chosen) (form : Form) :
    Text.Avoids chosen (localType form type) := by
  rw [localType]
  refine .append ?_ ?_
  · split
    · exact avoids_constType avoids
    · exact avoids_valueType avoids
  · split <;> exact .literal _ rfl

theorem avoids_remoteType {type : IdlType} (avoids : type.Avoids chosen) :
    Text.Avoids chosen (remoteType type) := by
  cases type with
  | basic type => cases type <;> exact .literal _ rfl
  | enum name | interface name => exact .append (.literal _ rfl) (ScopedName.Avoids.text avoids)
  | sequence name element => exact .append (.literal _ rfl) avoids.1.text

theorem avoids_remoteHolder {type : IdlType} (avoids : type.Avoids chosen) :
    Text.Avoids chosen (remoteHolder type) := by
  cases type with
  | basic type => cases type <;> exact .literal _ rfl
  | enum name => exact .append (.literal _ rfl) (ScopedName.Avoids.text avoids)
  | interface name =>
    exact .append (.append (.literal _ rfl) (ScopedName.Avoids.text avoids)) (.literal _ rfl)
  | sequence name element =>
    exact .append (.append (.literal _ rfl) avoids.1.text) (.literal _ rfl)

/-! ## Parameters -/

theorem avoids_behindPointer {name : String} (avoids : Text.Avoids chosen name) :
    Text.Avoids chosen (behindPointer name) :=
  .append (.append (.literal _ rfl) avoids) (.literal _ rfl)

theorem avoids_place {param : Parameter} (avoids : param.Avoids chosen) :
    Text.Avoids chosen param.place := by
  rw [Parameter.place]
  split
  · exact avoids_behindPointer avoids.name
  · exact avoids.name

theorem avoids_lengthName {param : Parameter} (avoids : param.Avoids chosen) :
    ∀ length ∈ param.lengthName?, Text.Avoids chosen length := by
  intro length found
  rw [Parameter.lengthName?] at found
  split at found
  · cases found
    exact .append (.literal _ rfl) avoids.name
  · cases found

theorem avoids_length {param : Parameter} (avoids : param.Avoids chosen) :
    ∀ length ∈ param.length?, Text.Avoids chosen length := by
  intro length found
  obtain ⟨name, named, rfl⟩ := Option.map_eq_some_iff.mp found
  have plain := avoids_lengthName avoids name named
  split
  · exact avoids_behindPointer plain
  · exact plain

theorem avoids_parameterText {param : Parameter} (avoids : param.Avoids chosen) :
    Text.Avoids chosen param.text := by
  rw [Parameter.text]
  refine .append (.append (.append ?_ (avoids_localType avoids.type _)) (.literal _ rfl))
    avoids.name
  split
  · rename_i name named
    refine .append (.append (.append (.append (.literal _ rfl) ?_) (.literal _ rfl))
      (avoids_lengthName avoids name named)) (.literal _ rfl)
    split <;> exact .literal _ rfl
  · exact .literal _ rfl

theorem avoids_parameterList {operation : Operation} (avoids : operation.Avoids chosen) :
    Text.Avoids chosen (parameterList operation) := by
  refine .join (.literal _ rfl) fun text listed => ?_
  rcases List.mem_append.mp listed with spelled | length
  · obtain ⟨param, isParam, rfl⟩ := List.mem_map.mp spelled
    exact avoids_parameterText (avoids.params param isParam)
  · split at length
    · cases List.mem_singleton.mp length
      exact .literal _ rfl
    · cases length

end Adapter

end IdlBridge
