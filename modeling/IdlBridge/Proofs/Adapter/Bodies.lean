import IdlBridge.Proofs.Adapter.Layouts
import IdlBridge.Proofs.Adapter.Spelling

/-!
# Bodies of generated methods

A step can be written unless it converts a sequence without knowing its element count. The steps
of every generated body know it, so every body is written (`Body.exists_layout`): between braces,
back at its own level, and with balanced braces if none of the names in it has a brace.
-/

set_option autoImplicit false

namespace IdlBridge.Adapter

open Text (isBrace)

/-! ## Single values -/

section Values

variable {type : IdlType} {source target place index bound : String} {root name : ScopedName}
  {body : Layout}

theorem keepsLevel_valueToLocal (type : IdlType) (source target : String) (element : Bool) :
    (valueToLocal type source target element).KeepsLevel := by
  intro level
  simp only [valueToLocal]
  split <;> simp

theorem balanced_valueToLocal (typed : type.Avoids isBrace) (read : Text.Avoids isBrace source)
    (written : Text.Avoids isBrace target) (element : Bool) :
    (valueToLocal type source target element).Balanced := by
  have held : Text.Avoids isBrace (if element then source else source ++ ".in()") := by
    cases element with
    | true => exact read
    | false => exact .append read (.literal _ rfl)
  have spelled := avoids_valueType typed
  refine .of_none ?_
  simp only [valueToLocal]
  split
  case h_4 name =>
    have named := ScopedName.Avoids.text typed
    simp (disch := first | assumption | exact .literal _ rfl) [Text.Avoids.braceMarks_eq]
  all_goals simp (disch := first | assumption | exact .literal _ rfl) [Text.Avoids.braceMarks_eq]

theorem keepsLevel_valueToRemote (root : ScopedName) (type : IdlType) (source target : String) :
    (valueToRemote root type source target).KeepsLevel := by
  intro level
  rw [valueToRemote.eq_def]
  split <;> simp

theorem balanced_valueToRemote (rooted : root.Avoids isBrace) (typed : type.Avoids isBrace)
    (read : Text.Avoids isBrace source) (written : Text.Avoids isBrace target) :
    (valueToRemote root type source target).Balanced := by
  have rootText := rooted.text
  rw [valueToRemote.eq_def]
  split
  case h_3 name =>
    have named := ScopedName.Avoids.text typed
    refine .of_none ?_
    simp (disch := first | assumption | exact .literal _ rfl) [Text.Avoids.braceMarks_eq]
  case h_4 name =>
    have named := ScopedName.Avoids.text typed
    rw [Layout.Balanced]
    simp (disch := first | assumption | exact .literal _ rfl) [Text.Avoids.braceMarks_eq]
    decide
  all_goals
    refine .of_none ?_
    simp (disch := first | assumption | exact .literal _ rfl) [Text.Avoids.braceMarks_eq]

theorem keepsLevel_freeValue (type : IdlType) (place : String) :
    (freeValue type place).KeepsLevel := by
  intro level
  rw [freeValue.eq_def]
  split <;> simp

theorem balanced_freeValue (type : IdlType) (freed : Text.Avoids isBrace place) :
    (freeValue type place).Balanced := by
  refine .of_none ?_
  rw [freeValue.eq_def]
  split <;>
    simp (disch := first | assumption | exact .literal _ rfl) [Text.Avoids.braceMarks_eq]

theorem keepsLevel_releaseReference (place : String) : (releaseReference place).KeepsLevel := by
  intro level
  simp [releaseReference]

theorem balanced_releaseReference (released : Text.Avoids isBrace place) :
    (releaseReference place).Balanced := by
  refine .of_none ?_
  simp (disch := first | assumption | exact .literal _ rfl) [releaseReference,
    Text.Avoids.braceMarks_eq]

theorem avoids_loopVariable (number : Nat) : Text.Avoids isBrace (loopVariable number) :=
  .append (.literal _ rfl) (.ofNat number)

theorem avoids_elementOf (read : Text.Avoids isBrace source) (number : Nat) :
    Text.Avoids isBrace (elementOf source (loopVariable number)) :=
  .append (.append (.append read (.literal _ rfl)) (avoids_loopVariable number)) (.literal _ rfl)

theorem keepsLevel_loop (index bound : String) (keeps : body.KeepsLevel) :
    (loop index bound body).KeepsLevel := keeps.braces

theorem balanced_loop (number : Nat) (counted : Text.Avoids isBrace bound)
    (balanced : body.Balanced) : (loop (loopVariable number) bound body).Balanced := by
  have index := avoids_loopVariable number
  refine .line ?_ balanced.braces
  rw [← Text.braceMarks_eq_nil_iff]
  simp (disch := first | assumption | exact .literal _ rfl) [Text.Avoids.braceMarks_eq]

theorem balanced_nestedSequence (named : name.Avoids isBrace) :
    (nestedSequence name).Balanced := by
  have spelled := named.text
  refine .of_none ?_
  simp (disch := first | assumption | exact .literal _ rfl) [nestedSequence,
    Text.Avoids.braceMarks_eq]

end Values

/-! ## Steps -/

namespace Step

/-- A step that converts a sequence is given its element count. -/
def Measured : Step → Prop
  | toLocal type _ _ length? _ | toRemote type _ _ length? | freeLocal type _ length? =>
    type.isSequence = true → length?.isSome = true
  | _ => True

/-- No text in the step has a brace. -/
def Unbraced : Step → Prop
  | declareRemote type name | declareLocal type name =>
    type.Avoids isBrace ∧ Text.Avoids isBrace name
  | toLocal type source target length? _ | toRemote type source target length? =>
    type.Avoids isBrace ∧ Text.Avoids isBrace source ∧ Text.Avoids isBrace target ∧
      ∀ length ∈ length?, Text.Avoids isBrace length
  | freeLocal type place length? =>
    type.Avoids isBrace ∧ Text.Avoids isBrace place ∧ ∀ length ∈ length?, Text.Avoids isBrace length
  | releaseRemote _ place => Text.Avoids isBrace place
  | call result? object method arguments =>
    (∀ result ∈ result?, Text.Avoids isBrace result) ∧ Text.Avoids isBrace object ∧
      Text.Avoids isBrace method ∧ ∀ argument ∈ arguments, Text.Avoids isBrace argument
  | giveBack value => Text.Avoids isBrace value

variable (root : ScopedName) (loops : Nat)

theorem exists_layout_toLocal {name : ScopedName} {element : IdlType}
    {source target length : String} {allocate : Bool} :
    ∃ written next, (toLocal (.sequence name element) source target (some length)
        allocate).layout root loops = .ok (written, next) ∧
      written.Closed (toLocal (.sequence name element) source target (some length)
        allocate).Unbraced := by
  simp only [layout, requireLength, bind, Except.bind]
  split
  · refine ⟨_, _, rfl, fun level => rfl, ?_⟩
    rintro ⟨typed, -⟩
    exact balanced_nestedSequence typed.1
  · refine ⟨_, _, rfl, fun level => ?_, ?_⟩
    · have kept := keepsLevel_loop (loopVariable loops) length
        (keepsLevel_valueToLocal element (elementOf source (loopVariable loops))
          (elementOf target (loopVariable loops)) true)
      cases allocate <;> simp [kept _]
    · rintro ⟨typed, read, written, counted⟩
      have counts := counted length rfl
      have spelled := avoids_valueType typed.2
      have copied := balanced_loop loops counts (balanced_valueToLocal typed.2
        (avoids_elementOf read loops) (avoids_elementOf written loops) true)
      refine .append (.of_none ?_) copied
      cases allocate <;>
        simp (disch := first | assumption | exact .literal _ rfl) [Text.Avoids.braceMarks_eq]

theorem exists_layout_toRemote {name : ScopedName} {element : IdlType}
    {source target length : String} :
    ∃ written next, (toRemote (.sequence name element) source target (some length)).layout
        root loops = .ok (written, next) ∧
      written.Closed (root.Avoids isBrace ∧
        (toRemote (.sequence name element) source target (some length)).Unbraced) := by
  simp only [layout, requireLength, bind, Except.bind]
  split
  · refine ⟨_, _, rfl, fun level => rfl, ?_⟩
    rintro ⟨-, typed, -⟩
    exact balanced_nestedSequence typed.1
  · refine ⟨_, _, rfl, fun level => ?_, ?_⟩
    · have kept := keepsLevel_loop (loopVariable loops) length
        (keepsLevel_valueToRemote root element (elementOf source (loopVariable loops))
          (elementOf target (loopVariable loops)))
      simp [kept _]
    · rintro ⟨rooted, typed, read, written, counted⟩
      have counts := counted length rfl
      have spelled := avoids_remoteType typed
      have copied := balanced_loop loops counts (balanced_valueToRemote rooted typed.2
        (avoids_elementOf read loops) (avoids_elementOf written loops))
      refine .append (.of_none ?_) copied
      simp (disch := first | assumption | exact .literal _ rfl) [Text.Avoids.braceMarks_eq]

theorem exists_layout_freeLocal {name : ScopedName} {element : IdlType} {place length : String} :
    ∃ written next, (freeLocal (.sequence name element) place (some length)).layout root loops =
        .ok (written, next) ∧
      written.Closed (freeLocal (.sequence name element) place (some length)).Unbraced := by
  have array : Text.Avoids isBrace place →
      Layout.Balanced [.line ("delete [] " ++ place ++ ";")] := fun freed =>
    .line (.append (.append (.literal _ rfl) freed) (.literal _ rfl)) .nil
  simp only [layout, requireLength, bind, Except.bind]
  split
  · refine ⟨_, _, rfl, fun level => rfl, ?_⟩
    rintro ⟨typed, -⟩
    exact balanced_nestedSequence typed.1
  · split
    · refine ⟨_, _, rfl, fun level => ?_, ?_⟩
      · have kept := keepsLevel_loop (loopVariable loops) length
          (keepsLevel_freeValue element (elementOf place (loopVariable loops)))
        simp [kept _]
      · rintro ⟨-, freed, counted⟩
        exact .append (balanced_loop loops (counted length rfl)
          (balanced_freeValue element (avoids_elementOf freed loops))) (array freed)
    · exact ⟨_, _, rfl, fun level => rfl, fun ⟨_, freed, _⟩ => array freed⟩

/-- **A step that knows its element counts is written.** -/
theorem exists_layout {step : Step} (measured : step.Measured) :
    ∃ written next, step.layout root loops = .ok (written, next) ∧
      written.Closed (root.Avoids isBrace ∧ step.Unbraced) := by
  cases step with
  | declareRemote type name =>
    refine ⟨_, _, rfl, fun level => rfl, ?_⟩
    rintro ⟨-, typed, named⟩
    exact .line (.append (.append (.append (avoids_remoteHolder typed) (.literal _ rfl)) named)
      (.literal _ rfl)) .nil
  | declareLocal type name =>
    refine ⟨_, _, rfl, fun level => rfl, ?_⟩
    rintro ⟨-, typed, named⟩
    exact .line (.append (.append (.append (avoids_valueType typed) (.literal _ rfl)) named)
      (.literal _ rfl)) .nil
  | toLocal type source target length? allocate =>
    cases type with
    | sequence name element =>
      obtain ⟨length, rfl⟩ := Option.isSome_iff_exists.mp (measured rfl)
      obtain ⟨written, next, done, closed⟩ := exists_layout_toLocal root loops
      exact ⟨written, next, done, closed.mono And.right⟩
    | basic | enum | interface =>
      exact ⟨_, _, rfl, keepsLevel_valueToLocal _ _ _ _, fun ⟨_, typed, read, written, _⟩ =>
        balanced_valueToLocal typed read written false⟩
  | toRemote type source target length? =>
    cases type with
    | sequence name element =>
      obtain ⟨length, rfl⟩ := Option.isSome_iff_exists.mp (measured rfl)
      exact exists_layout_toRemote root loops
    | basic | enum | interface =>
      exact ⟨_, _, rfl, keepsLevel_valueToRemote _ _ _ _, fun ⟨rooted, typed, read, written, _⟩ =>
        balanced_valueToRemote rooted typed read written⟩
  | freeLocal type place length? =>
    cases type with
    | sequence name element =>
      obtain ⟨length, rfl⟩ := Option.isSome_iff_exists.mp (measured rfl)
      obtain ⟨written, next, done, closed⟩ := exists_layout_freeLocal root loops
      exact ⟨written, next, done, closed.mono And.right⟩
    | basic | enum | interface =>
      exact ⟨_, _, rfl, keepsLevel_freeValue _ _, fun ⟨_, _, freed, _⟩ =>
        balanced_freeValue _ freed⟩
  | releaseRemote type place =>
    -- Only objects and sequences of objects hold references.
    cases type with
    | interface name =>
      exact ⟨_, _, rfl, keepsLevel_releaseReference place, fun ⟨_, released⟩ =>
        balanced_releaseReference released⟩
    | sequence name element =>
      cases element with
      | interface =>
        refine ⟨_, _, rfl, keepsLevel_loop _ _ (keepsLevel_releaseReference _), ?_⟩
        rintro ⟨-, released⟩
        exact balanced_loop loops (.append released (.literal _ rfl))
          (balanced_releaseReference (avoids_elementOf released loops))
      | basic | enum | sequence => exact ⟨_, _, rfl, .nil⟩
    | basic | enum => exact ⟨_, _, rfl, .nil⟩
  | call result? object method arguments =>
    refine ⟨_, _, rfl, fun level => rfl, ?_⟩
    rintro ⟨-, results, called, named, passed⟩
    have listed : Text.Avoids isBrace (Text.join "," arguments) := .join (.literal _ rfl) passed
    refine .of_none ?_
    cases result? with
    | some result =>
      have assigned := results result rfl
      simp (disch := first | assumption | exact .literal _ rfl) [Text.Avoids.braceMarks_eq]
    | none =>
      simp (disch := first | assumption | exact .literal _ rfl) [Text.Avoids.braceMarks_eq]
  | giveBack value =>
    refine ⟨_, _, rfl, fun level => rfl, ?_⟩
    rintro ⟨-, given⟩
    exact .line (.append (.append (.literal _ rfl) given) (.literal _ rfl)) .nil

end Step

/-- Steps that know their element counts are written one after another. -/
theorem Step.exists_layoutAll (root : ScopedName) (loops : Nat) {steps : List Step}
    (measured : ∀ step ∈ steps, step.Measured) :
    ∃ written next, Step.layoutAll root loops steps = .ok (written, next) ∧
      written.Closed (root.Avoids isBrace ∧ ∀ step ∈ steps, step.Unbraced) := by
  induction steps generalizing loops with
  | nil => exact ⟨[], loops, rfl, .nil⟩
  | cons step steps ih =>
    obtain ⟨first, middle, done, closed⟩ :=
      exists_layout root loops (measured step List.mem_cons_self)
    obtain ⟨rest, next, later, alsoClosed⟩ :=
      ih middle fun other listed => measured other (List.mem_cons_of_mem _ listed)
    refine ⟨first ++ rest, next, ?_, .append (closed.mono ?_) (alsoClosed.mono ?_)⟩
    · simp only [layoutAll, done, later, bind, Except.bind]
    · exact fun ⟨rooted, unbraced⟩ => ⟨rooted, unbraced step List.mem_cons_self⟩
    · exact fun ⟨rooted, unbraced⟩ =>
        ⟨rooted, fun other listed => unbraced other (List.mem_cons_of_mem _ listed)⟩

/-! ## Bodies -/

namespace Body

/-- The body can be written, and under a condition on its names it has balanced braces. -/
def Writable (unbraced : Prop) : Body → Prop
  | fixed inner => inner.Closed unbraced
  | guarded before inside exception comment =>
    (∀ step ∈ before ++ inside, step.Measured) ∧
      (unbraced → (∀ step ∈ before ++ inside, step.Unbraced) ∧
        Text.Avoids isBrace exception ∧ Text.Avoids isBrace comment)

theorem Writable.mono {body : Body} {weaker stronger : Prop} (writable : body.Writable weaker)
    (implied : stronger → weaker) : body.Writable stronger := by
  cases body with
  | fixed inner => exact Layout.Closed.mono implied writable
  | guarded => exact ⟨writable.1, fun holds => writable.2 (implied holds)⟩

theorem closed_handler (exception comment : String) :
    (handler exception comment).Closed
      (Text.Avoids isBrace exception ∧ Text.Avoids isBrace comment) :=
  .line (fun names => .append (.append (.literal _ rfl) names.1) (.literal _ rfl))
    (.braces
      (.line (fun names => .append (.append (.literal _ rfl) names.2) (.literal _ rfl)) .nil))

/-- **A body is written between braces, back at its own level.** -/
theorem exists_layout (root : ScopedName) {body : Body} {unbraced : Prop}
    (writable : body.Writable unbraced) :
    ∃ inner loops, body.layout root = .ok (Layout.braces inner, loops) ∧
      inner.Closed (root.Avoids isBrace ∧ unbraced) := by
  cases body with
  | fixed inner => exact ⟨inner, 0, rfl, Layout.Closed.mono And.right writable⟩
  | guarded before inside exception comment =>
    obtain ⟨measured, names⟩ := writable
    obtain ⟨first, middle, done, closed⟩ := Step.exists_layoutAll root 0 fun step listed =>
      measured step (List.mem_append_left inside listed)
    obtain ⟨rest, loops, later, alsoClosed⟩ := Step.exists_layoutAll root middle fun step listed =>
      measured step (List.mem_append_right before listed)
    refine ⟨first ++ .line "try" :: Layout.braces rest ++ handler exception comment, loops, ?_, ?_⟩
    · simp only [layout, done, later, bind, Except.bind]
    · have guarded : Layout.Closed (root.Avoids isBrace ∧ unbraced)
          (.line "try" :: Layout.braces rest) := by
        refine .line (fun _ => .literal _ rfl) (.braces (alsoClosed.mono ?_))
        exact fun ⟨rooted, holds⟩ => ⟨rooted, fun step listed =>
          (names holds).1 step (List.mem_append_right before listed)⟩
      refine .append (.append (closed.mono ?_) guarded) ((closed_handler _ _).mono ?_)
      · exact fun ⟨rooted, holds⟩ => ⟨rooted, fun step listed =>
          (names holds).1 step (List.mem_append_left inside listed)⟩
      · exact fun ⟨_, holds⟩ => (names holds).2

end Body

/-! ## Parameters and results -/

section Parameters

variable {param : Parameter}

/-- The element count of a parameter is known when it is needed. -/
theorem isSome_length (sequence : param.type.isSequence = true) : param.length?.isSome = true := by
  rw [Parameter.length?, Parameter.lengthName?, if_pos sequence]
  rfl

theorem measured_before : ∀ step ∈ param.before, step.Measured := by
  intro step listed
  rcases List.mem_cons.mp listed with rfl | converts
  · trivial
  · split at converts
    · cases List.mem_singleton.mp converts
      exact isSome_length
    · cases converts

theorem measured_after : ∀ step ∈ param.after, step.Measured := by
  intro step listed
  rcases List.mem_append.mp listed with passedBack | released
  · split at passedBack
    · rcases List.mem_append.mp passedBack with freed | converts
      · split at freed
        · cases List.mem_singleton.mp freed
          exact isSome_length
        · cases freed
      · cases List.mem_singleton.mp converts
        exact isSome_length
    · cases passedBack
  · split at released
    · cases List.mem_singleton.mp released
      trivial
    · cases released

theorem avoids_remoteName (avoids : param.Avoids isBrace) :
    Text.Avoids isBrace param.remoteName := .append (.literal _ rfl) avoids.name

theorem unbraced_before (avoids : param.Avoids isBrace) :
    ∀ step ∈ param.before, step.Unbraced := by
  intro step listed
  rcases List.mem_cons.mp listed with rfl | converts
  · exact ⟨avoids.type, avoids_remoteName avoids⟩
  · split at converts
    · cases List.mem_singleton.mp converts
      exact ⟨avoids.type, avoids_place avoids, avoids_remoteName avoids, avoids_length avoids⟩
    · cases converts

theorem unbraced_after (avoids : param.Avoids isBrace) : ∀ step ∈ param.after, step.Unbraced := by
  intro step listed
  rcases List.mem_append.mp listed with passedBack | released
  · split at passedBack
    · rcases List.mem_append.mp passedBack with freed | converts
      · split at freed
        · cases List.mem_singleton.mp freed
          exact ⟨avoids.type, avoids_place avoids, avoids_length avoids⟩
        · cases freed
      · cases List.mem_singleton.mp converts
        exact ⟨avoids.type, avoids_remoteName avoids, avoids_place avoids, avoids_length avoids⟩
    · cases passedBack
  · split at released
    · cases List.mem_singleton.mp released
      exact avoids_remoteName avoids
    · cases released

end Parameters

theorem measured_returnSteps (type : IdlType) (remoteName localName length : String) :
    ∀ step ∈ returnSteps type remoteName localName length, step.Measured := by
  simp [returnSteps, Step.Measured]

theorem unbraced_returnSteps {type : IdlType} {remoteName localName length : String}
    (typed : type.Avoids isBrace) (read : Text.Avoids isBrace remoteName)
    (written : Text.Avoids isBrace localName) (counted : Text.Avoids isBrace length) :
    ∀ step ∈ returnSteps type remoteName localName length, step.Unbraced := by
  have counts : ∀ count ∈ (if type.isSequence then some length else none),
      Text.Avoids isBrace count := by
    intro count given
    split at given
    · cases given
      exact counted
    · cases given
  intro step listed
  rw [returnSteps] at listed
  simp only [List.mem_cons, List.not_mem_nil, or_false] at listed
  rcases listed with rfl | rfl | rfl | rfl
  · exact ⟨typed, written⟩
  · exact ⟨typed, read, written, counts⟩
  · exact read
  · exact written

/-! ## Bodies of callables -/

theorem avoids_downcastCall {active : ScopedName} (avoids : active.Avoids isBrace) :
    Text.Avoids isBrace (downcastCall active) :=
  .append (.append (.literal _ rfl) avoids.joined) (.literal _ rfl)

theorem writable_operationBody (active : ScopedName) (name : String) (operation : Operation) :
    (operationBody active name operation).Writable
      (active.Avoids isBrace ∧ Text.Avoids isBrace name ∧ operation.Avoids isBrace) := by
  refine ⟨fun step listed => ?_, ?_⟩
  · simp only [List.mem_append, List.mem_flatMap, List.mem_cons] at listed
    rcases listed with (⟨param, -, before⟩ | declared) | (rfl | ⟨param, -, after⟩) | returned
    · exact measured_before step before
    · split at declared
      · cases List.mem_singleton.mp declared
        trivial
      · cases declared
    · trivial
    · exact measured_after step after
    · split at returned
      · exact measured_returnSteps _ _ _ _ step returned
      · cases returned
  · rintro ⟨owner, named, avoids⟩
    refine ⟨fun step listed => ?_, .literal _ rfl, .literal _ rfl⟩
    simp only [List.mem_append, List.mem_flatMap, List.mem_cons] at listed
    rcases listed with (⟨param, isParam, before⟩ | declared) | (rfl | ⟨param, isParam, after⟩) |
      returned
    · exact unbraced_before (avoids.params param isParam) step before
    · split at declared
      · cases List.mem_singleton.mp declared
        exact ⟨avoids.returns, .literal _ rfl⟩
      · cases declared
    · refine ⟨fun result given => ?_, avoids_downcastCall owner, named, fun argument passed => ?_⟩
      · split at given
        · cases given
          exact .literal _ rfl
        · cases given
      · obtain ⟨param, isParam, rfl⟩ := List.mem_map.mp passed
        exact avoids_remoteName (avoids.params param isParam)
    · exact unbraced_after (avoids.params param isParam) step after
    · split at returned
      · exact unbraced_returnSteps avoids.returns (.literal _ rfl) (.literal _ rfl)
          (.literal _ rfl) step returned
      · cases returned

theorem writable_getterBody (active : ScopedName) (name : String) (type : IdlType) :
    (getterBody active name type).Writable
      (active.Avoids isBrace ∧ Text.Avoids isBrace name ∧ type.Avoids isBrace) := by
  refine ⟨fun step listed => ?_, ?_⟩
  · simp only [List.nil_append, List.mem_append, List.mem_cons, List.not_mem_nil, or_false]
      at listed
    rcases listed with (rfl | rfl) | returned
    · trivial
    · trivial
    · exact measured_returnSteps _ _ _ _ step returned
  · rintro ⟨owner, named, typed⟩
    refine ⟨fun step listed => ?_, .literal _ rfl, .literal _ rfl⟩
    simp only [List.nil_append, List.mem_append, List.mem_cons, List.not_mem_nil, or_false]
      at listed
    rcases listed with (rfl | rfl) | returned
    · exact ⟨typed, .literal _ rfl⟩
    · refine ⟨fun result given => ?_, avoids_downcastCall owner, named, by simp⟩
      cases given
      exact .literal _ rfl
    · exact unbraced_returnSteps typed (.literal _ rfl) (.literal _ rfl) (.literal _ rfl) step
        returned

theorem writable_setterBody (active : ScopedName) (name : String) (type : IdlType) :
    (setterBody active name type).Writable
      (active.Avoids isBrace ∧ Text.Avoids isBrace name ∧ type.Avoids isBrace) := by
  refine ⟨?_, ?_⟩
  · simp [Step.Measured]
  · rintro ⟨owner, named, typed⟩
    refine ⟨fun step listed => ?_, .literal _ rfl, .literal _ rfl⟩
    simp only [List.nil_append, List.mem_cons, List.not_mem_nil, or_false] at listed
    rcases listed with rfl | rfl | rfl | rfl
    · exact ⟨typed, .literal _ rfl⟩
    · refine ⟨typed, .literal _ rfl, .literal _ rfl, fun length given => ?_⟩
      split at given
      · cases given
        exact .literal _ rfl
      · cases given
    · refine ⟨by simp, avoids_downcastCall owner, named, fun argument passed => ?_⟩
      cases List.mem_singleton.mp passed
      exact .literal _ rfl
    · exact Text.Avoids.literal _ rfl

theorem writable_addRefBody (unbraced : Prop) : addRefBody.Writable unbraced :=
  .line (fun _ => .literal _ rfl) .nil

theorem writable_releaseRefBody (unbraced : Prop) : releaseRefBody.Writable unbraced := by
  refine ⟨fun level => rfl, fun _ => ?_⟩
  decide +kernel

theorem writable_queryInterfaceBody (active : ScopedName) (operation : Operation) :
    (queryInterfaceBody active operation).Writable
      (active.Avoids isBrace ∧ operation.Avoids isBrace) := by
  refine ⟨fun level => rfl, ?_⟩
  rintro ⟨owner, avoids⟩
  have activeText := owner.text
  have accessor := avoids_downcastCall owner
  refine .of_none ?_
  cases listed : operation.params with
  | nil => simp (disch := first | assumption | exact .literal _ rfl) [Text.Avoids.braceMarks_eq]
  | cons param params =>
    have asked : Text.Avoids isBrace param.name :=
      (avoids.params param (listed ▸ List.mem_cons_self)).name
    simp (disch := first | assumption | exact .literal _ rfl) [Text.Avoids.braceMarks_eq]

/-- **Every method of a callable has a body that can be written.** -/
theorem writable_of_mem_callableMethods {settings : Settings} {active : ScopedName}
    {callable : Decl} {method : Method}
    (listed : method ∈ callableMethods settings active callable) :
    method.body.Writable (active.Avoids isBrace ∧ callable.Avoids isBrace) := by
  rw [callableMethods] at listed
  split at listed
  · rename_i operation kind
    have names : active.Avoids isBrace ∧ callable.Avoids isBrace → active.Avoids isBrace ∧
        Text.Avoids isBrace callable.name ∧ operation.Avoids isBrace := by
      rw [Decl.Avoids, kind]
      exact id
    cases List.mem_singleton.mp listed
    simp only [operationMethod]
    split
    · exact writable_addRefBody _
    · exact writable_releaseRefBody _
    · exact (writable_queryInterfaceBody active operation).mono fun holds =>
        ⟨holds.1, (names holds).2.2⟩
    · exact (writable_operationBody active callable.name operation).mono names
  · rename_i group kind
    obtain ⟨name, isName, listed⟩ := List.mem_flatMap.mp listed
    have names : active.Avoids isBrace ∧ callable.Avoids isBrace → active.Avoids isBrace ∧
        Text.Avoids isBrace name ∧ group.type.Avoids isBrace := by
      rw [Decl.Avoids, kind]
      rintro ⟨owner, typed, each⟩
      exact ⟨owner, each name isName, typed⟩
    rcases List.mem_cons.mp listed with rfl | setter
    · exact (writable_getterBody active name group.type).mono names
    · split at setter
      · cases setter
      · cases List.mem_singleton.mp setter
        exact (writable_setterBody active name group.type).mono names
  · cases listed

end IdlBridge.Adapter
