import IdlBridge.Marshal.Conversion
import IdlBridge.Proofs.Success

/-!
# The two conversions mirror each other

A remote value and its local image differ in one thing: the image of a sequence has its length
beside it (`RemoteValue.tagged`). The two conversions are written apart and test in different
orders, but on a value and its image they come down to the same checks in the same order
(`toLocal_eq_check`, `toRemote_tagged_eq_check`). So they accept the same values, undo each other
there, and refuse the others for the same cause.

On the way back nothing but an image is accepted (`eq_tagged_of_toRemote`). What is accepted is said
without reference to the checks (`Carries`).
-/

set_option autoImplicit false

namespace IdlBridge.Marshal

/-! ## Values and their images -/

namespace RemoteValue

/-- The image of a remote value on the local side. -/
def tagged : RemoteValue → LocalValue
  | scalar value => .scalar value
  | sequence items => .sequence (UInt32.ofNat items.length) items

/-- The number of elements of the value can be told by a length. -/
def Countable : RemoteValue → Prop
  | scalar _ => True
  | sequence items => items.length < UInt32.size

instance : (value : RemoteValue) → Decidable value.Countable
  | scalar _ => inferInstanceAs (Decidable True)
  | sequence _ => inferInstanceAs (Decidable (_ < _))

theorem toNat_length_of_countable {items : List Scalar} (countable : (sequence items).Countable) :
    (UInt32.ofNat items.length).toNat = items.length :=
  UInt32.toNat_ofNat_of_lt' countable

end RemoteValue

/-- The type has the value as a single value: it is of the right kind, and a string in it can be
ended by a zero character. -/
def CarriesScalar (type : IdlType) (value : Scalar) : Prop :=
  fits type value = true ∧ hasNul value = false

instance (type : IdlType) (value : Scalar) : Decidable (CarriesScalar type value) :=
  inferInstanceAs (Decidable (_ ∧ _))

/-- The type has the value. A sequence type has sequences of single values only, and none at all if
its elements are no single values. -/
def Carries : IdlType → RemoteValue → Prop
  | .sequence _ element, .sequence items =>
    isScalarType element = true ∧ ∀ item ∈ items, CarriesScalar element item
  | _, .sequence _ => False
  | type, .scalar value => CarriesScalar type value

/-! ## What both conversions check -/

theorem isScalarType_of_fits {type : IdlType} {value : Scalar} (fit : fits type value = true) :
    isScalarType type = true := by
  cases type with
  | basic basic =>
    cases basic with
    | void => simp [fits] at fit
    | _ => rfl
  | sequence name element => simp [fits] at fit
  | enum | interface => rfl

theorem checkScalar_eq_ok_iff {type : IdlType} {value : Scalar} :
    checkScalar type value = .ok () ↔ CarriesScalar type value := by
  rw [checkScalar, CarriesScalar]
  cases fit : fits type value with
  | false => cases isScalarType type <;> simp
  | true => cases hasNul value <;> simp [isScalarType_of_fits fit]

theorem checkItems_eq_ok_iff {element : IdlType} {items : List Scalar} :
    checkItems element items = .ok () ↔ ∀ item ∈ items, CarriesScalar element item := by
  induction items with
  | nil => simp [checkItems]
  | cons item items ih =>
    rw [checkItems, List.forall_mem_cons, ← checkScalar_eq_ok_iff, ← ih]
    cases checkScalar element item <;> simp [bind, Except.bind]

/-- The checks that a value has to pass in either direction. -/
def check (type : IdlType) (value : RemoteValue) : Except Error Unit :=
  match type, value with
  | .sequence _ element, .sequence items => do
    checkElement element
    checkItems element items
  | .sequence .., .scalar _ => .error (.mismatch type)
  | _, .scalar scalar => checkScalar type scalar
  | _, .sequence _ => .error (.mismatch type)

theorem check_eq_ok_iff {type : IdlType} {value : RemoteValue} :
    check type value = .ok () ↔ Carries type value := by
  cases value with
  | scalar scalar =>
    cases type with
    | sequence name element => simp [check, Carries, CarriesScalar, fits]
    | basic | enum | interface => exact checkScalar_eq_ok_iff
  | sequence items =>
    cases type with
    | sequence name element =>
      rw [check, bind_eq_ok_iff, Carries, ← checkItems_eq_ok_iff, checkElement]
      cases isScalarType element <;> simp
    | basic | enum | interface => simp [check, Carries]

variable {type : IdlType} {value : RemoteValue}

/-- The way to the local side checks the value and adds the length. -/
theorem toLocal_eq_check (countable : value.Countable) :
    toLocal type value = (check type value).map fun _ => value.tagged := by
  cases value with
  | scalar scalar =>
    cases type with
    | sequence name element => rfl
    | basic | enum | interface => simp only [toLocal, check, bind, Except.bind, Except.map]; rfl
  | sequence items =>
    cases type with
    | sequence name element =>
      have short : items.length < UInt32.size := countable
      simp only [toLocal, check, if_pos short]
      cases checkElement element <;> cases checkItems element items <;> rfl
    | basic | enum | interface => rfl

/-- The way back from the image makes the same checks: the length agrees by itself. -/
theorem toRemote_tagged_eq_check (countable : value.Countable) :
    toRemote type value.tagged = (check type value).map fun _ => value := by
  cases value with
  | scalar scalar =>
    cases type with
    | sequence name element => rfl
    | basic | enum | interface => simp only [toRemote, check, bind, Except.bind, Except.map]; rfl
  | sequence items =>
    cases type with
    | sequence name element =>
      have agrees := RemoteValue.toNat_length_of_countable countable
      simp only [toRemote, RemoteValue.tagged, check, if_pos agrees]
      cases checkElement element <;> cases checkItems element items <;> rfl
    | basic | enum | interface => rfl

/-! ## The way back -/

/-- Nothing but the image of a value is converted to it. -/
theorem eq_tagged_of_toRemote {source : LocalValue} (done : toRemote type source = .ok value) :
    value.Countable ∧ source = value.tagged := by
  cases source with
  | scalar scalar =>
    have same : value = .scalar scalar := by
      cases type with
      | sequence name element => cases done
      | basic | enum | interface =>
        simp only [toRemote, bind_eq_ok_iff] at done
        obtain ⟨-, -, done⟩ := done
        exact (Except.ok.inj done).symm
    subst same
    exact ⟨trivial, rfl⟩
  | sequence length items =>
    cases type with
    | sequence name element =>
      simp only [toRemote, bind_eq_ok_iff] at done
      obtain ⟨-, -, done⟩ := done
      split at done
      · rename_i agrees
        obtain ⟨-, -, done⟩ := bind_eq_ok_iff.mp done
        cases done
        refine ⟨?_, ?_⟩
        · rw [RemoteValue.Countable, ← agrees]
          exact length.toNat_lt
        · rw [RemoteValue.tagged, ← agrees, UInt32.ofNat_toNat]
      · cases done
    | basic | enum | interface => cases done

/-! ## Both ways -/

/-- **The two conversions are mirror images.** A value that the type has is converted to its image
and the image back to the value. On every other value both conversions fail for the same cause. What
the way back accepts is the image of its result, so it never accepts a sequence with a length that
is not the number of its elements. -/
theorem conversions_mirror (type : IdlType) :
    (∀ value : RemoteValue, value.Countable →
      (Carries type value ∧ toLocal type value = .ok value.tagged ∧
        toRemote type value.tagged = .ok value) ∨
      (¬Carries type value ∧ ∃ error, toLocal type value = .error error ∧
        toRemote type value.tagged = .error error)) ∧
    (∀ source value, toRemote type source = .ok value →
      value.Countable ∧ source = value.tagged) ∧
    ∀ (length : UInt32) (items : List Scalar), length.toNat ≠ items.length →
      ∃ error, toRemote type (.sequence length items) = .error error := by
  refine ⟨fun value countable => ?_, fun source value => eq_tagged_of_toRemote,
    fun length items differs => ?_⟩
  · rw [toLocal_eq_check countable, toRemote_tagged_eq_check countable, ← check_eq_ok_iff]
    cases check type value with
    | ok => exact .inl ⟨rfl, rfl, rfl⟩
    | error cause => exact .inr ⟨by simp, cause, rfl, rfl⟩
  · cases done : toRemote type (.sequence length items) with
    | error cause => exact ⟨cause, rfl⟩
    | ok value =>
      obtain ⟨countable, image⟩ := eq_tagged_of_toRemote done
      cases value with
      | scalar => cases image
      | sequence others =>
        cases image
        exact absurd (RemoteValue.toNat_length_of_countable countable) differs

/-- The type of a sequence of texts. -/
def texts : IdlType :=
  .sequence ⟨["Texts"]⟩ (.basic .string)

/-- Two texts, the second with a zero character in it. -/
def brokenTexts : RemoteValue :=
  .sequence [.string "a", .string "b\x00c"]

theorem texts_converted_and_refused :
    (brokenTexts.Countable ∧ ∃ error, toLocal texts brokenTexts = .error error ∧
      toRemote texts brokenTexts.tagged = .error error) ∧
    (toLocal texts (.sequence [.string "a"]) = .ok (.sequence 1 [.string "a"]) ∧
      toRemote texts (.sequence 1 [.string "a"]) = .ok (.sequence [.string "a"])) ∧
    ∃ error, toRemote texts (.sequence 2 [.string "a"]) = .error error := by
  obtain ⟨mirror, -, strict⟩ := conversions_mirror texts
  have countable : brokenTexts.Countable := by decide
  refine ⟨⟨countable, ?_⟩, ?_, strict 2 [.string "a"] (by decide)⟩
  · rcases mirror brokenTexts countable with ⟨⟨-, carried⟩, -⟩ | ⟨-, refused⟩
    · exact absurd (carried (.string "b\x00c") (by simp)) (by decide)
    · exact refused
  · rcases mirror (.sequence [.string "a"]) (by decide) with ⟨-, there, back⟩ | ⟨other, -⟩
    · exact ⟨there, back⟩
    · exact absurd ⟨rfl, by simp only [List.forall_mem_singleton]; decide⟩ other

end IdlBridge.Marshal
