import Mathlib.Data.List.Forall2

/-!
# Computations that succeed

Reading a document and writing a file are chains of computations that may fail. The lemmas here
say when such a chain succeeds: every part of it does, and the parts fit together. For a list of
computations the results correspond to the inputs one by one. A chain that fails fails in one of
its parts, and with the cause of that part.
-/

set_option autoImplicit false

namespace IdlBridge

variable {ε α β : Type}

theorem bind_eq_ok_iff {first : Except ε α} {next : α → Except ε β} {result : β} :
    (first >>= next) = .ok result ↔ ∃ value, first = .ok value ∧ next value = .ok result := by
  cases first with
  | error cause => simp [bind, Except.bind]
  | ok value => simp [bind, Except.bind]

theorem eq_ok_of_toOption {outcome : Except ε α} {result : α}
    (found : outcome.toOption = some result) : outcome = .ok result := by
  cases outcome with
  | error cause => cases found
  | ok value => exact congrArg Except.ok (Option.some.inj found)

/-- What follows a computation matters only where that succeeds. -/
theorem bind_congr_ok {first : Except ε α} {next other : α → Except ε β}
    (same : ∀ value, first = .ok value → next value = other value) :
    (first >>= next) = (first >>= other) := by
  cases first with
  | error cause => rfl
  | ok value => exact same value rfl

theorem map_eq_ok_iff {first : Except ε α} {change : α → β} {result : β} :
    first.map change = .ok result ↔ ∃ value, first = .ok value ∧ change value = result := by
  cases first with
  | error cause => simp [Except.map]
  | ok value => simp [Except.map]

/-- Computations for the members of a list succeed with results that correspond to the
members. -/
theorem mapM_eq_ok_iff {compute : α → Except ε β} {members : List α} {results : List β} :
    members.mapM compute = .ok results ↔
      List.Forall₂ (fun member result => compute member = .ok result) members results := by
  induction members generalizing results with
  | nil => simp [pure, Except.pure, eq_comm]
  | cons member members ih =>
    rw [List.mapM_cons, bind_eq_ok_iff, List.forall₂_cons_left_iff]
    simp only [bind_eq_ok_iff, ih, pure, Except.pure, Except.ok.injEq]
    constructor
    · rintro ⟨result, computed, rest, others, rfl⟩
      exact ⟨result, rest, computed, others, rfl⟩
    · rintro ⟨result, rest, computed, others, rfl⟩
      exact ⟨result, computed, rest, others, rfl⟩

/-- What every step of a chain keeps, a chain that succeeds keeps. -/
theorem foldlM_keeps (holds : β → Prop) {step : β → α → Except ε β} {members : List α}
    (keeps : ∀ member ∈ members, ∀ before after, holds before → step before member = .ok after →
      holds after)
    {before after : β} (start : holds before) (done : members.foldlM step before = .ok after) :
    holds after := by
  induction members generalizing before with
  | nil =>
    cases done
    exact start
  | cons member members ih =>
    rw [List.foldlM_cons, bind_eq_ok_iff] at done
    obtain ⟨middle, first, rest⟩ := done
    exact ih (fun other listed => keeps other (List.mem_cons_of_mem _ listed))
      (keeps member List.mem_cons_self before middle start first) rest

/-- A chain whose computations do not look at the state can compute everything first. -/
theorem foldlM_map_eq_ok_iff {γ : Type} {read : α → Except ε γ} {put : β → α → γ → β}
    {members : List α} {before after : β} :
    members.foldlM (fun state member => (read member).map (put state member)) before = .ok after ↔
      ∃ results, List.Forall₂ (fun member result => read member = .ok result) members results ∧
        (members.zip results).foldl (fun state entry => put state entry.1 entry.2) before =
          after := by
  induction members generalizing before with
  | nil => simp [pure, Except.pure]
  | cons member members ih =>
    simp only [List.foldlM_cons, bind_eq_ok_iff, map_eq_ok_iff, ih]
    constructor
    · rintro ⟨_, ⟨result, computed, rfl⟩, results, others, rfl⟩
      exact ⟨result :: results, .cons computed others, rfl⟩
    · rintro ⟨results, matched, rfl⟩
      cases matched with
      | cons computed others => exact ⟨_, ⟨_, computed, rfl⟩, _, others, rfl⟩

/-- Results that exist one by one exist together. -/
theorem exists_forall₂ {related : α → β → Prop} {members : List α}
    (each : ∀ member ∈ members, ∃ result, related member result) :
    ∃ results, List.Forall₂ related members results := by
  induction members with
  | nil => exact ⟨[], .nil⟩
  | cons member members ih =>
    obtain ⟨result, first⟩ := each member List.mem_cons_self
    obtain ⟨results, rest⟩ := ih fun other listed => each other (List.mem_cons_of_mem _ listed)
    exact ⟨result :: results, .cons first rest⟩

/-- A member of the first list corresponds to the result at the same place. -/
theorem exists_mem_zip {related : α → β → Prop} {members : List α} {results : List β}
    (matched : List.Forall₂ related members results) {member : α} (listed : member ∈ members) :
    ∃ result, (member, result) ∈ members.zip results ∧ related member result := by
  induction matched with
  | nil => cases listed
  | cons first _ ih =>
    rcases List.mem_cons.mp listed with rfl | later
    · exact ⟨_, List.mem_cons_self, first⟩
    · obtain ⟨result, paired, holds⟩ := ih later
      exact ⟨result, List.mem_cons_of_mem _ paired, holds⟩

/-- Two choices from a list that choose at the same members. -/
theorem forall₂_filterMap {γ : Type} {related : β → γ → Prop} {list : List α} {left : α → Option β}
    {right : α → Option γ}
    (agree : ∀ member ∈ list, Option.Rel related (left member) (right member)) :
    List.Forall₂ related (list.filterMap left) (list.filterMap right) := by
  induction list with
  | nil => exact .nil
  | cons member list ih =>
    have rest := ih fun other listed => agree other (List.mem_cons_of_mem _ listed)
    have here := agree member List.mem_cons_self
    rw [List.filterMap_cons, List.filterMap_cons]
    cases chosen : left member <;> cases alsoChosen : right member <;>
      rw [chosen, alsoChosen] at here
    · exact rest
    · cases here
    · cases here
    · cases here with
      | some paired => exact .cons paired rest

theorem forall₂_trans {γ : Type} {first : α → β → Prop} {second : β → γ → Prop} {starts : List α}
    {middles : List β} {ends : List γ} (before : List.Forall₂ first starts middles)
    (after : List.Forall₂ second middles ends) :
    List.Forall₂ (fun start last => ∃ middle, first start middle ∧ second middle last) starts
      ends := by
  induction before generalizing ends with
  | nil =>
    cases after
    exact .nil
  | cons paired _ ih =>
    cases after with
    | cons next rest => exact .cons ⟨_, paired, next⟩ (ih rest)

/-- Partners that look alike from both sides. -/
theorem map_eq_of_forall₂ {γ : Type} {left : α → γ} {right : β → γ} {members : List α}
    {partners : List β}
    (alike : List.Forall₂ (fun member partner => right partner = left member) members partners) :
    partners.map right = members.map left := by
  induction alike with
  | nil => rfl
  | cons first _ ih => rw [List.map_cons, List.map_cons, first, ih]

/-! ## Failure -/

theorem bind_eq_error_iff {first : Except ε α} {next : α → Except ε β} {cause : ε} :
    (first >>= next) = .error cause ↔
      first = .error cause ∨ ∃ value, first = .ok value ∧ next value = .error cause := by
  cases first with
  | error other => simp [bind, Except.bind]
  | ok value => simp [bind, Except.bind]

theorem map_eq_error_iff {first : Except ε α} {change : α → β} {cause : ε} :
    first.map change = .error cause ↔ first = .error cause := by
  cases first with
  | error other => simp [Except.map]
  | ok value => simp [Except.map]

/-- A list of computations fails in one of its members. -/
theorem exists_of_mapM_eq_error {compute : α → Except ε β} {members : List α} {cause : ε}
    (failed : members.mapM compute = .error cause) :
    ∃ member ∈ members, compute member = .error cause := by
  induction members with
  | nil => simp [pure, Except.pure] at failed
  | cons member members ih =>
    rw [List.mapM_cons, bind_eq_error_iff] at failed
    rcases failed with here | ⟨result, -, failed⟩
    · exact ⟨member, List.mem_cons_self, here⟩
    · rcases bind_eq_error_iff.mp failed with later | ⟨results, -, absurd⟩
      · obtain ⟨other, listed, fails⟩ := ih later
        exact ⟨other, List.mem_cons_of_mem _ listed, fails⟩
      · cases absurd

/-- A chain of steps fails in one of them. -/
theorem exists_of_foldlM_eq_error {step : β → α → Except ε β} {members : List α} {before : β}
    {cause : ε} (failed : members.foldlM step before = .error cause) :
    ∃ member ∈ members, ∃ state, step state member = .error cause := by
  induction members generalizing before with
  | nil => cases failed
  | cons member members ih =>
    rw [List.foldlM_cons, bind_eq_error_iff] at failed
    rcases failed with here | ⟨after, -, later⟩
    · exact ⟨member, List.mem_cons_self, before, here⟩
    · obtain ⟨other, listed, fails⟩ := ih later
      exact ⟨other, List.mem_cons_of_mem _ listed, fails⟩

end IdlBridge
