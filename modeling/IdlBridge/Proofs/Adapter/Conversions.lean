import IdlBridge.Proofs.Adapter.Execution

/-!
# What conversions do to variables

Each conversion has a source and a target. Seen from the source it is a series of looks at values
(`examined`), seen from the target a series of assignments. The same holds of whole variables: a
local value is read (`converting`), freed (`freeing`) and replaced (`storing`), a remote one is
filled (`filling`), read (`loading`) and given back (`releasing`). For every list of statements
that converts a variable there is a lemma that says which of these it is.
-/

set_option autoImplicit false

namespace IdlBridge.Adapter

/-! ## Single values -/

section Values

variable (type : IdlType) (slot : Slot) (contents : Contents) (index? : Option Nat)

/-- A value is looked at in order to convert it. A null reference is not followed. -/
def examined : List Event :=
  match type with
  | .interface _ =>
    .on .tested ⟨slot, index?⟩ ::
      if contents.isNull index? then [] else [.on .read ⟨slot, index?⟩]
  | _ => [.on .read ⟨slot, index?⟩]

/-- A reference is given back unless it is null. -/
def givenBack : List Event :=
  .on .tested ⟨slot, index?⟩ ::
    if contents.isNull index? then [] else [.on .released ⟨slot, index?⟩]

/-- A local value is freed. -/
def freed : List Event :=
  match type with
  | .basic .string | .basic .wstring => [.on .released ⟨slot, index?⟩]
  | .interface _ => givenBack slot contents index?
  | _ => []

end Values

section OnlyOn

variable {slot : Slot} (type : IdlType) (contents : Contents) (index? : Option Nat)

theorem onlyOn_singleton (deed : Deed) : OnlyOn (· = slot) [.on deed ⟨slot, index?⟩] :=
  .cons rfl .nil

/-- A test, after which something may happen to what is not null. -/
theorem onlyOn_tested (deed : Deed) :
    OnlyOn (· = slot) (.on .tested ⟨slot, index?⟩ ::
      if contents.isNull index? then [] else [.on deed ⟨slot, index?⟩]) := by
  refine .cons rfl ?_
  split
  · exact .nil
  · exact onlyOn_singleton index? deed

theorem onlyOn_examined : OnlyOn (· = slot) (examined type slot contents index?) := by
  unfold examined
  split
  · exact onlyOn_tested contents index? .read
  · exact onlyOn_singleton index? .read

theorem onlyOn_freed : OnlyOn (· = slot) (freed type slot contents index?) := by
  unfold freed
  split
  case h_3 => exact onlyOn_tested contents index? .released
  case h_4 => exact .nil
  all_goals exact onlyOn_singleton index? .released

end OnlyOn

/-- The branch looks at its source and then assigns its target. All else that it does is on the
remote side of a local object. -/
structure Converts (surroundings : Surroundings) (type : IdlType) (source target : Place)
    (branch : Branch) : Prop where
  events : ∀ chosen : Slot → Bool, chosen .servant = false → ∀ index memory,
    chosenOn chosen (branch.run surroundings index memory).events =
      chosenOn chosen (examined type source.slot (memory source.slot) (source.index? index) ++
        [.on .assigned (target.cell index)])
  mentions : ∀ slot ∈ branch.slots, slot ∈ [source.slot, target.slot, .servant]
  writes : ∀ slot ∈ branch.written, slot ∈ [target.slot, .servant]

section Branches

variable {surroundings : Surroundings} {source target : Place}

/-- An assignment without conditions. -/
theorem Converts.always {type : IdlType} (plain : ∀ name, type ≠ .interface name)
    (front back : String) :
    Converts surroundings type source target
      (.always (.assign target (.made front source back))) where
  events chosen _ index memory := by
    have read : examined type source.slot (memory source.slot) (source.index? index) =
        [.on .read (source.cell index)] := by
      unfold examined
      split
      · exact absurd rfl (plain _)
      · rfl
    rw [read]
    rfl
  mentions slot mentioned := by
    simp only [Branch.slots, Action.slots, Value.slots, List.mem_cons, List.not_mem_nil]
      at mentioned ⊢
    tauto
  writes slot writing := List.mem_cons.mpr (.inl (List.mem_singleton.mp writing))

/-- A case for null references and one in which the source is read. -/
theorem Converts.either {test : Test} (tests : ∀ null, test.holds null = null) (name : ScopedName)
    (text : String) {no : List Action}
    (acting : ∀ chosen : Slot → Bool, chosen .servant = false → ∀ index memory,
      chosenOn chosen (inTurn (Action.run surroundings index) no memory).events =
        chosenOn chosen [.on .read (source.cell index), .on .assigned (target.cell index)])
    (mentions : ∀ slot ∈ no.flatMap Action.slots, slot ∈ [source.slot, target.slot, .servant])
    (writes : ∀ slot ∈ no.flatMap Action.written, slot ∈ [target.slot, .servant]) :
    Converts surroundings (.interface name) source target
      (.either test source (.assign target (.null text)) no) where
  events chosen isServant index memory := by
    rw [Branch.run, tests, Outcome.after, chosenOn_append, examined]
    cases null : memory.isNull (source.cell index) with
    | true =>
      rw [Memory.isNull, Place.cell] at null
      simp only [null, if_true]
      rw [← chosenOn_append]
      rfl
    | false =>
      rw [Memory.isNull, Place.cell] at null
      simp only [null, Bool.false_eq_true, if_false]
      rw [acting chosen isServant, ← chosenOn_append]
      rfl
  mentions slot mentioned := by
    rcases List.mem_cons.mp mentioned with tested | mentioned
    · exact List.mem_cons.mpr (.inl tested)
    · rcases List.mem_append.mp mentioned with yes | no
      · exact List.mem_cons_of_mem _ (List.mem_cons.mpr (.inl (List.mem_singleton.mp yes)))
      · exact mentions slot no
  writes slot writing := by
    rcases List.mem_append.mp writing with yes | no
    · exact List.mem_cons.mpr (.inl (List.mem_singleton.mp yes))
    · exact writes slot no

theorem converts_remoteCode (root : ScopedName) (type : IdlType) :
    Converts surroundings type source target (remoteCode root type source target) := by
  unfold remoteCode
  split
  case h_4 name =>
    refine .either (fun _ => rfl) name _ (fun chosen isServant index memory => ?_) ?_ ?_
    · simp [inTurn, Outcome.andThen, Outcome.after, Action.run, Value.reads, Place.cell, isServant]
    · simp [Action.slots, Value.slots]
    · simp [Action.written]
  all_goals exact .always (by simp_all) _ _

theorem converts_localCode (type : IdlType) :
    Converts surroundings type source target (localCode type source target) := by
  rw [localCode.eq_def]
  dsimp only
  split
  case h_4 name =>
    refine .either (fun _ => rfl) name _ (fun chosen isServant index memory => ?_) ?_ ?_
    · simp [inTurn, Outcome.andThen, Outcome.after, Action.run, Value.reads]
    · simp [Action.slots, Value.slots]
    · simp [Action.written]
  all_goals exact .always (by simp_all) _ _

end Branches

/-! ## Loops -/

section Loops

variable {surroundings : Surroundings} {chosen : Slot → Bool}

/-- Seen from the chosen variables, a loop that converts elements goes through them in order. -/
theorem Converts.chosenOn_loop {type : IdlType} {source target : Slot} {branch : Branch}
    (converts : Converts surroundings type (.element source) (.element target) branch)
    (isServant : chosen .servant = false) (apart : source ≠ target) (unserved : source ≠ .servant)
    (bound : Bound) (memory : Memory) :
    chosenOn chosen ((Statement.loop bound [branch]).run surroundings memory).events =
      chosenOn chosen [.on .read ⟨bound.slot, none⟩] ++
        (List.range (memory bound.slot).extent).flatMap fun index =>
          chosenOn chosen (examined type source (memory source) (some index)) ++
            chosenOn chosen [.on .assigned ⟨target, some index⟩] := by
  -- No round writes the source, so every round finds it as it was in front of the loop.
  have unwritten : source ∉ branch.written := fun writing => by
    simpa [apart, unserved] using converts.writes source writing
  have round (index : Nat) (memory : Memory) :
      inTurn (Branch.run surroundings index) [branch] memory =
        ⟨(branch.run surroundings index memory).memory,
          (branch.run surroundings index memory).events ++ []⟩ := rfl
  rw [Statement.run, Outcome.after, chosenOn_append]
  refine congrArg _ (chosenOn_rounds source (fun contents index =>
    chosenOn chosen (examined type source contents (some index)) ++
      chosenOn chosen [.on .assigned ⟨target, some index⟩]) ?_ ?_ _ memory)
  · intro index memory
    rw [round]
    exact (branch.within surroundings index).keeps memory source unwritten
  · intro index memory
    rw [round, List.append_nil, converts.events chosen isServant, chosenOn_append]
    rfl

end Loops

/-! ## Variables -/

/-- A local value is read. The count of a sequence is read once for the length of the remote
sequence, and once for the loop. -/
def converting (type : IdlType) (source count : Slot) (memory : Memory) : List Event :=
  match type with
  | .sequence _ element =>
    [.on .read ⟨count, none⟩, .on .read ⟨count, none⟩] ++
      (List.range (memory count).extent).flatMap fun index =>
        examined element source (memory source) (some index)
  | type => examined type source (memory source) none

/-- A remote variable is filled. -/
def filling (type : IdlType) (target : Slot) (length : Nat) : List Event :=
  match type with
  | .sequence _ _ =>
    [.on .assigned ⟨target, none⟩, .on .resized ⟨target, none⟩] ++
      (List.range length).map fun index => .on .assigned ⟨target, some index⟩
  | _ => [.on .assigned ⟨target, none⟩]

/-- A remote variable is read. -/
def loading (type : IdlType) (source : Slot) (contents : Contents) : List Event :=
  match type with
  | .sequence _ element =>
    .on .read ⟨source, none⟩ ::
      (List.range contents.extent).flatMap fun index =>
        examined element source contents (some index)
  | type => examined type source contents none

/-- A local value is assigned: the count of a sequence, its array, then its elements. -/
def storing (type : IdlType) (target count : Slot) (length : Nat) : List Event :=
  match type with
  | .sequence _ _ =>
    [.on .assigned ⟨count, none⟩, .on .read ⟨count, none⟩, .on .assigned ⟨target, none⟩,
      .on .read ⟨count, none⟩] ++
      (List.range length).map fun index => .on .assigned ⟨target, some index⟩
  | _ => [.on .assigned ⟨target, none⟩]

/-- A local value is freed: the elements of a sequence that own something, then the array. -/
def freeing (type : IdlType) (place count : Slot) (memory : Memory) : List Event :=
  match type with
  | .sequence _ element =>
    (if ownsLocal element then
      .on .read ⟨count, none⟩ :: (List.range (memory count).extent).flatMap fun index =>
        freed element place (memory place) (some index)
     else []) ++ [.on .released ⟨place, none⟩]
  | type => freed type place (memory place) none

/-- The references of a remote variable are given back. -/
def releasing (type : IdlType) (place : Slot) (contents : Contents) : List Event :=
  match type with
  | .interface _ => givenBack place contents none
  | .sequence _ (.interface _) =>
    .on .read ⟨place, none⟩ ::
      (List.range contents.extent).flatMap fun index => givenBack place contents (some index)
  | _ => []

/-- What is read depends only on the variables that are read. -/
theorem converting_congr (type : IdlType) {source count : Slot} {memory other : Memory}
    (sameSource : memory source = other source) (sameCount : memory count = other count) :
    converting type source count memory = converting type source count other := by
  simp only [converting, sameSource, sameCount]

theorem freeing_congr (type : IdlType) {place count : Slot} {memory other : Memory}
    (samePlace : memory place = other place) (sameCount : memory count = other count) :
    freeing type place count memory = freeing type place count other := by
  simp only [freeing, samePlace, sameCount]

section Variables

variable {surroundings : Surroundings} {chosen : Slot → Bool} {source target count : Slot}

theorem ne_of_chosen {slot other : Slot} (isSlot : chosen slot = true)
    (isOther : chosen other = false) : slot ≠ other := by
  rintro rfl
  rw [isSlot] at isOther
  cases isOther

theorem flatMap_examined {type : IdlType} {contents : Contents} {length : Nat}
    (isSource : chosen source = true) (isTarget : chosen target = false) :
    ((List.range length).flatMap fun index =>
      chosenOn chosen (examined type source contents (some index)) ++
        chosenOn chosen [.on .assigned ⟨target, some index⟩]) =
      (List.range length).flatMap fun index => examined type source contents (some index) := by
  simp only [(onlyOn_examined type contents _).chosenOn_self (forall_eq.mpr isSource),
    (onlyOn_singleton _ .assigned).chosenOn_nil (forall_eq.mpr isTarget), List.append_nil]

theorem flatMap_assigned {type : IdlType} {contents : Contents} {length : Nat}
    (isSource : chosen source = false) (isTarget : chosen target = true) :
    ((List.range length).flatMap fun index =>
      chosenOn chosen (examined type source contents (some index)) ++
        chosenOn chosen [.on .assigned ⟨target, some index⟩]) =
      (List.range length).map fun index => .on .assigned ⟨target, some index⟩ := by
  simp only [(onlyOn_examined type contents _).chosenOn_nil (forall_eq.mpr isSource),
    (onlyOn_singleton _ .assigned).chosenOn_self (forall_eq.mpr isTarget), List.nil_append,
    List.map_eq_flatMap]

/-- The statements of a list in order. -/
theorem chosenOn_runAll_cons (statement : Statement) (code : List Statement) (memory : Memory) :
    chosenOn chosen (Statement.runAll surroundings (statement :: code) memory).events =
      chosenOn chosen (statement.run surroundings memory).events ++
        chosenOn chosen (Statement.runAll surroundings code
          (statement.run surroundings memory).memory).events :=
  chosenOn_append ..

theorem chosenOn_runAll_nil (memory : Memory) :
    chosenOn chosen (Statement.runAll surroundings [] memory).events = [] := rfl

/-- Seen from the chosen variables, a single conversion is a look and an assignment. -/
theorem Converts.chosenOn_perform {type : IdlType} {branch : Branch}
    (converts : Converts surroundings type (.whole source) (.whole target) branch)
    (isServant : chosen .servant = false) (memory : Memory) :
    chosenOn chosen (Statement.runAll surroundings [.perform branch] memory).events =
      chosenOn chosen (examined type source (memory source) none) ++
        chosenOn chosen [.on .assigned ⟨target, none⟩] := by
  rw [chosenOn_runAll_cons, chosenOn_runAll_nil, List.append_nil, ← chosenOn_append]
  exact converts.events chosen isServant 0 memory

/-- A remote sequence is made, gets its length and then its elements. -/
theorem chosenOn_fillSequence (root name : ScopedName) (element : IdlType)
    (isServant : chosen .servant = false) (unserved : source ≠ .servant) (apart : source ≠ target)
    (uncounted : count ≠ target) (memory : Memory) :
    chosenOn chosen (Statement.runAll surroundings
        (fillRemote root (.sequence name element) source target count) memory).events =
      chosenOn chosen [.on .assigned ⟨target, none⟩, .on .read ⟨count, none⟩,
        .on .resized ⟨target, none⟩, .on .read ⟨count, none⟩] ++
        (List.range (memory count).extent).flatMap fun index =>
          chosenOn chosen (examined element source (memory source) (some index)) ++
            chosenOn chosen [.on .assigned ⟨target, some index⟩] := by
  rw [fillRemote, chosenOn_runAll_cons, chosenOn_runAll_cons, chosenOn_runAll_cons,
    (converts_remoteCode root element).chosenOn_loop isServant apart unserved, chosenOn_runAll_nil,
    List.append_nil, ← List.append_assoc, ← List.append_assoc, ← chosenOn_append, ← chosenOn_append]
  simp only [Statement.run, Branch.run, Action.run, Memory.mark, Memory.resize, Bound.slot,
    Place.cell, Place.slot_whole, Memory.set_other _ _ apart, Memory.set_other _ _ uncounted]
  rfl

/-- A local sequence gets its count, its array and then its elements. -/
theorem chosenOn_storeSequence (name : ScopedName) (element : IdlType)
    (isServant : chosen .servant = false) (unserved : source ≠ .servant) (apart : source ≠ target)
    (uncounted : source ≠ count) (countApart : count ≠ target) (memory : Memory) :
    chosenOn chosen (Statement.runAll surroundings
        (fillLocal (.sequence name element) source target count) memory).events =
      chosenOn chosen [.on .read ⟨source, none⟩, .on .assigned ⟨count, none⟩,
        .on .read ⟨count, none⟩, .on .assigned ⟨target, none⟩, .on .read ⟨count, none⟩] ++
        (List.range (memory source).extent).flatMap fun index =>
          chosenOn chosen (examined element source (memory source) (some index)) ++
            chosenOn chosen [.on .assigned ⟨target, some index⟩] := by
  rw [fillLocal, chosenOn_runAll_cons, chosenOn_runAll_cons, chosenOn_runAll_cons,
    (converts_localCode element).chosenOn_loop isServant apart unserved, chosenOn_runAll_nil,
    List.append_nil, ← List.append_assoc, ← List.append_assoc, ← chosenOn_append, ← chosenOn_append]
  simp only [Statement.run, Memory.mark, Memory.resize, Bound.slot, Memory.set_same,
    Memory.set_other _ _ apart, Memory.set_other _ _ uncounted, Memory.set_other _ _ countApart]
  rfl

/-! ### From the source and from the target -/

theorem chosenOn_fillRemote_source (root : ScopedName) (type : IdlType)
    (isSource : chosen source = true) (isCount : chosen count = true)
    (isTarget : chosen target = false) (isServant : chosen .servant = false) (memory : Memory) :
    chosenOn chosen (Statement.runAll surroundings (fillRemote root type source target count)
      memory).events = converting type source count memory := by
  cases type with
  | sequence name element =>
    rw [chosenOn_fillSequence root name element isServant (ne_of_chosen isSource isServant)
      (ne_of_chosen isSource isTarget) (ne_of_chosen isCount isTarget),
      flatMap_examined isSource isTarget]
    simp [converting, isCount, isTarget]
  | basic | enum | interface =>
    refine ((converts_remoteCode root _).chosenOn_perform isServant memory).trans ?_
    rw [(onlyOn_examined _ _ _).chosenOn_self (forall_eq.mpr isSource),
      (onlyOn_singleton _ .assigned).chosenOn_nil (forall_eq.mpr isTarget), List.append_nil]
    rfl

theorem chosenOn_fillRemote_target (root : ScopedName) (type : IdlType)
    (isSource : chosen source = false) (isCount : chosen count = false)
    (isTarget : chosen target = true) (isServant : chosen .servant = false)
    (unserved : source ≠ .servant) (memory : Memory) :
    chosenOn chosen (Statement.runAll surroundings (fillRemote root type source target count)
      memory).events = filling type target (memory count).extent := by
  cases type with
  | sequence name element =>
    rw [chosenOn_fillSequence root name element isServant unserved
      (ne_of_chosen isTarget isSource).symm (ne_of_chosen isTarget isCount).symm,
      flatMap_assigned isSource isTarget]
    simp [filling, isCount, isTarget]
  | basic | enum | interface =>
    refine ((converts_remoteCode root _).chosenOn_perform isServant memory).trans ?_
    rw [(onlyOn_examined _ _ _).chosenOn_nil (forall_eq.mpr isSource),
      (onlyOn_singleton _ .assigned).chosenOn_self (forall_eq.mpr isTarget), List.nil_append]
    rfl

theorem chosenOn_fillLocal_source (type : IdlType) (isSource : chosen source = true)
    (isCount : chosen count = false) (isTarget : chosen target = false)
    (isServant : chosen .servant = false) (countApart : count ≠ target) (memory : Memory) :
    chosenOn chosen (Statement.runAll surroundings (fillLocal type source target count)
      memory).events = loading type source (memory source) := by
  cases type with
  | sequence name element =>
    rw [chosenOn_storeSequence name element isServant (ne_of_chosen isSource isServant)
      (ne_of_chosen isSource isTarget) (ne_of_chosen isSource isCount) countApart,
      flatMap_examined isSource isTarget]
    simp [loading, isSource, isCount, isTarget]
  | basic | enum | interface =>
    refine ((converts_localCode _).chosenOn_perform isServant memory).trans ?_
    rw [(onlyOn_examined _ _ _).chosenOn_self (forall_eq.mpr isSource),
      (onlyOn_singleton _ .assigned).chosenOn_nil (forall_eq.mpr isTarget), List.append_nil]
    rfl

theorem chosenOn_fillLocal_target (type : IdlType) (isSource : chosen source = false)
    (isCount : chosen count = true) (isTarget : chosen target = true)
    (isServant : chosen .servant = false) (unserved : source ≠ .servant)
    (countApart : count ≠ target) (memory : Memory) :
    chosenOn chosen (Statement.runAll surroundings (fillLocal type source target count)
      memory).events = storing type target count (memory source).extent := by
  cases type with
  | sequence name element =>
    rw [chosenOn_storeSequence name element isServant unserved
      (ne_of_chosen isTarget isSource).symm (ne_of_chosen isCount isSource).symm countApart,
      flatMap_assigned isSource isTarget]
    simp [storing, isSource, isCount, isTarget]
  | basic | enum | interface =>
    refine ((converts_localCode _).chosenOn_perform isServant memory).trans ?_
    rw [(onlyOn_examined _ _ _).chosenOn_nil (forall_eq.mpr isSource),
      (onlyOn_singleton _ .assigned).chosenOn_self (forall_eq.mpr isTarget), List.nil_append]
    rfl

end Variables

/-! ## Freeing and giving back -/

section Releases

variable {surroundings : Surroundings}

/-- A reference is tested and, unless it is null, released. -/
theorem run_when_release {test : Test} (tests : ∀ null, test.holds null = !null) (place : Place)
    (index : Nat) (memory : Memory) :
    (Branch.when test place (.release place)).run surroundings index memory =
      ⟨memory, givenBack place.slot (memory place.slot) (place.index? index)⟩ := by
  rw [Branch.run, tests, givenBack, Memory.isNull, Place.cell]
  cases (memory place.slot).isNull (place.index? index) <;> rfl

theorem run_freeCode (type : IdlType) (place : Place) (index : Nat) (memory : Memory) :
    inTurn (Branch.run surroundings index) (freeCode type place) memory =
      ⟨memory, freed type place.slot (memory place.slot) (place.index? index)⟩ := by
  cases type with
  | interface name =>
    rw [freeCode, inTurn, run_when_release fun _ => rfl, freed]
    simp [inTurn, Outcome.andThen, Outcome.after]
  | basic kind => cases kind <;> rfl
  | enum | sequence => rfl

/-- Runs that keep the memory find it as it was. -/
theorem inTurn_of_keeps {α : Type} {run : α → Memory → Outcome} {memory : Memory}
    {events : α → List Event} (each : ∀ item, run item memory = ⟨memory, events item⟩)
    (items : List α) : inTurn run items memory = ⟨memory, items.flatMap events⟩ := by
  induction items with
  | nil => rfl
  | cons item items ih =>
    rw [inTurn, each, Outcome.andThen, ih]
    rfl

theorem runAll_perform (branches : List Branch) (memory : Memory) :
    Statement.runAll surroundings (branches.map .perform) memory =
      inTurn (Branch.run surroundings 0) branches memory := by
  induction branches generalizing memory with
  | nil => rfl
  | cons branch branches ih =>
    show (branch.run surroundings 0 memory).andThen _ =
      (branch.run surroundings 0 memory).andThen _
    exact congrArg _ (funext ih)

theorem run_freeLocalCode (type : IdlType) (place count : Slot) (memory : Memory) :
    Statement.runAll surroundings (freeLocalCode type place count) memory =
      ⟨memory, freeing type place count memory⟩ := by
  cases type with
  | sequence name element =>
    have loop : (Statement.loop (.count count) (freeCode element (.element place))).run surroundings
        memory = ⟨memory, .on .read ⟨count, none⟩ :: (List.range (memory count).extent).flatMap
          fun index => freed element place (memory place) (some index)⟩ := by
      rw [Statement.run,
        inTurn_of_keeps fun index => run_freeCode element (.element place) index memory]
      rfl
    rw [freeLocalCode, freeing]
    split
    · rw [List.cons_append, Statement.runAll, inTurn, loop]
      rfl
    · rfl
  | basic | enum | interface =>
    exact (runAll_perform _ memory).trans (run_freeCode _ (.whole place) 0 memory)

theorem run_releaseRemoteCode (type : IdlType) (place : Slot) (memory : Memory) :
    Statement.runAll surroundings (releaseRemoteCode type place) memory =
      ⟨memory, releasing type place (memory place)⟩ := by
  have released (place : Place) (index : Nat) :
      inTurn (Branch.run surroundings index) [releaseCode place] memory =
        ⟨memory, givenBack place.slot (memory place.slot) (place.index? index)⟩ := by
    rw [releaseCode, inTurn, run_when_release fun _ => rfl]
    simp [inTurn, Outcome.andThen, Outcome.after]
  cases type with
  | interface name =>
    exact (runAll_perform [releaseCode (.whole place)] memory).trans (released (.whole place) 0)
  | sequence name element =>
    cases element with
    | interface inner =>
      rw [releaseRemoteCode, Statement.runAll, inTurn, Statement.run,
        inTurn_of_keeps fun index => released (.element place) index]
      simp [Outcome.andThen, Outcome.after, inTurn, releasing, Bound.slot, Place.index?]
    | basic | enum | sequence => rfl
  | basic | enum => rfl

end Releases

/-! ## Frames -/

section Frames

variable (surroundings : Surroundings) (type : IdlType) (source target count : Slot)

theorem Converts.within_perform {branch : Branch}
    (converts : Converts surroundings type (.whole source) (.whole target) branch) :
    Within (· ∈ [source, target, .servant]) (· ∈ [target, .servant])
      ((Statement.perform branch).run surroundings) :=
  (Statement.within surroundings rfl).mono converts.mentions converts.writes

theorem Converts.within_loop {branch : Branch}
    (converts : Converts surroundings type (.element source) (.element target) branch)
    (bound : Bound) :
    Within (· ∈ [bound.slot, source, target, .servant]) (· ∈ [target, .servant])
      ((Statement.loop bound [branch]).run surroundings) := by
  refine (Statement.within surroundings rfl).mono (fun slot mentioned => ?_) fun slot writing => ?_
  · rw [Statement.slots, List.flatMap_singleton] at mentioned
    exact List.mem_cons.mpr ((List.mem_cons.mp mentioned).imp_right (converts.mentions slot))
  · rw [Statement.written, List.flatMap_singleton] at writing
    exact converts.writes slot writing

theorem within_fillRemote (root : ScopedName) :
    Within (· ∈ [source, target, count, .servant]) (· ∈ [target, .servant])
      (Statement.runAll surroundings (fillRemote root type source target count)) := by
  refine .inTurn fun statement listed => ?_
  cases type with
  | sequence name element =>
    simp only [fillRemote, List.mem_cons, List.not_mem_nil, or_false] at listed
    rcases listed with rfl | rfl | rfl
    · refine (Statement.within surroundings rfl).mono ?_ ?_
      · simp [Statement.slots, Branch.slots, Action.slots, Value.slots]
      · simp [Statement.written, Branch.written, Action.written]
    · exact (Statement.within surroundings rfl).mono (by simp [Statement.slots])
        (by simp [Statement.written])
    · exact ((converts_remoteCode root element).within_loop surroundings _ _ _ _).mono
        (by simp [Bound.slot]) fun _ => id
  | basic | enum | interface =>
    cases List.mem_singleton.mp listed
    exact ((converts_remoteCode root _).within_perform surroundings _ _ _).mono (by simp)
      fun _ => id

theorem within_fillLocal :
    Within (· ∈ [source, target, count, .servant]) (· ∈ [target, count, .servant])
      (Statement.runAll surroundings (fillLocal type source target count)) := by
  refine .inTurn fun statement listed => ?_
  cases type with
  | sequence name element =>
    simp only [fillLocal, List.mem_cons, List.not_mem_nil, or_false] at listed
    rcases listed with rfl | rfl | rfl
    · exact (Statement.within surroundings rfl).mono (by simp [Statement.slots])
        (by simp [Statement.written])
    · exact (Statement.within surroundings rfl).mono (by simp [Statement.slots])
        (by simp [Statement.written])
    · exact ((converts_localCode element).within_loop surroundings _ _ _ _).mono
        (by simp [Bound.slot]) (by simp)
  | basic | enum | interface =>
    cases List.mem_singleton.mp listed
    exact ((converts_localCode _).within_perform surroundings _ _ _).mono (by simp) (by simp)

theorem onlyOn_freeing (place : Slot) (memory : Memory) :
    OnlyOn (· ∈ [place, count]) (freeing type place count memory) := by
  have isPlace : ∀ slot, slot = place → slot ∈ [place, count] := by simp
  unfold freeing
  split
  · refine .append ?_ (.cons (by simp) .nil)
    split
    · exact .cons (by simp) (.flatMap fun index => (onlyOn_freed _ _ _).mono isPlace)
    · exact .nil
  · exact (onlyOn_freed _ _ _).mono isPlace

theorem onlyOn_releasing (place : Slot) (contents : Contents) :
    OnlyOn (· = place) (releasing type place contents) := by
  unfold releasing
  split
  · exact onlyOn_tested contents none .released
  · exact .cons rfl (.flatMap fun index => onlyOn_tested contents (some index) .released)
  · exact .nil

end Frames

/-! ## Deeds -/

section Deeds

variable (type : IdlType) {event : Event}

theorem deed_examined {slot : Slot} {contents : Contents} {index? : Option Nat}
    (happened : event ∈ examined type slot contents index?) :
    event.deed? = some .tested ∨ event.deed? = some .read := by
  unfold examined at happened
  split at happened
  · rcases List.mem_cons.mp happened with rfl | later
    · exact .inl rfl
    · split at later
      · exact absurd later List.not_mem_nil
      · exact .inr (by rw [List.mem_singleton.mp later]; rfl)
  · exact .inr (by rw [List.mem_singleton.mp happened]; rfl)

/-- To convert a local value is only to read it. -/
theorem deed_converting {source count : Slot} {memory : Memory}
    (happened : event ∈ converting type source count memory) :
    event.deed? = some .tested ∨ event.deed? = some .read := by
  unfold converting at happened
  split at happened
  · rcases List.mem_append.mp happened with first | later
    · simp only [List.mem_cons, List.not_mem_nil, or_false, or_self] at first
      exact .inr (by rw [first]; rfl)
    · obtain ⟨index, -, happened⟩ := List.mem_flatMap.mp later
      exact deed_examined _ happened
  · exact deed_examined _ happened

theorem deed_loading {source : Slot} {contents : Contents}
    (happened : event ∈ loading type source contents) :
    event.deed? = some .tested ∨ event.deed? = some .read := by
  unfold loading at happened
  split at happened
  · rcases List.mem_cons.mp happened with rfl | later
    · exact .inr rfl
    · obtain ⟨index, -, happened⟩ := List.mem_flatMap.mp later
      exact deed_examined _ happened
  · exact deed_examined _ happened

theorem deed_filling {target : Slot} {length : Nat}
    (happened : event ∈ filling type target length) :
    event.deed? = some .assigned ∨ event.deed? = some .resized := by
  unfold filling at happened
  split at happened
  · rcases List.mem_append.mp happened with first | later
    · simp only [List.mem_cons, List.not_mem_nil, or_false] at first
      rcases first with rfl | rfl
      · exact .inl rfl
      · exact .inr rfl
    · obtain ⟨index, -, rfl⟩ := List.mem_map.mp later
      exact .inl rfl
  · exact .inl (by rw [List.mem_singleton.mp happened]; rfl)

end Deeds

end IdlBridge.Adapter
