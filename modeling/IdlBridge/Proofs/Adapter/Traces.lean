import IdlBridge.Proofs.Adapter.Conversions

/-!
# What exchanges do to their variables

The statements for a parameter touch the variables of this parameter only, so what an exchange
does to them can be read off these statements, wherever the parameter stands among the others
(`run_forParameters`). For every parameter this gives what happens to the caller's value in front
of the call and behind it (`Exchange.callers_before`, `Exchange.callers_behind`) and to the remote
variable in the whole body (`Exchange.remote_run`), and for the result what happens to the remote
result (`Exchange.answer_run`).
-/

set_option autoImplicit false

namespace IdlBridge.Adapter

/-- The parameter that a variable belongs to. -/
def Slot.owner? : Slot → Option Nat
  | argument index | count index | remote index => some index
  | servant | answer | result | resultCount => none

/-- Code for a parameter may touch its variables, and narrow a local object. -/
def Slot.Near (index : Nat) (slot : Slot) : Prop := slot = .servant ∨ slot.owner? = some index

/-- The caller's value of a parameter, with its element count. -/
def callers (index : Nat) : Slot → Bool
  | .argument other | .count other => other == index
  | _ => false

theorem owner_of_callers {index : Nat} {slot : Slot} (isCallers : callers index slot = true) :
    slot.owner? = some index := by
  cases slot <;> simp_all [callers, Slot.owner?]

/-- A single variable. -/
def only (slot other : Slot) : Bool := other == slot

theorem only_self (slot : Slot) : only slot slot = true := beq_self_eq_true slot

theorem eq_of_only {slot other : Slot} (isSlot : only slot other = true) : other = slot :=
  eq_of_beq isSlot

theorem owner_of_only {index : Nat} {slot : Slot} (isRemote : only (.remote index) slot = true) :
    slot.owner? = some index := by
  rw [eq_of_only isRemote]
  rfl

/-! ## Statements of one parameter -/

section Runs

variable {surroundings : Surroundings}

theorem Statement.runAll_append (first second : List Statement) (memory : Memory) :
    runAll surroundings (first ++ second) memory =
      (runAll surroundings first memory).andThen (runAll surroundings second) :=
  inTurn_append ..

theorem Statement.memory_runAll_append (first second : List Statement) (memory : Memory) :
    (runAll surroundings (first ++ second) memory).memory =
      (runAll surroundings second (runAll surroundings first memory).memory).memory := by
  rw [runAll_append]
  rfl

theorem chosenOn_runAll_append (chosen : Slot → Bool) (first second : List Statement)
    (memory : Memory) :
    chosenOn chosen (Statement.runAll surroundings (first ++ second) memory).events =
      chosenOn chosen (Statement.runAll surroundings first memory).events ++
        chosenOn chosen (Statement.runAll surroundings second
          (Statement.runAll surroundings first memory).memory).events := by
  rw [Statement.runAll_append]
  exact chosenOn_append ..

theorem Within.runAll_append {touched written : Slot → Prop} {first second : List Statement}
    (before : Within touched written (Statement.runAll surroundings first))
    (after : Within touched written (Statement.runAll surroundings second)) :
    Within touched written (Statement.runAll surroundings (first ++ second)) := by
  have both := before.andThen after
  simpa only [← Statement.runAll_append] using both

theorem Within.runAll_flatMap {α : Type} {touched written : Slot → Prop} {items : List α}
    {code : α → List Statement}
    (each : ∀ item ∈ items, Within touched written (Statement.runAll surroundings (code item))) :
    Within touched written (Statement.runAll surroundings (items.flatMap code)) := by
  induction items with
  | nil => exact .idle
  | cons item items ih =>
    rw [List.flatMap_cons]
    exact (each item List.mem_cons_self).runAll_append
      (ih fun other listed => each other (List.mem_cons_of_mem _ listed))

end Runs

end IdlBridge.Adapter

namespace IdlBridge.Parameter

open Adapter Statement

variable (surroundings : Surroundings) (root : ScopedName) (param : Parameter) (index : Nat)

theorem within_preparing :
    Within (Slot.Near index) (fun slot => slot = .servant ∨ slot = .remote index)
      (runAll surroundings (param.preparing root index)) := by
  have declared : Within (Slot.Near index) (fun slot => slot = .servant ∨ slot = .remote index)
      (runAll surroundings [declare (remoteHolder param.type) (.remote index)]) :=
    ⟨fun _ => .cons (.inr rfl) .nil, fun _ _ _ => rfl⟩
  have filled : Within (Slot.Near index) (fun slot => slot = .servant ∨ slot = .remote index)
      (runAll surroundings (if param.direction.isIn then
        fillRemote root param.type (.argument index) (.remote index) (.count index) else [])) := by
    split
    · exact (within_fillRemote surroundings _ _ _ _ root).mono (by simp [Slot.Near, Slot.owner?])
        (by simp)
    · exact .idle
  exact declared.runAll_append filled

theorem near_preparing :
    Within (Slot.Near index) (Slot.Near index) (runAll surroundings (param.preparing root index)) :=
  (param.within_preparing surroundings root index).mono (fun _ => id)
    (by simp [Slot.Near, Slot.owner?])

/-- What an argument that goes in owned is freed. -/
theorem run_freeOld (memory : Memory) :
    runAll surroundings (if param.direction.isIn then
      freeLocalCode param.type (.argument index) (.count index) else []) memory =
        ⟨memory, if param.direction.isIn then
          freeing param.type (.argument index) (.count index) memory else []⟩ := by
  split
  · exact run_freeLocalCode _ _ _ memory
  · rfl

/-- The remote variable of an argument that goes in is given back. -/
theorem run_giveBack (memory : Memory) :
    runAll surroundings (if param.direction.isIn then
      releaseRemoteCode param.type (.remote index) else []) memory =
        ⟨memory, if param.direction.isIn then
          releasing param.type (.remote index) (memory (.remote index)) else []⟩ := by
  split
  · exact run_releaseRemoteCode _ _ memory
  · rfl

/-- The variables of the caller are replaced, and nothing else is changed. -/
theorem within_replace :
    Within (Slot.Near index) (fun slot => slot.Near index ∧ slot ≠ .remote index)
      (runAll surroundings (if param.direction.isOut then
        (if param.direction.isIn then
          freeLocalCode param.type (.argument index) (.count index) else []) ++
          fillLocal param.type (.remote index) (.argument index) (.count index)
        else [])) := by
  split
  · refine .runAll_append ⟨fun memory => ?_, fun memory _ _ => ?_⟩ ?_
    · rw [run_freeOld]
      split
      · exact (onlyOn_freeing _ _ _ _).mono (by simp [Slot.Near, Slot.owner?])
      · exact .nil
    · rw [run_freeOld]
    · exact (within_fillLocal surroundings _ _ _ _).mono (by simp [Slot.Near, Slot.owner?])
        (by simp [Slot.Near, Slot.owner?])
  · exact .idle

theorem within_completing :
    Within (Slot.Near index) (fun slot => slot.Near index ∧ slot ≠ .remote index)
      (runAll surroundings (param.completing index)) := by
  refine (within_replace surroundings param index).runAll_append
    ⟨fun memory => ?_, fun memory _ _ => ?_⟩
  · rw [run_giveBack]
    split
    · exact (onlyOn_releasing _ _ _).mono (forall_eq.mpr (.inr rfl))
    · exact .nil
  · rw [run_giveBack]

theorem near_completing :
    Within (Slot.Near index) (Slot.Near index) (runAll surroundings (param.completing index)) :=
  (param.within_completing surroundings index).mono (fun _ => id) fun _ changed => changed.1

/-- Seen from the caller, an argument is prepared by converting it. -/
theorem callers_preparing (memory : Memory) :
    chosenOn (callers index) (runAll surroundings (param.preparing root index) memory).events =
      if param.direction.isIn then converting param.type (.argument index) (.count index) memory
      else [] := by
  rw [preparing, chosenOn_runAll_cons]
  refine (List.nil_append _).trans ?_
  split
  · exact chosenOn_fillRemote_source root _ (by simp [callers]) (by simp [callers]) rfl rfl memory
  · rfl

/-- Seen from its remote variable, an argument is prepared by declaring and filling it. -/
theorem remote_preparing (memory : Memory) :
    chosenOn (only (.remote index))
        (runAll surroundings (param.preparing root index) memory).events =
      .on .declared ⟨.remote index, none⟩ ::
        if param.direction.isIn then
          filling param.type (.remote index) (memory (.count index)).extent
        else [] := by
  have declared : chosenOn (only (.remote index)) ((declare (remoteHolder param.type)
      (.remote index)).run surroundings memory).events = [.on .declared ⟨.remote index, none⟩] := by
    simp [run, only]
  rw [preparing, chosenOn_runAll_cons, declared, List.singleton_append]
  split
  · rw [chosenOn_fillRemote_target root _ rfl rfl (by simp [only]) rfl Slot.noConfusion]
    rfl
  · rfl

/-- Seen from the caller, an argument is completed by freeing the old value, if there is one, and
storing the new one. -/
theorem callers_completing (memory : Memory) :
    chosenOn (callers index) (runAll surroundings (param.completing index) memory).events =
      if param.direction.isOut then
        (if param.direction.isIn then freeing param.type (.argument index) (.count index) memory
         else []) ++
          storing param.type (.argument index) (.count index) (memory (.remote index)).extent
      else [] := by
  have released (contents : Contents) : chosenOn (callers index) (if param.direction.isIn then
      releasing param.type (.remote index) contents else []) = [] := by
    split
    · exact (onlyOn_releasing _ _ _).chosenOn_nil (forall_eq.mpr rfl)
    · rfl
  have freed : chosenOn (callers index) (if param.direction.isIn then
      freeing param.type (.argument index) (.count index) memory else []) =
        if param.direction.isIn then
          freeing param.type (.argument index) (.count index) memory else [] := by
    split
    · exact (onlyOn_freeing _ _ _ _).chosenOn_self (by simp [callers])
    · rfl
  rw [completing, chosenOn_runAll_append, run_giveBack, released, List.append_nil]
  split
  · rw [chosenOn_runAll_append, run_freeOld, freed, chosenOn_fillLocal_target _ rfl
      (by simp [callers]) (by simp [callers]) rfl Slot.noConfusion Slot.noConfusion]
  · rfl

/-- Seen from its remote variable, an argument is completed by reading the new value, if there is
one, and giving back what it holds, if it was filled here. -/
theorem remote_completing (memory : Memory) :
    chosenOn (only (.remote index)) (runAll surroundings (param.completing index) memory).events =
      (if param.direction.isOut then loading param.type (.remote index) (memory (.remote index))
       else []) ++
        if param.direction.isIn then releasing param.type (.remote index) (memory (.remote index))
        else [] := by
  have kept := (within_replace surroundings param index).keeps memory (.remote index)
    fun changed => changed.2 rfl
  have released (contents : Contents) : chosenOn (only (.remote index))
      (if param.direction.isIn then releasing param.type (.remote index) contents else []) =
        if param.direction.isIn then releasing param.type (.remote index) contents else [] := by
    split
    · exact (onlyOn_releasing _ _ _).chosenOn_self (by simp [only])
    · rfl
  have freed : chosenOn (only (.remote index)) (if param.direction.isIn then
      freeing param.type (.argument index) (.count index) memory else []) = [] := by
    split
    · exact (onlyOn_freeing _ _ _ _).chosenOn_nil (by simp [only])
    · rfl
  rw [completing, chosenOn_runAll_append, run_giveBack, kept, released]
  refine congrArg (· ++ _) ?_
  split
  · rw [chosenOn_runAll_append, run_freeOld, freed, List.nil_append, chosenOn_fillLocal_source _
      (by simp [only]) rfl rfl rfl Slot.noConfusion]
  · rfl

end IdlBridge.Parameter

namespace IdlBridge.Adapter

open Statement

/-! ## Statements of all parameters -/

section Parameters

variable {surroundings : Surroundings}

/-- The entry of a parameter among all parameters. -/
theorem zipIdx_split {params : List Parameter} {index : Nat} {param : Parameter}
    (found : params[index]? = some param) :
    ∃ front back, params.zipIdx = front ++ (param, index) :: back ∧
      ∀ entry ∈ front ++ back, entry.2 ≠ index := by
  have listed : (param, index) ∈ params.zipIdx := List.mem_zipIdx_iff_getElem?.mpr found
  obtain ⟨front, back, split⟩ := List.append_of_mem listed
  have distinct : (params.zipIdx.map Prod.snd).Nodup := by
    rw [List.zipIdx_map_snd]
    exact List.nodup_range'
  rw [split, List.map_append, List.map_cons] at distinct
  obtain ⟨-, later, apart⟩ := List.nodup_append.mp distinct
  refine ⟨front, back, split, fun entry listed => ?_⟩
  rcases List.mem_append.mp listed with inFront | inBack
  · exact apart _ (List.mem_map_of_mem inFront) _ List.mem_cons_self
  · intro same
    exact (List.nodup_cons.mp later).1 (List.mem_map.mpr ⟨entry, inBack, same⟩)

/-- Among the statements for all parameters, those for one parameter find its variables as they
were, and leave them as they are in the end. -/
theorem run_forParameters {code : Parameter → Nat → List Statement}
    (near : ∀ param index, Within (Slot.Near index) (Slot.Near index)
      (runAll surroundings (code param index)))
    {params : List Parameter} {index : Nat} {param : Parameter}
    (found : params[index]? = some param) (memory : Memory) :
    ∃ here : Memory, (∀ slot, slot.owner? = some index → here slot = memory slot) ∧
      (∀ slot, slot.owner? = some index →
        (runAll surroundings (forParameters code params) memory).memory slot =
          (runAll surroundings (code param index) here).memory slot) ∧
      ∀ chosen : Slot → Bool, (∀ slot, chosen slot = true → slot.owner? = some index) →
        chosenOn chosen (runAll surroundings (forParameters code params) memory).events =
          chosenOn chosen (runAll surroundings (code param index) here).events := by
  obtain ⟨front, back, split, others⟩ := zipIdx_split found
  -- The statements for other parameters stay away from the variables of this one.
  have apart (entries : List (Parameter × Nat)) (differ : ∀ entry ∈ entries, entry.2 ≠ index) :
      Within (fun slot => slot.owner? ≠ some index) (fun slot => slot.owner? ≠ some index)
        (runAll surroundings (entries.flatMap fun entry => code entry.1 entry.2)) := by
    have away (entry : Parameter × Nat) (listed : entry ∈ entries) (slot : Slot)
        (close : slot.Near entry.2) : slot.owner? ≠ some index := by
      rcases close with rfl | own
      · exact (Option.some_ne_none index).symm
      · rw [own]
        exact fun same => differ entry listed (Option.some.inj same)
    exact .runAll_flatMap fun entry listed =>
      (near entry.1 entry.2).mono (away entry listed) (away entry listed)
  have early := apart front fun entry listed => others entry (List.mem_append_left _ listed)
  have late := apart back fun entry listed => others entry (List.mem_append_right _ listed)
  rw [forParameters, split, List.flatMap_append, List.flatMap_cons]
  refine ⟨_, fun slot own => early.keeps memory slot fun other => other own, fun slot own => ?_,
    fun chosen mine => ?_⟩
  · rw [memory_runAll_append, memory_runAll_append]
    exact late.keeps _ slot fun other => other own
  · have unseen (slot : Slot) (other : slot.owner? ≠ some index) : chosen slot = false :=
      Bool.eq_false_iff.mpr fun isChosen => other (mine slot isChosen)
    rw [chosenOn_runAll_append, chosenOn_runAll_append, (early.touches memory).chosenOn_nil unseen,
      (late.touches _).chosenOn_nil unseen, List.nil_append, List.append_nil]

/-- The statements for all parameters leave the result alone. -/
theorem within_forParameters {code : Parameter → Nat → List Statement}
    (near : ∀ param index, Within (Slot.Near index) (Slot.Near index)
      (runAll surroundings (code param index))) (params : List Parameter) :
    Within (fun slot => ∃ index, slot.Near index) (fun slot => ∃ index, slot.Near index)
      (runAll surroundings (forParameters code params)) :=
  .runAll_flatMap fun entry _ =>
    (near entry.1 entry.2).mono (fun _ close => ⟨entry.2, close⟩) fun _ close => ⟨entry.2, close⟩

end Parameters

/-! ## Exchanges -/

namespace Exchange

variable (surroundings : Surroundings) (root active : ScopedName) (name : String)
  (exchange : Exchange)

/-- What happens in front of the call. -/
def before (memory : Memory) : Outcome := runAll surroundings (exchange.preparation root) memory

/-- What happens in the call. -/
def during (memory : Memory) : Outcome :=
  (exchange.calling active name).run surroundings (exchange.before surroundings root memory).memory

/-- What happens behind the call. -/
def behind (memory : Memory) : Outcome :=
  runAll surroundings exchange.completion
    (exchange.during surroundings root active name memory).memory

/-- What happens in the body. -/
def run (memory : Memory) : Outcome :=
  runAll surroundings (exchange.code root active name) memory

theorem run_eq (memory : Memory) :
    exchange.run surroundings root active name memory =
      ⟨(exchange.behind surroundings root active name memory).memory,
        (exchange.before surroundings root memory).events ++
          ((exchange.during surroundings root active name memory).events ++
            (exchange.behind surroundings root active name memory).events)⟩ := by
  rw [run, code, runAll_append]
  rfl

/-- The statements that declare the remote result are on it alone. -/
theorem run_declareAnswer (memory : Memory) :
    runAll surroundings
        (exchange.result?.elim [] fun type => [.declare (remoteHolder type) .answer]) memory =
      ⟨memory, exchange.result?.elim [] fun _ => [.on .declared ⟨.answer, none⟩]⟩ := by
  cases exchange.result? <;> rfl

theorem within_returning (type : IdlType) :
    Within (fun slot => slot.owner? = none) (fun slot => slot.owner? = none ∧ slot ≠ .answer)
      (runAll surroundings (returning type)) := by
  have declared : Within (fun slot => slot.owner? = none)
      (fun slot => slot.owner? = none ∧ slot ≠ .answer)
      (runAll surroundings [declare (valueType type) .result]) :=
    ⟨fun _ => .cons rfl .nil, fun _ _ _ => rfl⟩
  have stored : Within (fun slot => slot.owner? = none)
      (fun slot => slot.owner? = none ∧ slot ≠ .answer)
      (runAll surroundings (fillLocal type .answer .result .resultCount)) :=
    (within_fillLocal surroundings type _ _ _).mono (by simp [Slot.owner?]) (by simp [Slot.owner?])
  have released : Within (fun slot => slot.owner? = none)
      (fun slot => slot.owner? = none ∧ slot ≠ .answer)
      (runAll surroundings (releaseRemoteCode type .answer)) := by
    refine ⟨fun memory => ?_, fun memory _ _ => ?_⟩
    · rw [run_releaseRemoteCode]
      exact (onlyOn_releasing _ _ _).mono (forall_eq.mpr rfl)
    · rw [run_releaseRemoteCode]
  have returned : Within (fun slot => slot.owner? = none)
      (fun slot => slot.owner? = none ∧ slot ≠ .answer)
      (runAll surroundings [giveBack .result]) := ⟨fun _ => .cons rfl .nil, fun _ _ _ => rfl⟩
  exact declared.runAll_append (stored.runAll_append (released.runAll_append returned))

/-- Behind the parameters, only the result is dealt with. -/
theorem within_result :
    Within (fun slot => slot.owner? = none) (fun slot => slot.owner? = none ∧ slot ≠ .answer)
      (runAll surroundings (exchange.result?.elim [] returning)) := by
  cases exchange.result? with
  | some type => exact within_returning surroundings type
  | none => exact .idle

/-- Seen from the remote result, it is read and given back. -/
theorem answer_returning (type : IdlType) (memory : Memory) :
    chosenOn (only .answer) (runAll surroundings (returning type) memory).events =
      loading type .answer (memory .answer) ++ releasing type .answer (memory .answer) := by
  have kept := (within_fillLocal surroundings type .answer .result .resultCount).keeps memory
    .answer (by simp)
  have declared : chosenOn (only .answer)
      ((declare (valueType type) .result).run surroundings memory).events = [] := rfl
  have returned (memory : Memory) : chosenOn (only .answer)
      (runAll surroundings [giveBack .result] memory).events = [] := rfl
  rw [returning, chosenOn_runAll_cons, declared, List.nil_append, chosenOn_runAll_append,
    chosenOn_runAll_append, returned, List.append_nil, run_releaseRemoteCode,
    (onlyOn_releasing _ _ _).chosenOn_self (forall_eq.mpr rfl)]
  refine congrArg₂ (· ++ ·) (chosenOn_fillLocal_source type rfl rfl rfl rfl Slot.noConfusion _) ?_
  exact congrArg (releasing type .answer) kept

/-- The remote variables are passed. -/
def passing : List Event :=
  exchange.params.zipIdx.map fun entry => .on .passed ⟨.remote entry.2, none⟩

/-- The remote result is assigned. -/
def answering : List Event :=
  exchange.result?.elim [] fun _ => [.on .assigned ⟨.answer, none⟩]

theorem events_during (memory : Memory) :
    (exchange.during surroundings root active name memory).events =
      exchange.passing ++ .called :: exchange.answering := by
  rw [during, calling, Statement.run, passing, answering, List.map_map]
  cases exchange.result? <;> rfl

/-- Passing remote variables is not seen from others. -/
theorem chosenOn_passed {chosen : Slot → Bool} {entries : List (Parameter × Nat)}
    (apart : ∀ entry ∈ entries, chosen (.remote entry.2) = false) :
    chosenOn chosen (entries.map fun entry => .on .passed ⟨.remote entry.2, none⟩) = [] := by
  refine List.filter_eq_nil_iff.mpr fun event happened => ?_
  obtain ⟨entry, listed, rfl⟩ := List.mem_map.mp happened
  rw [Event.isOn, apart entry listed]
  exact Bool.false_ne_true

section Parameter

variable {exchange} {index : Nat} {param : Parameter} (found : exchange.params[index]? = some param)
  (memory : Memory)

include found

/-- In front of the call, only the statements for a parameter are on its variables. -/
theorem before_at :
    ∃ here : Memory, (∀ slot, slot.owner? = some index → here slot = memory slot) ∧
      (∀ slot, slot.owner? = some index →
        (exchange.before surroundings root memory).memory slot =
          (runAll surroundings (param.preparing root index) here).memory slot) ∧
      ∀ chosen : Slot → Bool, (∀ slot, chosen slot = true → slot.owner? = some index) →
        chosenOn chosen (exchange.before surroundings root memory).events =
          chosenOn chosen (runAll surroundings (param.preparing root index) here).events := by
  obtain ⟨here, agrees, final, events⟩ :=
    run_forParameters (Parameter.near_preparing surroundings root) found memory
  refine ⟨here, agrees, fun slot own => ?_, fun chosen mine => ?_⟩
  · rw [before, preparation, memory_runAll_append, run_declareAnswer]
    exact final slot own
  · have unseen : chosen .answer = false :=
      Bool.eq_false_iff.mpr fun isChosen => Option.some_ne_none index (mine _ isChosen).symm
    rw [before, preparation, chosenOn_runAll_append, events chosen mine, run_declareAnswer]
    cases exchange.result? <;> simp [unseen]

/-- Behind the call, only the statements for a parameter are on its variables. -/
theorem behind_at :
    ∃ here : Memory, (∀ slot, slot.owner? = some index →
        here slot = (exchange.during surroundings root active name memory).memory slot) ∧
      (∀ slot, slot.owner? = some index →
        (exchange.behind surroundings root active name memory).memory slot =
          (runAll surroundings (param.completing index) here).memory slot) ∧
      ∀ chosen : Slot → Bool, (∀ slot, chosen slot = true → slot.owner? = some index) →
        chosenOn chosen (exchange.behind surroundings root active name memory).events =
          chosenOn chosen (runAll surroundings (param.completing index) here).events := by
  obtain ⟨here, agrees, final, events⟩ :=
    run_forParameters (Parameter.near_completing surroundings) found _
  refine ⟨here, agrees, fun slot own => ?_, fun chosen mine => ?_⟩
  · rw [behind, completion, memory_runAll_append, ← final slot own]
    exact (exchange.within_result surroundings).keeps _ slot fun changed =>
      Option.some_ne_none index (own.symm.trans changed.1)
  · have unseen (slot : Slot) (free : slot.owner? = none) : chosen slot = false :=
      Bool.eq_false_iff.mpr fun isChosen =>
        Option.some_ne_none index ((mine _ isChosen).symm.trans free)
    rw [behind, completion, chosenOn_runAll_append, events chosen mine,
      ((exchange.within_result surroundings).touches _).chosenOn_nil unseen, List.append_nil]

/-- The call fills the remote variable of a parameter that comes out. -/
theorem remote_mem_filled :
    .remote index ∈ filled (exchange.result?.map fun _ => .answer)
      (exchange.params.zipIdx.map fun entry => (.remote entry.2, entry.1.direction)) ↔
        param.direction.isOut = true := by
  have answer : Slot.remote index ∉ (exchange.result?.map fun _ => Slot.answer).toList := by
    cases exchange.result? <;> simp
  rw [filled, List.mem_append, or_iff_left answer, List.filter_map, List.map_map, List.mem_map]
  constructor
  · rintro ⟨⟨other, place⟩, listed, same⟩
    obtain ⟨listed, isOut⟩ := List.mem_filter.mp listed
    cases same
    rw [List.mem_zipIdx_iff_getElem?, found] at listed
    cases listed
    exact isOut
  · intro isOut
    exact ⟨(param, index), List.mem_filter.mpr ⟨List.mem_zipIdx_iff_getElem?.mpr found, isOut⟩, rfl⟩

/-- The call leaves the caller's variables alone, and replaces the remote variable of a parameter
that comes out. -/
theorem during_memory {slot : Slot} (own : slot.owner? = some index) :
    (exchange.during surroundings root active name memory).memory slot =
      if slot = .remote index ∧ param.direction.isOut then surroundings.reply slot
      else (exchange.before surroundings root memory).memory slot := by
  rw [during, calling, Statement.run]
  refine (Memory.receive_apply ..).trans (if_congr ?_ rfl rfl)
  constructor
  · intro isFilled
    have isRemote : slot = .remote index := by
      rcases List.mem_append.mp isFilled with argument | answer
      · obtain ⟨entry, listed, rfl⟩ := List.mem_map.mp argument
        obtain ⟨place, -, rfl⟩ := List.mem_map.mp (List.mem_filter.mp listed).1
        exact congrArg Slot.remote (Option.some.inj own)
      · obtain ⟨type, -, rfl⟩ := Option.map_eq_some_iff.mp (Option.mem_toList.mp answer)
        cases own
    exact ⟨isRemote, (remote_mem_filled found).mp (isRemote ▸ isFilled)⟩
  · rintro ⟨rfl, isOut⟩
    exact (remote_mem_filled found).mpr isOut

/-- The remote variable of a parameter is passed once. -/
theorem remote_passing :
    chosenOn (only (.remote index)) exchange.passing = [.on .passed ⟨.remote index, none⟩] := by
  obtain ⟨front, back, split, others⟩ := zipIdx_split found
  have apart (entry : Parameter × Nat) (listed : entry ∈ front ++ back) :
      only (.remote index) (.remote entry.2) = false := by
    simpa [only] using others entry listed
  have early := chosenOn_passed fun entry listed => apart entry (List.mem_append_left _ listed)
  have late := chosenOn_passed fun entry listed => apart entry (List.mem_append_right _ listed)
  rw [passing, split, List.map_append, List.map_cons, chosenOn_append, chosenOn_cons, early, late,
    if_pos (only_self _)]
  rfl

/-- The caller's variables are the same up to the end of the call. -/
theorem callers_kept {slot : Slot} (own : slot.owner? = some index) (mine : slot ≠ .remote index) :
    (exchange.during surroundings root active name memory).memory slot = memory slot := by
  obtain ⟨here, agrees, final, -⟩ := before_at surroundings root found memory
  have unserved : ¬ (slot = .servant ∨ slot = .remote index) := by
    rintro (rfl | isRemote)
    · cases own
    · exact mine isRemote
  rw [during_memory surroundings root active name found memory own, if_neg fun both => mine both.1,
    final slot own, (param.within_preparing surroundings root index).keeps here slot unserved,
    agrees slot own]

/-- The remote variable of a parameter stays as it is behind the call. -/
theorem remote_final :
    (exchange.behind surroundings root active name memory).memory (.remote index) =
      (exchange.during surroundings root active name memory).memory (.remote index) := by
  obtain ⟨here, agrees, final, -⟩ := behind_at surroundings root active name found memory
  rw [final _ rfl, (param.within_completing surroundings index).keeps here _ fun changed =>
    changed.2 rfl, agrees _ rfl]

/-- In front of the call, the caller's argument is converted if it goes in. -/
theorem callers_before :
    chosenOn (callers index) (exchange.before surroundings root memory).events =
      if param.direction.isIn then converting param.type (.argument index) (.count index) memory
      else [] := by
  obtain ⟨here, agrees, -, events⟩ := before_at surroundings root found memory
  rw [events (callers index) fun _ => owner_of_callers, Parameter.callers_preparing,
    converting_congr _ (agrees _ rfl) (agrees _ rfl)]

/-- Behind the call, the caller's argument is freed if it went in, and replaced if it comes out. -/
theorem callers_behind :
    chosenOn (callers index) (exchange.behind surroundings root active name memory).events =
      if param.direction.isOut then
        (if param.direction.isIn then freeing param.type (.argument index) (.count index) memory
         else []) ++
          storing param.type (.argument index) (.count index)
            (surroundings.reply (.remote index)).extent
      else [] := by
  obtain ⟨here, agrees, -, events⟩ := behind_at surroundings root active name found memory
  have sameValue : here (.argument index) = memory (.argument index) :=
    (agrees _ rfl).trans
      (callers_kept surroundings root active name found memory rfl Slot.noConfusion)
  have sameCount : here (.count index) = memory (.count index) :=
    (agrees _ rfl).trans
      (callers_kept surroundings root active name found memory rfl Slot.noConfusion)
  have replaced (isOut : param.direction.isOut = true) :
      here (.remote index) = surroundings.reply (.remote index) :=
    (agrees _ rfl).trans ((during_memory surroundings root active name found memory rfl).trans
      (if_pos ⟨rfl, isOut⟩))
  rw [events (callers index) fun _ => owner_of_callers, Parameter.callers_completing,
    freeing_congr _ sameValue sameCount]
  split
  · rename_i isOut
    rw [replaced isOut]
  · rfl

/-- In front of the call, the remote variable is declared, and filled if its parameter goes in. -/
theorem remote_before :
    chosenOn (only (.remote index)) (exchange.before surroundings root memory).events =
      .on .declared ⟨.remote index, none⟩ ::
        if param.direction.isIn then
          filling param.type (.remote index) (memory (.count index)).extent
        else [] := by
  obtain ⟨here, agrees, -, events⟩ := before_at surroundings root found memory
  rw [events _ fun _ => owner_of_only, Parameter.remote_preparing, agrees _ rfl]

/-- Behind the call, the remote variable is read if its parameter comes out, and given back if it
went in. -/
theorem remote_behind :
    chosenOn (only (.remote index)) (exchange.behind surroundings root active name memory).events =
      (if param.direction.isOut then loading param.type (.remote index)
        ((exchange.behind surroundings root active name memory).memory (.remote index)) else []) ++
        if param.direction.isIn then releasing param.type (.remote index)
          ((exchange.behind surroundings root active name memory).memory (.remote index))
        else [] := by
  obtain ⟨here, agrees, -, events⟩ := behind_at surroundings root active name found memory
  rw [events _ fun _ => owner_of_only, Parameter.remote_completing, agrees _ rfl,
    ← remote_final surroundings root active name found memory]

/-- **What happens to the remote variable of a parameter.** -/
theorem remote_run :
    chosenOn (only (.remote index)) (exchange.run surroundings root active name memory).events =
      (.on .declared ⟨.remote index, none⟩ ::
        ((if param.direction.isIn then
            filling param.type (.remote index) (memory (.count index)).extent else []) ++
          .on .passed ⟨.remote index, none⟩ ::
            if param.direction.isOut then loading param.type (.remote index)
              ((exchange.run surroundings root active name memory).memory (.remote index))
            else [])) ++
        if param.direction.isIn then releasing param.type (.remote index)
          ((exchange.run surroundings root active name memory).memory (.remote index)) else [] := by
  have unanswered : chosenOn (only (.remote index)) exchange.answering = [] := by
    rw [answering]
    cases exchange.result? <;> rfl
  rw [run_eq, chosenOn_append, chosenOn_append, events_during, chosenOn_append, chosenOn_called,
    remote_before surroundings root found, remote_passing found, unanswered,
    remote_behind surroundings root active name found]
  simp only [List.cons_append, List.nil_append, List.append_assoc]

end Parameter

theorem called_notMem_passing : .called ∉ exchange.passing := by
  rw [passing, List.mem_map]
  rintro ⟨entry, -, same⟩
  cases same

theorem called_notMem_answering : .called ∉ exchange.answering := by
  rw [answering]
  cases exchange.result? <;> simp

/-- In front of the call nothing else is called. -/
theorem called_notMem_before (memory : Memory) :
    .called ∉ (exchange.before surroundings root memory).events := by
  have declared (memory : Memory) : OnlyOn (fun _ => True) (runAll surroundings
      (exchange.result?.elim [] fun type => [.declare (remoteHolder type) .answer])
        memory).events := by
    rw [run_declareAnswer]
    cases exchange.result? with
    | some type => exact .cons trivial .nil
    | none => exact .nil
  have prepared := within_forParameters (Parameter.near_preparing surroundings root) exchange.params
  rw [before, preparation, runAll_append]
  exact (((prepared.touches memory).mono fun _ _ => trivial).append (declared _)).called_notMem

/-- Behind the call nothing else is called. -/
theorem called_notMem_behind (memory : Memory) :
    .called ∉ (exchange.behind surroundings root active name memory).events := by
  have completed := within_forParameters (Parameter.near_completing surroundings) exchange.params
  have returned := exchange.within_result surroundings
  rw [behind, completion, runAll_append]
  exact (((completed.touches _).mono fun _ _ => trivial).append
    ((returned.touches _).mono fun _ _ => trivial)).called_notMem

/-- What happens to the remote result. -/
theorem answer_run {type : IdlType} (returns : exchange.result? = some type) (memory : Memory) :
    chosenOn (only .answer) (exchange.run surroundings root active name memory).events =
      (.on .declared ⟨.answer, none⟩ :: .on .assigned ⟨.answer, none⟩ ::
        loading type .answer
          ((exchange.run surroundings root active name memory).memory .answer)) ++
        releasing type .answer
          ((exchange.run surroundings root active name memory).memory .answer) := by
  have apart (slot : Slot) (near : ∃ index, slot.Near index) : slot ≠ .answer := by
    rintro rfl
    obtain ⟨index, isServant | own⟩ := near
    · cases isServant
    · cases own
  have unseen (slot : Slot) (near : ∃ index, slot.Near index) : only .answer slot = false :=
    Bool.eq_false_iff.mpr fun isAnswer => apart slot near (eq_of_only isAnswer)
  have prepared := within_forParameters (Parameter.near_preparing surroundings root) exchange.params
  have completed := within_forParameters (Parameter.near_completing surroundings) exchange.params
  have early : chosenOn (only .answer) (exchange.before surroundings root memory).events =
      [.on .declared ⟨.answer, none⟩] := by
    rw [before, preparation, chosenOn_runAll_append, (prepared.touches _).chosenOn_nil unseen,
      run_declareAnswer, returns]
    rfl
  have middle : chosenOn (only .answer)
      (exchange.during surroundings root active name memory).events =
        [.on .assigned ⟨.answer, none⟩] := by
    rw [events_during, chosenOn_append, chosenOn_called, answering, returns, passing,
      chosenOn_passed fun _ _ => rfl]
    rfl
  have final : (exchange.run surroundings root active name memory).memory .answer =
      (runAll surroundings (forParameters Parameter.completing exchange.params)
        (exchange.during surroundings root active name memory).memory).memory .answer := by
    rw [run_eq, behind, completion, memory_runAll_append]
    exact (exchange.within_result surroundings).keeps _ .answer fun changed => changed.2 rfl
  rw [run_eq, chosenOn_append, chosenOn_append, early, middle, ← run_eq, final, behind, completion,
    chosenOn_runAll_append, (completed.touches _).chosenOn_nil unseen, returns]
  exact congrArg _ (congrArg _ (answer_returning surroundings type _))

end Exchange

end IdlBridge.Adapter
