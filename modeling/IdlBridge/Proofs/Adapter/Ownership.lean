import IdlBridge.Proofs.Adapter.Traces

/-!
# Ownership in generated bodies

The caller of a generated method owns its arguments, and the remote side counts the references
that it hands out. A body converts what goes in, replaces what comes out after freeing what was
there, and leaves alone what it only reads (`Exchange.callers_values_handled`). References in
remote variables are given back behind their last use, with one exception: what the remote side
hands out through a parameter that only comes out is kept
(`Exchange.references_given_back_unless_output`).
-/

set_option autoImplicit false

namespace IdlBridge.Adapter

/-! ## Counting events -/

theorem mem_chosenOn {chosen : Slot → Bool} {deed : Deed} {cell : Cell} {events : List Event} :
    .on deed cell ∈ chosenOn chosen events ↔ .on deed cell ∈ events ∧ chosen cell.slot = true :=
  List.mem_filter

theorem count_chosenOn {chosen : Slot → Bool} {deed : Deed} {cell : Cell}
    (isChosen : chosen cell.slot = true) (events : List Event) :
    (chosenOn chosen events).count (.on deed cell) = events.count (.on deed cell) :=
  List.count_filter isChosen

section Counts

variable (type : IdlType) {target count : Slot} {deed : Deed} {cell : Cell}

/-- Storing a value assigns it and looks only at the count. -/
theorem deed_storing {length : Nat} (happened : .on deed cell ∈ storing type target count length) :
    deed = .assigned ∨ deed = .read ∧ cell.slot = count := by
  unfold storing at happened
  split at happened
  · rcases List.mem_append.mp happened with first | later
    · simp only [List.mem_cons, Event.on.injEq, List.not_mem_nil, or_false] at first
      rcases first with ⟨rfl, -⟩ | ⟨rfl, rfl⟩ | ⟨rfl, -⟩ | ⟨rfl, rfl⟩
      · exact .inl rfl
      · exact .inr ⟨rfl, rfl⟩
      · exact .inl rfl
      · exact .inr ⟨rfl, rfl⟩
    · obtain ⟨index, -, same⟩ := List.mem_map.mp later
      cases same
      exact .inl rfl
  · cases List.mem_singleton.mp happened
    exact .inl rfl

/-- A value is stored once. -/
theorem count_storing (differ : count ≠ target) (length : Nat) :
    (storing type target count length).count (.on .assigned ⟨target, none⟩) = 1 := by
  have elements : ((List.range length).map fun index =>
      Event.on .assigned ⟨target, some index⟩).count (.on .assigned ⟨target, none⟩) = 0 := by
    simp [List.count_eq_zero]
  unfold storing
  split
  · rw [List.count_append, elements]
    simp [differ]
  · simp

/-- Freeing a single value is a test and a release of it. -/
theorem deed_freed {contents : Contents} {index? : Option Nat}
    (happened : .on deed cell ∈ freed type target contents index?) :
    cell = ⟨target, index?⟩ ∧ (deed = .tested ∨ deed = .released) := by
  unfold freed givenBack at happened
  split at happened
  case h_3 =>
    rcases List.mem_cons.mp happened with testing | releasing
    · cases testing
      exact ⟨rfl, .inl rfl⟩
    · split at releasing
      · exact absurd releasing List.not_mem_nil
      · cases List.mem_singleton.mp releasing
        exact ⟨rfl, .inr rfl⟩
  case h_4 => exact absurd happened List.not_mem_nil
  all_goals
    cases List.mem_singleton.mp happened
    exact ⟨rfl, .inr rfl⟩

/-- The loop that frees elements reads the count, and tests and releases elements alone. -/
theorem deed_freeElements {memory : Memory} {length : Nat}
    (happened : .on deed cell ∈ if ownsLocal type then
      .on .read ⟨count, none⟩ :: (List.range length).flatMap fun index =>
        freed type target (memory target) (some index) else []) :
    deed = .read ∨ cell.index?.isSome = true ∧ (deed = .tested ∨ deed = .released) := by
  split at happened
  · rcases List.mem_cons.mp happened with reading | later
    · cases reading
      exact .inl rfl
    · obtain ⟨index, -, freeing⟩ := List.mem_flatMap.mp later
      obtain ⟨rfl, deeds⟩ := deed_freed type freeing
      exact .inr ⟨rfl, deeds⟩
  · exact absurd happened List.not_mem_nil

/-- Freeing a value assigns nothing. -/
theorem deed_freeing {memory : Memory}
    (happened : .on deed cell ∈ freeing type target count memory) : deed ≠ .assigned := by
  unfold freeing at happened
  split at happened
  · rcases List.mem_append.mp happened with elements | array
    · rcases deed_freeElements _ elements with rfl | ⟨-, rfl | rfl⟩ <;> exact Deed.noConfusion
    · cases List.mem_singleton.mp array
      exact Deed.noConfusion
  · rcases (deed_freed _ happened).2 with rfl | rfl <;> exact Deed.noConfusion

/-- A pointer is freed once, unless it is null. -/
theorem count_freeing {memory : Memory} (owns : isPointer type = true)
    (nonNull : type.isInterface = true → (memory target).isNull none = false) :
    (freeing type target count memory).count (.on .released ⟨target, none⟩) = 1 := by
  cases type with
  | sequence name element =>
    rw [freeing, List.count_append, List.count_singleton_self, List.count_eq_zero.mpr]
    intro released
    rcases deed_freeElements _ released with reading | ⟨isElement, -⟩
    · cases reading
    · cases isElement
  | interface name => simp [freeing, freed, givenBack, nonNull rfl]
  | basic kind =>
    cases kind <;> cases owns <;> exact List.count_singleton_self
  | enum name => cases owns

end Counts

/-! ## The caller's values -/

/-- How the caller's value of a parameter is handled in front of the call and behind it. -/
structure Handles (param : Parameter) (index : Nat) (memory reply : Memory)
    (early late : List Event) : Prop where
  /-- A value that only goes in is read, in front of the call. -/
  input : param.direction = .input →
    chosenOn (callers index) early =
      converting param.type (.argument index) (.count index) memory ∧
    chosenOn (callers index) late = [] ∧
    ∀ deed index?, .on deed ⟨.argument index, index?⟩ ∈ early ++ late →
      deed = .tested ∨ deed = .read
  /-- A value that only comes out is assigned, behind the call. -/
  output : param.direction = .output →
    chosenOn (callers index) early = [] ∧
    chosenOn (callers index) late =
      storing param.type (.argument index) (.count index) (reply (.remote index)).extent ∧
    (∀ deed index?, .on deed ⟨.argument index, index?⟩ ∈ early ++ late → deed = .assigned) ∧
    late.count (.on .assigned ⟨.argument index, none⟩) = 1
  /-- A value that goes both ways fills the remote variable in front of the call. Behind it the old
  value is freed with its old length, and then replaced. -/
  inout : param.direction = .inout →
    chosenOn (callers index) early =
      converting param.type (.argument index) (.count index) memory ∧
    chosenOn (only (.remote index)) early =
      .on .declared ⟨.remote index, none⟩ ::
        (filling param.type (.remote index) (memory (.count index)).extent ++
          [.on .passed ⟨.remote index, none⟩]) ∧
    chosenOn (callers index) late =
      freeing param.type (.argument index) (.count index) memory ++
        storing param.type (.argument index) (.count index) (reply (.remote index)).extent ∧
    (isPointer param.type = true →
      (param.type.isInterface = true → (memory (.argument index)).isNull none = false) →
      late.count (.on .released ⟨.argument index, none⟩) = 1) ∧
    late.count (.on .assigned ⟨.argument index, none⟩) = 1

/-- How a value is handled is seen from the chosen events. -/
theorem Handles.of_chosen {param : Parameter} {index : Nat} {memory reply : Memory}
    {early late : List Event}
    (front : chosenOn (callers index) early = if param.direction.isIn then
      converting param.type (.argument index) (.count index) memory else [])
    (filled : chosenOn (only (.remote index)) early =
      .on .declared ⟨.remote index, none⟩ :: ((if param.direction.isIn then
        filling param.type (.remote index) (memory (.count index)).extent else []) ++
          [.on .passed ⟨.remote index, none⟩]))
    (back : chosenOn (callers index) late = if param.direction.isOut then
      (if param.direction.isIn then freeing param.type (.argument index) (.count index) memory
       else []) ++
        storing param.type (.argument index) (.count index) (reply (.remote index)).extent
      else []) :
    Handles param index memory reply early late := by
  have own : callers index (.argument index) = true := beq_self_eq_true index
  have seen {deed : Deed} {index? : Option Nat}
      (happened : .on deed ⟨.argument index, index?⟩ ∈ early ++ late) :
      .on deed ⟨.argument index, index?⟩ ∈ chosenOn (callers index) early ++
        chosenOn (callers index) late := by
    rw [← chosenOn_append]
    exact mem_chosenOn.mpr ⟨happened, own⟩
  refine ⟨fun direction => ?_, fun direction => ?_, fun direction => ?_⟩ <;>
    simp only [direction, Direction.isIn, Direction.isOut, if_true, if_false, Bool.false_eq_true,
      List.nil_append] at front filled back
  · refine ⟨front, back, fun deed index? happened => ?_⟩
    have reading := seen happened
    rw [back, List.append_nil, front] at reading
    simpa [Event.deed?] using deed_converting _ reading
  · refine ⟨front, back, fun deed index? happened => ?_, ?_⟩
    · have storing := seen happened
      rw [front, back] at storing
      rcases deed_storing _ storing with assigned | ⟨-, counted⟩
      · exact assigned
      · cases counted
    · rw [← count_chosenOn own, back]
      exact count_storing _ Slot.noConfusion _
  · -- Storing releases nothing and freeing assigns nothing, so each count comes from one of them.
    have unfreed : (storing param.type (.argument index) (.count index)
        (reply (.remote index)).extent).count (.on .released ⟨.argument index, none⟩) = 0 :=
      List.count_eq_zero.mpr fun released => by
        rcases deed_storing _ released with assigned | ⟨reading, -⟩
        · cases assigned
        · cases reading
    have unassigned : (freeing param.type (.argument index) (.count index) memory).count
        (.on .assigned ⟨.argument index, none⟩) = 0 :=
      List.count_eq_zero.mpr fun assigned => deed_freeing _ assigned rfl
    refine ⟨front, filled, back, fun owns nonNull => ?_, ?_⟩
    · rw [← count_chosenOn own, back, List.count_append, count_freeing _ owns nonNull, unfreed]
    · rw [← count_chosenOn own, back, List.count_append, unassigned,
        count_storing _ Slot.noConfusion]

namespace Exchange

/-- The generated method. -/
def method (settings : Settings) (active : ScopedName) (name : String) : Exchange → Method
  | operation signature => operationMethod settings active name signature
  | getter type => getterMethod active type name
  | setter type => setterMethod active type name

/-- Only operations that manage the adapter itself have a body that exchanges nothing. -/
theorem body_method (settings : Settings) (active : ScopedName) (name : String)
    (exchange : Exchange) :
    (exchange.method settings active name).body = exchange.body active name ∨
      settings.isRoot active = true ∧ (RootOperation.ofName? name).isSome = true := by
  cases exchange with
  | operation signature =>
    cases isRoot : settings.isRoot active with
    | false => exact .inl (by simp [method, operationMethod, isRoot, body])
    | true =>
      cases special : RootOperation.ofName? name with
      | none => exact .inl (by simp [method, operationMethod, isRoot, special, body])
      | some managing => exact .inr ⟨rfl, rfl⟩
  | getter type | setter type => exact .inl rfl

section Handled

variable (surroundings : Surroundings) (root active : ScopedName) (name : String)
  {exchange : Exchange} {index : Nat} {param : Parameter}
  (found : exchange.params[index]? = some param) (memory : Memory)

include found

/-- In every exchange the caller's value of a parameter is handled so. -/
theorem handles :
    Handles param index memory surroundings.reply
      ((exchange.before surroundings root memory).events ++ exchange.passing)
      (exchange.answering ++ (exchange.behind surroundings root active name memory).events) := by
  have unanswered : chosenOn (callers index) exchange.answering = [] := by
    rw [answering]
    cases exchange.result? <;> rfl
  refine .of_chosen ?_ ?_ ?_
  · rw [chosenOn_append, callers_before surroundings root found, passing,
      chosenOn_passed fun _ _ => rfl, List.append_nil]
  · rw [chosenOn_append, remote_before surroundings root found, remote_passing found,
      List.cons_append]
  · rw [chosenOn_append, unanswered, callers_behind surroundings root active name found,
      List.nil_append]

end Handled

/-- The operations that manage the adapter itself, by their names. -/
theorem isSome_ofName?_iff {name : String} :
    (RootOperation.ofName? name).isSome = true ↔
      name ∈ ["add_ref", "release_ref", "query_interface"] := by
  unfold RootOperation.ofName?
  split <;> simp_all

/-- **A generated operation handles the values of its caller.** What only goes in is read, what only
comes out is assigned once behind the call, and what goes both ways is converted in front of the
call and behind it freed and then assigned, for any parameters in any order. The three operations of
the root interface that manage the adapter itself are left out: they do not exchange values. -/
theorem callers_values_handled (settings : Settings) (active : ScopedName) (name : String)
    (signature : Operation) (flat : (operation signature).Flat)
    (ordinary : settings.isRoot active = true →
      name ∉ ["add_ref", "release_ref", "query_interface"]) :
    (operationMethod settings active name signature).body = operationBody active name signature ∧
    (operationBody active name signature).layout settings.root =
      .ok ((operation signature).layout settings.root active name) ∧
    ∀ surroundings memory, ∃ early late,
      ((operation signature).run surroundings settings.root active name memory).events =
        early ++ .called :: late ∧
      .called ∉ early ∧ .called ∉ late ∧
      ∀ index param, signature.params[index]? = some param →
        Handles param index memory surroundings.reply early late := by
  have own := (body_method settings active name (operation signature)).resolve_right
    fun managing => ordinary managing.1 (isSome_ofName?_iff.mp managing.2)
  refine ⟨own, layout_body (operation signature) flat, fun surroundings memory =>
      ⟨((operation signature).before surroundings settings.root memory).events ++
          (operation signature).passing,
        (operation signature).answering ++
          ((operation signature).behind surroundings settings.root active name memory).events,
        ?_, ?_, ?_, fun index param found =>
          handles surroundings settings.root active name found memory⟩⟩
  · rw [run_eq, events_during]
    simp only [List.append_assoc, List.cons_append]
  · exact fun called => (List.mem_append.mp called).elim
      (called_notMem_before surroundings settings.root _ memory) (called_notMem_passing _)
  · exact fun called => (List.mem_append.mp called).elim (called_notMem_answering _)
      (called_notMem_behind surroundings settings.root active name _ memory)

/-- An operation with parameters in all directions. -/
def renamedSignature : Operation where
  returns := .interface ⟨["dom", "Node"]⟩
  params :=
    [⟨"node", .interface ⟨["dom", "Node"]⟩, .input⟩,
     ⟨"names", .sequence ⟨["dom", "Names"]⟩ (.basic .string), .inout⟩,
     ⟨"position", .basic .long, .output⟩]

/-- Two names come in and one comes out: both old names are freed, then their array, and only then
the count is replaced. -/
theorem renamedSignature_frees_both_names :
    (operationMethod .default ⟨["dom", "Node"]⟩ "rename" renamedSignature).body =
        operationBody ⟨["dom", "Node"]⟩ "rename" renamedSignature ∧
    ∃ early late,
      ((operation renamedSignature).run ⟨fun _ => ⟨1, fun _ => false⟩, fun _ => false⟩
        Settings.default.root ⟨["dom", "Node"]⟩ "rename" fun _ => ⟨2, fun _ => false⟩).events =
          early ++ .called :: late ∧
      .called ∉ early ∧ .called ∉ late ∧
      chosenOn (callers 1) late =
        [.on .read ⟨.count 1, none⟩, .on .released ⟨.argument 1, some 0⟩,
         .on .released ⟨.argument 1, some 1⟩, .on .released ⟨.argument 1, none⟩,
         .on .assigned ⟨.count 1, none⟩, .on .read ⟨.count 1, none⟩,
         .on .assigned ⟨.argument 1, none⟩, .on .read ⟨.count 1, none⟩,
         .on .assigned ⟨.argument 1, some 0⟩] := by
  have flat : (operation renamedSignature).Flat := ⟨by decide, by decide⟩
  obtain ⟨own, -, runs⟩ :=
    callers_values_handled Settings.default ⟨["dom", "Node"]⟩ "rename" renamedSignature flat
      (by decide +kernel)
  obtain ⟨early, late, events, front, back, handled⟩ :=
    runs ⟨fun _ => ⟨1, fun _ => false⟩, fun _ => false⟩ fun _ => ⟨2, fun _ => false⟩
  exact ⟨own, early, late, events, front, back, ((handled 1 _ rfl).inout rfl).2.2.1⟩

/-- An operation with a number that comes out. -/
def countSignature : Operation where
  returns := .void
  params := [⟨"x", .basic .long, .output⟩]

/-- The root's operation that adds a reference never assigns what should come out of it: no line of
its body has the place of the parameter, which stands in the line that would assign it. -/
theorem addRef_keeps_output :
    (operation countSignature).Flat ∧
      (operationMethod .default Settings.default.root "add_ref" countSignature).body.layout
          Settings.default.root =
        .ok ([.line "\x7b", .indent, .line "_refcount++;", .dedent, .line "\x7d"], 0) ∧
      (∀ param ∈ countSignature.params, ∀ line ∈ ["\x7b", "_refcount++;", "\x7d"],
        ¬ param.place.toList <:+: line.toList) ∧
      .line "(*x) = _corba_x;" ∈
        ((operation countSignature).layout Settings.default.root Settings.default.root
          "add_ref").1 := by
  refine ⟨⟨by decide, by decide⟩, ?_⟩
  decide +kernel

end Exchange

/-! ## References to remote objects -/

/-- A reference or memory is given up. -/
def Event.isRelease : Event → Bool
  | on .released _ => true
  | _ => false

/-- The cells of a remote variable that hold references. -/
def references (type : IdlType) (slot : Slot) (contents : Contents) : List Cell :=
  match type with
  | .interface _ => [⟨slot, none⟩]
  | .sequence _ (.interface _) => (List.range contents.extent).map fun index => ⟨slot, some index⟩
  | _ => []

/-- The references of a variable are given back: after all that happens to it otherwise, each one
that is not null once. -/
structure GivesBack (outcome : Outcome) (type : IdlType) (slot : Slot) : Prop where
  last : ∃ used, (∀ event ∈ used, event.isRelease = false) ∧
    chosenOn (only slot) outcome.events = used ++ releasing type slot (outcome.memory slot)
  each : (chosenOn (only slot) outcome.events).filter Event.isRelease =
    ((references type slot (outcome.memory slot)).filter fun cell =>
      !outcome.memory.isNull cell).map (.on .released)
  /-- What holds no references is not released. -/
  unowned : ownsRemote type = false →
    (chosenOn (only slot) outcome.events).filter Event.isRelease = []

theorem filter_givenBack (slot : Slot) (contents : Contents) (index? : Option Nat) :
    (givenBack slot contents index?).filter Event.isRelease =
      if contents.isNull index? then [] else [.on .released ⟨slot, index?⟩] := by
  unfold givenBack
  split <;> rfl

/-- A loop gives back the elements that are not null. -/
theorem filter_givenBack_elements (slot : Slot) (memory : Memory) (indices : List Nat) :
    (indices.flatMap fun index => givenBack slot (memory slot) (some index)).filter
        Event.isRelease =
      ((indices.map fun index => (⟨slot, some index⟩ : Cell)).filter fun cell =>
        !memory.isNull cell).map (.on .released) := by
  induction indices with
  | nil => rfl
  | cons index indices ih =>
    rw [List.flatMap_cons, List.filter_append, filter_givenBack, ih, List.map_cons,
      List.filter_cons, Memory.isNull]
    cases (memory slot).isNull (some index) <;> rfl

/-- Each reference that is not null is released once. -/
theorem filter_releasing (type : IdlType) (slot : Slot) (memory : Memory) :
    (releasing type slot (memory slot)).filter Event.isRelease =
      ((references type slot (memory slot)).filter fun cell => !memory.isNull cell).map
        (.on .released) := by
  cases type with
  | interface name =>
    rw [releasing, filter_givenBack, references, List.filter_cons, Memory.isNull]
    cases (memory slot).isNull none <;> rfl
  | sequence name element =>
    cases element with
    | interface inner => exact filter_givenBack_elements slot memory _
    | basic | enum | sequence => rfl
  | basic | enum => rfl

theorem references_eq_nil {type : IdlType} (unowned : ownsRemote type = false) (slot : Slot)
    (contents : Contents) : references type slot contents = [] := by
  unfold references
  split
  · cases unowned
  · cases unowned
  · rfl

/-- A variable is given back if it is released last and by nothing else. -/
theorem GivesBack.of_chosen {outcome : Outcome} {type : IdlType} {slot : Slot} {used : List Event}
    (unreleased : ∀ event ∈ used, event.isRelease = false)
    (events : chosenOn (only slot) outcome.events =
      used ++ releasing type slot (outcome.memory slot)) : GivesBack outcome type slot := by
  have none : used.filter Event.isRelease = [] :=
    List.filter_eq_nil_iff.mpr fun event happened => by simp [unreleased event happened]
  have each : (chosenOn (only slot) outcome.events).filter Event.isRelease =
      ((references type slot (outcome.memory slot)).filter fun cell =>
        !outcome.memory.isNull cell).map (.on .released) := by
    rw [events, List.filter_append, none, filter_releasing, List.nil_append]
  refine ⟨⟨used, unreleased, events⟩, each, fun unowned => ?_⟩
  rw [each, references_eq_nil unowned]
  rfl

theorem isRelease_of_deed {event : Event} {deed : Deed} (same : event.deed? = some deed)
    (differ : deed ≠ .released) : event.isRelease = false := by
  cases event with
  | called => rfl
  | on other cell =>
    cases same
    cases deed <;> first | rfl | exact absurd rfl differ

namespace Exchange

section GivenBack

variable (surroundings : Surroundings) (root active : ScopedName) (name : String)
  {exchange : Exchange} (memory : Memory)

/-- Reading a remote variable releases nothing. -/
theorem isRelease_loading {type : IdlType} {slot : Slot} {contents : Contents} {event : Event}
    (happened : event ∈ loading type slot contents) : event.isRelease = false := by
  rcases deed_loading type happened with tested | read
  · exact isRelease_of_deed tested Deed.noConfusion
  · exact isRelease_of_deed read Deed.noConfusion

/-- Before it is given back, the remote variable of a parameter is not released. -/
theorem isRelease_used {param : Parameter} {index length : Nat} {contents : Contents}
    {event : Event}
    (happened : event ∈ .on .declared ⟨.remote index, none⟩ ::
      ((if param.direction.isIn then filling param.type (.remote index) length else []) ++
        .on .passed ⟨.remote index, none⟩ ::
          if param.direction.isOut then loading param.type (.remote index) contents else [])) :
    event.isRelease = false := by
  rcases List.mem_cons.mp happened with rfl | later
  · rfl
  rcases List.mem_append.mp later with early | later
  · split at early
    · rcases deed_filling param.type early with assigned | resized
      · exact isRelease_of_deed assigned Deed.noConfusion
      · exact isRelease_of_deed resized Deed.noConfusion
    · exact absurd early List.not_mem_nil
  rcases List.mem_cons.mp later with rfl | late
  · rfl
  split at late
  · exact isRelease_loading late
  · exact absurd late List.not_mem_nil

variable {index : Nat} {param : Parameter} (found : exchange.params[index]? = some param)

include found in
/-- The remote variable of a parameter that goes in is given back. -/
theorem givesBack_remote (goesIn : param.direction ≠ .output) :
    GivesBack (exchange.run surroundings root active name memory) param.type (.remote index) := by
  have isIn : param.direction.isIn = true := by
    cases direction : param.direction with
    | output => exact absurd direction goesIn
    | input | inout => rfl
  have events := remote_run surroundings root active name found memory
  exact .of_chosen (fun _ => isRelease_used) (events.trans (congrArg _ (if_pos isIn)))

include found in
/-- The remote variable of a parameter that only comes out is not released. -/
theorem filter_remote_of_output (output : param.direction = .output) :
    (chosenOn (only (.remote index))
      (exchange.run surroundings root active name memory).events).filter Event.isRelease = [] := by
  have isIn : ¬ param.direction.isIn = true := by
    rw [output]
    exact Bool.false_ne_true
  have events := (remote_run surroundings root active name found memory).trans
    (congrArg _ (if_neg isIn))
  rw [events, List.append_nil]
  exact List.filter_eq_nil_iff.mpr fun event happened => by simp [isRelease_used happened]

/-- The remote result is given back. -/
theorem givesBack_answer {type : IdlType} (returns : exchange.result? = some type) :
    GivesBack (exchange.run surroundings root active name memory) type .answer := by
  refine .of_chosen (fun event happened => ?_)
    (answer_run surroundings root active name exchange returns memory)
  rcases List.mem_cons.mp happened with rfl | later
  · rfl
  rcases List.mem_cons.mp later with rfl | late
  · rfl
  · exact isRelease_loading late

end GivenBack

/-- **A generated body gives back the references of its remote variables, except for those of
parameters that only come out.** -/
theorem references_given_back_unless_output (settings : Settings) (active : ScopedName)
    (name : String) (exchange : Exchange) (flat : exchange.Flat) :
    ((exchange.method settings active name).body = exchange.body active name ∨
      settings.isRoot active = true ∧ (RootOperation.ofName? name).isSome = true) ∧
    (exchange.body active name).layout settings.root =
      .ok (exchange.layout settings.root active name) ∧
    ∀ surroundings memory,
      (∀ index param, exchange.params[index]? = some param →
        (param.direction ≠ .output →
          GivesBack (exchange.run surroundings settings.root active name memory) param.type
            (.remote index)) ∧
        (param.direction = .output →
          (chosenOn (only (.remote index))
            (exchange.run surroundings settings.root active name memory).events).filter
              Event.isRelease = [])) ∧
      ∀ type, exchange.result? = some type →
        GivesBack (exchange.run surroundings settings.root active name memory) type .answer :=
  ⟨body_method settings active name exchange, layout_body exchange flat, fun surroundings memory =>
    ⟨fun _ _ found => ⟨givesBack_remote surroundings settings.root active name memory found,
        filter_remote_of_output surroundings settings.root active name memory found⟩,
      fun _ => givesBack_answer surroundings settings.root active name memory⟩⟩

/-- The argument of a setter that is a sequence of two references is given back in one loop. -/
theorem nodesSetter_gives_back_both :
    GivesBack ((setter (.sequence ⟨["dom", "Nodes"]⟩ (.interface ⟨["dom", "Node"]⟩))).run
        ⟨fun _ => ⟨0, fun _ => false⟩, fun _ => false⟩ Settings.default.root ⟨["dom", "Node"]⟩
        "children" fun _ => ⟨2, fun _ => false⟩)
      (.sequence ⟨["dom", "Nodes"]⟩ (.interface ⟨["dom", "Node"]⟩)) (.remote 0) := by
  have flat : (setter (.sequence ⟨["dom", "Nodes"]⟩ (.interface ⟨["dom", "Node"]⟩))).Flat :=
    ⟨by decide, by decide⟩
  obtain ⟨-, -, runs⟩ := references_given_back_unless_output Settings.default ⟨["dom", "Node"]⟩
    "children" (setter (.sequence ⟨["dom", "Nodes"]⟩ (.interface ⟨["dom", "Node"]⟩))) flat
  exact (((runs ⟨fun _ => ⟨0, fun _ => false⟩, fun _ => false⟩ fun _ => ⟨2, fun _ => false⟩).1 0 _
    rfl).1 Direction.noConfusion)

/-- An operation that hands out an object through a parameter. -/
def fetchSignature : Operation where
  returns := .basic .void
  params := [⟨"b", .interface ⟨["dom", "Node"]⟩, .output⟩]

/-- The object that is handed out through a parameter is not given back: its body has no line that
releases it. -/
theorem fetchSignature_keeps_reference :
    (operation fetchSignature).Flat ∧ ownsRemote (.interface ⟨["dom", "Node"]⟩) = true ∧
    (∃ written,
      (operationBody ⟨["m", "I"]⟩ "f" fetchSignature).layout Settings.default.root = .ok written ∧
        .line "_corba_b->release_ref();" ∉ written.1) ∧
    ¬ GivesBack ((operation fetchSignature).run ⟨fun _ => ⟨0, fun _ => false⟩, fun _ => false⟩
        Settings.default.root ⟨["m", "I"]⟩ "f" fun _ => ⟨0, fun _ => true⟩)
      (.interface ⟨["dom", "Node"]⟩) (.remote 0) := by
  refine ⟨⟨by decide, by decide⟩, rfl, ⟨_, rfl, by decide +kernel⟩, fun given =>
    absurd given.each (by decide)⟩

end Exchange

end IdlBridge.Adapter
