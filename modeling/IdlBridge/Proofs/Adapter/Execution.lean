import IdlBridge.Proofs.Adapter.Statements

/-!
# Execution of generated bodies

Statements act on a memory that knows, of every variable, how long it is and which of its
references are null. What they do to variables is recorded as a list of events. What the remote
side and the runtime library answer is not known here; it is a parameter (`Surroundings`).

A statement touches only the variables it mentions, and changes only those that it assigns
(`Statement.within`). So the events on some variables can be found statement by statement, and the
rounds of a loop whose elements do not depend on each other one by one (`chosenOn_rounds`).
-/

set_option autoImplicit false

namespace IdlBridge.Adapter

/-! ## Memory -/

/-- A variable or one of its elements. -/
structure Cell where
  slot : Slot
  index? : Option Nat
  deriving DecidableEq, Repr, Inhabited

namespace Place

def slot : Place → Slot
  | whole slot => slot
  | element slot => slot

/-- The index of a place in the given round of the loop around it. -/
def index? (round : Nat) : Place → Option Nat
  | whole _ => none
  | element _ => some round

def cell (round : Nat) (place : Place) : Cell := ⟨place.slot, place.index? round⟩

@[simp] theorem slot_whole (slot : Slot) : (whole slot).slot = slot := rfl

@[simp] theorem slot_element (slot : Slot) : (element slot).slot = slot := rfl

end Place

/-- What is known of a variable. -/
structure Contents where
  /-- The value of a count, or the length of a sequence. -/
  extent : Nat
  /-- Whether the reference, or the element with the given index, is null. -/
  isNull : Option Nat → Bool
  deriving Inhabited

/-- The contents of all variables. -/
abbrev Memory := Slot → Contents

namespace Memory

def set (memory : Memory) (slot : Slot) (contents : Contents) : Memory := fun other =>
  if other = slot then contents else memory other

@[simp] theorem set_same (memory : Memory) (slot : Slot) (contents : Contents) :
    memory.set slot contents slot = contents := if_pos rfl

theorem set_other (memory : Memory) {slot other : Slot} (contents : Contents)
    (differ : other ≠ slot) : memory.set slot contents other = memory other := if_neg differ

def isNull (memory : Memory) (cell : Cell) : Bool := (memory cell.slot).isNull cell.index?

/-- Notes whether a cell holds a null reference. -/
def mark (memory : Memory) (cell : Cell) (null : Bool) : Memory :=
  memory.set cell.slot { memory cell.slot with
    isNull := fun index? =>
      if index? = cell.index? then null else (memory cell.slot).isNull index? }

def resize (memory : Memory) (slot : Slot) (extent : Nat) : Memory :=
  memory.set slot { memory slot with extent }

/-- Takes over the contents of some variables. -/
def receive (memory reply : Memory) (slots : List Slot) : Memory := fun slot =>
  if slot ∈ slots then reply slot else memory slot

theorem receive_apply (memory reply : Memory) (slots : List Slot) (slot : Slot) :
    memory.receive reply slots slot = if slot ∈ slots then reply slot else memory slot := rfl

end Memory

/-- What generated code does not decide itself. -/
structure Surroundings where
  /-- What the remote side leaves in the variables that it fills. -/
  reply : Memory
  /-- Whether what is made for a cell is null. -/
  makesNull : Cell → Bool

/-! ## Events -/

/-- What can happen to a cell. -/
inductive Deed
  | declared
  | read
  /-- Compared with null. -/
  | tested
  | assigned
  | resized
  /-- Freed, or given back. -/
  | released
  /-- Passed to the remote object. -/
  | passed
  deriving DecidableEq, Repr, Inhabited

inductive Event
  | on (deed : Deed) (cell : Cell)
  /-- The remote object is called. -/
  | called
  deriving DecidableEq, Repr, Inhabited

namespace Event

/-- The event is on one of the chosen variables. -/
def isOn (chosen : Slot → Bool) : Event → Bool
  | on _ cell => chosen cell.slot
  | called => false

/-- What happens, unless it is the call. -/
def deed? : Event → Option Deed
  | on deed _ => some deed
  | called => none

end Event

/-- The events on the chosen variables. -/
def chosenOn (chosen : Slot → Bool) (events : List Event) : List Event :=
  events.filter (Event.isOn chosen)

section ChosenOn

variable {chosen : Slot → Bool}

@[simp] theorem chosenOn_nil : chosenOn chosen [] = [] := rfl

@[simp] theorem chosenOn_append (first second : List Event) :
    chosenOn chosen (first ++ second) = chosenOn chosen first ++ chosenOn chosen second :=
  List.filter_append ..

@[simp] theorem chosenOn_cons (deed : Deed) (cell : Cell) (events : List Event) :
    chosenOn chosen (.on deed cell :: events) =
      if chosen cell.slot then .on deed cell :: chosenOn chosen events
      else chosenOn chosen events :=
  List.filter_cons

@[simp] theorem chosenOn_called (events : List Event) :
    chosenOn chosen (.called :: events) = chosenOn chosen events :=
  List.filter_cons_of_neg Bool.false_ne_true

end ChosenOn

/-- All events are on some variables, and nothing is called. -/
def OnlyOn (slots : Slot → Prop) (events : List Event) : Prop :=
  ∀ event ∈ events, ∃ deed cell, event = .on deed cell ∧ slots cell.slot

namespace OnlyOn

variable {slots : Slot → Prop} {chosen : Slot → Bool} {events : List Event}

theorem nil : OnlyOn slots [] := fun _ happened => absurd happened List.not_mem_nil

theorem cons {deed : Deed} {cell : Cell} (here : slots cell.slot) (later : OnlyOn slots events) :
    OnlyOn slots (.on deed cell :: events) := by
  intro event happened
  rcases List.mem_cons.mp happened with rfl | happened
  · exact ⟨deed, cell, rfl, here⟩
  · exact later event happened

theorem append {more : List Event} (first : OnlyOn slots events) (second : OnlyOn slots more) :
    OnlyOn slots (events ++ more) := fun event happened =>
  (List.mem_append.mp happened).elim (first event) (second event)

theorem flatMap {α : Type} {items : List α} {events : α → List Event}
    (each : ∀ item, OnlyOn slots (events item)) : OnlyOn slots (items.flatMap events) := by
  intro event happened
  obtain ⟨item, -, happened⟩ := List.mem_flatMap.mp happened
  exact each item event happened

theorem mono {more : Slot → Prop} (only : OnlyOn slots events)
    (wider : ∀ slot, slots slot → more slot) : OnlyOn more events := by
  intro event happened
  obtain ⟨deed, cell, same, on⟩ := only event happened
  exact ⟨deed, cell, same, wider _ on⟩

theorem chosenOn_self (only : OnlyOn slots events)
    (isChosen : ∀ slot, slots slot → chosen slot = true) :
    chosenOn chosen events = events := by
  refine List.filter_eq_self.mpr fun event happened => ?_
  obtain ⟨deed, cell, rfl, on⟩ := only event happened
  exact isChosen _ on

/-- No event is on other variables. -/
theorem chosenOn_nil (only : OnlyOn slots events)
    (apart : ∀ slot, slots slot → chosen slot = false) :
    chosenOn chosen events = [] := by
  refine List.filter_eq_nil_iff.mpr fun event happened => ?_
  obtain ⟨deed, cell, rfl, on⟩ := only event happened
  rw [Event.isOn, apart _ on]
  exact Bool.false_ne_true

theorem called_notMem (only : OnlyOn slots events) : .called ∉ events := by
  intro happened
  obtain ⟨deed, cell, same, -⟩ := only .called happened
  cases same

end OnlyOn

/-- The memory after a run, and what happened in it. -/
structure Outcome where
  memory : Memory
  events : List Event

namespace Outcome

/-- The outcome in which some events happen first. -/
def after (events : List Event) (outcome : Outcome) : Outcome :=
  { outcome with events := events ++ outcome.events }

def andThen (first : Outcome) (next : Memory → Outcome) : Outcome :=
  (next first.memory).after first.events

end Outcome

/-- Runs one after another. -/
def inTurn {α : Type} (run : α → Memory → Outcome) : List α → Memory → Outcome
  | [], memory => ⟨memory, []⟩
  | item :: items, memory => (run item memory).andThen (inTurn run items)

theorem inTurn_append {α : Type} (run : α → Memory → Outcome) (first second : List α)
    (memory : Memory) :
    inTurn run (first ++ second) memory =
      (inTurn run first memory).andThen (inTurn run second) := by
  induction first generalizing memory with
  | nil => rfl
  | cons item items ih =>
    simp only [List.cons_append, inTurn, Outcome.andThen, Outcome.after, ih, List.append_assoc]

/-! ## Execution -/

namespace Value

/-- Whether the value is null once it stands in its cell. -/
def isNull (surroundings : Surroundings) (target : Cell) : Value → Bool
  | null _ => true
  | fresh _ => false
  | made _ _ _ => surroundings.makesNull target

/-- What is read for the value. -/
def reads (index : Nat) : Value → List Event
  | made _ source _ => [.on .read (source.cell index)]
  | null _ | fresh _ => []

end Value

def Action.run (surroundings : Surroundings) (index : Nat) (action : Action) (memory : Memory) :
    Outcome :=
  match action with
  | assign target value =>
    ⟨memory.mark (target.cell index) (value.isNull surroundings (target.cell index)),
      value.reads index ++ [.on .assigned (target.cell index)]⟩
  | introduce _ slot value =>
    ⟨memory.mark ⟨slot, none⟩ (value.isNull surroundings ⟨slot, none⟩),
      value.reads index ++ [.on .declared ⟨slot, none⟩]⟩
  | free place => ⟨memory, [.on .released (place.cell index)]⟩
  | release place => ⟨memory, [.on .released (place.cell index)]⟩

/-- The test succeeds on what is null or not. -/
def Test.holds (null : Bool) : Test → Bool
  | isNull | isNil => null
  | isNotNull | isNotNil => !null

def Branch.run (surroundings : Surroundings) (index : Nat) (branch : Branch) (memory : Memory) :
    Outcome :=
  match branch with
  | always action => action.run surroundings index memory
  | when test place action =>
    .after [.on .tested (place.cell index)]
      (if test.holds (memory.isNull (place.cell index)) then action.run surroundings index memory
       else ⟨memory, []⟩)
  | either test place yes no =>
    .after [.on .tested (place.cell index)]
      (if test.holds (memory.isNull (place.cell index)) then yes.run surroundings index memory
       else inTurn (Action.run surroundings index) no memory)

namespace Statement

/-- The variables that a call fills. -/
def filled (result? : Option Slot) (arguments : List (Slot × Direction)) : List Slot :=
  (arguments.filter fun argument => argument.2.isOut).map Prod.fst ++ result?.toList

/-- Executes a statement. No action changes the extent of a variable, so the bound of a loop is
the same in all its rounds. -/
def run (surroundings : Surroundings) (statement : Statement) (memory : Memory) : Outcome :=
  match statement with
  | declare _ slot => ⟨memory, [.on .declared ⟨slot, none⟩]⟩
  | perform branch => branch.run surroundings 0 memory
  | measure count sequence =>
    ⟨memory.resize count (memory sequence).extent,
      [.on .read ⟨sequence, none⟩, .on .assigned ⟨count, none⟩]⟩
  | resize sequence count =>
    ⟨memory.resize sequence (memory count).extent,
      [.on .read ⟨count, none⟩, .on .resized ⟨sequence, none⟩]⟩
  | allocate array _ count =>
    ⟨(memory.resize array (memory count).extent).mark ⟨array, none⟩ false,
      [.on .read ⟨count, none⟩, .on .assigned ⟨array, none⟩]⟩
  | discard array => ⟨memory, [.on .released ⟨array, none⟩]⟩
  | loop bound body =>
    .after [.on .read ⟨bound.slot, none⟩]
      (inTurn (fun index => inTurn (Branch.run surroundings index) body)
        (List.range (memory bound.slot).extent) memory)
  | call result? _ arguments =>
    ⟨memory.receive surroundings.reply (filled result? arguments),
      arguments.map (fun argument => .on .passed ⟨argument.1, none⟩) ++
        .called :: result?.toList.map fun slot => .on .assigned ⟨slot, none⟩⟩
  | giveBack slot => ⟨memory, [.on .read ⟨slot, none⟩]⟩

/-- Executes statements one after another. -/
def runAll (surroundings : Surroundings) : List Statement → Memory → Outcome :=
  inTurn (run surroundings)

end Statement

/-! ## Frames -/

/-- The run calls nothing, touches only some variables and changes only some of them. -/
structure Within (touched written : Slot → Prop) (run : Memory → Outcome) : Prop where
  touches : ∀ memory, OnlyOn touched (run memory).events
  keeps : ∀ memory slot, ¬ written slot → (run memory).memory slot = memory slot

namespace Within

variable {touched written : Slot → Prop}

theorem mono {more changed : Slot → Prop} {run : Memory → Outcome}
    (within : Within touched written run)
    (touches : ∀ slot, touched slot → more slot) (writes : ∀ slot, written slot → changed slot) :
    Within more changed run where
  touches memory := (within.touches memory).mono touches
  keeps memory slot unchanged :=
    within.keeps memory slot fun writing => unchanged (writes _ writing)

/-- Nothing happens. -/
theorem idle : Within touched written fun memory => ⟨memory, []⟩ :=
  ⟨fun _ => .nil, fun _ _ _ => rfl⟩

theorem andThen {run next : Memory → Outcome} (first : Within touched written run)
    (second : Within touched written next) :
    Within touched written fun memory => (run memory).andThen next where
  touches memory := (first.touches memory).append (second.touches _)
  keeps memory slot unchanged :=
    (second.keeps _ slot unchanged).trans (first.keeps memory slot unchanged)

theorem inTurn {α : Type} {run : α → Memory → Outcome} {items : List α}
    (each : ∀ item ∈ items, Within touched written (run item)) :
    Within touched written (inTurn run items) := by
  induction items with
  | nil => exact .idle
  | cons item items ih =>
    exact (each item List.mem_cons_self).andThen
      (ih fun other listed => each other (List.mem_cons_of_mem _ listed))

/-- An event happens first. -/
theorem event {run : Memory → Outcome} (within : Within touched written run) (deed : Deed)
    (cell : Cell) (here : touched cell.slot) :
    Within touched written fun memory => (run memory).after [.on deed cell] where
  touches memory := .cons here (within.touches memory)
  keeps := within.keeps

/-- A choice stays within what its cases stay within. -/
theorem choice {yes no : Memory → Outcome} (first : Within touched written yes)
    (second : Within touched written no) (test : Memory → Bool) :
    Within touched written fun memory => if test memory then yes memory else no memory where
  touches memory := by
    split
    · exact first.touches memory
    · exact second.touches memory
  keeps memory := by
    split
    · exact first.keeps memory
    · exact second.keeps memory

end Within

def Value.slots : Value → List Slot
  | made _ source _ => [source.slot]
  | null _ | fresh _ => []

namespace Action

/-- The variables that an action mentions. -/
def slots : Action → List Slot
  | assign target value => target.slot :: value.slots
  | introduce _ slot value => slot :: value.slots
  | free place | release place => [place.slot]

/-- The variable that an action assigns. -/
def written : Action → List Slot
  | assign target _ => [target.slot]
  | introduce _ slot _ => [slot]
  | free _ | release _ => []

end Action

namespace Branch

def slots : Branch → List Slot
  | always action => action.slots
  | when _ place action => place.slot :: action.slots
  | either _ place yes no => place.slot :: (yes.slots ++ no.flatMap Action.slots)

def written : Branch → List Slot
  | always action | when _ _ action => action.written
  | either _ _ yes no => yes.written ++ no.flatMap Action.written

end Branch

namespace Statement

/-- The variables that a statement mentions. -/
def slots : Statement → List Slot
  | declare _ slot | discard slot | giveBack slot => [slot]
  | perform branch => branch.slots
  | measure count sequence | resize sequence count => [count, sequence]
  | allocate array _ count => [array, count]
  | loop bound body => bound.slot :: body.flatMap Branch.slots
  | call result? _ arguments => arguments.map Prod.fst ++ result?.toList

/-- The variables that a statement assigns. -/
def written : Statement → List Slot
  | declare _ _ | discard _ | giveBack _ => []
  | perform branch => branch.written
  | measure count _ => [count]
  | resize sequence _ => [sequence]
  | allocate array _ _ => [array]
  | loop _ body => body.flatMap Branch.written
  | call result? _ arguments => filled result? arguments

def isCall : Statement → Bool
  | call _ _ _ => true
  | _ => false

end Statement

section Footprint

variable (surroundings : Surroundings)

/-- An assignment touches what it reads and its target. -/
theorem Value.within_assign (index : Nat) (value : Value) (deed : Deed) (target : Cell) :
    Within (· ∈ target.slot :: value.slots) (· ∈ [target.slot]) fun memory =>
      ⟨memory.mark target (value.isNull surroundings target),
        value.reads index ++ [.on deed target]⟩ where
  touches memory := by
    have assigning : OnlyOn (· ∈ target.slot :: value.slots) [.on deed target] :=
      .cons List.mem_cons_self .nil
    cases value with
    | null | fresh => exact assigning
    | made front source back => exact .cons (by simp [slots, Place.cell]) assigning
  keeps memory slot unchanged :=
    memory.set_other _ fun same => unchanged (List.mem_singleton.mpr same)

theorem Action.within (index : Nat) (action : Action) :
    Within (· ∈ action.slots) (· ∈ action.written) (action.run surroundings index) := by
  cases action with
  | assign target value =>
    exact value.within_assign surroundings index .assigned (target.cell index)
  | introduce type slot value => exact value.within_assign surroundings index .declared ⟨slot, none⟩
  | free place | release place =>
    exact ⟨fun _ => .cons List.mem_cons_self .nil, fun _ _ _ => rfl⟩

theorem Branch.within (index : Nat) (branch : Branch) :
    Within (· ∈ branch.slots) (· ∈ branch.written) (branch.run surroundings index) := by
  cases branch with
  | always action => exact action.within surroundings index
  | when test place action =>
    have acting : Within (· ∈ place.slot :: action.slots) (· ∈ action.written)
        (action.run surroundings index) :=
      (action.within surroundings index).mono (fun _ => List.mem_cons_of_mem _) fun _ => id
    exact (acting.choice .idle fun memory => test.holds (memory.isNull (place.cell index))).event
      .tested (place.cell index) List.mem_cons_self
  | either test place yes no =>
    have first : Within (· ∈ (either test place yes no).slots)
        (· ∈ (either test place yes no).written) (yes.run surroundings index) :=
      (yes.within surroundings index).mono
        (fun _ mentioned => List.mem_cons_of_mem _ (List.mem_append_left _ mentioned))
        fun _ => List.mem_append_left _
    have second : Within (· ∈ (either test place yes no).slots)
        (· ∈ (either test place yes no).written) (inTurn (Action.run surroundings index) no) :=
      .inTurn fun action listed => (action.within surroundings index).mono
        (fun _ mentioned => List.mem_cons_of_mem _
          (List.mem_append_right _ (List.mem_flatMap.mpr ⟨action, listed, mentioned⟩)))
        fun _ writing => List.mem_append_right _ (List.mem_flatMap.mpr ⟨action, listed, writing⟩)
    exact (first.choice second fun memory => test.holds (memory.isNull (place.cell index))).event
      .tested (place.cell index) List.mem_cons_self

/-- The rounds of a loop stay within what its body stays within. -/
theorem Within.rounds (indices : List Nat) (body : List Branch) :
    Within (· ∈ body.flatMap Branch.slots) (· ∈ body.flatMap Branch.written)
      (Adapter.inTurn (fun index => Adapter.inTurn (Branch.run surroundings index) body) indices) :=
  .inTurn fun index _ => .inTurn fun branch listed => (branch.within surroundings index).mono
    (fun _ mentioned => List.mem_flatMap.mpr ⟨branch, listed, mentioned⟩)
    fun _ writing => List.mem_flatMap.mpr ⟨branch, listed, writing⟩

/-- **A statement other than a call touches only the variables that it mentions, and changes only
those that it assigns.** -/
theorem Statement.within {statement : Statement} (plain : statement.isCall = false) :
    Within (· ∈ statement.slots) (· ∈ statement.written) (statement.run surroundings) := by
  cases statement with
  | declare type slot | discard slot | giveBack slot =>
    exact ⟨fun _ => .cons List.mem_cons_self .nil, fun _ _ _ => rfl⟩
  | perform branch => exact branch.within surroundings 0
  | measure count sequence | resize sequence count | allocate array type count =>
    refine ⟨fun memory => .cons ?_ (.cons ?_ .nil), fun memory slot unchanged => ?_⟩
    · simp [slots]
    · simp [slots]
    · have differ : slot ≠ _ := fun same => unchanged (List.mem_singleton.mpr same)
      simp only [run, Memory.mark, Memory.resize, Memory.set_other _ _ differ]
  | loop bound body =>
    have rounds (indices) := ((Within.rounds surroundings indices body).mono
      (fun _ => List.mem_cons_of_mem bound.slot) fun _ => id).event .read ⟨bound.slot, none⟩
        List.mem_cons_self
    exact ⟨fun memory => (rounds _).touches memory, fun memory => (rounds _).keeps memory⟩
  | call result? method arguments => cases plain

end Footprint

/-! ## Loops -/

/-- If a round keeps a variable and its chosen events are determined by the contents of that
variable, so are those of all rounds. -/
theorem chosenOn_rounds {run : Nat → Memory → Outcome} {chosen : Slot → Bool} (slot : Slot)
    (events : Contents → Nat → List Event)
    (kept : ∀ index memory, (run index memory).memory slot = memory slot)
    (each : ∀ index memory, chosenOn chosen (run index memory).events = events (memory slot) index)
    (indices : List Nat) (memory : Memory) :
    chosenOn chosen (inTurn run indices memory).events =
      indices.flatMap (events (memory slot)) := by
  induction indices generalizing memory with
  | nil => rfl
  | cons index indices ih =>
    show chosenOn chosen ((run index memory).events ++ _) = _
    rw [chosenOn_append, each, ih, kept, List.flatMap_cons]

end IdlBridge.Adapter
