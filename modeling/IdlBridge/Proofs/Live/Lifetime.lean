import IdlBridge.Proofs.Live.Counting
import Mathlib.Data.List.Infix
import Mathlib.Data.List.Induction

/-!
# The life of a wrapper

A new wrapper has one local reference. Its holder adds references and releases them, or drops the
wrapper as a whole, and in between the world around the wrapper changes in any way: other wrappers
come and go, and the objects turn to refuse references or to report errors.

What becomes of the wrapper is decided by its uses alone (`Life.wrapper?_run`). As long as the
holder does not have more references than the counter can tell, the counter is exact
(`Life.Lives.addRef`), and the wrapper ends when the last reference is released
(`Life.Lives.release`). The wrapper touches the world once, when it ends: it gives back its
reference to the object (`Life.lives_or_ended`).
-/

set_option autoImplicit false

namespace IdlBridge.Live

/-! ## Uses -/

namespace Wrapper

/-- What the holder of a wrapper does with it. -/
inductive Use
  | addRef
  | release
  /-- The wrapper ends, however many references there are. -/
  | drop
  deriving DecidableEq, Repr

/-- What becomes of a wrapper, if it is there. -/
def used (wrapper? : Option Wrapper) : Use → Option Wrapper
  | .addRef => wrapper?.map addRef
  | .release => (wrapper?.map dropRef).filter (!·.isUnused)
  | .drop => none

variable {wrapper : Wrapper}

theorem toNat_count_addRef (room : wrapper.count.toNat + 1 < UInt32.size) :
    wrapper.addRef.count.toNat = wrapper.count.toNat + 1 := by
  rw [addRef, UInt32.toNat_add]
  exact Nat.mod_eq_of_lt room

theorem toNat_count_dropRef (positive : 1 ≤ wrapper.count.toNat) :
    wrapper.dropRef.count.toNat + 1 = wrapper.count.toNat := by
  have nonzero : wrapper.count ≠ 0 := by
    intro zero
    rw [zero] at positive
    exact absurd positive (by decide)
  have one : (1 : UInt32) ≤ wrapper.count := UInt32.le_iff_toNat_le.mpr positive
  rw [dropRef, if_neg nonzero, UInt32.toNat_sub_of_le _ _ one]
  exact Nat.sub_add_cancel positive

theorem isUnused_iff : wrapper.isUnused = true ↔ wrapper.count.toNat = 0 := by
  rw [isUnused, beq_iff_eq, ← UInt32.toNat_inj]
  rfl

end Wrapper

/-! ## Histories -/

/-- Something happens to a wrapper or somewhere else. -/
inductive Event
  | here (use : Wrapper.Use)
  | elsewhere (change : World → World)

namespace Event

/-- The use of the wrapper that an event is. -/
def use? : Event → Option Wrapper.Use
  | here use => some use
  | elsewhere _ => none

/-- What an event changes by itself, without the wrapper. -/
def change : Event → World → World
  | here _, world => world
  | elsewhere change, world => change world

end Event

/-- A series of events. -/
abbrev History := List Event

namespace History

/-- The uses of the wrapper. -/
def uses (history : History) : List Wrapper.Use :=
  history.filterMap Event.use?

/-- How often a reference was added. -/
def addRefs (history : History) : Nat :=
  history.uses.count .addRef

/-- How often a reference was released. -/
def releases (history : History) : Nat :=
  history.uses.count .release

/-- The world after all that happened elsewhere. -/
def elsewhere (history : History) (world : World) : World :=
  history.foldl (fun world event => event.change world) world

/-- There were never more references than the counter can tell. -/
def Bounded (history : History) : Prop :=
  ∀ before, before <+: history → 1 + addRefs before < UInt32.size + releases before

theorem Bounded.of_prefix {before history : History} (bounded : history.Bounded)
    (isPrefix : before <+: history) : before.Bounded :=
  fun _ earlier => bounded _ (earlier.trans isPrefix)

/-- A history that is short enough. -/
theorem Bounded.of_length {history : History} (short : 1 + history.length < UInt32.size) :
    history.Bounded := by
  intro before isPrefix
  have counted : addRefs before ≤ history.length :=
    calc addRefs before ≤ (uses before).length := List.count_le_length
      _ ≤ before.length := List.length_filterMap_le _ _
      _ ≤ history.length := isPrefix.length_le
  omega

variable (history : History)

@[simp]
theorem uses_here (use : Wrapper.Use) : uses (history ++ [.here use]) = history.uses ++ [use] := by
  simp [uses, Event.use?]

@[simp]
theorem uses_elsewhere (change : World → World) :
    uses (history ++ [.elsewhere change]) = history.uses := by
  simp [uses, Event.use?]

theorem addRefs_here (use : Wrapper.Use) :
    addRefs (history ++ [.here use]) = history.addRefs + if use = .addRef then 1 else 0 := by
  rw [addRefs, uses_here, List.count_append, List.count_singleton, addRefs]
  simp only [beq_iff_eq]

theorem releases_here (use : Wrapper.Use) :
    releases (history ++ [.here use]) = history.releases + if use = .release then 1 else 0 := by
  rw [releases, uses_here, List.count_append, List.count_singleton, releases]
  simp only [beq_iff_eq]

theorem elsewhere_append (more : History) (world : World) :
    elsewhere (history ++ more) world = more.elsewhere (history.elsewhere world) :=
  List.foldl_append

end History

/-! ## Lives -/

/-- A wrapper, as long as it lives, and the world around it. -/
structure Life where
  world : World
  wrapper? : Option Wrapper

namespace Life

/-- The life after an event. A wrapper that is gone cannot be used. -/
def step (life : Life) : Event → Life
  | .elsewhere change => { life with world := change life.world }
  | .here use =>
    match life.wrapper?, use with
    | none, _ => life
    | some wrapper, .addRef => { life with wrapper? := some wrapper.addRef }
    | some wrapper, .release =>
      let (world, kept?) := life.world.releaseWrapper wrapper
      ⟨world, kept?⟩
    | some wrapper, .drop => ⟨life.world.drop wrapper, none⟩

/-- The life after a series of events. -/
def run (life : Life) (history : History) : Life :=
  history.foldl step life

theorem run_append (life : Life) (history more : History) :
    life.run (history ++ more) = (life.run history).run more :=
  List.foldl_append

theorem run_concat (life : Life) (history : History) (event : Event) :
    life.run (history ++ [event]) = (life.run history).step event :=
  run_append life history [event]

theorem releaseWrapper_snd (world : World) (wrapper : Wrapper) :
    (world.releaseWrapper wrapper).2 = Wrapper.used (some wrapper) .release := by
  rw [World.releaseWrapper, Wrapper.used, Option.map_some, Option.filter_some]
  cases wrapper.dropRef.isUnused <;> rfl

/-- **What becomes of a wrapper is decided by its uses alone**, and so it does not depend on what
its object says. -/
theorem wrapper?_run (life : Life) (history : History) :
    (life.run history).wrapper? = history.uses.foldl Wrapper.used life.wrapper? := by
  induction history using List.reverseRecOn with
  | nil => rfl
  | append_singleton history event ih =>
    rw [run_concat]
    cases event with
    | elsewhere change => rw [History.uses_elsewhere, ← ih]; rfl
    | here use =>
      rw [History.uses_here, List.foldl_append, ← ih, List.foldl_cons, List.foldl_nil]
      cases here : (life.run history).wrapper? with
      | none => cases use <;> simp [step, here, Wrapper.used]
      | some wrapper =>
        cases use with
        | addRef => simp [step, here, Wrapper.used]
        | release => simp only [step, here, releaseWrapper_snd]
        | drop => simp only [step, here, Wrapper.used]

/-- The wrapper has lived through the history so far: it has not touched the world, and its counter
tells how many references there are. -/
structure Lives (made : World) (wrapper : Wrapper) (history : History) (life : Life)
    (living : Wrapper) : Prop where
  there : life.wrapper? = some living
  world : life.world = history.elsewhere made
  remote : living.remote = wrapper.remote
  counted : living.count.toNat + history.releases = 1 + history.addRefs
  positive : 1 ≤ living.count.toNat

/-- The wrapper has ended, when it was dropped or when the last reference was released, and gave
back its reference to the object then. -/
structure Ended (made : World) (wrapper : Wrapper) (history : History) (life : Life) : Prop where
  gone : life.wrapper? = none
  ending : ∃ before use after, history = before ++ .here use :: after ∧
    (use = .drop ∨ use = .release ∧ before.releases = before.addRefs) ∧
    (∃ living, ((Life.mk made (some wrapper)).run before).wrapper? = some living) ∧
    life.world = History.elsewhere after ((before.elsewhere made).release wrapper.remote)

variable {made : World} {wrapper living : Wrapper} {history : History} {life : Life}

namespace Lives

theorem elsewhere (lives : Lives made wrapper history life living) (change : World → World) :
    Lives made wrapper (history ++ [.elsewhere change]) (life.step (.elsewhere change)) living where
  there := lives.there
  world := by
    rw [History.elsewhere_append, ← lives.world]
    rfl
  remote := lives.remote
  counted := by
    rw [History.releases, History.addRefs, History.uses_elsewhere]
    exact lives.counted
  positive := lives.positive

/-- A use that the wrapper survives. -/
theorem used (lives : Lives made wrapper history life living) {use : Wrapper.Use} {next : Wrapper}
    (stepped : life.step (.here use) = ⟨life.world, some next⟩)
    (remote : next.remote = living.remote)
    (counted : next.count.toNat + (history ++ [.here use] : History).releases =
      1 + (history ++ [.here use] : History).addRefs)
    (positive : 1 ≤ next.count.toNat) :
    Lives made wrapper (history ++ [.here use]) (life.step (.here use)) next where
  there := by rw [stepped]
  world := by
    rw [stepped, History.elsewhere_append, ← lives.world]
    rfl
  remote := remote.trans lives.remote
  counted := counted
  positive := positive

/-- A use that the wrapper does not survive. -/
theorem ended
    (lives : Lives made wrapper history ((Life.mk made (some wrapper)).run history) living)
    {use : Wrapper.Use}
    (stepped : ((Life.mk made (some wrapper)).run history).step (.here use) =
      ⟨((Life.mk made (some wrapper)).run history).world.release living.remote, none⟩)
    (reason : use = .drop ∨ use = .release ∧ history.releases = history.addRefs) :
    Ended made wrapper (history ++ [.here use])
      (((Life.mk made (some wrapper)).run history).step (.here use)) where
  gone := by rw [stepped]
  ending := by
    refine ⟨history, use, [], rfl, reason, ⟨living, lives.there⟩, ?_⟩
    rw [stepped, lives.world, lives.remote]
    rfl

end Lives

/-- What is gone stays gone, and does not touch the world again. -/
theorem Ended.step (ended : Ended made wrapper history life) (event : Event) :
    Ended made wrapper (history ++ [event]) (life.step event) := by
  obtain ⟨before, use, after, split, reason, alive, world⟩ := ended.ending
  have stepped : life.step event = ⟨event.change life.world, none⟩ := by
    cases event with
    | elsewhere change => simp only [Life.step, Event.change, ended.gone]
    | here use =>
      simp only [Life.step, Event.change, ended.gone]
      rw [← ended.gone]
  refine ⟨by rw [stepped], before, use, after ++ [event], by simp [split], reason, alive, ?_⟩
  rw [stepped, History.elsewhere_append, ← world]
  rfl

/-- The last local reference ends the wrapper, and no other does. -/
theorem Lives.release
    (lives : Lives made wrapper history ((Life.mk made (some wrapper)).run history) living) :
    (∃ next, Lives made wrapper (history ++ [.here .release])
        (((Life.mk made (some wrapper)).run history).step (.here .release)) next) ∨
      Ended made wrapper (history ++ [.here .release])
        (((Life.mk made (some wrapper)).run history).step (.here .release)) := by
  have counted := lives.counted
  have dropped := Wrapper.toNat_count_dropRef lives.positive
  cases unused : living.dropRef.isUnused with
  | true =>
    have zero := Wrapper.isUnused_iff.mp unused
    refine .inr (lives.ended ?_ (.inr ⟨rfl, by omega⟩))
    simp only [Life.step, lives.there, World.releaseWrapper, unused, if_true]
    rfl
  | false =>
    have nonzero : living.dropRef.count.toNat ≠ 0 := by
      intro zero
      rw [Wrapper.isUnused_iff.mpr zero] at unused
      cases unused
    refine .inl ⟨living.dropRef, lives.used ?_ rfl ?_ (by omega)⟩
    · simp only [Life.step, lives.there, World.releaseWrapper, unused, Bool.false_eq_true, if_false]
    · rw [History.releases_here, History.addRefs_here, if_pos rfl, if_neg (by decide)]
      omega

/-- The counter does not wrap around. -/
theorem Lives.room (lives : Lives made wrapper history life living)
    (bounded : History.Bounded (history ++ [.here .addRef])) :
    living.count.toNat + 1 < UInt32.size := by
  have counted := lives.counted
  have fits := bounded _ (List.prefix_refl _)
  rw [History.releases_here, History.addRefs_here, if_pos rfl, if_neg (by decide)] at fits
  omega

theorem Lives.addRef (lives : Lives made wrapper history life living)
    (bounded : History.Bounded (history ++ [.here .addRef])) :
    Lives made wrapper (history ++ [.here .addRef]) (life.step (.here .addRef)) living.addRef := by
  have counted := lives.counted
  have more := Wrapper.toNat_count_addRef (lives.room bounded)
  refine lives.used ?_ rfl ?_ (by omega)
  · simp only [Life.step, lives.there]
  · rw [History.releases_here, History.addRefs_here, if_pos rfl, if_neg (by decide)]
    omega

/-- **A wrapper lives or has ended.** Each event adds to the life, ends it, or comes too late. -/
theorem lives_or_ended (made : World) (one : wrapper.count = 1) (bounded : history.Bounded) :
    (∃ living, Lives made wrapper history ((Life.mk made (some wrapper)).run history) living) ∨
      Ended made wrapper history ((Life.mk made (some wrapper)).run history) := by
  induction history using List.reverseRecOn with
  | nil =>
    refine .inl ⟨wrapper, rfl, rfl, rfl, ?_, ?_⟩
    · rw [one]
      rfl
    · rw [one]
      decide
  | append_singleton history event ih =>
    rw [run_concat]
    rcases ih (bounded.of_prefix (List.prefix_append _ _)) with ⟨living, lives⟩ | ended
    · cases event with
      | elsewhere change => exact .inl ⟨living, lives.elsewhere change⟩
      | here use =>
        cases use with
        | addRef => exact .inl ⟨living.addRef, lives.addRef bounded⟩
        | release => exact lives.release
        | drop =>
          refine .inr (lives.ended ?_ (.inl rfl))
          simp only [Life.step, lives.there]
          rfl
    · exact .inr (ended.step event)

end Life

theorem eq_of_makeWrapper {world made : World} {interface : ScopedName}
    {closure : List ScopedName} {remote : RemoteId} {context : String} {wrapper : Wrapper}
    (new : world.makeWrapper interface closure remote context = (made, .ok wrapper)) :
    wrapper = .make interface closure remote context := by
  rw [World.makeWrapper] at new
  split at new
  · cases new
    rfl
  · cases new

/-- **The life of a wrapper.** Whatever happens elsewhere, as long as there are never more
references than the counter can tell: while a new wrapper lives, its counter is one more than the
references that were added less those that were released, and it does not wrap around or stop at
zero. Releasing a reference ends the wrapper exactly if no reference is left. The wrapper does
nothing to the world until it ends, by the last release or by being dropped; then it gives back its
reference, so that the object has one reference less and every other object as many as before, and
after that it does nothing any more. What the object says to that, or anything else in the world,
makes no difference to what the holder gets. -/
theorem wrapper_lifetime {world made : World} {interface : ScopedName} {closure : List ScopedName}
    {remote : RemoteId} {context : String} {wrapper : Wrapper}
    (new : world.makeWrapper interface closure remote context = (made, .ok wrapper))
    {history : History} (bounded : history.Bounded) :
    let life := (Life.mk made (some wrapper)).run history
    (∀ living, life.wrapper? = some living →
      (living.count.toNat : Int) = 1 + history.addRefs - history.releases ∧
      1 ≤ living.count.toNat ∧
      (History.Bounded (history ++ [.here .addRef]) →
        living.addRef.count.toNat = living.count.toNat + 1) ∧
      living.dropRef.count.toNat + 1 = living.count.toNat ∧
      ((life.world.releaseWrapper living).2 = none ↔ living.dropRef.count.toNat = 0) ∧
      life.world = history.elsewhere made) ∧
    (life.wrapper? = none →
      ∃ before use after, history = before ++ .here use :: after ∧
        (use = .drop ∨ use = .release ∧ before.releases = before.addRefs) ∧
        (∃ living, ((Life.mk made (some wrapper)).run before).wrapper? = some living) ∧
        life.world = History.elsewhere after ((before.elsewhere made).release remote) ∧
        ((before.elsewhere made).Knows remote → ∀ id,
          ((before.elsewhere made).release remote).refs id =
            (before.elsewhere made).refs id - share remote id)) ∧
    ∀ (other : World) (events : History), events.uses = history.uses →
      ((Life.mk other (some wrapper)).run events).wrapper? = life.wrapper? := by
  intro life
  have own := eq_of_makeWrapper new
  have one : wrapper.count = 1 := by rw [own]; rfl
  have known : wrapper.remote = remote := by rw [own]; rfl
  refine ⟨fun living there => ?_, fun gone => ?_, fun other events same => ?_⟩
  · rcases Life.lives_or_ended made one bounded with ⟨living', lives⟩ | ended
    · cases there.symm.trans lives.there
      have counted := lives.counted
      have positive := lives.positive
      refine ⟨by omega, positive, fun more => Wrapper.toNat_count_addRef (lives.room more),
        Wrapper.toNat_count_dropRef positive, ?_, lives.world⟩
      rw [Life.releaseWrapper_snd, Wrapper.used, Option.map_some, Option.filter_eq_none_iff,
        ← Wrapper.isUnused_iff]
      simp
    · exact absurd (there.symm.trans ended.gone) (Option.some_ne_none living)
  · rcases Life.lives_or_ended made one bounded with ⟨living, lives⟩ | ended
    · exact absurd (lives.there.symm.trans gone) (Option.some_ne_none living)
    · obtain ⟨before, use, after, split, reason, alive, world⟩ := known ▸ ended.ending
      refine ⟨before, use, after, split, reason, alive, world, fun there id => ?_⟩
      rw [(World.settles_release there).refs, Int.sub_eq_add_neg]
  · rw [Life.wrapper?_run, same, Life.wrapper?_run]

/-- A world with one object, which gives out references. -/
def hookWorld : World :=
  ⟨#[⟨"IDL:m/Hook:1.0", [⟨["m", "Hook"]⟩], [], 0, false, false⟩], #[], .empty⟩

/-- A second reference is added and released. Then the object turns to report an error when a
reference is given back, and the last reference is released, and once more. -/
def hookHistory : History :=
  [.here .addRef, .here .release,
    .elsewhere fun world =>
      world.modifyRemote 0 fun remote => { remote with failsReleases := true },
    .here .release, .here .release]

theorem hookHistory_released_once :
    hookWorld.makeWrapper ⟨["m", "Hook"]⟩ [] 0 "RootPOA" =
        ((hookWorld.addRef 0).1, .ok (.make ⟨["m", "Hook"]⟩ [] 0 "RootPOA")) ∧
      hookHistory.Bounded ∧
      ∃ (before : History) (use : Wrapper.Use) (after : History),
        hookHistory = before ++ .here use :: after ∧
        (use = .drop ∨ use = .release ∧ before.releases = before.addRefs) ∧
        ((Life.mk (hookWorld.addRef 0).1
            (some (.make ⟨["m", "Hook"]⟩ [] 0 "RootPOA"))).run hookHistory).world =
          History.elsewhere after ((before.elsewhere (hookWorld.addRef 0).1).release 0) := by
  have new : hookWorld.makeWrapper ⟨["m", "Hook"]⟩ [] 0 "RootPOA" =
      ((hookWorld.addRef 0).1, .ok (.make ⟨["m", "Hook"]⟩ [] 0 "RootPOA")) := rfl
  have bounded : hookHistory.Bounded := .of_length (by decide)
  obtain ⟨-, ended, -⟩ := wrapper_lifetime new bounded
  obtain ⟨before, use, after, split, reason, -, world, -⟩ := ended rfl
  exact ⟨new, bounded, before, use, after, split, reason, world⟩

end IdlBridge.Live
