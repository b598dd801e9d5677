import IdlBridge.Live.World

/-!
# Counting references in a world

The references to the remote objects are seen as one number for each object (`World.refs`). What an
operation of a world does to these numbers, and how often it consults the registry, is stated once
for each operation (`World.Settles`). An attempt to make a wrapper leaves behind exactly the
reference that the new wrapper holds, and none if there is no wrapper (`World.Attempted`). This is so
for a query too, which has a reference of its own while the wrapper is made
(`World.attempted_query`).
-/

set_option autoImplicit false

namespace IdlBridge.Live

/-- One reference to an object, as each object sees it. -/
def share (held id : RemoteId) : Int :=
  if held = id then 1 else 0

namespace World

/-- The references that clients hold to an object. -/
def refs (world : World) (id : RemoteId) : Int :=
  ((world.remotes[id]?).map Remote.refs).getD 0

/-- The number belongs to an object. -/
def Knows (world : World) (id : RemoteId) : Prop :=
  id < world.remotes.size

/-- Objects grant only objects that exist. -/
def GrantsExist (world : World) : Prop :=
  ∀ (id : RemoteId) (remote : Remote), world.remotes[id]? = some remote →
    ∀ grant ∈ remote.grants, world.Knows grant.2

/-- The second world is the first after the given references were gained and the registry was
consulted the given number of times. -/
structure Settles (before after : World) (gain : RemoteId → Int) (looked : Nat) : Prop where
  size : after.remotes.size = before.remotes.size
  grants : ∀ id : RemoteId,
    (after.remotes[id]?).map Remote.grants = (before.remotes[id]?).map Remote.grants
  refs : ∀ id, after.refs id = before.refs id + gain id
  lookups : after.registry.lookups = before.registry.lookups + looked

namespace Settles

variable {before middle after : World} {gain more : RemoteId → Int} {looked again : Nat}

theorem trans (first : before.Settles middle gain looked)
    (second : middle.Settles after more again) :
    before.Settles after (fun id => gain id + more id) (looked + again) where
  size := second.size.trans first.size
  grants id := (second.grants id).trans (first.grants id)
  refs id := by rw [second.refs, first.refs, Int.add_assoc]
  lookups := by rw [second.lookups, first.lookups, Nat.add_assoc]

/-- Gains are the same if they are the same for each object. -/
theorem congr (settles : before.Settles after gain looked) (same : ∀ id, gain id = more id)
    (count : looked = again) : before.Settles after more again := by
  cases funext same
  exact count ▸ settles

/-- Operations that leave the objects alone. -/
theorem of_remotes_eq (remotes : after.remotes = before.remotes)
    (lookups : after.registry.lookups = before.registry.lookups + looked) :
    before.Settles after (fun _ => 0) looked where
  size := by rw [remotes]
  grants id := by rw [remotes]
  refs id := by rw [World.refs, World.refs, remotes, Int.add_zero]
  lookups := lookups

theorem refl (world : World) : world.Settles world (fun _ => 0) 0 :=
  of_remotes_eq rfl rfl

theorem knows (settles : before.Settles after gain looked) {id : RemoteId} :
    after.Knows id ↔ before.Knows id := by
  rw [Knows, Knows, settles.size]

theorem grantsExist (settles : before.Settles after gain looked) (exist : before.GrantsExist) :
    after.GrantsExist := by
  intro id remote found grant granted
  have same := settles.grants id
  rw [found, Option.map_some, eq_comm, Option.map_eq_some_iff] at same
  obtain ⟨earlier, there, grants⟩ := same
  exact settles.knows.mpr (exist id earlier there grant (grants ▸ granted))

end Settles

variable {world : World}

/-! ## Single references -/

theorem share_of_ne {id other : RemoteId} (different : id ≠ other) : share id other = 0 :=
  if_neg different

/-- An object is changed in its own count of references only. -/
theorem settles_modifyRemote {id : RemoteId} (known : world.Knows id) (change : Remote → Remote)
    (amount : Int)
    (changed : ∀ remote, world.remotes[id]? = some remote →
      (change remote).grants = remote.grants ∧ (change remote).refs = remote.refs + amount) :
    world.Settles (world.modifyRemote id change) (fun other => amount * share id other) 0 where
  size := Array.size_modify
  grants other := by
    simp only [modifyRemote, Array.getElem?_modify]
    split
    · rename_i same
      subst same
      cases found : world.remotes[id]? with
      | none => rfl
      | some remote => simp [(changed remote found).1]
    · rfl
  refs other := by
    simp only [World.refs, modifyRemote, Array.getElem?_modify]
    split
    · rename_i same
      subst same
      have found := Array.getElem?_eq_getElem known
      simp [found, (changed _ found).2, share]
    · rename_i different
      rw [share_of_ne different, Int.mul_zero, Int.add_zero]
  lookups := rfl

theorem settles_gain {id : RemoteId} (known : world.Knows id) {change : Remote → Remote}
    (changed : ∀ remote, world.remotes[id]? = some remote →
      change remote = { remote with refs := remote.refs + 1 }) :
    world.Settles (world.modifyRemote id change) (share id) 0 := by
  have settles := settles_modifyRemote known change 1 fun remote found => by
    rw [changed remote found]
    exact ⟨rfl, rfl⟩
  simpa using settles

theorem settles_release {id : RemoteId} (known : world.Knows id) :
    world.Settles (world.release id) (fun other => -share id other) 0 := by
  have settles := settles_modifyRemote known Remote.release (-1) fun _ _ =>
    ⟨rfl, Int.sub_eq_add_neg⟩
  simpa [release] using settles

/-- Taking a reference either succeeds and counts, or fails and changes nothing. -/
theorem addRef_cases {id : RemoteId} (known : world.Knows id) :
    (∃ after, world.addRef id = (after, .ok ()) ∧ world.Settles after (share id) 0) ∨
      ∃ exception, world.addRef id = (world, .error exception) := by
  obtain ⟨remote, found⟩ : ∃ remote, world.remotes[id]? = some remote :=
    ⟨_, Array.getElem?_eq_getElem known⟩
  cases refuses : remote.refusesReferences with
  | true =>
    refine .inr ⟨.ofRemote Remote.noPermission, ?_⟩
    simp [addRef, found, Remote.addRef, refuses]
  | false =>
    refine .inl ⟨world.modifyRemote id fun _ => { remote with refs := remote.refs + 1 }, ?_,
      settles_gain known fun other here => ?_⟩
    · simp [addRef, found, Remote.addRef, refuses, modifyRemote]
    · rw [found, Option.some.injEq] at here
      rw [here]

/-- A wrapper hands out its object with a reference, or nothing changes. -/
theorem unwrap_cases {wrapper : Wrapper} (known : world.Knows wrapper.remote)
    (interface : ScopedName) :
    (∃ after, world.unwrap wrapper interface = (after, .ok (some wrapper.remote)) ∧
        world.Settles after (share wrapper.remote) 0) ∨
      world.unwrap wrapper interface = (world, .ok none) ∨
      ∃ exception, world.unwrap wrapper interface = (world, .error exception) := by
  rw [unwrap, Wrapper.downcast?]
  cases wrapper.answers interface with
  | false => exact .inr (.inl rfl)
  | true =>
    rcases addRef_cases known with ⟨after, taken, settles⟩ | ⟨exception, refused⟩
    · refine .inl ⟨after, ?_, settles⟩
      simp only [if_true, taken]
    · refine .inr (.inr ⟨exception, ?_⟩)
      simp only [if_true, refused]

/-! ## Attempts to make a wrapper -/

/-- The references that the outcome of an attempt holds. -/
def holding : Except AdapterException (Option Wrapper) → RemoteId → Int
  | .ok (some wrapper), id => share wrapper.remote id
  | _, _ => 0

/-- An attempt to make a wrapper gains what the wrapper holds, and nothing if there is none. -/
structure Attempted (before : World)
    (attempt : World × Except AdapterException (Option Wrapper)) (looked : Nat) : Prop where
  settles : before.Settles attempt.1 (holding attempt.2) looked
  known : ∀ wrapper, attempt.2 = .ok (some wrapper) → before.Knows wrapper.remote

theorem attempted_none (world : World) : world.Attempted (world, .ok none) 0 :=
  ⟨.refl world, nofun⟩

theorem makeWrapper_cases (interface : ScopedName) (closure : List ScopedName)
    {remote : RemoteId} (known : world.Knows remote) (context : String) :
    (∃ after wrapper, world.makeWrapper interface closure remote context = (after, .ok wrapper) ∧
        wrapper.remote = remote ∧ world.Settles after (share remote) 0) ∨
      ∃ exception,
        world.makeWrapper interface closure remote context = (world, .error exception) := by
  rw [makeWrapper]
  rcases addRef_cases known with ⟨after, taken, settles⟩ | ⟨exception, refused⟩
  · rw [taken]
    exact .inl ⟨after, _, rfl, rfl, settles⟩
  · rw [refused]
    exact .inr ⟨exception, rfl⟩

theorem attempted_makeWrapper (interface : ScopedName) (closure : List ScopedName)
    {remote : RemoteId} (known : world.Knows remote) (context : String) :
    world.Attempted
      ((world.makeWrapper interface closure remote context).1,
        (world.makeWrapper interface closure remote context).2.map some) 0 := by
  rcases makeWrapper_cases interface closure known context with
    ⟨after, wrapper, made, rfl, settles⟩ | ⟨exception, refused⟩
  · rw [made]
    refine ⟨settles, ?_⟩
    rintro other ⟨⟩
    exact known
  · rw [refused]
    exact ⟨.refl world, nofun⟩

theorem attempted_make (factory : FactoryId) {remote : RemoteId} (known : world.Knows remote)
    (context : String) : world.Attempted (world.make factory remote context) 0 := by
  rw [make]
  split
  · rename_i maker object _ _
    split
    · rcases makeWrapper_cases maker.interface maker.closure known context with
        ⟨after, wrapper, made, rfl, settles⟩ | ⟨exception, refused⟩
      · simp only [made]
        -- The factory counts its wrappers, which no object notices.
        have counting : ∀ factories, after.Settles { after with factories } (fun _ => 0) 0 :=
          fun _ => .of_remotes_eq rfl rfl
        refine ⟨(settles.trans (counting _)).congr (fun _ => Int.add_zero _) rfl, ?_⟩
        rintro other ⟨⟩
        exact known
      · simp only [refused]
        exact ⟨.refl world, nofun⟩
    · exact attempted_none world
  · exact attempted_none world

/-- Wrapping an object consults the registry once. -/
theorem attempted_wrap (name : String) {remote : RemoteId} (known : world.Knows remote)
    (context : String) : world.Attempted (world.wrap name remote context) 1 := by
  let counted : World := { world with registry := world.registry.countLookup }
  have counting : world.Settles counted (fun _ => 0) 1 := .of_remotes_eq rfl rfl
  rw [wrap]
  dsimp only
  split
  · rename_i factory _
    have known : counted.Knows remote := known
    have attempted := attempted_make factory known context
    exact ⟨(counting.trans attempted.settles).congr (fun _ => Int.zero_add _) rfl, attempted.known⟩
  · exact ⟨counting, nofun⟩

/-- The object of a wrapper grants a capability to those who ask through the wrapper. -/
def isGranted (world : World) (wrapper : Wrapper) (root : ScopedName) (capability : String) :
    Bool :=
  ((wrapper.downcast? root).bind fun remote =>
    (world.remotes[remote]?).bind (·.granted? capability)).isSome

/-- A grant carries a reference to an object that exists. -/
theorem settles_grant? (exist : world.GrantsExist) {remote granted : RemoteId}
    {capability : String} {after : World}
    (grant : world.grant? remote capability = some (after, granted)) :
    world.Knows granted ∧ world.Settles after (share granted) 0 := by
  rw [grant?, Option.map_eq_some_iff] at grant
  obtain ⟨target, granting, same⟩ := grant
  cases same
  obtain ⟨object, found, listed⟩ := Option.bind_eq_some_iff.mp granting
  obtain ⟨front, back, split, -⟩ := List.lookup_eq_some_iff.mp listed
  have known : world.Knows granted := exist remote object found (capability, granted) (by simp [split])
  exact ⟨known, settles_gain known fun _ _ => rfl⟩

/-- **A query leaves behind the reference of the new wrapper only.** Its own reference is given
back whatever comes of it, and it consults the registry only if the capability is granted. -/
theorem attempted_query (exist : world.GrantsExist) (wrapper : Wrapper) (root : ScopedName)
    (capability : String) :
    world.Attempted (world.query wrapper root capability)
      (world.isGranted wrapper root capability).toNat := by
  have asked : world.isGranted wrapper root capability =
      ((wrapper.downcast? root).bind (world.grant? · capability)).isSome := by
    rw [isGranted]
    cases wrapper.downcast? root with
    | none => rfl
    | some remote => exact (Option.isSome_map ..).symm
  rw [query, asked]
  cases grant : (wrapper.downcast? root).bind (world.grant? · capability) with
  | none => exact attempted_none world
  | some answer =>
    obtain ⟨after, granted⟩ := answer
    obtain ⟨remote, -, granting⟩ := Option.bind_eq_some_iff.mp grant
    obtain ⟨known, carried⟩ := settles_grant? exist granting
    have attempted := attempted_wrap capability (carried.knows.mpr known) wrapper.context
    have gained := carried.trans attempted.settles
    have returned := settles_release (gained.knows.mpr known)
    refine ⟨(gained.trans returned).congr (fun id => ?_) rfl, fun other made => ?_⟩
    · show share granted id + holding _ id + -share granted id =
        holding (after.wrap capability granted wrapper.context).2 id
      omega
    · exact carried.knows.mp (attempted.known other made)

end World

end IdlBridge.Live
