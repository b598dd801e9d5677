import IdlBridge.Live.Session
import IdlBridge.Proofs.Live.Counting

/-!
# Conservation of references

Every reference to a remote object is in somebody's hands: a wrapper holds it, or a caller was given
it and has not returned it. What a command does to the references that no wrapper holds is stated
once for each command (`Session.moves_step`), and from this the counts after a whole run follow
(`Session.references_conserved`). Between commands the objects may change their behaviour in any way,
so nothing depends on which references they refuse, which releases they report as failed and what
they grant.
-/

set_option autoImplicit false

namespace IdlBridge.Live

/-! ## Labels -/

namespace Labels

variable {α : Type} {labels : Labels α} {label : String} {value : α}

theorem mem_of_lookup (found : labels.lookup label = some value) : (label, value) ∈ labels := by
  obtain ⟨before, after, rfl, -⟩ := List.lookup_eq_some_iff.mp found
  simp

theorem erase_sublist (labels : Labels α) (label : String) :
    (labels.erase label).Sublist labels :=
  List.filter_sublist

/-- A label that stands for nothing is not there to be erased. -/
theorem erase_of_lookup_none (absent : labels.lookup label = none) :
    labels.erase label = labels := by
  rw [erase, List.filter_eq_self]
  intro entry listed
  have different := List.lookup_eq_none_iff.mp absent entry listed
  simpa [bne, BEq.comm] using different

theorem not_mem_erase (labels : Labels α) (label : String) :
    label ∉ (labels.erase label).map (·.1) := by
  simp [erase]

/-- Erasing a label takes one entry away. -/
theorem perm_erase (distinct : (labels.map (·.1)).Nodup)
    (found : labels.lookup label = some value) :
    labels.Perm ((label, value) :: labels.erase label) := by
  obtain ⟨before, after, rfl, earlier⟩ := List.lookup_eq_some_iff.mp found
  rw [List.map_append, List.map_cons, List.nodup_append, List.nodup_cons] at distinct
  have kept : erase (before ++ (label, value) :: after) label = before ++ after := by
    have front : before.filter (fun entry => entry.1 != label) = before := by
      rw [List.filter_eq_self]
      intro entry listed
      simpa [bne, BEq.comm] using earlier entry listed
    have back : after.filter (fun entry => entry.1 != label) = after := by
      rw [List.filter_eq_self]
      intro entry listed
      have apart : label ∉ after.map (·.1) := distinct.2.1.1
      have differs : entry.1 ≠ label := by
        rintro rfl
        exact apart (List.mem_map_of_mem listed)
      simpa using differs
    rw [erase, List.filter_append, front, List.filter_cons_of_neg (by simp), back]
  rw [kept]
  exact List.perm_middle

theorem nodup_give (distinct : (labels.map (·.1)).Nodup) (label : String) (value : α) :
    ((labels.give label value).map (·.1)).Nodup := by
  rw [give, List.map_cons, List.nodup_cons]
  exact ⟨not_mem_erase labels label, distinct.sublist ((erase_sublist labels label).map _)⟩

/-- What holds of all entries holds of all but one and of a new one. -/
theorem forall_mem_give {holds : String × α → Prop} (all : ∀ entry ∈ labels, holds entry)
    (new : holds (label, value)) : ∀ entry ∈ labels.give label value, holds entry := by
  rw [give, List.forall_mem_cons]
  exact ⟨new, fun entry listed => all entry ((erase_sublist labels label).subset listed)⟩

end Labels

/-! ## Sessions -/

namespace Session

/-- The number of wrappers that hold a reference to an object. -/
def holders (session : Session) (id : RemoteId) : Nat :=
  session.wrappers.countP fun entry => entry.2.wrapper.remote == id

/-- Labels are distinct and lead to objects that exist, and so do grants. -/
structure Sound (session : Session) : Prop where
  labels : (session.wrappers.map (·.1)).Nodup
  remotes : ∀ entry ∈ session.remotes, session.world.Knows entry.2
  wrappers : ∀ entry ∈ session.wrappers, session.world.Knows entry.2.wrapper.remote
  grants : session.world.GrantsExist

/-- The second session is the first after the given references went into the hands of callers and
the registry was consulted the given number of times. -/
structure Moves (before after : Session) (given : RemoteId → Int) (looked : Nat) : Prop where
  sound : after.Sound
  refs : ∀ id, after.world.refs id - after.holders id =
    before.world.refs id - before.holders id + given id
  lookups : after.world.registry.lookups = before.world.registry.lookups + looked

variable {session : Session}

theorem Moves.trans {before middle after : Session} {given more : RemoteId → Int}
    {looked again : Nat} (first : before.Moves middle given looked)
    (second : middle.Moves after more again) :
    before.Moves after (fun id => given id + more id) (looked + again) where
  sound := second.sound
  refs id := by rw [second.refs, first.refs, Int.add_assoc]
  lookups := by rw [second.lookups, first.lookups, Nat.add_assoc]

theorem Moves.congr {before after : Session} {given other : RemoteId → Int} {looked count : Nat}
    (moves : before.Moves after given looked) (same : ∀ id, given id = other id)
    (counted : looked = count) : before.Moves after other count := by
  cases funext same
  exact counted ▸ moves

theorem Sound.rest (sound : session.Sound) : session.Moves session (fun _ => 0) 0 where
  sound := sound
  refs _ := (Int.add_zero _).symm
  lookups := rfl

/-- A change of the world moves the references that are gained into the hands of callers. -/
theorem Sound.withWorld (sound : session.Sound) {world : World} {gain : RemoteId → Int}
    {looked : Nat} (settles : session.world.Settles world gain looked) :
    session.Moves (session.withWorld world) gain looked where
  sound :=
    { labels := sound.labels
      remotes := fun entry listed => settles.knows.mpr (sound.remotes entry listed)
      wrappers := fun entry listed => settles.knows.mpr (sound.wrappers entry listed)
      grants := settles.grantsExist sound.grants }
  refs id := by
    show world.refs id - session.holders id = _
    rw [settles.refs]
    omega
  lookups := settles.lookups

theorem Sound.knows_remote (sound : session.Sound) {label : String} {id : RemoteId}
    (found : session.remotes.lookup label = some id) : session.world.Knows id :=
  sound.remotes (label, id) (Labels.mem_of_lookup found)

theorem Sound.knows_held (sound : session.Sound) {label : String} {held : Held}
    (found : session.wrappers.lookup label = some held) :
    session.world.Knows held.wrapper.remote :=
  sound.wrappers (label, held) (Labels.mem_of_lookup found)

/-- A wrapper that is forgotten leaves its reference to the callers. -/
theorem Sound.forget (sound : session.Sound) {label : String} {held : Held}
    (found : session.wrappers.lookup label = some held) :
    session.Moves (session.forget label) (share held.wrapper.remote) 0 where
  sound :=
    { sound with
      labels := sound.labels.sublist ((Labels.erase_sublist session.wrappers label).map _)
      wrappers := fun entry listed =>
        sound.wrappers entry ((Labels.erase_sublist session.wrappers label).subset listed) }
  refs id := by
    have counted := (Labels.perm_erase sound.labels found).countP_eq
      fun entry => entry.2.wrapper.remote == id
    rw [List.countP_cons] at counted
    simp only [holders, Session.forget, counted, share, beq_iff_eq]
    by_cases own : held.wrapper.remote = id
    · rw [if_pos own, if_pos own]
      omega
    · rw [if_neg own, if_neg own, Nat.add_zero, Int.add_zero]
  lookups := rfl

/-- A wrapper that is put under a free label takes over a reference from the callers. -/
theorem Sound.take (sound : session.Sound) {label : String}
    (absent : session.wrappers.lookup label = none) {held : Held}
    (known : session.world.Knows held.wrapper.remote) :
    session.Moves (session.update label held) (fun id => -share held.wrapper.remote id) 0 where
  sound :=
    { sound with
      labels := Labels.nodup_give sound.labels label held
      wrappers := Labels.forall_mem_give sound.wrappers known }
  refs id := by
    simp only [holders, update, Labels.give, Labels.erase_of_lookup_none absent,
      List.countP_cons, share, beq_iff_eq]
    by_cases own : held.wrapper.remote = id
    · rw [if_pos own, if_pos own]
      omega
    · rw [if_neg own, if_neg own, Nat.add_zero, Int.neg_zero, Int.add_zero]
  lookups := rfl

theorem lookup_forget (session : Session) (label : String) :
    (session.forget label).wrappers.lookup label = none := by
  rw [List.lookup_eq_none_iff]
  intro entry listed
  have absent := Labels.not_mem_erase session.wrappers label
  have differs : label ≠ entry.1 := by
    rintro rfl
    exact absent (List.mem_map_of_mem listed)
  simpa using differs

theorem update_forget (session : Session) (label : String) (held : Held) :
    (session.forget label).update label held = session.update label held := by
  simp [update, forget, Labels.give, Labels.erase]

/-- A wrapper may be replaced by another that holds the same object. -/
theorem Sound.replace (sound : session.Sound) {label : String} {old new : Held}
    (found : session.wrappers.lookup label = some old)
    (same : new.wrapper.remote = old.wrapper.remote) :
    session.Moves (session.update label new) (fun _ => 0) 0 := by
  have forgotten := sound.forget found
  have known : session.world.Knows new.wrapper.remote := same ▸ sound.knows_held found
  have taken := forgotten.sound.take (lookup_forget session label) known
  rw [update_forget] at taken
  refine (forgotten.trans taken).congr (fun id => ?_) rfl
  rw [same]
  exact Int.add_right_neg _

/-- The wrapper under a label ends and gives back its reference. -/
theorem Sound.drop (sound : session.Sound) {label : String} {held : Held}
    (found : session.wrappers.lookup label = some held) :
    session.Moves ((session.withWorld (session.world.drop held.wrapper)).forget label)
      (fun _ => 0) 0 := by
  have released := sound.withWorld (World.settles_release (sound.knows_held found))
  have forgotten := released.sound.forget found
  exact (released.trans forgotten).congr (fun _ => Int.add_left_neg _) rfl

theorem Sound.dropLabel (sound : session.Sound) (label : String) :
    session.Moves (session.dropLabel label) (fun _ => 0) 0 ∧
      (session.dropLabel label).wrappers.lookup label = none := by
  rw [Session.dropLabel]
  split
  · rename_i held found
    exact ⟨sound.drop found, lookup_forget session label⟩
  · rename_i absent
    exact ⟨sound.rest, absent⟩

/-- Storing a wrapper ends the one that was there and takes over a reference from the callers. -/
theorem Sound.store (sound : session.Sound) (label : String) {held : Held}
    (known : session.world.Knows held.wrapper.remote) :
    session.Moves (session.store label held) (fun id => -share held.wrapper.remote id) 0 := by
  obtain ⟨dropped, absent⟩ := sound.dropLabel label
  have still : (session.dropLabel label).world.Knows held.wrapper.remote := by
    rw [Session.dropLabel]
    split
    · rename_i old found
      exact (World.settles_release (sound.knows_held found)).knows.mpr known
    · exact known
  exact (dropped.trans (dropped.sound.take absent still)).congr (fun _ => Int.zero_add _) rfl

/-- Whatever comes of an attempt to make a wrapper, nothing is left in the hands of callers. -/
theorem Sound.afterMaking (sound : session.Sound) (label : String) (concrete : Bool)
    {attempt : World × Except AdapterException (Option Wrapper)} {looked : Nat}
    (attempted : session.world.Attempted attempt looked) :
    session.Moves (session.afterMaking label concrete attempt).1 (fun _ => 0) looked := by
  have moved := sound.withWorld attempted.settles
  obtain ⟨world, outcome⟩ := attempt
  rw [Session.afterMaking]
  match outcome with
  | .ok (some wrapper) =>
    have known : world.Knows (Held.mk wrapper concrete).wrapper.remote :=
      attempted.settles.knows.mpr (attempted.known wrapper rfl)
    have stored := moved.sound.store label known
    exact (moved.trans stored).congr (fun _ => Int.add_right_neg _) rfl
  | .ok none => exact moved
  | .error _ => exact moved

/-! ## Commands -/

/-- The references that a command puts into the hands of callers: an unwrapped reference is one
more, a returned reference one less. -/
def given (session : Session) (command : Command) (id : RemoteId) : Int :=
  match command with
  | .unwrap label _ =>
    match session.wrappers.lookup label, (session.step command).2 with
    | some held, .remote (some _) => share held.wrapper.remote id
    | _, _ => 0
  | .releaseRemote label =>
    match session.remotes.lookup label with
    | some returned => -share returned id
    | none => 0
  | _ => 0

/-- The command wraps an object through the registry. -/
def wraps (session : Session) : Command → Bool
  | .wrap _ _ remote _ => (session.remotes.lookup remote).isSome
  | _ => false

/-- The command asks for a capability that is granted. -/
def asksGranted (session : Session) : Command → Bool
  | .query _ label root capability =>
    (session.wrappers.lookup label).any fun held =>
      session.world.isGranted held.wrapper root capability
  | _ => false

/-- A new object has no references and nothing to grant. -/
theorem Sound.addRemote (sound : session.Sound) (label : String) {remote : Remote}
    (unused : remote.refs = 0) (grantless : remote.grants = []) :
    session.Moves
      { session with
        world := (session.world.addRemote remote).1
        remotes := session.remotes.give label (session.world.addRemote remote).2 }
      (fun _ => 0) 0 := by
  let larger := (session.world.addRemote remote).1
  have size : larger.remotes.size = session.world.remotes.size + 1 := Array.size_push _
  have knows : ∀ id, session.world.Knows id → larger.Knows id := by
    intro id known
    rw [World.Knows, size]
    exact Nat.lt_succ_of_lt known
  have found : ∀ id : RemoteId, larger.remotes[id]? =
      if id = session.world.remotes.size then some remote else session.world.remotes[id]? :=
    fun _ => Array.getElem?_push
  refine ⟨⟨sound.labels, ?_, ?_, ?_⟩, fun id => ?_, rfl⟩
  · refine Labels.forall_mem_give (fun entry listed => knows _ (sound.remotes entry listed)) ?_
    show session.world.remotes.size < larger.remotes.size
    omega
  · exact fun entry listed => knows _ (sound.wrappers entry listed)
  · intro id object here grant granted
    rw [found] at here
    split at here
    · cases here
      simp [grantless] at granted
    · exact knows _ (sound.grants id object here grant granted)
  · have refs : larger.refs id = session.world.refs id := by
      rw [World.refs, found, World.refs]
      split
      · rename_i last
        simp [last, unused]
      · rfl
    show larger.refs id - session.holders id = _
    rw [refs, Int.add_zero]

/-- An object may change in all but its references, as long as what it grants exists. -/
theorem Sound.modifyRemote (sound : session.Sound) (id : RemoteId) {change : Remote → Remote}
    (counted : ∀ remote, (change remote).refs = remote.refs)
    (granted : ∀ remote, session.world.remotes[id]? = some remote →
      ∀ grant ∈ (change remote).grants, session.world.Knows grant.2) :
    session.Moves (session.withWorld (session.world.modifyRemote id change)) (fun _ => 0) 0 := by
  let changed := session.world.modifyRemote id change
  have knows : ∀ other, changed.Knows other ↔ session.world.Knows other := by
    intro other
    rw [World.Knows, World.Knows, show changed.remotes.size = _ from Array.size_modify]
  have found : ∀ other : RemoteId, changed.remotes[other]? =
      if id = other then (session.world.remotes[other]?).map change
      else session.world.remotes[other]? :=
    fun _ => Array.getElem?_modify
  refine ⟨⟨sound.labels, ?_, ?_, ?_⟩, fun other => ?_, rfl⟩
  · exact fun entry listed => (knows _).mpr (sound.remotes entry listed)
  · exact fun entry listed => (knows _).mpr (sound.wrappers entry listed)
  · intro other object here grant listed
    change changed.remotes[other]? = some object at here
    rw [found] at here
    split at here
    · rename_i same
      subst same
      obtain ⟨remote, there, rfl⟩ := Option.map_eq_some_iff.mp here
      exact (knows _).mpr (granted remote there grant listed)
    · exact (knows _).mpr (sound.grants other object here grant listed)
  · have refs : changed.refs other = session.world.refs other := by
      rw [World.refs, found, World.refs]
      split
      · cases session.world.remotes[other]? <;> simp [counted]
      · rfl
    show changed.refs other - session.holders other = _
    rw [refs, Int.add_zero]

/-- Registration leaves the objects alone and looks nothing up. -/
theorem leaves_registerTree (world : World) (tree : DeclTree) :
    (world.registerTree tree).1.remotes = world.remotes ∧
      (world.registerTree tree).1.registry.lookups = world.registry.lookups := by
  rw [World.registerTree]
  generalize tree.localInterfaces = interfaces
  induction interfaces generalizing world with
  | nil => exact ⟨rfl, rfl⟩
  | cons id interfaces ih =>
    rw [List.foldl_cons]
    exact ih _

theorem settles_registerTree (world : World) (tree : DeclTree) :
    world.Settles (world.registerTree tree).1 (fun _ => 0) 0 := by
  obtain ⟨remotes, lookups⟩ := leaves_registerTree world tree
  exact .of_remotes_eq remotes lookups

/-- A command on an object does nothing if there is no object with the label. -/
theorem Sound.onRemote (sound : session.Sound) (label : String)
    {act : RemoteId → Session × Reply}
    (moves : ∀ id, session.remotes.lookup label = some id →
      session.Moves (act id).1 (fun _ => 0) 0) :
    session.Moves (session.onRemote label act).1 (fun _ => 0) 0 := by
  rw [Session.onRemote]
  split
  · exact moves _ ‹_›
  · exact sound.rest

/-- A command on a factory does nothing if there is no factory with the label. -/
theorem Sound.onFactory (sound : session.Sound) (label : String)
    {act : FactoryId → Session × Reply}
    (moves : ∀ id, session.Moves (act id).1 (fun _ => 0) 0) :
    session.Moves (session.onFactory label act).1 (fun _ => 0) 0 := by
  rw [Session.onFactory]
  split
  · exact moves _
  · exact sound.rest

/-- A command on a wrapper does nothing if there is no wrapper with the label. -/
theorem Sound.onWrapper (sound : session.Sound) (label : String) {act : Held → Session × Reply}
    (moves : ∀ held, session.wrappers.lookup label = some held →
      session.Moves (act held).1 (fun _ => 0) 0) :
    session.Moves (session.onWrapper label act).1 (fun _ => 0) 0 := by
  rw [Session.onWrapper]
  split
  · exact moves _ ‹_›
  · exact sound.rest

/-- A caller returns a reference. What the object says to that makes no difference. -/
theorem Sound.releaseRemote (sound : session.Sound) (label : String) :
    session.Moves (session.step (.releaseRemote label)).1
      (session.given (.releaseRemote label)) 0 := by
  cases found : session.remotes.lookup label with
  | none =>
    have unchanged : (session.step (.releaseRemote label)).1 = session := by
      simp only [step, Session.onRemote, found]
    rw [unchanged]
    exact sound.rest.congr (fun id => by simp only [given, found]) rfl
  | some returned =>
    have released : (session.step (.releaseRemote label)).1 =
        session.withWorld (session.world.release returned) := by
      simp only [step, Session.onRemote, found, World.releaseReporting]
      cases (session.world.remotes[returned]?).bind Remote.releaseError? <;> rfl
    rw [released]
    exact (sound.withWorld (World.settles_release (sound.knows_remote found))).congr
      (fun id => by simp only [given, found]) rfl

/-- A caller is given a reference, unless the wrapper or its object refuses. -/
theorem Sound.unwrap (sound : session.Sound) (label : String) (interface : ScopedName) :
    session.Moves (session.step (.unwrap label interface)).1
      (session.given (.unwrap label interface)) 0 := by
  cases found : session.wrappers.lookup label with
  | none =>
    have unchanged : (session.step (.unwrap label interface)).1 = session := by
      simp only [step, Session.onWrapper, found]
    rw [unchanged]
    exact sound.rest.congr (fun id => by simp only [given, found]) rfl
  | some held =>
    rcases World.unwrap_cases (sound.knows_held found) interface with
      ⟨after, handed, settles⟩ | refused | ⟨exception, failed⟩
    · have moved : session.step (.unwrap label interface) = (session.withWorld after,
          .remote (some (session.world.repositoryId held.wrapper.remote))) := by
        simp only [step, Session.onWrapper, found, handed, Option.map_some]
      rw [moved]
      exact (sound.withWorld settles).congr (fun id => by simp only [given, found, moved]) rfl
    · have unchanged : session.step (.unwrap label interface) = (session, .remote none) := by
        simp only [step, Session.onWrapper, found, refused, Option.map_none]
        rfl
      rw [unchanged]
      exact sound.rest.congr (fun id => by simp only [given, found, unchanged]) rfl
    · have unchanged :
          session.step (.unwrap label interface) = (session, .adapterFailed exception) := by
        simp only [step, Session.onWrapper, found, failed]
        rfl
      rw [unchanged]
      exact sound.rest.congr (fun id => by simp only [given, found, unchanged]) rfl

/-- The last local reference to a wrapper ends it. -/
theorem Sound.release (sound : session.Sound) (label : String) :
    session.Moves (session.step (.release label)).1 (fun _ => 0) 0 := by
  refine sound.onWrapper label fun held found => ?_
  simp only [World.releaseWrapper]
  cases held.wrapper.dropRef.isUnused with
  | true => exact sound.drop found
  | false => exact sound.replace found rfl

theorem Sound.new (sound : session.Sound) (label remote : String) (interface : ScopedName)
    (closure : List ScopedName) (context : Option String) :
    session.Moves (session.step (.new label remote interface closure context)).1
      (fun _ => 0) 0 := by
  refine sound.onRemote remote fun id found => ?_
  exact sound.afterMaking label true
    (World.attempted_makeWrapper interface closure (sound.knows_remote found) (contextOr context))

/-- Wrapping through the registry consults it once. -/
theorem Sound.wrap (sound : session.Sound) (label name remote : String)
    (context : Option String) :
    session.Moves (session.step (.wrap label name remote context)).1 (fun _ => 0)
      ((session.wraps (.wrap label name remote context)).toNat) := by
  simp only [step, Session.onRemote, wraps]
  cases found : session.remotes.lookup remote with
  | none => exact sound.rest
  | some id =>
    exact sound.afterMaking label false
      (World.attempted_wrap name (sound.knows_remote found) (contextOr context))

/-- A query consults the registry once if the capability is granted, else not at all. -/
theorem Sound.query (sound : session.Sound) (label wrapper : String) (root : ScopedName)
    (capability : String) :
    session.Moves (session.step (.query label wrapper root capability)).1 (fun _ => 0)
      (0 + (session.asksGranted (.query label wrapper root capability)).toNat) := by
  simp only [step, Session.onWrapper, asksGranted]
  cases found : session.wrappers.lookup wrapper with
  | none => exact sound.rest
  | some held =>
    rw [Nat.zero_add]
    exact sound.afterMaking label false
      (World.attempted_query sound.grants held.wrapper root capability)

/-- **What a command does to the references** that no wrapper holds. -/
theorem moves_step (sound : session.Sound) (command : Command) :
    session.Moves (session.step command).1 (session.given command)
      ((session.wraps command).toNat + (session.asksGranted command).toNat) := by
  cases command with
  | addRemote label repositoryId interfaces refuses fails => exact sound.addRemote label rfl rfl
  | setFailures label refuses fails =>
    exact sound.onRemote label fun id _ =>
      sound.modifyRemote id (fun _ => rfl) fun remote here => sound.grants id remote here
  | grant label capability granted =>
    refine sound.onRemote label fun id _ => sound.onRemote granted fun target found => ?_
    refine sound.modifyRemote id (fun _ => rfl) fun remote here => ?_
    rw [List.forall_mem_cons]
    exact ⟨sound.knows_remote found, sound.grants id remote here⟩
  | releaseRemote label => exact sound.releaseRemote label
  | addFactory label interface closure =>
    exact ⟨{ sound with }, fun _ => (Int.add_zero _).symm, rfl⟩
  | register label => exact sound.onFactory label fun _ => sound.withWorld (.of_remotes_eq rfl rfl)
  | registerDocument document =>
    simp only [step]
    cases DeclTree.ofDocument document with
    | error error => exact sound.rest
    | ok tree => exact sound.withWorld (settles_registerTree session.world tree)
  | unregister name => exact sound.withWorld (.of_remotes_eq rfl rfl)
  | lookup name => exact sound.rest
  | make label factory remote context =>
    refine sound.onFactory factory fun factoryId => sound.onRemote remote fun id found => ?_
    exact sound.afterMaking label false
      (World.attempted_make factoryId (sound.knows_remote found) (contextOr context))
  | wrap label name remote context => exact sound.wrap label name remote context
  | new label remote interface closure context =>
    exact sound.new label remote interface closure context
  | addRef label => exact sound.onWrapper label fun held found => sound.replace found rfl
  | dropRef label => exact sound.onWrapper label fun held found => sound.replace found rfl
  | release label => exact sound.release label
  | drop label => exact sound.onWrapper label fun _ _ => (sound.dropLabel label).1
  | downcast label interface => exact sound.onWrapper label fun _ _ => sound.rest
  | unwrap label interface => exact sound.unwrap label interface
  | query label wrapper root capability => exact sound.query label wrapper root capability
  | showWrapper label => exact sound.onWrapper label fun _ _ => sound.rest
  | showRegistry => exact sound.rest

end Session

/-! ## Runs -/

/-- All that an object is free to do: everything but the count of its references. -/
structure Behaviour where
  interfaces : List ScopedName
  grants : List (String × RemoteId)
  refusesReferences : Bool
  failsReleases : Bool

/-- The object behaves in a new way from now on. It grants only what exists. -/
def Behaviour.change (behaviour : Behaviour) (world : World) (remote : Remote) : Remote :=
  { remote with
    interfaces := behaviour.interfaces
    grants := behaviour.grants.filter fun grant => decide (grant.2 < world.remotes.size)
    refusesReferences := behaviour.refusesReferences
    failsReleases := behaviour.failsReleases }

/-- In a run, commands are carried out and objects turn to other ways. -/
inductive Move
  | act (command : Command)
  | turn (id : RemoteId) (behaviour : Behaviour)

/-- What was counted in a run. -/
structure Ledger where
  /-- The references that callers were given and have not returned. -/
  unreturned : RemoteId → Int
  /-- The objects that were to be wrapped through the registry. -/
  wraps : Nat
  /-- The queries that were granted. -/
  granted : Nat

/-- Nothing has been counted. -/
def Ledger.empty : Ledger := ⟨fun _ => 0, 0, 0⟩

namespace Session

/-- The session after a move. -/
def play (session : Session) : Move → Session
  | .act command => (session.step command).1
  | .turn id behaviour =>
    session.withWorld (session.world.modifyRemote id (behaviour.change session.world))

/-- Counts a move that the session is about to make. -/
def count (session : Session) (ledger : Ledger) : Move → Ledger
  | .act command =>
    { unreturned := fun id => ledger.unreturned id + session.given command id
      wraps := ledger.wraps + (session.wraps command).toNat
      granted := ledger.granted + (session.asksGranted command).toNat }
  | .turn _ _ => ledger

/-- Makes moves one after the other and counts them. -/
def run (session : Session) (ledger : Ledger) : List Move → Session × Ledger
  | [] => (session, ledger)
  | move :: moves => (session.play move).run (session.count ledger move) moves

variable {session : Session}

/-- A move changes the references as it is counted. -/
theorem moves_play (sound : session.Sound) (ledger : Ledger) (move : Move) :
    session.Moves (session.play move)
      (fun id => (session.count ledger move).unreturned id - ledger.unreturned id)
      ((session.count ledger move).wraps + (session.count ledger move).granted -
        (ledger.wraps + ledger.granted)) := by
  cases move with
  | act command =>
    refine (moves_step sound command).congr (fun id => ?_) ?_
    · show _ = ledger.unreturned id + session.given command id - ledger.unreturned id
      omega
    · show _ = ledger.wraps + (session.wraps command).toNat +
        (ledger.granted + (session.asksGranted command).toNat) - (ledger.wraps + ledger.granted)
      omega
  | turn id behaviour =>
    have turned : session.Moves (session.play (.turn id behaviour)) (fun _ => 0) 0 := by
      refine sound.modifyRemote id (fun _ => rfl) fun remote _ grant listed => ?_
      have existing : grant.2 < session.world.remotes.size :=
        of_decide_eq_true (List.mem_filter.mp listed).2
      exact existing
    refine turned.congr (fun id => ?_) (Nat.sub_self _).symm
    exact (Int.sub_self _).symm

/-- Counts grow. -/
theorem le_count (session : Session) (ledger : Ledger) (move : Move) :
    ledger.wraps + ledger.granted ≤
      (session.count ledger move).wraps + (session.count ledger move).granted := by
  cases move with
  | act command =>
    exact Nat.add_le_add (Nat.le_add_right _ _) (Nat.le_add_right _ _)
  | turn id behaviour => exact Nat.le_refl _

/-- What a run does to the references that no wrapper holds and to the registry is what was
counted. The induction carries the ledger along, since it starts with any. -/
theorem run_settles (sound : session.Sound) (ledger : Ledger) (moves : List Move) :
    (∀ id, (session.run ledger moves).1.world.refs id - (session.run ledger moves).1.holders id -
        (session.run ledger moves).2.unreturned id =
      session.world.refs id - session.holders id - ledger.unreturned id) ∧
    (session.run ledger moves).1.world.registry.lookups + (ledger.wraps + ledger.granted) =
      session.world.registry.lookups +
        ((session.run ledger moves).2.wraps + (session.run ledger moves).2.granted) := by
  induction moves generalizing session ledger with
  | nil => exact ⟨fun _ => rfl, rfl⟩
  | cons move moves ih =>
    have moved := moves_play sound ledger move
    obtain ⟨refs, lookups⟩ := ih moved.sound (session.count ledger move)
    have grown := le_count session ledger move
    refine ⟨fun id => ?_, ?_⟩
    · have changed := moved.refs id
      have later := refs id
      simp only [run]
      omega
    · have looked := moved.lookups
      simp only [run]
      omega

/-- **References are conserved.** In a session that starts without wrappers, however many moves are
made and whatever becomes of each, the count of an object is its initial count together with one for
each wrapper that holds it and one for each reference that a caller was given and has not returned.
The registry was consulted once for each wrapping and each granted query. -/
theorem references_conserved {start : Session} (sound : start.Sound)
    (unheld : start.wrappers = []) (moves : List Move) :
    (∀ id, (start.run .empty moves).1.world.refs id =
      start.world.refs id + (start.run .empty moves).1.holders id +
        (start.run .empty moves).2.unreturned id) ∧
    (start.run .empty moves).1.world.registry.lookups = start.world.registry.lookups +
      (start.run .empty moves).2.wraps + (start.run .empty moves).2.granted := by
  obtain ⟨refs, lookups⟩ := run_settles sound .empty moves
  have free : ∀ id, start.holders id = 0 := fun id => by simp [holders, unheld]
  refine ⟨fun id => ?_, ?_⟩
  · have settled := refs id
    rw [free, show Ledger.empty.unreturned id = 0 from rfl] at settled
    omega
  · rw [show Ledger.empty.wraps + Ledger.empty.granted = 0 from rfl] at lookups
    omega

/-- An object of which others hold five references and that grants itself. -/
def selfGranting : Session where
  world :=
    ⟨#[⟨"IDL:m/Hook:1.0", [⟨["m", "Hook"]⟩], [("m::Hook", 0)], 5, false, false⟩], #[], .empty⟩
  remotes := [("hook", 0)]
  factories := []
  wrappers := []

/-- It is wrapped and asked for itself, and two references are taken from the wrappers; then it turns
to refuse references, so that a further query fails half way, and to report an error when one is
returned. -/
def selfGrantingMoves : List Move :=
  [.act (.addFactory "factory" ⟨["m", "Hook"]⟩ []), .act (.register "factory"),
   .act (.wrap "first" "m::Hook" "hook" none),
   .act (.query "second" "first" ⟨["m", "Hook"]⟩ "m::Hook"),
   .act (.query "third" "first" ⟨["m", "Hook"]⟩ "m::Missing"),
   .act (.unwrap "second" ⟨["m", "Hook"]⟩), .act (.unwrap "first" ⟨["m", "Hook"]⟩),
   .turn 0 ⟨[⟨["m", "Hook"]⟩], [("m::Hook", 0)], true, true⟩,
   .act (.query "third" "first" ⟨["m", "Hook"]⟩ "m::Hook"),
   .act (.releaseRemote "hook"), .act (.release "first")]

/-- One wrapper and one caller are left. -/
theorem selfGranting_counted :
    selfGranting.Sound ∧ (selfGranting.run .empty selfGrantingMoves).1.world.refs 0 = 5 + 1 + 1 ∧
      (selfGranting.run .empty selfGrantingMoves).1.world.registry.lookups = 0 + 1 + 2 := by
  have sound : selfGranting.Sound := by
    refine ⟨List.nodup_nil, ?_, nofun, ?_⟩
    · intro entry listed
      cases List.mem_singleton.mp listed
      exact Nat.zero_lt_one
    · intro id remote found grant listed
      obtain ⟨known, rfl⟩ := Array.getElem?_eq_some_iff.mp found
      cases Nat.lt_one_iff.mp known
      cases List.mem_singleton.mp listed
      exact Nat.zero_lt_one
  obtain ⟨refs, lookups⟩ := references_conserved sound rfl selfGrantingMoves
  refine ⟨sound, ?_, ?_⟩
  · have wrappers : (selfGranting.run .empty selfGrantingMoves).1.holders 0 = 1 := by decide +kernel
    have unreturned : (selfGranting.run .empty selfGrantingMoves).2.unreturned 0 = 1 := by
      decide +kernel
    rw [refs, wrappers, unreturned]
    rfl
  · have wraps : (selfGranting.run .empty selfGrantingMoves).2.wraps = 1 := by decide +kernel
    have granted : (selfGranting.run .empty selfGrantingMoves).2.granted = 2 := by decide +kernel
    rw [lookups, wraps, granted]
    rfl

end Session

end IdlBridge.Live
