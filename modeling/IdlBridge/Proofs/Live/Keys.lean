import IdlBridge.Proofs.Live.Wrapping
import IdlBridge.Proofs.Text.Spellings

/-!
# Keys of the registry

A factory is registered under the text of its interface's name. Every operation of a world leaves
the factories that were there with their interfaces, and if each registered factory stands under the
text of its interface, this remains so (`World.Keeps`). Hence, in whatever way a session goes on, a
factory that is found under a key has an interface that is written as the key
(`Session.Keyed.run`). Names can be read back from their texts, so a key tells the interface, and
registering a factory leaves those of all other interfaces as they are (`spelled_names_identify`).
-/

set_option autoImplicit false

namespace IdlBridge.Live

/-! ## Worlds -/

namespace World

variable {world before middle after : World} {id : FactoryId} {interface : ScopedName}

/-- The interface of a factory. -/
def interface? (world : World) (id : FactoryId) : Option ScopedName :=
  (world.factories[id]?).map Factory.interface

/-- What is registered are factories, and each stands under the text of its interface. -/
def Keyed (world : World) : Prop :=
  ∀ entry ∈ world.registry.entries,
    ∃ interface, world.interface? entry.2 = some interface ∧ interface.text = entry.1

theorem Keyed.of_find? (keyed : world.Keyed) {key : String}
    (found : world.registry.find? key = some id) :
    ∃ interface, world.interface? id = some interface ∧ interface.text = key :=
  keyed (key, id) (Labels.mem_of_lookup found)

/-- Factories keep their interfaces from the first world to the second, and keys remain right. -/
structure Keeps (before after : World) : Prop where
  known : ∀ id interface, before.interface? id = some interface →
    after.interface? id = some interface
  keyed : before.Keyed → after.Keyed

theorem Keeps.trans (first : before.Keeps middle) (second : middle.Keeps after) :
    before.Keeps after where
  known id interface here := second.known id interface (first.known id interface here)
  keyed here := second.keyed (first.keyed here)

/-- Operations that leave the registry and the interfaces of the factories alone. -/
theorem Keeps.of_eq (entries : after.registry.entries = before.registry.entries)
    (interfaces : ∀ id, after.interface? id = before.interface? id) : before.Keeps after where
  known id interface here := (interfaces id).trans here
  keyed keyed := by
    intro entry listed
    rw [interfaces]
    exact keyed entry (entries ▸ listed)

/-- Operations that change nothing but the objects. -/
theorem Keeps.of_remotes (world : World) (remotes : Array Remote) :
    world.Keeps { world with remotes } :=
  .of_eq rfl fun _ => rfl

theorem Keeps.refl (world : World) : world.Keeps world :=
  .of_remotes world world.remotes

/-! ### Wrapping -/

theorem keeps_addRef (world : World) (remote : RemoteId) :
    world.Keeps (world.addRef remote).1 := by
  rw [addRef]
  split
  · exact .refl world
  · split
    · exact .of_remotes world _
    · exact .refl world

theorem keeps_makeWrapper (world : World) (interface : ScopedName) (closure : List ScopedName)
    (remote : RemoteId) (context : String) :
    world.Keeps (world.makeWrapper interface closure remote context).1 := by
  have counted := world.keeps_addRef remote
  rw [makeWrapper]
  split
  · rename_i after taken
    rwa [taken] at counted
  · rename_i after exception refused
    rwa [refused] at counted

/-- A factory that counts a wrapper remains the factory of its interface. -/
theorem keeps_countMade (world : World) (factory : FactoryId) :
    world.Keeps { world with
      factories := world.factories.modify factory fun maker =>
        { maker with made := maker.made + 1 } } := by
  refine .of_eq rfl fun id => ?_
  simp only [interface?, Array.getElem?_modify]
  split
  · rw [Option.map_map]
    rfl
  · rfl

theorem keeps_make (world : World) (factory : FactoryId) (remote : RemoteId) (context : String) :
    world.Keeps (world.make factory remote context).1 := by
  rw [make]
  split
  · rename_i maker object _ _
    split
    · have wrapped := world.keeps_makeWrapper maker.interface maker.closure remote context
      split
      · rename_i after wrapper made
        rw [made] at wrapped
        exact wrapped.trans (keeps_countMade after factory)
      · rename_i after exception refused
        rwa [refused] at wrapped
    · exact .refl world
  · exact .refl world

theorem keeps_wrap (world : World) (name : String) (remote : RemoteId) (context : String) :
    world.Keeps (world.wrap name remote context).1 := by
  have counted : world.Keeps { world with registry := world.registry.countLookup } :=
    .of_eq rfl fun _ => rfl
  rw [wrap]
  dsimp only
  split
  · exact counted.trans (keeps_make _ _ remote context)
  · exact counted

theorem keeps_query (world : World) (wrapper : Wrapper) (root : ScopedName) (capability : String) :
    world.Keeps (world.query wrapper root capability).1 := by
  rw [query]
  split
  · exact .refl world
  · rename_i after granted grant
    obtain ⟨remote, -, granting⟩ := Option.bind_eq_some_iff.mp grant
    obtain ⟨target, -, same⟩ := Option.map_eq_some_iff.mp granting
    cases same
    have carried := Keeps.of_remotes world (world.remotes.modify granted fun object =>
      { object with refs := object.refs + 1 })
    exact (carried.trans (keeps_wrap _ capability granted wrapper.context)).trans (.of_remotes _ _)

theorem keeps_unwrap (world : World) (wrapper : Wrapper) (interface : ScopedName) :
    world.Keeps (world.unwrap wrapper interface).1 := by
  rw [unwrap]
  split
  · exact .refl world
  · rename_i remote _
    have counted := world.keeps_addRef remote
    split
    · rename_i after taken
      rwa [taken] at counted
    · rename_i after exception refused
      rwa [refused] at counted

/-! ### Registering -/

/-- A new factory comes after all others. -/
theorem interface?_addFactory (world : World) (factory : Factory) (id : FactoryId) :
    (world.addFactory factory).1.interface? id =
      if id = world.factories.size then some factory.interface else world.interface? id := by
  simp only [interface?, addFactory, Array.getElem?_push]
  split <;> rfl

theorem keeps_addFactory (world : World) (factory : Factory) :
    world.Keeps (world.addFactory factory).1 := by
  have known : ∀ id interface, world.interface? id = some interface →
      (world.addFactory factory).1.interface? id = some interface := by
    intro id interface here
    have older : id ≠ world.factories.size := by
      rintro rfl
      simp [interface?] at here
    rw [interface?_addFactory, if_neg older, here]
  refine ⟨known, fun keyed entry listed => ?_⟩
  obtain ⟨interface, here, own⟩ := keyed entry listed
  exact ⟨interface, known entry.2 interface here, own⟩

theorem factoryName_of_interface? (known : world.interface? id = some interface) :
    world.factoryName id = interface.text := by
  obtain ⟨factory, found, rfl⟩ := Option.map_eq_some_iff.mp known
  rw [factoryName, found]
  rfl

/-- A factory is registered under the text of its interface. -/
theorem keeps_register (known : world.interface? id = some interface) :
    world.Keeps (world.register id).1 where
  known _ _ here := here
  keyed keyed :=
    Labels.forall_mem_give keyed ⟨interface, known, (factoryName_of_interface? known).symm⟩

theorem keeps_unregister (world : World) (name : String) :
    world.Keeps (world.unregister name).1 where
  known _ _ here := here
  keyed keyed := fun entry listed => keyed entry (List.mem_of_mem_filter listed)

theorem keeps_registerNew (world : World) (factory : Factory) :
    world.Keeps (world.registerNew factory) := by
  have own : (world.addFactory factory).1.interface? world.factories.size =
      some factory.interface := by
    rw [interface?_addFactory, if_pos rfl]
  exact (world.keeps_addFactory factory).trans (keeps_register own)

theorem keeps_registerTree (world : World) (tree : DeclTree) :
    world.Keeps (world.registerTree tree).1 := by
  rw [registerTree]
  generalize tree.localInterfaces = interfaces
  induction interfaces generalizing world with
  | nil => exact .refl world
  | cons id interfaces ih => exact (world.keeps_registerNew _).trans (ih _)

/-- **Registering a factory touches its own interface only**, among proper names. -/
theorem find?_register (known : world.interface? id = some interface) (proper : interface.Proper)
    {name : ScopedName} (nameProper : name.Proper) :
    (world.register id).1.registry.find? name.text =
      if name = interface then some id else world.registry.find? name.text := by
  have inserted := Registry.find?_insert world.registry (world.factoryName id) name.text id
  rw [factoryName_of_interface? known] at inserted
  simp only [nameProper.text_inj proper] at inserted
  rw [← inserted, register, factoryName_of_interface? known]

end World

/-! ## Sessions -/

namespace Session

/-- Labels lead to factories, and keys are right. -/
structure Keyed (session : Session) : Prop where
  world : session.world.Keyed
  labels : ∀ entry ∈ session.factories,
    ∃ interface, session.world.interface? entry.2 = some interface

theorem keyed_empty : Session.empty.Keyed :=
  ⟨List.forall_mem_nil _, List.forall_mem_nil _⟩

namespace Keyed

variable {session : Session}

/-- Keys remain right when factories are neither given nor taken labels. -/
theorem of_keeps (keyed : session.Keyed) {next : Session}
    (keeps : session.world.Keeps next.world) (same : next.factories = session.factories) :
    next.Keyed where
  world := keeps.keyed keyed.world
  labels entry listed := by
    obtain ⟨interface, known⟩ := keyed.labels entry (same ▸ listed)
    exact ⟨interface, keeps.known entry.2 interface known⟩

theorem dropLabel (keyed : session.Keyed) (label : String) : (session.dropLabel label).Keyed := by
  rw [Session.dropLabel]
  split
  · exact keyed.of_keeps (.of_remotes _ _) rfl
  · exact keyed

theorem store (keyed : session.Keyed) (label : String) (held : Held) :
    (session.store label held).Keyed :=
  (keyed.dropLabel label).of_keeps (.refl _) rfl

theorem afterMaking (keyed : session.Keyed) (label : String) (concrete : Bool)
    {attempt : World × Except AdapterException (Option Wrapper)}
    (keeps : session.world.Keeps attempt.1) :
    (session.afterMaking label concrete attempt).1.Keyed := by
  have moved : (session.withWorld attempt.1).Keyed := keyed.of_keeps keeps rfl
  rw [Session.afterMaking]
  split
  · exact moved.store label _
  · exact moved
  · exact moved

theorem onRemote (keyed : session.Keyed) (label : String) {act : RemoteId → Session × Reply}
    (acts : ∀ id, (act id).1.Keyed) : (session.onRemote label act).1.Keyed := by
  rw [Session.onRemote]
  split
  · exact acts _
  · exact keyed

theorem onFactory (keyed : session.Keyed) (label : String) {act : FactoryId → Session × Reply}
    (acts : ∀ id interface, session.world.interface? id = some interface → (act id).1.Keyed) :
    (session.onFactory label act).1.Keyed := by
  rw [Session.onFactory]
  split
  · rename_i id found
    obtain ⟨interface, known⟩ := keyed.labels (label, id) (Labels.mem_of_lookup found)
    exact acts id interface known
  · exact keyed

theorem onWrapper (keyed : session.Keyed) (label : String) {act : Held → Session × Reply}
    (acts : ∀ held, (act held).1.Keyed) : (session.onWrapper label act).1.Keyed := by
  rw [Session.onWrapper]
  split
  · exact acts _
  · exact keyed

/-- A new factory gets a label. -/
theorem addFactory (keyed : session.Keyed) (label : String) (interface : ScopedName)
    (closure : List ScopedName) : (session.step (.addFactory label interface closure)).1.Keyed := by
  have keeps := session.world.keeps_addFactory (.new interface closure)
  refine ⟨keeps.keyed keyed.world, Labels.forall_mem_give (fun entry listed => ?_) ⟨interface, ?_⟩⟩
  · obtain ⟨interface, known⟩ := keyed.labels entry listed
    exact ⟨interface, keeps.known entry.2 interface known⟩
  · exact (World.interface?_addFactory ..).trans (if_pos rfl)

theorem releaseRemote (keyed : session.Keyed) (label : String) :
    (session.step (.releaseRemote label)).1.Keyed := by
  refine keyed.onRemote label fun id => ?_
  simp only [World.releaseReporting]
  cases (session.world.remotes[id]?).bind Remote.releaseError? with
  | none => exact keyed.of_keeps (.of_remotes _ _) rfl
  | some exception => exact keyed.of_keeps (.of_remotes _ _) rfl

theorem release (keyed : session.Keyed) (label : String) :
    (session.step (.release label)).1.Keyed := by
  refine keyed.onWrapper label fun held => ?_
  simp only [World.releaseWrapper]
  cases held.wrapper.dropRef.isUnused with
  | true => exact keyed.of_keeps (.of_remotes _ _) rfl
  | false => exact keyed.of_keeps (.refl _) rfl

theorem unwrap (keyed : session.Keyed) (label : String) (interface : ScopedName) :
    (session.step (.unwrap label interface)).1.Keyed := by
  refine keyed.onWrapper label fun held => ?_
  have keeps := session.world.keeps_unwrap held.wrapper interface
  split
  · rename_i world found unwrapped
    rw [unwrapped] at keeps
    exact keyed.of_keeps keeps rfl
  · rename_i world exception refused
    rw [refused] at keeps
    exact keyed.of_keeps keeps rfl

/-- **Keys remain right** whatever command is carried out. -/
theorem step (keyed : session.Keyed) (command : Command) : (session.step command).1.Keyed := by
  cases command with
  | addRemote label repositoryId interfaces refuses fails =>
    exact keyed.of_keeps (.of_remotes _ _) rfl
  | setFailures label refuses fails =>
    exact keyed.onRemote label fun id => keyed.of_keeps (.of_remotes _ _) rfl
  | grant label capability granted =>
    exact keyed.onRemote label fun id => keyed.onRemote granted fun target =>
      keyed.of_keeps (.of_remotes _ _) rfl
  | releaseRemote label => exact keyed.releaseRemote label
  | addFactory label interface closure => exact keyed.addFactory label interface closure
  | register label =>
    exact keyed.onFactory label fun id interface known =>
      keyed.of_keeps (World.keeps_register known) rfl
  | registerDocument document =>
    simp only [Session.step]
    cases DeclTree.ofDocument document with
    | error error => exact keyed
    | ok tree => exact keyed.of_keeps (World.keeps_registerTree _ tree) rfl
  | unregister name => exact keyed.of_keeps (World.keeps_unregister _ name) rfl
  | lookup name => exact keyed
  | make label factory remote context =>
    exact keyed.onFactory factory fun factoryId _ _ => keyed.onRemote remote fun id =>
      keyed.afterMaking label false (World.keeps_make ..)
  | wrap label name remote context =>
    exact keyed.onRemote remote fun id => keyed.afterMaking label false (World.keeps_wrap ..)
  | new label remote interface closure context =>
    exact keyed.onRemote remote fun id =>
      keyed.afterMaking label true (World.keeps_makeWrapper session.world interface closure id _)
  | addRef label => exact keyed.onWrapper label fun held => keyed.of_keeps (.refl _) rfl
  | dropRef label => exact keyed.onWrapper label fun held => keyed.of_keeps (.refl _) rfl
  | release label => exact keyed.release label
  | drop label => exact keyed.onWrapper label fun held => keyed.dropLabel label
  | downcast label interface => exact keyed.onWrapper label fun held => keyed
  | unwrap label interface => exact keyed.unwrap label interface
  | query label wrapper root capability =>
    exact keyed.onWrapper wrapper fun held => keyed.afterMaking label false (World.keeps_query ..)
  | showWrapper label => exact keyed.onWrapper label fun held => keyed
  | showRegistry => exact keyed

theorem play (keyed : session.Keyed) (move : Move) : (session.play move).Keyed := by
  cases move with
  | act command => exact keyed.step command
  | turn id behaviour => exact keyed.of_keeps (.of_remotes _ _) rfl

/-- **Keys are right after every run.** -/
theorem run (keyed : session.Keyed) (ledger : Ledger) (moves : List Move) :
    (session.run ledger moves).1.Keyed := by
  induction moves generalizing session ledger with
  | nil => exact keyed
  | cons move moves ih => exact ih (keyed.play move) _

end Keyed

end Session

/-! ## Keys and names -/

/-- **Spelled names identify interfaces.** A name whose components are not empty, have no colon and
neither start nor end with a blank is read back from each of its spellings, whatever blanks stand
around the components and whether or not there is a leading mark. In particular it is read back from
its text, and two such names with the same text are equal.

So, whatever moves were made in a session, what is found under a key is a factory, the key is the
text of its interface, and no other such name has that text. Registering a factory changes what is
found under the text of its own interface and of no other. A pragma marks the base that is spelled
in it and no other. -/
theorem spelled_names_identify :
    (∀ spelling : ScopedName.Spelling, .ofText spelling.text = spelling.name) ∧
    (∀ name : ScopedName, name.Proper → .ofText name.text = name) ∧
    (∀ first second : ScopedName, first.Proper → second.Proper → first.text = second.text →
      first = second) ∧
    (∀ start : Session, start.Keyed → ∀ moves : List Move,
      let world := (start.run .empty moves).1.world
      (∀ key id, world.registry.find? key = some id →
        ∃ interface, world.interface? id = some interface ∧ interface.text = key ∧
          (interface.Proper → .ofText key = interface ∧
            ∀ name : ScopedName, name.Proper → name.text = key → name = interface)) ∧
      ∀ id interface, world.interface? id = some interface → interface.Proper →
        ∀ name : ScopedName, name.Proper →
          (world.register id).1.registry.find? name.text =
            if name = interface then some id else world.registry.find? name.text) ∧
    ∀ (spelling : ScopedName.Spelling) (before after : String),
      Text.AllBlank before → Text.AllBlank after →
      ∀ base, (Pragma.ofText (before ++ ("ambiguous-inheritance(" ++ spelling.text ++ ")") ++
        after)).marksAmbiguous base = true ↔ base = spelling.name := by
  refine ⟨ScopedName.Spelling.ofText_text, fun _ => ScopedName.Proper.ofText_text,
    fun _ _ firstProper secondProper => (firstProper.text_inj secondProper).mp, ?_, ?_⟩
  · intro start keyed moves world
    have right : world.Keyed := (keyed.run .empty moves).world
    refine ⟨fun key id found => ?_, fun id interface known proper name nameProper =>
      World.find?_register known proper nameProper⟩
    obtain ⟨interface, known, rfl⟩ := right.of_find? found
    exact ⟨interface, known, rfl, fun proper => ⟨proper.ofText_text,
      fun name nameProper => (nameProper.text_inj proper).mp⟩⟩
  · intro spelling before after blankBefore blankAfter base
    rw [Pragma.ofText_ambiguous blankBefore blankAfter, Pragma.marksAmbiguous, beq_iff_eq, eq_comm]

/-- A name of two components, one of them with a blank inside, that is spelled with all sorts of
blanks and a leading mark. -/
def spacedSpelling : ScopedName.Spelling where
  lead? := some ⟨" \u3000", by decide⟩
  parts :=
    [⟨"\t", "dom", " ", by decide, by decide, by decide⟩,
     ⟨"\u00a0", "Node List", "\n", by decide, by decide, by decide⟩]

/-- Two interfaces, of which the first has the spelled name, are registered. -/
def spacedMoves : List Move :=
  [.act (.addFactory "list" ⟨["dom", "Node List"]⟩ []),
   .act (.addFactory "node" ⟨["dom", "Node"]⟩ []), .act (.register "list"), .act (.register "node")]

theorem spacedSpelling_identified :
    spacedSpelling.text = " \u3000::\tdom ::\u00a0Node List\n" ∧
      .ofText " \u3000::\tdom ::\u00a0Node List\n" = ScopedName.mk ["dom", "Node List"] ∧
      .ofText "dom::Node List" = ScopedName.mk ["dom", "Node List"] ∧
      (let world := (Session.empty.run .empty spacedMoves).1.world
      world.registry.find? "dom::Node List" = some 0 ∧
        world.interface? 0 = some ⟨["dom", "Node List"]⟩ ∧
        (∀ name : ScopedName, name.Proper → name.text = "dom::Node List" →
          name = ⟨["dom", "Node List"]⟩) ∧
        (world.register 1).1.registry.find? "dom::Node List" = some 0) ∧
      (Pragma.ofText " ambiguous-inheritance( \u3000::\tdom ::\u00a0Node List\n)").marksAmbiguous
        ⟨["dom", "Node List"]⟩ = true := by
  obtain ⟨spelled, readBack, -, keys, marks⟩ := spelled_names_identify
  have spelling : spacedSpelling.text = " \u3000::\tdom ::\u00a0Node List\n" := by decide
  have list : (ScopedName.mk ["dom", "Node List"]).Proper := by decide
  have node : (ScopedName.mk ["dom", "Node"]).Proper := by decide
  have written : (ScopedName.mk ["dom", "Node List"]).text = "dom::Node List" := by decide
  obtain ⟨found, registered⟩ := keys Session.empty Session.keyed_empty spacedMoves
  have here : (Session.empty.run .empty spacedMoves).1.world.registry.find? "dom::Node List" =
      some 0 := by
    with_unfolding_all decide
  have first : (Session.empty.run .empty spacedMoves).1.world.interface? 0 =
      some ⟨["dom", "Node List"]⟩ := by
    with_unfolding_all decide
  have second : (Session.empty.run .empty spacedMoves).1.world.interface? 1 =
      some ⟨["dom", "Node"]⟩ := by
    with_unfolding_all decide
  refine ⟨spelling, spelling ▸ spelled spacedSpelling, written ▸ readBack _ list,
    ⟨here, first, ?_, ?_⟩, ?_⟩
  · obtain ⟨interface, known, -, only⟩ := found "dom::Node List" 0 here
    cases known.symm.trans first
    exact (only list).2
  · have kept := registered 1 _ second node _ list
    rw [written, here, if_neg (by decide)] at kept
    exact kept
  · have marked := marks spacedSpelling " " "" (by decide) (by decide) ⟨["dom", "Node List"]⟩
    rw [spelling] at marked
    exact marked.mpr rfl

end IdlBridge.Live
