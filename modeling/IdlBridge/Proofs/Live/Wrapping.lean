import IdlBridge.DeclTree.Draft
import IdlBridge.Proofs.DeclTree.Linearization
import IdlBridge.Proofs.Live.Conservation
import IdlBridge.Proofs.Live.Factories

/-!
# Wrappers of registered interfaces

Registration adds one factory after another. If no two interfaces are spelled alike, no factory
replaces another, and in the end the registry has the factories of the main file's interfaces and no
others (`World.Serves`, `World.serves_registerTree`). A factory passes the closure of its interface
on to its wrappers, and the closure has the names that can be reached along resolved bases
(`DeclTree.mem_closure_iff`). So a wrapper gives access to its object under exactly these names.
-/

set_option autoImplicit false

namespace IdlBridge

/-! ## Interfaces and their names -/

namespace DeclTree

variable {tree : DeclTree}

/-- The spelled names of all interfaces, in the order of declaration. -/
def interfaceTexts (tree : DeclTree) : List String :=
  (tree.ids.filter tree.isInterface).map fun id => (tree.scopedName id).text

/-- How many interfaces the main file declares. -/
def localInterfaceCount (tree : DeclTree) : Nat :=
  tree.decls.toList.countP fun decl => decl.interface?.isSome && decl.file == tree.file

/-- The name is that of the interface or of one that it derives from. -/
def AnswersTo (tree : DeclTree) (id : DeclId) (name : ScopedName) : Prop :=
  ∃ base, Relation.ReflTransGen (fun derived base => base ∈ tree.resolvedBases derived) id base ∧
    tree.scopedName base = name

theorem length_localInterfaces (tree : DeclTree) :
    tree.localInterfaces.length = tree.localInterfaceCount := by
  let wanted : Decl → Bool := fun decl => decl.interface?.isSome && decl.file == tree.file
  have numbered : tree.ids.map tree.decl? = tree.decls.toList.map some := by
    refine List.ext_getElem (by simp [ids, size]) fun place inIds inDecls => ?_
    have bound : place < tree.decls.size := by simpa using inDecls
    simp [ids, decl?, bound]
  have selected : (fun id => tree.isInterface id && tree.isLocal id) =
      (Option.any wanted) ∘ tree.decl? := by
    funext id
    simp only [isInterface, interface?, isLocal, Function.comp_apply]
    cases tree.decl? id <;> rfl
  calc tree.localInterfaces.length
      = tree.ids.countP ((Option.any wanted) ∘ tree.decl?) := by
        rw [localInterfaces, ← List.countP_eq_length_filter, selected]
    _ = (tree.decls.toList.map some).countP (Option.any wanted) := by
        rw [← numbered, List.countP_map]
    _ = tree.localInterfaceCount := List.countP_map

/-- Of interfaces that are spelled differently, those of the main file are. -/
theorem nodup_localTexts (distinct : tree.interfaceTexts.Nodup) :
    (tree.localInterfaces.map fun id => (tree.scopedName id).text).Nodup := by
  refine distinct.sublist (List.Sublist.map _ ?_)
  rw [localInterfaces, ← List.filter_filter]
  exact List.filter_sublist.filter _

/-- The closure of an interface has the names that can be reached along resolved bases. -/
theorem mem_closure_iff {id : DeclId} (isInterface : tree.isInterface id = true)
    {name : ScopedName} : name ∈ tree.closure id ↔ tree.AnswersTo id name := by
  have same : tree.HasBase .root = fun derived base => base ∈ tree.resolvedBases derived := by
    funext derived base
    exact propext hasBase_iff
  simp only [closure, List.mem_map, AnswersTo, ← same,
    mem_linearize_iff (resolve?_of_isInterface isInterface) .root]

end DeclTree

namespace Live

/-! ## Registered factories -/

/-- Erasing a label leaves what the others stand for. -/
theorem Labels.lookup_erase_of_ne {α : Type} {label other : String} (differs : other ≠ label)
    (labels : Labels α) : (labels.erase label).lookup other = labels.lookup other := by
  induction labels with
  | nil => rfl
  | cons entry labels ih =>
    obtain ⟨own, value⟩ := entry
    rw [erase, List.filter_cons]
    by_cases same : own = label
    · have skipped : (other == own) = false := by simpa [same] using differs
      rw [if_neg (by simp [same]), List.lookup_cons, skipped]
      exact ih
    · rw [if_pos (by simpa using same), List.lookup_cons, List.lookup_cons]
      cases other == own with
      | true => rfl
      | false => exact ih

theorem Registry.find?_insert (registry : Registry) (added name : String) (factory : FactoryId) :
    (registry.insert added factory).find? name =
      if name = added then some factory else registry.find? name := by
  rw [find?, insert, List.lookup_cons]
  split
  · rename_i same
    rw [if_pos (eq_of_beq same)]
  · rename_i differs
    rw [if_neg (ne_of_beq_false differs)]
    exact Labels.lookup_erase_of_ne (ne_of_beq_false differs) registry.entries

theorem Registry.size_insert {registry : Registry} {added : String}
    (unknown : registry.find? added = none) (factory : FactoryId) :
    (registry.insert added factory).size = registry.size + 1 := by
  have kept : (registry.erase added).entries = registry.entries :=
    Labels.erase_of_lookup_none unknown
  rw [size, insert, List.length_cons, kept]
  rfl

namespace World

variable {world : World} {tree : DeclTree}

/-- The registry has the factories of the given interfaces and no others. -/
structure Serves (world : World) (tree : DeclTree) (ids : List DeclId) : Prop where
  size : world.registry.size = ids.length
  found : ∀ id ∈ ids, ∃ factory,
    world.registry.find? (tree.scopedName id).text = some factory ∧
      world.factories[factory]? = some (.new (tree.scopedName id) (tree.closure id))
  missing : ∀ name, (∀ id ∈ ids, (tree.scopedName id).text ≠ name) →
    world.registry.find? name = none

/-- An interface that is spelled differently from all before gets a factory beside theirs. -/
theorem Serves.registerNew {ids : List DeclId} {id : DeclId} (serves : world.Serves tree ids)
    (differs : ∀ other ∈ ids, (tree.scopedName other).text ≠ (tree.scopedName id).text) :
    (world.registerNew (.new (tree.scopedName id) (tree.closure id))).Serves tree
      (ids ++ [id]) := by
  have own : (Factory.new (tree.scopedName id) (tree.closure id)).name =
      (tree.scopedName id).text := rfl
  have unknown := serves.missing _ differs
  refine ⟨?_, ?_, ?_⟩
  · rw [registry_registerNew, own, Registry.size_insert unknown, serves.size, List.length_append]
    rfl
  · intro served listed
    rw [registry_registerNew, own, Registry.find?_insert]
    rcases List.mem_append.mp listed with before | new
    · obtain ⟨factory, found, made⟩ := serves.found served before
      refine ⟨factory, ?_, ?_⟩
      · rw [if_neg (differs served before), found]
      · have bound := (Array.getElem?_eq_some_iff.mp made).1
        show (world.factories.push _)[factory]? = _
        rw [Array.getElem?_push_lt bound, ← made, Array.getElem?_eq_getElem bound]
    · cases List.mem_singleton.mp new
      exact ⟨world.factories.size, if_pos rfl, Array.getElem?_push_size⟩
  · intro name absent
    have others : ∀ other ∈ ids, (tree.scopedName other).text ≠ name :=
      fun other listed => absent other (List.mem_append_left _ listed)
    have apart : name ≠ (tree.scopedName id).text := (absent id (by simp)).symm
    rw [registry_registerNew, own, Registry.find?_insert, if_neg apart, serves.missing name others]

/-- Interfaces that are all spelled differently get one factory each. -/
theorem Serves.foldl_registerNew {ids rest : List DeclId} (serves : world.Serves tree ids)
    (distinct : ((ids ++ rest).map fun id => (tree.scopedName id).text).Nodup) :
    (rest.foldl
      (fun world id => world.registerNew (.new (tree.scopedName id) (tree.closure id)))
      world).Serves tree (ids ++ rest) := by
  induction rest generalizing world ids with
  | nil => simpa using serves
  | cons id rest ih =>
    rw [List.append_cons] at distinct ⊢
    refine ih (serves.registerNew fun other listed same => ?_) distinct
    rw [List.map_append, List.map_append] at distinct
    have apart := (List.nodup_append.mp (List.nodup_append.mp distinct).1).2.2
    exact apart _ (List.mem_map_of_mem listed) _ (by simp) same

/-- **Registration serves the interfaces of the main file** and nothing else. -/
theorem serves_registerTree (distinct : tree.interfaceTexts.Nodup)
    (fresh : world.registry.entries = []) :
    (world.registerTree tree).1.Serves tree tree.localInterfaces := by
  have nothing : world.Serves tree [] := by
    refine ⟨by simp [Registry.size, fresh], by simp, fun name _ => ?_⟩
    rw [Registry.find?, fresh]
    rfl
  exact nothing.foldl_registerNew (DeclTree.nodup_localTexts distinct)

/-! ## Wrapping -/

theorem wrap_of_missing {name : String} (missing : world.registry.find? name = none)
    (remote : RemoteId) (context : String) :
    world.wrap name remote context =
      ({ world with registry := world.registry.countLookup }, .ok none) := by
  have still : world.registry.countLookup.find? name = none := missing
  simp only [wrap, still]

/-- A registered factory wraps every object that has its interface and accepts a reference. -/
theorem exists_wrap {name : String} {factory : FactoryId} {maker : Factory}
    (found : world.registry.find? name = some factory)
    (made : world.factories[factory]? = some maker) {remote : RemoteId} {object : Remote}
    (there : world.remotes[remote]? = some object)
    (narrows : object.narrows maker.interface = true)
    (accepts : object.refusesReferences = false) (context : String) :
    ∃ after, world.wrap name remote context =
      (after, .ok (some (.make maker.interface maker.closure remote context))) := by
  have still : world.registry.countLookup.find? name = some factory := found
  simp only [wrap, still, make, made, there, narrows, if_true, makeWrapper, addRef, Remote.addRef,
    accepts]
  exact ⟨_, rfl⟩

end World

/-- A wrapper gives access to its object under the names of the closure, to which its own name
belongs. -/
theorem Wrapper.downcast?_make {interface : ScopedName} {closure : List ScopedName}
    (own : interface ∈ closure) (remote : RemoteId) (context : String) (name : ScopedName) :
    (make interface closure remote context).downcast? name =
      if name ∈ closure then some remote else none := by
  have answers : (make interface closure remote context).answers name =
      decide (name ∈ closure) := by
    rw [Bool.eq_iff_iff]
    simp only [answers, make, Bool.or_eq_true, beq_iff_eq, List.contains_iff_mem, decide_eq_true_eq,
      or_iff_right_iff_imp]
    rintro rfl
    exact own
  rw [downcast?, answers]
  simp only [decide_eq_true_eq]
  rfl

/-! ## From the tree to the object -/

/-- **Wrappers of registered interfaces give access along resolved bases.** Interfaces that are all
spelled differently are registered with one factory for each interface of the main file. Under the
name of such an interface, every object that has the interface and accepts a reference is wrapped.
The wrapper gives access to the object under the name of its interface and the names of those from
which that derives, and under no other. Under any other name nothing is wrapped, and no object loses
or gains a reference. -/
theorem registered_wrappers_give_access {tree : DeclTree} (distinct : tree.interfaceTexts.Nodup)
    {world : World} (fresh : world.registry.entries = []) :
    (world.registerTree tree).2 = tree.localInterfaceCount ∧
    (world.registerTree tree).1.registry.size = tree.localInterfaceCount ∧
    (∀ id, tree.isInterface id = true → tree.isLocal id = true →
      ∀ (remote : RemoteId) (object : Remote), world.remotes[remote]? = some object →
      object.narrows (tree.scopedName id) = true → object.refusesReferences = false →
      ∀ context, ∃ after wrapper,
        (world.registerTree tree).1.wrap (tree.scopedName id).text remote context =
          (after, .ok (some wrapper)) ∧
        wrapper.interface = tree.scopedName id ∧ wrapper.context = context ∧ wrapper.count = 1 ∧
        (∀ name, tree.AnswersTo id name → wrapper.downcast? name = some remote) ∧
        (∀ name, ¬tree.AnswersTo id name → wrapper.downcast? name = none) ∧
        after.refs remote = world.refs remote + 1) ∧
    ∀ name, (∀ id, tree.isInterface id = true → tree.isLocal id = true →
        (tree.scopedName id).text ≠ name) →
      ∀ remote context, ∃ after,
        (world.registerTree tree).1.wrap name remote context = (after, .ok none) ∧
        after.remotes = world.remotes := by
  have serves := World.serves_registerTree distinct fresh
  have remotes := (Session.leaves_registerTree world tree).1
  refine ⟨tree.length_localInterfaces, ?_, ?_, ?_⟩
  · rw [serves.size, tree.length_localInterfaces]
  · intro id isInterface isLocal remote object there narrows accepts context
    have listed := DeclTree.mem_localInterfaces.mpr ⟨isInterface, isLocal⟩
    obtain ⟨factory, found, made⟩ := serves.found id listed
    have known : (world.registerTree tree).1.remotes[remote]? = some object := by
      rw [remotes, there]
    obtain ⟨after, wrapped⟩ := World.exists_wrap found made known narrows accepts context
    have own : tree.scopedName id ∈ tree.closure id :=
      (DeclTree.mem_closure_iff isInterface).mpr ⟨id, .refl, rfl⟩
    have downcast := Wrapper.downcast?_make own remote context
    refine ⟨after, _, wrapped, rfl, rfl, rfl, fun name answers => ?_, fun name other => ?_, ?_⟩
    · exact (downcast name).trans (if_pos ((DeclTree.mem_closure_iff isInterface).mpr answers))
    · refine (downcast name).trans (if_neg fun listed => other ?_)
      exact (DeclTree.mem_closure_iff isInterface).mp listed
    · have bound : (world.registerTree tree).1.Knows remote :=
        (Array.getElem?_eq_some_iff.mp known).1
      have gained :=
        (World.attempted_wrap (tree.scopedName id).text bound context).settles.refs remote
      rw [wrapped] at gained
      have before : (world.registerTree tree).1.refs remote = world.refs remote := by
        rw [World.refs, World.refs, remotes]
      rw [gained, before, World.holding, Wrapper.make, share, if_pos rfl]
  · intro name other remote context
    have missing := serves.missing name fun id listed => by
      obtain ⟨isInterface, isLocal⟩ := DeclTree.mem_localInterfaces.mp listed
      exact other id isInterface isLocal
    exact ⟨_, World.wrap_of_missing missing remote context, remotes⟩

/-- A tree whose main file declares one interface. Its base is an interface of another file, which
is written through a typedef and derives from it in turn. -/
def loopedTree : DeclTree :=
  let draft := ((Draft.empty "d.idl").setFile "b.idl").addInterface none "Base"
  let draft := (draft.setFile "d.idl").addInterface none "Node"
  let draft := draft.addTypedef none "Root" (.interface ⟨["Base"]⟩)
  ((draft.addBase 1 3).addBase 0 1).tree

/-- A world with one object, which implements the interface of the main file. -/
def nodeWorld : World :=
  { World.empty with remotes := #[⟨"IDL:Node:1.0", [⟨["Node"]⟩], [], 0, false, false⟩] }

theorem loopedTree_node_accessible :
    loopedTree.interfaceTexts.Nodup ∧ nodeWorld.registry.entries = [] ∧
      (nodeWorld.registerTree loopedTree).1.registry.size = 1 ∧
      (∃ after wrapper,
        (nodeWorld.registerTree loopedTree).1.wrap "Node" 0 "poa" = (after, .ok (some wrapper)) ∧
        wrapper.downcast? ⟨["Base"]⟩ = some 0 ∧ wrapper.downcast? ⟨["Root"]⟩ = none) ∧
      ∃ after, (nodeWorld.registerTree loopedTree).1.wrap "Base" 0 "poa" = (after, .ok none) ∧
        after.remotes = nodeWorld.remotes := by
  have distinct : loopedTree.interfaceTexts.Nodup := by with_unfolding_all decide
  obtain ⟨-, size, wraps, others⟩ := registered_wrappers_give_access distinct
    (show nodeWorld.registry.entries = [] from rfl)
  have closure : loopedTree.closure 1 = [⟨["Node"]⟩, ⟨["Base"]⟩] := by with_unfolding_all decide
  have own : loopedTree.isInterface 1 = true ∧ loopedTree.isLocal 1 = true := by
    with_unfolding_all decide
  have answers : ∀ name, loopedTree.AnswersTo 1 name ↔ name ∈ loopedTree.closure 1 :=
    fun name => (DeclTree.mem_closure_iff own.1).symm
  refine ⟨distinct, rfl, size.trans (by with_unfolding_all decide), ?_, ?_⟩
  · obtain ⟨after, wrapper, wrapped, -, -, -, access, denied, -⟩ :=
      wraps 1 own.1 own.2 0 _ rfl (by with_unfolding_all decide) rfl "poa"
    have spelled : (loopedTree.scopedName 1).text = "Node" := by with_unfolding_all decide
    rw [spelled] at wrapped
    refine ⟨after, wrapper, wrapped, access _ ?_, denied _ ?_⟩
    · rw [answers, closure]
      simp
    · rw [answers, closure]
      simp
  · refine others "Base" (fun id isInterface isLocal => ?_) 0 "poa"
    have listed := DeclTree.mem_localInterfaces.mpr ⟨isInterface, isLocal⟩
    have interfaces : loopedTree.localInterfaces = [1] := by with_unfolding_all decide
    rw [interfaces] at listed
    cases List.mem_singleton.mp listed
    with_unfolding_all decide

end Live

end IdlBridge
