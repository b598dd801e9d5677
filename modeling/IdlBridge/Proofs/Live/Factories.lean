import IdlBridge.Live.World
import IdlBridge.Proofs.Adapter.Namespaces
import IdlBridge.Proofs.DeclTree.Exposure
import IdlBridge.Proofs.Document.Nesting

/-!
# Registered and generated factories

Registration takes all interfaces of the main file (`World.mem_names_registerTree`). The source
defines a factory for each interface that is met in going through the tree
(`Subject.ids_visited`), and these are the exposed ones. So the two agree except for interfaces that
the main file declares inside a module of another file: these are registered, but the source has no
factory for them (`registered_iff_generated_or_covered`).
-/

set_option autoImplicit false

namespace IdlBridge

open Adapter

/-! ## Registered factories -/

namespace Live

theorem Registry.mem_names {registry : Registry} {name : String} :
    name ∈ registry.names ↔ ∃ factory, (name, factory) ∈ registry.entries := by
  simp [Registry.names]

theorem Registry.mem_names_insert {registry : Registry} {name added : String}
    {factory : FactoryId} :
    name ∈ (registry.insert added factory).names ↔ name = added ∨ name ∈ registry.names := by
  simp only [mem_names, insert, erase, List.mem_cons, List.mem_filter, Prod.mk.injEq,
    bne_iff_ne]
  by_cases same : name = added
  · simp [same]
  · simp [same]

namespace World

/-- A new factory is registered under the name of its interface. -/
theorem registry_registerNew (world : World) (factory : Factory) :
    (world.registerNew factory).registry =
      world.registry.insert factory.name world.factories.size := by
  have own : (world.addFactory factory).1.factoryName world.factories.size = factory.name := by
    simp [factoryName, addFactory]
  rw [← own]
  rfl

theorem mem_names_registerNew {world : World} {factory : Factory} {name : String} :
    name ∈ (world.registerNew factory).registry.names ↔
      name = factory.name ∨ name ∈ world.registry.names := by
  rw [registry_registerNew, Registry.mem_names_insert]

/-- **Registration takes all interfaces of the main file** and leaves what was registered. -/
theorem mem_names_registerTree {world : World} {tree : DeclTree} {name : String} :
    name ∈ (world.registerTree tree).1.registry.names ↔
      (∃ id ∈ tree.localInterfaces, name = (tree.scopedName id).text) ∨
        name ∈ world.registry.names := by
  rw [registerTree]
  generalize tree.localInterfaces = interfaces
  induction interfaces generalizing world with
  | nil => simp
  | cons id interfaces ih =>
    rw [List.foldl_cons, ih, mem_names_registerNew, Factory.name, Factory.new]
    simp only [List.exists_mem_cons_iff]
    constructor
    · rintro (listed | here | there)
      · exact .inl (.inr listed)
      · exact .inl (.inl here)
      · exact .inr there
    · rintro ((here | listed) | there)
      · exact .inr (.inl here)
      · exact .inl listed
      · exact .inr (.inr there)

end World

end Live

/-! ## Generated factories -/

namespace Adapter.Subject

variable {settings : Settings} {tree : DeclTree}

/-- The members of the classes end with those of the factory. -/
theorem exists_members_factory (subject : Subject) :
    ∃ front, subject.members = .ok (front ++ subject.defineFactory) := by
  obtain ⟨layout, done, -⟩ := subject.exists_members
  rw [members] at done ⊢
  simp only [bind_eq_ok_iff] at done
  obtain ⟨abstractClass, isAbstract, finalClass, isFinal, -⟩ := done
  rw [isAbstract, isFinal]
  exact ⟨abstractClass ++ finalClass, rfl⟩

theorem ids_of_walk {scope : ScopedName} {visits : List Visit} (walk : tree.Walk scope visits) :
    (visits.filterMap (ofVisit? settings tree)).map (·.id) =
      visits.filterMap Visit.interface? := by
  induction walk with
  | nil => rfl
  | @module scope name inner rest _ _ inside later =>
    rw [List.cons_append, List.filterMap_cons_none rfl, List.filterMap_cons_none rfl,
      List.filterMap_append, List.filterMap_append, List.filterMap_cons_none rfl,
      List.filterMap_cons_none rfl, List.map_append, inside, later]
  | @interface scope id decl rest found _ _ _ later =>
    have own : ofVisit? settings tree (.interface id) =
        some ⟨settings, tree, guardOf tree.fileBase, id, decl⟩ := by
      rw [ofVisit?, found, Option.map_some]
    have met : Visit.interface? (.interface id) = some id := rfl
    rw [List.filterMap_cons_some own, List.filterMap_cons_some met, List.map_cons, later]
  | external _ later =>
    rw [List.filterMap_cons_none rfl, List.filterMap_cons_none rfl, later]

/-- The interfaces for which adapters are written are those that are met. -/
theorem ids_visited (built : tree.Built) (settings : Settings) :
    (visited settings tree).map (·.id) = tree.interfacesMet :=
  ids_of_walk built.walk

theorem name_of_mem_visited {subject : Subject} (isVisited : subject ∈ visited settings tree) :
    subject.name = tree.scopedName subject.id := by
  obtain ⟨id, decl, found, rfl⟩ := exists_of_mem_visited isVisited
  rw [DeclTree.scopedName, found]
  rfl

end Adapter.Subject

namespace DeclTree

variable {tree : DeclTree}

theorem mem_localInterfaces {id : DeclId} :
    id ∈ tree.localInterfaces ↔ tree.isInterface id = true ∧ tree.isLocal id = true := by
  simp only [localInterfaces, List.mem_filter, ids, List.mem_range, Bool.and_eq_true,
    and_iff_right_iff_imp]
  rintro ⟨-, isLocal⟩
  obtain ⟨decl, found, -⟩ := (Option.any_eq_true _ _).mp isLocal
  exact (Array.getElem?_eq_some_iff.mp found).1

/-- The declaration stands, at any depth, inside a module of another file. -/
def Covered (tree : DeclTree) (id : DeclId) : Prop :=
  ∃ outer, Relation.TransGen tree.InModule id outer ∧ tree.isLocal outer = false

theorem exposed_iff {id : DeclId} :
    tree.Exposed id ↔ tree.isLocal id = true ∧ ¬tree.Covered id := by
  constructor
  · intro exposed
    refine ⟨exposed id .refl, ?_⟩
    rintro ⟨outer, around, isForeign⟩
    simp [exposed outer around.to_reflTransGen] at isForeign
  · rintro ⟨isLocal, uncovered⟩ outer around
    rcases Relation.reflTransGen_iff_eq_or_transGen.mp around with rfl | around
    · exact isLocal
    · exact Bool.of_not_eq_false fun isForeign => uncovered ⟨outer, around, isForeign⟩

/-- In a nested tree the interfaces of the main file are met unless they are covered. -/
theorem mem_interfacesMet_iff {draft : Draft} (nested : draft.Nested) {id : DeclId} :
    id ∈ draft.tree.interfacesMet ↔
      id ∈ draft.tree.localInterfaces ∧ ¬draft.tree.Covered id := by
  rw [nested.mem_interfacesMet, exposed_iff, mem_localInterfaces, and_assoc]

end DeclTree

/-! ## Agreement -/

/-- **What is registered and what is generated.** The source of a document that can be loaded defines
one factory for each interface of the main file that is not covered. Registered are the interfaces of
these factories and, in addition, the covered ones. So registration mirrors the source if and only if
the main file declares nothing new inside modules of other files. -/
theorem registered_iff_generated_or_covered {document : String} {tree : DeclTree}
    (loaded : DeclTree.ofDocument document = .ok tree) (settings : Settings) :
    ∃ segments pass, Pass.run settings tree .definition = .ok pass ∧
      Segment.Written settings tree .definition (.empty settings.indentWidth) segments pass.sheet ∧
      (∀ subject ∈ segments.filterMap Segment.membersOf?,
        subject.name = tree.scopedName subject.id ∧
        ∃ front, subject.members = .ok (front ++ subject.defineFactory)) ∧
      ((segments.filterMap Segment.membersOf?).map (·.id)).Nodup ∧
      (∀ id, id ∈ (segments.filterMap Segment.membersOf?).map (·.id) ↔
        id ∈ tree.localInterfaces ∧ ¬tree.Covered id) ∧
      ∀ name, name ∈ (Live.World.empty.registerTree tree).1.registry.names ↔
        (∃ subject ∈ segments.filterMap Segment.membersOf?, name = subject.name.text) ∨
        ∃ id ∈ tree.localInterfaces, tree.Covered id ∧ name = (tree.scopedName id).text := by
  obtain ⟨draft, nested, rfl⟩ := DeclTree.nested_ofDocument loaded
  have built : draft.tree.Built := ⟨draft, nested.built, rfl⟩
  obtain ⟨segments, pass, done, emits, -, members, -⟩ := Pass.exists_run built settings .definition
  have generated := members rfl
  have ids := Subject.ids_visited built settings
  refine ⟨segments, pass, done, emits.written, ?_, ?_, ?_, ?_⟩
  · intro subject isGenerated
    rw [generated] at isGenerated
    exact ⟨Subject.name_of_mem_visited isGenerated, subject.exists_members_factory⟩
  · rw [generated, ids]
    exact nested.nodup_interfacesMet
  · intro id
    rw [generated, ids]
    exact DeclTree.mem_interfacesMet_iff nested
  · intro name
    have fresh : name ∉ Live.World.empty.registry.names := by
      simp [Live.Registry.mem_names, Live.World.empty, Live.Registry.empty]
    rw [Live.World.mem_names_registerTree, or_iff_left fresh, generated]
    constructor
    · rintro ⟨id, isLocal, rfl⟩
      by_cases covered : draft.tree.Covered id
      · exact .inr ⟨id, isLocal, covered, rfl⟩
      · have met := (DeclTree.mem_interfacesMet_iff nested).mpr ⟨isLocal, covered⟩
        rw [← ids, List.mem_map] at met
        obtain ⟨subject, isVisited, rfl⟩ := met
        exact .inl ⟨subject, isVisited, by rw [Subject.name_of_mem_visited isVisited]⟩
    · rintro (⟨subject, isVisited, rfl⟩ | ⟨id, isLocal, -, rfl⟩)
      · have met : subject.id ∈ draft.tree.interfacesMet := by
          rw [← ids]
          exact List.mem_map_of_mem isVisited
        exact ⟨subject.id, ((DeclTree.mem_interfacesMet_iff nested).mp met).1,
          by rw [Subject.name_of_mem_visited isVisited]⟩
      · exact ⟨id, isLocal, rfl⟩

/-- A document whose main file declares one interface in a module of its own and another in a module
of an included file. -/
def mixedDocument : String :=
  "<tree file=\"a.idl\"><module name=\"m\"><interface name=\"I\"/></module>" ++
  "<module name=\"n\" file=\"b.idl\"><interface name=\"J\" file=\"a.idl\"/></module></tree>"

theorem mixedDocument_generates_one_of_two :
    ∃ tree segments pass, DeclTree.ofDocument mixedDocument = .ok tree ∧
      Pass.run .default tree .definition = .ok pass ∧
      Segment.Written .default tree .definition (.empty 2) segments pass.sheet ∧
      tree.localInterfaces = [1, 3] ∧
      1 ∈ (segments.filterMap Segment.membersOf?).map (·.id) ∧
      3 ∉ (segments.filterMap Segment.membersOf?).map (·.id) ∧
      "n::J" ∈ (Live.World.empty.registerTree tree).1.registry.names := by
  have facts : ((DeclTree.ofDocument mixedDocument).toOption.map fun tree =>
      (tree.localInterfaces, tree.interfacesMet, (tree.scopedName 3).text)) =
        some ([1, 3], [1], "n::J") := by
    decide +kernel
  cases loaded : DeclTree.ofDocument mixedDocument with
  | error cause =>
    rw [loaded] at facts
    cases facts
  | ok tree =>
    rw [loaded] at facts
    simp only [Except.toOption, Option.map_some, Option.some.injEq, Prod.mk.injEq] at facts
    obtain ⟨interfaces, met, name⟩ := facts
    obtain ⟨segments, pass, done, written, -, -, generated, registered⟩ :=
      registered_iff_generated_or_covered loaded .default
    obtain ⟨draft, nested, rfl⟩ := DeclTree.nested_ofDocument loaded
    have isMet : ∀ id, id ∈ (segments.filterMap Segment.membersOf?).map (·.id) ↔ id ∈ [1] := by
      intro id
      rw [generated, ← met, DeclTree.mem_interfacesMet_iff nested]
    have covered : draft.tree.Covered 3 := by
      by_contra uncovered
      have shown := (isMet 3).mp ((generated 3).mpr ⟨by simp [interfaces], uncovered⟩)
      simp at shown
    refine ⟨draft.tree, segments, pass, rfl, done, written, interfaces, (isMet 1).mpr (by simp),
      fun shown => by simpa using (isMet 3).mp shown, (registered _).mpr (.inr ⟨3, ?_, covered, ?_⟩)⟩
    · simp [interfaces]
    · exact name.symm

/-- A document whose main file declares its only interface in a module of an included file. -/
def coveredDocument : String :=
  "<tree file=\"a.idl\"><module name=\"m\" file=\"b.idl\">" ++
  "<interface name=\"I\" file=\"a.idl\"/></module></tree>"

/-- The interface is registered, but no factory is generated for it. -/
theorem coveredDocument_registered_not_generated :
    ∃ tree pass, DeclTree.ofDocument coveredDocument = .ok tree ∧
      (tree.ids.filter tree.isInterface).map tree.scopedName = [⟨["m", "I"]⟩] ∧
      (Live.World.empty.registerTree tree).1.registry.names = ["m::I"] ∧
      Pass.run .default tree .definition = .ok pass ∧
      (Subject.visited .default tree).map Subject.name = [] := by
  have facts : ((DeclTree.ofDocument coveredDocument).toOption.map fun tree =>
      ((tree.ids.filter tree.isInterface).map tree.scopedName,
        (Live.World.empty.registerTree tree).1.registry.names,
        (Pass.run .default tree .definition).isOk,
        (Subject.visited .default tree).map Subject.name)) =
      some ([⟨["m", "I"]⟩], ["m::I"], true, []) := by
    decide +kernel
  cases loaded : DeclTree.ofDocument coveredDocument with
  | error cause =>
    rw [loaded] at facts
    cases facts
  | ok tree =>
    rw [loaded] at facts
    simp only [Except.toOption, Option.map_some, Option.some.injEq, Prod.mk.injEq] at facts
    obtain ⟨interfaces, registered, runs, generated⟩ := facts
    cases done : Pass.run .default tree .definition with
    | error cause =>
      rw [done] at runs
      cases runs
    | ok pass => exact ⟨tree, pass, rfl, interfaces, registered, done, generated⟩

end IdlBridge
