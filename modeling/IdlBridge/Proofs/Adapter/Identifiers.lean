import IdlBridge.Proofs.Adapter.Downcasts
import IdlBridge.Proofs.Live.Factories
import IdlBridge.Proofs.Markup.RoundTrip

/-!
# Clashing identifiers

Factory instances and downcast accessors are named by the joined name of their interface. Joining
puts an underscore between the components, and components may hold underscores themselves. So what
is left of a name are its words, the pieces between underscores, and two joined names are equal if
and only if the words are (`ScopedName.joined_eq_iff`). Interfaces whose names differ in more than
the places of their underscores have different identifiers, and no others
(`identifiers_distinct_iff`).
-/

set_option autoImplicit false

namespace IdlBridge

/-! ## Words -/

/-- Cutting at the underscores of a joined text cuts the texts that were joined. -/
theorem Text.splitOn_join {texts : List String} (nonempty : texts ≠ []) :
    (join "_" texts).toList.splitOn '_' = texts.flatMap fun text => text.toList.splitOn '_' := by
  induction texts with
  | nil => exact absurd rfl nonempty
  | cons text texts ih =>
    cases texts with
    | nil => simp [join]
    | cons next texts =>
      have glued : (join "_" (text :: next :: texts)).toList =
          text.toList ++ '_' :: (join "_" (next :: texts)).toList := by
        simp [join]
      rw [glued, List.splitOn_append_cons_self, ih (List.cons_ne_nil next texts)]
      rfl

namespace ScopedName

variable {first second : ScopedName}

/-- The pieces of the components of a name when each is cut at its underscores. -/
def words (name : ScopedName) : List (List Char) :=
  name.parts.flatMap fun part => part.toList.splitOn '_'

/-- **Joined names are equal exactly if their words are.** -/
theorem joined_eq_iff (firstNamed : first.parts ≠ []) (secondNamed : second.parts ≠ []) :
    first.joined = second.joined ↔ first.words = second.words := by
  rw [words, words, ← Text.splitOn_join firstNamed, ← Text.splitOn_join secondNamed, joined, joined,
    ← String.toList_inj]
  constructor
  · exact congrArg (List.splitOn '_')
  · intro same
    have glued := congrArg (List.intercalate ['_']) same
    rwa [List.intercalate_splitOn, List.intercalate_splitOn] at glued

/-- No component holds an underscore. -/
def Plain (name : ScopedName) : Prop :=
  ∀ part ∈ name.parts, '_' ∉ part.toList

/-- Without underscores in the components, the words are the components. -/
theorem Plain.words_eq {name : ScopedName} (plain : name.Plain) :
    name.words = name.parts.map String.toList := by
  have whole : ∀ part ∈ name.parts, part.toList.splitOn '_' = [part.toList] :=
    fun part isPart => List.splitOn_eq_singleton (plain part isPart)
  rw [words, List.flatMap_congr whole, ← List.map_eq_flatMap]

theorem Plain.words_inj (firstPlain : first.Plain) (secondPlain : second.Plain)
    (same : first.words = second.words) : first = second := by
  rw [firstPlain.words_eq, secondPlain.words_eq] at same
  have parts : first.parts = second.parts :=
    List.map_injective_iff.mpr (fun _ _ => String.toList_inj.mp) same
  cases first
  cases second
  cases parts
  rfl

end ScopedName

/-- Two views that tell the members of a list apart in the same cases are both without repetition
or both with one. -/
theorem nodup_map_iff {α β γ : Type} {f : α → β} {g : α → γ} {list : List α}
    (same : ∀ first ∈ list, ∀ second ∈ list, f first = f second ↔ g first = g second) :
    (list.map f).Nodup ↔ (list.map g).Nodup := by
  rw [List.Nodup, List.Nodup, List.pairwise_map, List.pairwise_map]
  refine List.Pairwise.iff_of_mem fun {first second} isFirst isSecond => ?_
  exact not_congr (same first isFirst second isSecond)

/-! ## Names of interfaces -/

namespace DeclTree

variable {tree : DeclTree}

/-- In a nested tree every interface has a name. -/
theorem parts_ne_nil_of_nested {draft : Draft} (nested : draft.Nested) {id : DeclId}
    (isInterface : draft.tree.isInterface id = true) : (draft.tree.scopedName id).parts ≠ [] := by
  obtain ⟨place, listed⟩ := nested.placed.listed id (isPlaced_of_isInterface isInterface)
  obtain ⟨⟨decl, found, named⟩, -⟩ := nested.built.listed place id listed
  rw [scopedName, found]
  simp [named, ScopedName.child]

/-- The interfaces of the tree have different names. -/
def NamesDiffer (tree : DeclTree) : Prop :=
  ((tree.ids.filter tree.isInterface).map tree.scopedName).Nodup

instance (tree : DeclTree) : Decidable tree.NamesDiffer :=
  inferInstanceAs (Decidable (List.Nodup _))

theorem NamesDiffer.inj (differ : tree.NamesDiffer) {first second : DeclId}
    (isFirst : tree.isInterface first = true) (isSecond : tree.isInterface second = true)
    (same : tree.scopedName first = tree.scopedName second) : first = second := by
  have listed : ∀ id, tree.isInterface id = true → id ∈ tree.ids.filter tree.isInterface := by
    intro id isInterface
    rw [List.mem_filter, ids, List.mem_range]
    exact ⟨lt_size_of_isInterface isInterface, isInterface⟩
  exact List.inj_on_of_nodup_map differ (listed first isFirst) (listed second isSecond) same

/-- Interfaces without underscores in their names have different words if they have different
names. -/
theorem nodup_words (differ : tree.NamesDiffer)
    (plain : ∀ id, tree.isInterface id = true → (tree.scopedName id).Plain) {ids : List DeclId}
    (nodup : ids.Nodup) (interfaces : ∀ id ∈ ids, tree.isInterface id = true) :
    (ids.map fun id => (tree.scopedName id).words).Nodup := by
  refine nodup.map_on fun first isFirst second isSecond same => ?_
  have firstInterface := interfaces first isFirst
  have secondInterface := interfaces second isSecond
  exact differ.inj firstInterface secondInterface
    ((plain first firstInterface).words_inj (plain second secondInterface) same)

end DeclTree

namespace Adapter

open Markup

/-! ## Identifiers -/

/-- Identifiers that end with the joined name are equal exactly if the words are. -/
theorem identifier_eq_iff {lead : String} {first second : ScopedName}
    (firstNamed : first.parts ≠ []) (secondNamed : second.parts ≠ []) :
    lead ++ first.joined = lead ++ second.joined ↔ first.words = second.words := by
  rw [← ScopedName.joined_eq_iff firstNamed secondNamed]
  exact String.append_right_inj lead

namespace Subject

/-- The members of the classes end with the instance of the factory. -/
theorem exists_members_instance (subject : Subject) :
    ∃ front className, subject.members =
      .ok (front ++ [.line (className ++ " " ++ factoryInstance subject.name ++ ";")]) := by
  obtain ⟨front, done⟩ := subject.exists_members_factory
  rw [defineFactory, ← List.append_assoc] at done
  exact ⟨_, _, done⟩

/-- The final class in the header has a line for each of its accessors. -/
theorem exists_declareFinal_downcasts (subject : Subject) :
    ∃ layout, subject.declareFinal = .ok layout ∧
      ∀ accessor ∈ subject.downcasts, .line (accessor.signature "" ++ ";") ∈ layout := by
  rw [declareFinal, Method.layoutAll_declaration]
  refine ⟨_, rfl, fun accessor listed => ?_⟩
  have line : Piece.line (accessor.signature "" ++ ";") ∈
      (subject.downcasts.map fun method => method.signature "" ++ ";").map Piece.line :=
    List.mem_map_of_mem (List.mem_map_of_mem listed)
  simp only [Layout.indented, List.mem_append, List.mem_cons]
  tauto

/-- What is read off the names of the interfaces that are written is read off the tree. -/
theorem map_name_visited {α : Type} {settings : Settings} {tree : DeclTree} (built : tree.Built)
    (view : ScopedName → α) :
    ((visited settings tree).map fun subject => view subject.name) =
      tree.interfacesMet.map fun id => view (tree.scopedName id) := by
  rw [← ids_visited built settings, List.map_map]
  refine List.map_congr_left fun subject isVisited => ?_
  rw [name_of_mem_visited isVisited]
  rfl

end Subject

/-- **Identifiers are distinct exactly if the words of the names are.** The source of a document
that can be loaded ends the members of each interface with the instance of its factory, and the
final class of each interface has an accessor for every interface of its closure. Two interfaces have
the same instance name, or the same accessor name, if and only if their names have the same words.
So the instances are pairwise distinct if and only if the words of the interfaces are, and so are
the accessors of a final class. This is the case for all of them if the interfaces have
different names and no component of these holds an underscore. -/
theorem identifiers_distinct_iff {document : String} {tree : DeclTree}
    (loaded : DeclTree.ofDocument document = .ok tree) (settings : Settings) :
    (∃ segments pass, Pass.run settings tree .definition = .ok pass ∧
      Segment.Written settings tree .definition (.empty settings.indentWidth) segments pass.sheet ∧
      segments.filterMap Segment.membersOf? = Subject.visited settings tree) ∧
    (∀ subject ∈ Subject.visited settings tree,
      (∃ front className, subject.members =
        .ok (front ++ [.line (className ++ " " ++ factoryInstance subject.name ++ ";")])) ∧
      ∃ layout, subject.declareFinal = .ok layout ∧
        ∀ accessor ∈ subject.downcasts, .line (accessor.signature "" ++ ";") ∈ layout) ∧
    (∀ first second, tree.isInterface first = true → tree.isInterface second = true →
      (factoryInstance (tree.scopedName first) = factoryInstance (tree.scopedName second) ↔
        (tree.scopedName first).words = (tree.scopedName second).words) ∧
      (downcastName (tree.scopedName first) = downcastName (tree.scopedName second) ↔
        (tree.scopedName first).words = (tree.scopedName second).words)) ∧
    (((Subject.visited settings tree).map fun subject => factoryInstance subject.name).Nodup ↔
      ((Subject.visited settings tree).map fun subject => subject.name.words).Nodup) ∧
    (∀ subject ∈ Subject.visited settings tree,
      (subject.downcasts.map Method.name).Nodup ↔
        ((tree.linearize subject.id).map fun base => (tree.scopedName base).words).Nodup) ∧
    (tree.NamesDiffer →
      (∀ id, tree.isInterface id = true → (tree.scopedName id).Plain) →
      ((Subject.visited settings tree).map fun subject => factoryInstance subject.name).Nodup ∧
      ∀ subject ∈ Subject.visited settings tree, (subject.downcasts.map Method.name).Nodup) := by
  obtain ⟨draft, nested, rfl⟩ := DeclTree.nested_ofDocument loaded
  have built : draft.tree.Built := ⟨draft, nested.built, rfl⟩
  have named : ∀ id, draft.tree.isInterface id = true → (draft.tree.scopedName id).parts ≠ [] :=
    fun id => DeclTree.parts_ne_nil_of_nested nested
  have met : ∀ id ∈ draft.tree.interfacesMet, draft.tree.isInterface id = true :=
    fun id isMet => (nested.mem_interfacesMet.mp isMet).1
  have instances : ((Subject.visited settings draft.tree).map fun subject =>
      factoryInstance subject.name).Nodup ↔
        (draft.tree.interfacesMet.map fun id => (draft.tree.scopedName id).words).Nodup := by
    rw [Subject.map_name_visited built]
    exact nodup_map_iff fun first isFirst second isSecond =>
      identifier_eq_iff (named first (met first isFirst)) (named second (met second isSecond))
  have accessors : ∀ subject ∈ Subject.visited settings draft.tree,
      (subject.downcasts.map Method.name).Nodup ↔
        ((draft.tree.linearize subject.id).map fun base =>
          (draft.tree.scopedName base).words).Nodup := by
    intro subject isVisited
    obtain ⟨id, decl, -, rfl⟩ := Subject.exists_of_mem_visited isVisited
    rw [Subject.downcasts, List.map_map]
    exact nodup_map_iff fun first isFirst second isSecond =>
      identifier_eq_iff (named first (DeclTree.isInterface_of_mem_linearize isFirst))
        (named second (DeclTree.isInterface_of_mem_linearize isSecond))
  refine ⟨?_, fun subject _ => ⟨subject.exists_members_instance,
    subject.exists_declareFinal_downcasts⟩, fun first second isFirst isSecond =>
    ⟨identifier_eq_iff (named first isFirst) (named second isSecond),
      identifier_eq_iff (named first isFirst) (named second isSecond)⟩, ?_, accessors,
    fun differ plain => ⟨?_, fun subject isVisited => ?_⟩⟩
  · obtain ⟨segments, pass, done, emits, -, members, -⟩ :=
      Pass.exists_run built settings .definition
    exact ⟨segments, pass, done, emits.written, members rfl⟩
  · rw [instances, Subject.map_name_visited built]
  · exact instances.mpr (DeclTree.nodup_words differ plain nested.nodup_interfacesMet met)
  · exact (accessors subject isVisited).mpr (DeclTree.nodup_words differ plain
      (draft.tree.nodup_linearize subject.id) fun id => DeclTree.isInterface_of_mem_linearize)

/-- A document with two interfaces whose names have the same words, an interface that has both as
bases, and one that has only the second. -/
def clashingDocument : String :=
  "<tree file=\"a.idl\"><module name=\"a\"><interface name=\"b_c\"/></module>" ++
  "<module name=\"a_b\"><interface name=\"c\"/></module>" ++
  "<interface name=\"d\"><inherits ref=\"a::b_c\"/><inherits ref=\"a_b::c\"/></interface>" ++
  "<interface name=\"c_a\"><inherits ref=\"a_b::c\"/></interface></tree>"

/-- The names that belong to an interface: its own, that of its factory instance and those of the
accessors of its final class. -/
structure Identifiers where
  id : DeclId
  name : ScopedName
  factory : String
  accessors : List String
  deriving DecidableEq

/-- The names that are written for the interfaces of a tree. -/
def identifiers (tree : DeclTree) : List Identifiers :=
  (Subject.visited .default tree).map fun subject =>
    ⟨subject.id, subject.name, factoryInstance subject.name, subject.downcasts.map Method.name⟩

theorem exists_clashingDocument :
    ∃ tree, DeclTree.ofDocument clashingDocument = .ok tree ∧
      (tree.ids.filter tree.isInterface).map tree.scopedName =
        [⟨["a", "b_c"]⟩, ⟨["a_b", "c"]⟩, ⟨["d"]⟩, ⟨["c_a"]⟩] ∧
      tree.linearize 5 = [5, 3] ∧
      identifiers tree =
        [⟨1, ⟨["a", "b_c"]⟩, "gCCIFactorya_b_c", ["_downcast_a_b_c"]⟩,
         ⟨3, ⟨["a_b", "c"]⟩, "gCCIFactorya_b_c", ["_downcast_a_b_c"]⟩,
         ⟨4, ⟨["d"]⟩, "gCCIFactoryd", ["_downcast_d", "_downcast_a_b_c", "_downcast_a_b_c"]⟩,
         ⟨5, ⟨["c_a"]⟩, "gCCIFactoryc_a", ["_downcast_c_a", "_downcast_a_b_c"]⟩] := by
  have chars : clashingDocument.toList = _ :=
    toList_append_eq (toList_append_eq (toList_append_eq String.toList_ofList
      String.toList_ofList) String.toList_ofList) String.toList_ofList
  have read := ofDocument_of_toList chars rfl
  have facts : (DeclTree.ofDocument clashingDocument).toOption.map (fun tree =>
      ((tree.ids.filter tree.isInterface).map tree.scopedName, tree.linearize 5,
        identifiers tree)) =
      some ([⟨["a", "b_c"]⟩, ⟨["a_b", "c"]⟩, ⟨["d"]⟩, ⟨["c_a"]⟩], [5, 3],
        [⟨1, ⟨["a", "b_c"]⟩, "gCCIFactorya_b_c", ["_downcast_a_b_c"]⟩,
         ⟨3, ⟨["a_b", "c"]⟩, "gCCIFactorya_b_c", ["_downcast_a_b_c"]⟩,
         ⟨4, ⟨["d"]⟩, "gCCIFactoryd", ["_downcast_d", "_downcast_a_b_c", "_downcast_a_b_c"]⟩,
         ⟨5, ⟨["c_a"]⟩, "gCCIFactoryc_a", ["_downcast_c_a", "_downcast_a_b_c"]⟩]) := by
    rw [DeclTree.ofDocument, read]
    decide +kernel
  cases loaded : DeclTree.ofDocument clashingDocument with
  | error cause =>
    rw [loaded] at facts
    cases facts
  | ok tree =>
    rw [loaded] at facts
    simp only [Except.toOption, Option.map_some, Option.some.injEq, Prod.mk.injEq] at facts
    exact ⟨tree, rfl, facts⟩

/-- The fourth interface shares words with its base, but not all of them. -/
theorem clashingDocument_fourth_distinct :
    ∃ tree subject, DeclTree.ofDocument clashingDocument = .ok tree ∧
      subject ∈ Subject.visited .default tree ∧ subject.name = ⟨["c_a"]⟩ ∧
      (subject.downcasts.map Method.name).Nodup := by
  obtain ⟨tree, loaded, -, closure, listed⟩ := exists_clashingDocument
  obtain ⟨-, -, -, -, accessors, -⟩ := identifiers_distinct_iff loaded .default
  have visited : ∀ entry ∈ identifiers tree, ∃ subject ∈ Subject.visited .default tree,
      subject.id = entry.id ∧ subject.name = entry.name := by
    intro entry isEntry
    obtain ⟨subject, isVisited, rfl⟩ := List.mem_map.mp isEntry
    exact ⟨subject, isVisited, rfl, rfl⟩
  rw [listed] at visited
  simp only [List.forall_mem_cons] at visited
  obtain ⟨-, ⟨second, isSecond, secondId, secondName⟩, -, ⟨fourth, isFourth, fourthId, fourthName⟩,
    -⟩ := visited
  rw [Subject.name_of_mem_visited isSecond, secondId] at secondName
  refine ⟨tree, fourth, loaded, isFourth, fourthName, (accessors fourth isFourth).mpr ?_⟩
  rw [Subject.name_of_mem_visited isFourth, fourthId] at fourthName
  rw [fourthId, closure]
  simp only [List.map_cons, List.map_nil, secondName, fourthName]
  decide

/-- The four interfaces have different names, but two factory instances have the same identifier,
and so have two accessors of the third final class. -/
theorem clashingDocument_identifiers_clash :
    ∃ tree, DeclTree.ofDocument clashingDocument = .ok tree ∧ tree.NamesDiffer ∧
      ¬ ((Subject.visited .default tree).map fun subject => factoryInstance subject.name).Nodup ∧
      ∃ subject ∈ Subject.visited .default tree, ¬ (subject.downcasts.map Method.name).Nodup := by
  obtain ⟨tree, loaded, names, -, listed⟩ := exists_clashingDocument
  refine ⟨tree, loaded, ?_, ?_, ?_⟩
  · rw [DeclTree.NamesDiffer, names]
    decide
  · have instances : ((Subject.visited .default tree).map fun subject =>
        factoryInstance subject.name) = (identifiers tree).map (·.factory) := by
      rw [identifiers, List.map_map]
      rfl
    rw [instances, listed]
    decide
  · have third : ⟨4, ⟨["d"]⟩, "gCCIFactoryd",
        ["_downcast_d", "_downcast_a_b_c", "_downcast_a_b_c"]⟩ ∈ identifiers tree := by
      rw [listed]
      simp
    obtain ⟨subject, visited, own⟩ := List.mem_map.mp third
    have accessors : subject.downcasts.map Method.name =
        ["_downcast_d", "_downcast_a_b_c", "_downcast_a_b_c"] :=
      congrArg Identifiers.accessors own
    refine ⟨subject, visited, ?_⟩
    rw [accessors]
    decide

end Adapter

end IdlBridge
