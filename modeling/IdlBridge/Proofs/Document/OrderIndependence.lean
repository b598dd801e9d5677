import IdlBridge.Proofs.DeclTree.Correspondence
import IdlBridge.Proofs.Document.ClosedTypes
import IdlBridge.Proofs.Document.Offers
import IdlBridge.Proofs.Document.Reordering
import Mathlib.Data.List.Permutation

/-!
# The order of declarations does not matter

The children of the root and of modules can be reordered at every level. If every name is declared
once, the reordered document is accepted exactly if the original is, and in both trees the same
names lead to interfaces that offer the same callables and derive from interfaces of the same names
(`reordering_keeps_interfaces`).

The two documents state the same facts, so their outlines agree. What remains is to compare the
trees under different numbers (`Twins`): a name resolves to interfaces of the same name or to none
on both sides (`Twins.rel_resolve?`), and the interfaces that a name leads to correspond along with
their bases (`Twins.corresponds`).
-/

set_option autoImplicit false

namespace IdlBridge

open Markup

namespace DeclTree

variable {tree other : DeclTree} {id : DeclId}

/-- The interface that a name leads to, with its number. -/
def interfaceNamed? (tree : DeclTree) (name : ScopedName) : Option (DeclId × Interface) :=
  (tree.find? name).bind fun id => (tree.interface? id).map fun parts => (id, parts)

/-- Interfaces of two trees that offer and inherit the same. -/
structure SameInterface (tree other : DeclTree) (own theirs : DeclId × Interface) : Prop where
  callables : theirs.2.callables.map other.offer? = own.2.callables.map tree.offer?
  pragmas : theirs.2.pragmas = own.2.pragmas
  bases : List.Forall₂ (fun base otherBase => (other.resolve? otherBase).map other.scopedName =
    (tree.resolve? base).map tree.scopedName) own.2.bases theirs.2.bases
  linearization : (other.linearize theirs.1).map other.scopedName =
    (tree.linearize own.1).map tree.scopedName

/-- A name leads to both interfaces. -/
def Namesakes (tree other : DeclTree) (id otherId : DeclId) : Prop :=
  ∃ name, tree.find? name = some id ∧ other.find? name = some otherId ∧
    tree.isInterface id = true ∧ other.isInterface otherId = true

theorem resolvedBases_eq (tree : DeclTree) (id : DeclId) :
    tree.resolvedBases id = (tree.partOf DeclKind.bases id).filterMap tree.resolve? := by
  rw [resolvedBases, partOf, interface?, kind?]
  cases tree.decl? id with
  | none => rfl
  | some decl =>
    rw [Option.bind_some, Decl.interface?, Option.map_some, Option.map_some]
    cases decl.kind <;> rfl

end DeclTree

theorem ScopedName.child_inj {scope other : ScopedName} {member otherMember : String}
    (same : other.child otherMember = scope.child member) :
    other = scope ∧ otherMember = member := by
  obtain ⟨parts⟩ := scope
  obtain ⟨otherParts⟩ := other
  obtain ⟨rfl, rest⟩ := List.append_inj' (ScopedName.mk.inj same) rfl
  exact ⟨rfl, (List.cons.inj rest).1⟩

/-! ## Loaded trees -/

namespace Loads

variable {root : Element} {entries : List Entry} {outline : Outline} {tree : DeclTree}

theorem built (loads : Loads root entries outline tree) : tree.Built := by
  obtain ⟨draft, nested, same⟩ :=
    Outline.nested_resolve (Outline.nested_ofRoot loads.read) loads.resolved
  exact ⟨draft, nested.built, same⟩

theorem find?_eq (loads : Loads root entries outline tree) (name : ScopedName) :
    tree.find? name = outline.draft.tree.find? name :=
  DeclTree.find?_of_unresolved loads.same name

theorem exists_kind? (loads : Loads root entries outline tree) {id : DeclId} {kind : DeclKind}
    (found : outline.draft.tree.kind? id = some kind) :
    ∃ full, tree.kind? id = some full ∧ full.unresolved = kind.unresolved := by
  exact DeclTree.exists_kind?_of_unresolved loads.same found

theorem isInterface (loads : Loads root entries outline tree) {id : DeclId} {parts : Interface}
    (found : outline.draft.tree.kind? id = some (.interface parts)) :
    tree.isInterface id = true := by
  obtain ⟨full, kind, alike⟩ := loads.exists_kind? found
  cases full with
  | interface own => exact DeclTree.isInterface_iff.mpr ⟨own, kind⟩
  | _ => cases alike

theorem interface?_eq_none (loads : Loads root entries outline tree) {id : DeclId} {kind : DeclKind}
    (found : outline.draft.tree.kind? id = some kind) (notInterface : kind.isInterface = false) :
    tree.interface? id = none := by
  obtain ⟨full, stored, alike⟩ := loads.exists_kind? found
  cases isInterface : tree.interface? id with
  | none => rfl
  | some parts =>
    cases (DeclTree.interface?_eq_some_iff.mp isInterface).symm.trans stored
    cases kind with
    | interface => cases notInterface
    | _ => cases alike

/-- A forward declaration that a name leads to stands for nothing. -/
theorem resolve?_of_forward (loads : Loads root entries outline tree) {name : ScopedName}
    {id : DeclId} (leads : tree.find? name = some id) {target : Option DeclId}
    (found : outline.draft.tree.kind? id = some (.forward target)) : tree.resolve? id = none := by
  obtain ⟨full, kind, alike⟩ := loads.exists_kind? found
  cases full with
  | forward next =>
    cases loads.built.indexed.target_of_find? loads.built.announced leads kind
    rw [DeclTree.resolve?, DeclTree.follow, kind]
  | _ => cases alike

theorem resolve?_of_enum (loads : Loads root entries outline tree) {id : DeclId}
    {enumerators : List String}
    (found : outline.draft.tree.kind? id = some (.enum enumerators)) : tree.resolve? id = none := by
  obtain ⟨full, kind, alike⟩ := loads.exists_kind? found
  cases full with
  | enum => rw [DeclTree.resolve?, DeclTree.follow, kind]
  | _ => cases alike

/-- A declarator stands for what the name in the type of its typedef leads to. -/
theorem resolve?_of_typedef (loads : Loads root entries outline tree) {entry : TypeAlias}
    (listed : entry ∈ outline.aliases) {type : IdlType}
    (means : outline.Means (.typedef entry.declarator) type) :
    tree.resolve? entry.declarator = (tree.aliasOf type).bind tree.resolve? ∧
      ∀ name, type = .interface name → tree.Names name DeclKind.isObject := by
  have declared := loads.registered.kind?_eq_aliasOf loads.resolved listed means
  cases type with
  | interface name =>
    have object : tree.Names name DeclKind.isObject :=
      means.closes loads.registered loads.toReads.indexed loads.same loads.stores
        fun _ _ isSequence => by cases isSequence
    refine ⟨DeclTree.resolve?_of_alias loads.built.indexed loads.built.announced declared object,
      ?_⟩
    rintro _ ⟨⟩
    exact object
  | _ => exact ⟨DeclTree.resolve?_eq_none declared, fun _ absurd => by cases absurd⟩

/-- An interface that a name leads to comes from an entry of that name. -/
theorem exists_interface (loads : Loads root entries outline tree) {name : ScopedName} {id : DeclId}
    (leads : tree.find? name = some id) (isInterface : tree.isInterface id = true) :
    ∃ item short, (item, .interface short) ∈ entries ∧ item.id = id ∧
      item.scope.child short = name := by
  obtain ⟨parts, kind⟩ := DeclTree.isInterface_iff.mp isInterface
  rw [loads.find?_eq] at leads
  have bears := (loads.toReads.indexed.chosen name id leads).isIndexed
  obtain ⟨⟨item, content⟩, listed, indexed⟩ := loads.toReads.bears_indexed_iff.mp bears
  have shown := loads.shown listed
  have other : ∀ {decl : Decl}, tree.decl? id = some decl → decl.kind = .interface parts := by
    intro decl found
    rw [DeclTree.kind?, found] at kind
    exact Option.some.inj kind
  cases content with
  | interface short =>
    cases indexed
    exact ⟨item, short, listed, rfl, rfl⟩
  | forward =>
    cases indexed
    obtain ⟨target, stored⟩ := shown
    cases other stored
  | enum =>
    cases indexed
    cases other shown
  | typedef =>
    cases indexed
    obtain ⟨type, target, -, stored⟩ := shown
    cases other stored
  | _ => cases indexed

end Loads

/-! ## Trees of documents that state the same facts -/

/-- Two loaded documents that state the same facts, with every name declared once. -/
structure Twins (root otherRoot : Element) (entries otherEntries : List Entry)
    (outline otherOutline : Outline) (tree other : DeclTree) : Prop where
  loads : Loads root entries outline tree
  otherLoads : Loads otherRoot otherEntries otherOutline other
  same : root.facts.Perm otherRoot.facts
  distinct : Fact.Distinct root.facts

namespace Twins

variable {root otherRoot : Element} {entries otherEntries : List Entry}
  {outline otherOutline : Outline} {tree other : DeclTree}

theorem symm (twins : Twins root otherRoot entries otherEntries outline otherOutline tree other) :
    Twins otherRoot root otherEntries entries otherOutline outline other tree :=
  ⟨twins.otherLoads, twins.loads, twins.same.symm, twins.distinct.of_perm twins.same⟩

variable (twins : Twins root otherRoot entries otherEntries outline otherOutline tree other)

include twins

theorem agrees : outline.Agrees otherOutline :=
  (twins.loads.toReads.follows twins.distinct).agrees
    (twins.otherLoads.toReads.follows twins.symm.distinct) (fun _ => twins.same.mem_iff)
    twins.loads.registered twins.otherLoads.registered

/-- A name that leads somewhere leads to the same in the other tree. -/
theorem exists_lead {name : ScopedName} {id : DeclId} (leads : tree.find? name = some id) :
    ∃ otherId, other.find? name = some otherId ∧
      Outline.SameLead outline otherOutline (some id) (some otherId) := by
  rw [twins.loads.find?_eq] at leads
  rw [twins.otherLoads.find?_eq]
  exact twins.agrees.exists_lead leads

/-- The name of an object resolves to interfaces of that name, or to none. -/
theorem rel_resolve?_of_object
    {name : ScopedName} {id otherId : DeclId} (leads : tree.find? name = some id)
    (otherLeads : other.find? name = some otherId) (object : tree.Names name DeclKind.isObject) :
    Option.Rel (tree.Namesakes other) (tree.resolve? id) (other.resolve? otherId) := by
  obtain ⟨found, full, isFound, kind, isObject⟩ := object
  cases leads.symm.trans isFound
  obtain ⟨otherFound, otherIsFound, lead⟩ := twins.exists_lead leads
  cases otherLeads.symm.trans otherIsFound
  cases lead with
  | interface declared otherDeclared =>
    have isInterface := twins.loads.isInterface declared
    have otherInterface := twins.otherLoads.isInterface otherDeclared
    rw [DeclTree.resolve?_of_isInterface isInterface,
      DeclTree.resolve?_of_isInterface otherInterface]
    exact .some ⟨name, leads, otherLeads, isInterface, otherInterface⟩
  | forward declared otherDeclared =>
    rw [twins.loads.resolve?_of_forward leads declared,
      twins.otherLoads.resolve?_of_forward otherLeads otherDeclared]
    exact .none
  | enum declared | typedef declared =>
    obtain ⟨stored, sort, alike⟩ := twins.loads.exists_kind? declared
    cases kind.symm.trans sort
    cases full with
    | interface | forward => cases alike
    | _ => cases isObject

/-- **A name resolves to interfaces of one name in both trees, or to none in both.** -/
theorem rel_resolve? {name : ScopedName} {id otherId : DeclId} (leads : tree.find? name = some id)
    (otherLeads : other.find? name = some otherId) :
    Option.Rel (tree.Namesakes other) (tree.resolve? id) (other.resolve? otherId) := by
  obtain ⟨found, isFound, lead⟩ := twins.exists_lead leads
  cases otherLeads.symm.trans isFound
  cases lead with
  | interface declared | forward declared =>
    refine twins.rel_resolve?_of_object leads otherLeads (Outline.names_of_kind? twins.loads.same
      (fun kind => by cases kind <;> rfl) ?_ declared rfl)
    rw [← twins.loads.find?_eq, leads]
  | enum declared otherDeclared =>
    rw [twins.loads.resolve?_of_enum declared, twins.otherLoads.resolve?_of_enum otherDeclared]
    exact .none
  | typedef _ _ listed otherListed =>
    -- Both typedefs have the same meaning. If it is an object, its name leads to the same.
    obtain ⟨type, means⟩ :=
      (twins.loads.registered.meaningful twins.loads.resolved).aliases _ listed
    have otherMeans := twins.agrees.means_typedef means listed otherListed
    obtain ⟨resolves, object⟩ := twins.loads.resolve?_of_typedef listed means
    obtain ⟨otherResolves, -⟩ := twins.otherLoads.resolve?_of_typedef otherListed otherMeans
    rw [resolves, otherResolves]
    cases type with
    | interface target =>
      obtain ⟨next, -, nextLeads, -⟩ := object target rfl
      obtain ⟨otherNext, otherNextLeads, -⟩ := twins.exists_lead nextLeads
      rw [DeclTree.aliasOf, DeclTree.aliasOf, nextLeads, otherNextLeads]
      exact twins.rel_resolve?_of_object nextLeads otherNextLeads (object target rfl)
    | _ => exact .none

/-- Namesakes come from interface elements in the same scope and with the same parts. -/
theorem exists_items {id otherId : DeclId} (namesakes : tree.Namesakes other id otherId) :
    ∃ item otherItem short, (item, .interface short) ∈ entries ∧
      (otherItem, .interface short) ∈ otherEntries ∧ item.id = id ∧ otherItem.id = otherId ∧
      otherItem.scope = item.scope ∧ otherItem.element.parts = item.element.parts := by
  obtain ⟨name, leads, otherLeads, isInterface, otherInterface⟩ := namesakes
  obtain ⟨item, short, listed, number, rfl⟩ := twins.loads.exists_interface leads isInterface
  obtain ⟨otherItem, otherShort, otherListed, otherNumber, sameName⟩ :=
    twins.otherLoads.exists_interface otherLeads otherInterface
  obtain ⟨scope, rfl⟩ := ScopedName.child_inj sameName
  refine ⟨item, otherItem, _, listed, otherListed, number, otherNumber, scope, ?_⟩
  -- The fact of the first element is stated by the second, which alone declares the name.
  have stated := twins.same.mem_iff.mp (twins.loads.toReads.mem_facts listed rfl)
  obtain ⟨⟨partner, content⟩, isEntry, states⟩ :=
    twins.otherLoads.toReads.exists_entry_of_fact stated
  cases content with
  | interface partnerShort =>
    obtain ⟨sameScope, parts⟩ := Fact.interface.inj (Option.some.inj states)
    have declared : Entry.fact? (partner, .interface partnerShort) >>= Fact.declared? =
        some (item.scope.child otherShort) := congrArg some sameScope
    cases twins.otherLoads.toReads.eq_of_declared twins.symm.distinct isEntry otherListed declared
      (congrArg some sameName)
    exact parts
  | _ => cases states

/-! ## Corresponding interfaces -/

theorem forall₂_bases {id otherId : DeclId} (namesakes : tree.Namesakes other id otherId) :
    List.Forall₂
      (fun base otherBase => ∃ name, tree.find? name = some base ∧
        other.find? name = some otherBase)
      (tree.partOf DeclKind.bases id) (other.partOf DeclKind.bases otherId) := by
  obtain ⟨item, otherItem, short, listed, otherListed, rfl, rfl, scope, parts⟩ :=
    twins.exists_items namesakes
  have bases := twins.loads.bases_of_parts listed
  have otherBases := twins.otherLoads.bases_of_parts otherListed
  rw [parts, scope] at otherBases
  refine (forall₂_trans bases.flip otherBases).imp ?_
  rintro base otherBase ⟨reference, ⟨name, found⟩, otherName, otherFound⟩
  rw [DeclTree.lookup?_of_unresolved twins.loads.same] at found
  rw [DeclTree.lookup?_of_unresolved twins.otherLoads.same] at otherFound
  obtain ⟨partner, first, -⟩ :=
    twins.agrees.firstDeclared (DeclTree.lookup?_eq_some_iff.mp found)
  cases otherFound.symm.trans (DeclTree.lookup?_eq_some_iff.mpr first)
  obtain ⟨-, -, -, -, leads⟩ := DeclTree.lookup?_eq_some_iff.mp found
  obtain ⟨-, -, -, -, otherLeads⟩ := first
  refine ⟨name, ?_, ?_⟩
  · rw [twins.loads.find?_eq, leads]
  · rw [twins.otherLoads.find?_eq, otherLeads]

/-- **The interfaces that names lead to correspond, along with their bases.** -/
theorem corresponds :
    tree.Corresponds other (tree.Namesakes other) where
  functional := by
    rintro id otherId third ⟨name, leads, otherLeads, -⟩ ⟨again, alsoLeads, thirdLeads, -⟩
    have names := twins.loads.built.indexed.scopedName_of_find? leads
    rw [twins.loads.built.indexed.scopedName_of_find? alsoLeads] at names
    rw [names] at thirdLeads
    exact Option.some.inj (thirdLeads.symm.trans otherLeads)
  injective := by
    rintro id third otherId ⟨name, leads, otherLeads, -⟩ ⟨again, thirdLeads, alsoLeads, -⟩
    have names := twins.otherLoads.built.indexed.scopedName_of_find? otherLeads
    rw [twins.otherLoads.built.indexed.scopedName_of_find? alsoLeads] at names
    rw [names] at thirdLeads
    exact Option.some.inj (thirdLeads.symm.trans leads)
  resolved := by
    rintro id otherId ⟨-, -, -, isInterface, otherInterface⟩
    exact ⟨DeclTree.resolve?_of_isInterface isInterface,
      DeclTree.resolve?_of_isInterface otherInterface⟩
  bases := by
    intro id otherId namesakes
    rw [DeclTree.resolvedBases_eq, DeclTree.resolvedBases_eq]
    refine List.rel_filterMap ?_ (twins.forall₂_bases namesakes)
    rintro base otherBase ⟨name, leads, otherLeads⟩
    exact twins.rel_resolve? leads otherLeads

theorem scopedName_eq {id otherId : DeclId} (namesakes : tree.Namesakes other id otherId) :
    other.scopedName otherId = tree.scopedName id := by
  obtain ⟨name, leads, otherLeads, -⟩ := namesakes
  rw [twins.otherLoads.built.indexed.scopedName_of_find? otherLeads,
    twins.loads.built.indexed.scopedName_of_find? leads]

/-- Namesakes offer and inherit the same. -/
theorem sameInterface
    {id otherId : DeclId} (namesakes : tree.Namesakes other id otherId)
    {parts otherParts : Interface} (found : tree.interface? id = some parts)
    (otherFound : other.interface? otherId = some otherParts) :
    tree.SameInterface other (id, parts) (otherId, otherParts) := by
  have kind := DeclTree.interface?_eq_some_iff.mp found
  have otherKind := DeclTree.interface?_eq_some_iff.mp otherFound
  obtain ⟨item, otherItem, short, listed, otherListed, rfl, rfl, scope, parts⟩ :=
    twins.exists_items namesakes
  constructor
  · have callables := twins.loads.callables_of_parts listed
    have otherCallables := twins.otherLoads.callables_of_parts otherListed
    rw [DeclTree.listing, kind] at callables
    rw [parts, scope, DeclTree.listing, otherKind] at otherCallables
    refine map_eq_of_forall₂ ((forall₂_trans callables.flip otherCallables).imp ?_)
    rintro callable otherCallable ⟨content, ⟨offer, offered, presents⟩, otherOffer, otherOffered,
      otherPresents⟩
    rw [offered, otherOffered, presents.unique twins.agrees otherPresents]
  · have pragmas := twins.loads.pragmas_of_parts listed
    have otherPragmas := twins.otherLoads.pragmas_of_parts otherListed
    rw [parts, ← pragmas, DeclTree.partOf, DeclTree.partOf, kind, otherKind] at otherPragmas
    exact otherPragmas
  · have bases := twins.forall₂_bases namesakes
    rw [DeclTree.partOf, DeclTree.partOf, kind, otherKind] at bases
    refine bases.imp ?_
    rintro base otherBase ⟨name, leads, otherLeads⟩
    have resolved := twins.rel_resolve? leads otherLeads
    generalize tree.resolve? base = target at resolved ⊢
    generalize other.resolve? otherBase = otherTarget at resolved ⊢
    cases resolved with
    | none => rfl
    | some paired => exact congrArg some (twins.scopedName_eq paired)
  · exact map_eq_of_forall₂
      ((twins.corresponds.linearize namesakes).imp fun _ _ => twins.scopedName_eq)

/-- **A name leads to interfaces that offer and inherit the same, or to none in both trees.** -/
theorem rel_interfaceNamed? (name : ScopedName) :
    Option.Rel (tree.SameInterface other) (tree.interfaceNamed? name)
      (other.interfaceNamed? name) := by
  rw [DeclTree.interfaceNamed?, DeclTree.interfaceNamed?]
  cases leads : tree.find? name with
  | none =>
    rw [twins.loads.find?_eq] at leads
    rw [twins.otherLoads.find?_eq, twins.agrees.find?_eq_none leads]
    exact .none
  | some id =>
    obtain ⟨otherId, otherLeads, lead⟩ := twins.exists_lead leads
    rw [otherLeads, Option.bind_some, Option.bind_some]
    cases lead with
    | interface declared otherDeclared =>
      have isInterface := twins.loads.isInterface declared
      have otherInterface := twins.otherLoads.isInterface otherDeclared
      obtain ⟨parts, found⟩ := Option.isSome_iff_exists.mp isInterface
      obtain ⟨otherParts, otherFound⟩ := Option.isSome_iff_exists.mp otherInterface
      rw [found, otherFound]
      exact .some (twins.sameInterface ⟨name, leads, otherLeads, isInterface, otherInterface⟩ found
        otherFound)
    | forward declared otherDeclared | enum declared otherDeclared
      | typedef declared otherDeclared =>
      rw [twins.loads.interface?_eq_none declared rfl,
        twins.otherLoads.interface?_eq_none otherDeclared rfl]
      exact .none

end Twins

/-! ## Reordered documents -/

/-- A reordered document is accepted along with the original. -/
theorem Alike.exists_resolve {root otherRoot : Element} (alike : Alike root otherRoot)
    (distinct : Fact.Distinct root.facts) {outline : Outline} {tree : DeclTree}
    (read : Outline.ofRoot root = .ok outline) (resolved : outline.resolve = .ok tree) :
    ∃ otherOutline other, Outline.ofRoot otherRoot = .ok otherOutline ∧
      otherOutline.resolve = .ok other := by
  have same := alike.perm_facts
  have readable : ∃ otherOutline, Outline.ofRoot otherRoot = .ok otherOutline := by
    obtain ⟨tag, named, readable⟩ := Outline.exists_ofRoot_iff.mp ⟨outline, read⟩
    refine Outline.exists_ofRoot_iff.mpr ⟨alike.name.trans tag, ?_, ?_⟩
    · rw [alike.attr?_eq, named]
    · exact fun unreadable => readable (same.mem_iff.mpr unreadable)
  obtain ⟨otherOutline, otherRead⟩ := readable
  obtain ⟨entries, reads⟩ := exists_reads read
  obtain ⟨otherEntries, otherReads⟩ := exists_reads otherRead
  have registered := Outline.ofRoot_registers read
  have otherRegistered := Outline.ofRoot_registers otherRead
  have follows := reads.follows distinct
  have otherFollows := otherReads.follows (distinct.of_perm same)
  have agrees := follows.agrees otherFollows (fun _ => same.mem_iff) registered otherRegistered
  have back := otherFollows.agrees follows (fun _ => same.mem_iff.symm) otherRegistered registered
  obtain ⟨other, otherResolved⟩ :=
    otherRegistered.resolves (agrees.meaningful back (registered.meaningful resolved))
  exact ⟨otherOutline, other, otherRead, otherResolved⟩

/-- **The order of declarations does not matter.** Let every name be declared by one interface,
enumeration or typedef and announced only if it is no enumeration or typedef. If the children of the
root and of modules are reordered, at every level, the document is accepted exactly if it was. In
both trees, a name then leads to interfaces with the same callables and pragmas, with bases that
resolve to interfaces of the same name or to none, and with the same linearization, or to no
interface. -/
theorem reordering_keeps_interfaces {document otherDocument : String} {root otherRoot : Element}
    (parsed : Element.ofDocument document = .ok root)
    (otherParsed : Element.ofDocument otherDocument = .ok otherRoot)
    (alike : Alike root otherRoot) (distinct : Fact.Distinct root.facts) :
    ((∃ tree, DeclTree.ofDocument document = .ok tree) ↔
        ∃ other, DeclTree.ofDocument otherDocument = .ok other) ∧
      ∀ tree other, DeclTree.ofDocument document = .ok tree →
        DeclTree.ofDocument otherDocument = .ok other → ∀ name,
          Option.Rel (tree.SameInterface other) (tree.interfaceNamed? name)
            (other.interfaceNamed? name) := by
  simp only [DeclTree.ofDocument_eq parsed, DeclTree.ofDocument_eq otherParsed, bind_eq_ok_iff]
  refine ⟨⟨?_, ?_⟩, ?_⟩
  · rintro ⟨tree, outline, read, resolved⟩
    obtain ⟨otherOutline, other, accepted⟩ := alike.exists_resolve distinct read resolved
    exact ⟨other, otherOutline, accepted⟩
  · rintro ⟨other, otherOutline, read, resolved⟩
    obtain ⟨outline, tree, accepted⟩ :=
      alike.symm.exists_resolve (distinct.of_perm alike.perm_facts) read resolved
    exact ⟨tree, outline, accepted⟩
  · rintro tree other ⟨outline, read, resolved⟩ ⟨otherOutline, otherRead, otherResolved⟩ name
    obtain ⟨entries, loads⟩ := exists_loads read resolved
    obtain ⟨otherEntries, otherLoads⟩ := exists_loads otherRead otherResolved
    have twins : Twins root otherRoot entries otherEntries outline otherOutline tree other :=
      ⟨loads, otherLoads, alike.perm_facts, distinct⟩
    exact twins.rel_interfaceNamed? name

/-- An interface that uses an alias, for its base and for an attribute. -/
def aliasUser : Element :=
  ⟨"interface", [("name", "J")],
    [⟨"inherits", [("ref", "A")], [], ""⟩,
      ⟨"attribute", [("name", "p"), ("type", "A")], [], ""⟩], ""⟩

/-- A document in which everything is used before it is declared. -/
def usesFirst : Element :=
  ⟨"tree", [("file", "a.idl")],
    [⟨"forward", [("name", "I")], [], ""⟩,
      ⟨"module", [("name", "m")],
        [aliasUser, ⟨"typedef", [("name", "A"), ("type", "I")], [], ""⟩], ""⟩,
      ⟨"interface", [("name", "I")], [], ""⟩], ""⟩

/-- The same document with everything declared before it is used. -/
def declaresFirst : Element :=
  ⟨"tree", [("file", "a.idl")],
    [⟨"interface", [("name", "I")], [], ""⟩,
      ⟨"module", [("name", "m")],
        [⟨"typedef", [("name", "A"), ("type", "I")], [], ""⟩, aliasUser], ""⟩,
      ⟨"forward", [("name", "I")], [], ""⟩], ""⟩

def usesFirstDocument : String :=
  "<tree file=\"a.idl\"><forward name=\"I\"/><module name=\"m\"><interface name=\"J\">" ++
  "<inherits ref=\"A\"/><attribute name=\"p\" type=\"A\"/></interface>" ++
  "<typedef name=\"A\" type=\"I\"/></module><interface name=\"I\"/></tree>"

def declaresFirstDocument : String :=
  "<tree file=\"a.idl\"><interface name=\"I\"/><module name=\"m\">" ++
  "<typedef name=\"A\" type=\"I\"/><interface name=\"J\"><inherits ref=\"A\"/>" ++
  "<attribute name=\"p\" type=\"A\"/></interface></module><forward name=\"I\"/></tree>"

theorem alike_usesFirst : Alike usesFirst declaresFirst := by
  refine ⟨rfl, rfl, .inr rfl, .trans (.of_perm (List.reverse_perm _).symm) ?_⟩
  exact .cons (.inr rfl) (.refl _ _) (.cons (.inr rfl) (.swap _ _ _) (.refl _ _))

theorem usesFirstDocument_kept :
    ∃ tree other own theirs, DeclTree.ofDocument usesFirstDocument = .ok tree ∧
      DeclTree.ofDocument declaresFirstDocument = .ok other ∧
      tree.interfaceNamed? ⟨["m", "J"]⟩ = some own ∧
      other.interfaceNamed? ⟨["m", "J"]⟩ = some theirs ∧
      tree.SameInterface other own theirs ∧ own.1 = 2 ∧ theirs.1 = 4 ∧
      (tree.linearize own.1).map tree.scopedName = [⟨["m", "J"]⟩, ⟨["I"]⟩] := by
  have parsed : Element.ofDocument usesFirstDocument = .ok usesFirst := by cbv
  have otherParsed : Element.ofDocument declaresFirstDocument = .ok declaresFirst := by cbv
  have distinct : Fact.Distinct usesFirst.facts := by
    constructor <;> decide +kernel
  obtain ⟨-, kept⟩ := reordering_keeps_interfaces parsed otherParsed alike_usesFirst distinct
  have found : ((Outline.ofRoot usesFirst >>= Outline.resolve).toOption.bind fun tree =>
      (tree.interfaceNamed? ⟨["m", "J"]⟩).map fun own =>
        (own.1, (tree.linearize own.1).map tree.scopedName)) =
      some (2, [⟨["m", "J"]⟩, ⟨["I"]⟩]) := by
    decide +kernel
  have otherFound : ((Outline.ofRoot declaresFirst >>= Outline.resolve).toOption.bind fun other =>
      (other.interfaceNamed? ⟨["m", "J"]⟩).map Prod.fst) = some 4 := by
    decide +kernel
  rw [← DeclTree.ofDocument_eq parsed] at found
  rw [← DeclTree.ofDocument_eq otherParsed] at otherFound
  obtain ⟨tree, isTree, found⟩ := Option.bind_eq_some_iff.mp found
  obtain ⟨other, isOther, otherFound⟩ := Option.bind_eq_some_iff.mp otherFound
  obtain ⟨own, named, numbered⟩ := Option.map_eq_some_iff.mp found
  obtain ⟨theirs, otherNamed, otherNumbered⟩ := Option.map_eq_some_iff.mp otherFound
  obtain ⟨number, linearized⟩ := Prod.mk.inj numbered
  have same := kept tree other (eq_ok_of_toOption isTree) (eq_ok_of_toOption isOther) ⟨["m", "J"]⟩
  rw [named, otherNamed] at same
  cases same with
  | some same =>
    exact ⟨tree, other, own, theirs, eq_ok_of_toOption isTree, eq_ok_of_toOption isOther, named,
      otherNamed, same, number, otherNumbered, linearized⟩

end IdlBridge
