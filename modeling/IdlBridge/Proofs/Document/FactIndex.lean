import IdlBridge.Proofs.Document.Facts
import IdlBridge.Proofs.Document.Loading
import IdlBridge.Proofs.Document.Nesting

/-!
# Names by facts

If every name is declared once, the facts of a document say what each name leads to
(`Outline.Follows`): an interface, an enumeration, a typedef, a forward declaration if there is
nothing but forward declarations, and otherwise nothing. The order of the document has no part in
it, although the index of the tree is filled in that order (`Reads.follows`).
-/

set_option autoImplicit false

namespace IdlBridge

open Markup

/-- Members of a list that are chosen for the same value, if every value is chosen once. -/
theorem eq_of_nodup_filterMap {α β : Type} {choose : α → Option β} {list : List α}
    (once : (list.filterMap choose).Nodup) {first second : α} {value : β} (listed : first ∈ list)
    (alsoListed : second ∈ list) (chosen : choose first = some value)
    (alsoChosen : choose second = some value) : second = first := by
  induction list with
  | nil => cases listed
  | cons member list ih =>
    have absent : choose member = some value → ∀ other ∈ list, choose other ≠ some value := by
      intro here other later there
      rw [List.filterMap_cons, here, List.nodup_cons] at once
      exact once.1 (List.mem_filterMap.mpr ⟨other, later, there⟩)
    have rest : (list.filterMap choose).Nodup :=
      once.sublist ((List.sublist_cons_self member list).filterMap choose)
    rcases List.mem_cons.mp listed with rfl | later
    · rcases List.mem_cons.mp alsoListed with rfl | alsoLater
      · rfl
      · exact absurd alsoChosen (absent chosen second alsoLater)
    · rcases List.mem_cons.mp alsoListed with rfl | alsoLater
      · exact absurd chosen (absent alsoChosen first later)
      · exact ih rest later alsoLater

/-! ## Entries and their facts -/

namespace Entry

/-- The fact that an entry states. -/
def fact? (entry : Entry) : Option Fact :=
  entry.2.fact? entry.1.scope entry.1.around entry.1.element.parts

/-- The name under which an entry can be referred to, and the declaration that is meant. -/
def indexed? (entry : Entry) : Option (ScopedName × DeclId) :=
  match entry.2 with
  | .interface name | .forward name | .enum name _ => some (entry.1.scope.child name, entry.1.id)
  | .typedef name _ => some (entry.1.scope.child name, entry.1.id + 1)
  | _ => none

/-- The entry declares an interface. -/
def isInterface (entry : Entry) : Bool :=
  match entry.2 with
  | .interface _ => true
  | _ => false

variable {entry : Entry} {name : ScopedName} {id : DeclId}

theorem indexed?_of_decls {offset : Nat} {decl : Decl} (found : entry.decls[offset]? = some decl)
    (indexed : decl.kind.isIndexed = true) :
    entry.indexed? = some (decl.scopedName, entry.1.id + offset) ∧
      entry.isInterface = decl.kind.isInterface := by
  obtain ⟨item, content⟩ := entry
  have inside := (List.getElem?_eq_some_iff.mp found).1
  cases content with
  | typedef =>
    rcases offset with _ | _ | offset
    · cases found
      cases indexed
    · cases found
      exact ⟨rfl, rfl⟩
    · exact absurd inside (by simp [decls])
  | pragma | base => cases inside
  | interface | forward | enum =>
    rcases offset with _ | offset
    · cases found
      exact ⟨rfl, rfl⟩
    · exact absurd inside (by simp [decls])
  | _ =>
    rcases offset with _ | offset
    · cases found
      cases indexed
    · exact absurd inside (by simp [decls])

theorem exists_decl_of_indexed? (indexed : entry.indexed? = some (name, id)) :
    ∃ (offset : Nat) (decl : Decl), entry.decls[offset]? = some decl ∧ id = entry.1.id + offset ∧
      decl.scopedName = name ∧ decl.kind.isIndexed = true ∧
      decl.kind.isInterface = entry.isInterface := by
  obtain ⟨item, content⟩ := entry
  cases content with
  | interface | forward | enum =>
    cases indexed
    exact ⟨0, _, rfl, rfl, rfl, rfl, rfl⟩
  | typedef =>
    cases indexed
    exact ⟨1, _, rfl, rfl, rfl, rfl, rfl⟩
  | _ => cases indexed

/-- What can be referred to states a fact about its name. -/
theorem fact?_of_indexed? (indexed : entry.indexed? = some (name, id)) :
    ∃ fact, entry.fact? = some fact ∧
      (fact.declared? = some name ∨ fact = .forward name ∧ entry.isInterface = false) := by
  obtain ⟨item, content⟩ := entry
  cases content with
  | interface | enum | typedef =>
    cases indexed
    exact ⟨_, rfl, .inl rfl⟩
  | forward =>
    cases indexed
    exact ⟨_, rfl, .inr ⟨rfl, rfl⟩⟩
  | _ => cases indexed

end Entry

/-- Every declaration belongs to an entry. -/
theorem Laid.exists_entry {root : Element} {entries : List Entry} (laid : Laid root entries)
    {id : DeclId} {decl : Decl} (found : (entries.flatMap Entry.decls)[id]? = some decl) :
    ∃ entry ∈ entries, ∃ offset, entry.decls[offset]? = some decl ∧ id = entry.1.id + offset := by
  induction entries using List.reverseRecOn with
  | nil => cases found
  | append_singleton entries entry ih =>
    obtain ⟨number, -⟩ := laid.arranged (entries.map Prod.fst) entry.1 [] (by simp)
    rw [Nat.zero_add, ← laid.front.length_flatMap_decls] at number
    rw [List.flatMap_append, List.flatMap_singleton, List.getElem?_append] at found
    split at found
    · obtain ⟨other, listed, belongs⟩ := ih laid.front found
      exact ⟨other, List.mem_append_left _ listed, belongs⟩
    · rename_i beyond
      refine ⟨entry, List.mem_append_right _ List.mem_cons_self, _, found, ?_⟩
      rw [number, Nat.add_sub_cancel' (Nat.le_of_not_lt beyond)]

theorem DeclTree.bears_iff_bare {tree : DeclTree} {sort : Label → Bool} {name : ScopedName}
    {id : DeclId} :
    tree.Bears sort name id ↔ ∃ decl, tree.bare[id]? = some decl ∧ decl.scopedName = name ∧
      sort (decl.kind.label decl.scopedName) = true := by
  have label : ∀ decl : Decl,
      decl.bare.kind.label decl.bare.scopedName = decl.kind.label decl.scopedName := by
    rintro ⟨_, _, _, kind⟩
    cases kind <;> rfl
  rw [bears_iff, getElem?_bare]
  cases tree.decl? id with
  | none => simp
  | some decl =>
    simp only [Option.map_some, Option.some.injEq, exists_eq_left', label]
    rfl

namespace Reads

variable {root : Element} {entries : List Entry} {outline : Outline} {entry : Entry}
  {name : ScopedName} {id : DeclId}

theorem facts_eq (reads : Reads root entries outline) :
    root.facts = entries.filterMap Entry.fact? := by
  rw [Element.facts, ← reads.items, List.filterMap_map]
  refine List.filterMap_congr fun entry listed => ?_
  have read := Item.read_eq_ok_iff.mpr (reads.laid.carries entry listed)
  rw [Function.comp_apply, Item.fact?, read]
  rfl

theorem mem_facts (reads : Reads root entries outline) (listed : entry ∈ entries) {fact : Fact}
    (stated : entry.fact? = some fact) : fact ∈ root.facts := by
  rw [reads.facts_eq]
  exact List.mem_filterMap.mpr ⟨entry, listed, stated⟩

theorem exists_entry_of_fact (reads : Reads root entries outline) {fact : Fact}
    (stated : fact ∈ root.facts) : ∃ entry ∈ entries, entry.fact? = some fact := by
  rw [reads.facts_eq] at stated
  exact List.mem_filterMap.mp stated

theorem indexed (reads : Reads root entries outline) : outline.draft.tree.Indexed :=
  (Outline.nested_ofRoot reads.read).built.indexed

/-- What can be referred to under a name. -/
theorem bears_indexed_iff (reads : Reads root entries outline) :
    outline.draft.tree.Bears Label.isIndexed name id ↔
      ∃ entry ∈ entries, entry.indexed? = some (name, id) := by
  rw [DeclTree.bears_iff_bare]
  constructor
  · rintro ⟨decl, found, rfl, indexed⟩
    rw [reads.holds.bare] at found
    obtain ⟨entry, listed, offset, here, rfl⟩ := reads.laid.exists_entry found
    exact ⟨entry, listed, (Entry.indexed?_of_decls here indexed).1⟩
  · rintro ⟨entry, listed, indexed⟩
    obtain ⟨offset, decl, here, rfl, named, isIndexed, -⟩ := Entry.exists_decl_of_indexed? indexed
    exact ⟨decl, reads.holds.getElem?_bare reads.laid listed offset here, named, isIndexed⟩

/-- The interfaces of a name. -/
theorem bears_interface_iff (reads : Reads root entries outline) :
    outline.draft.tree.Bears Label.isInterface name id ↔
      ∃ entry ∈ entries, entry.indexed? = some (name, id) ∧ entry.isInterface = true := by
  rw [DeclTree.bears_iff_bare]
  constructor
  · rintro ⟨decl, found, rfl, isInterface⟩
    rw [reads.holds.bare] at found
    obtain ⟨entry, listed, offset, here, rfl⟩ := reads.laid.exists_entry found
    obtain ⟨indexed, same⟩ := Entry.indexed?_of_decls here
      (DeclKind.isIndexed_of_isInterface isInterface)
    exact ⟨entry, listed, indexed, same.trans isInterface⟩
  · rintro ⟨entry, listed, indexed, isInterface⟩
    obtain ⟨offset, decl, here, rfl, named, -, same⟩ := Entry.exists_decl_of_indexed? indexed
    exact ⟨decl, reads.holds.getElem?_bare reads.laid listed offset here, named,
      same.trans isInterface⟩

/-! ## Distinct names -/

/-- A name is declared by one entry. -/
theorem eq_of_declared (reads : Reads root entries outline) (distinct : Fact.Distinct root.facts)
    {other : Entry} (listed : entry ∈ entries) (otherListed : other ∈ entries)
    (declared : entry.fact?.bind Fact.declared? = some name)
    (otherDeclared : other.fact?.bind Fact.declared? = some name) : other = entry := by
  have once := distinct.once
  rw [reads.facts_eq, List.filterMap_filterMap] at once
  exact eq_of_nodup_filterMap once listed otherListed declared otherDeclared

/-- A name that is declared is not announced, unless it is the name of an interface. -/
theorem not_announced (reads : Reads root entries outline) (distinct : Fact.Distinct root.facts)
    (listed : entry ∈ entries) (declared : entry.fact?.bind Fact.declared? = some name)
    (notInterface : entry.isInterface = false) : Fact.forward name ∉ root.facts := by
  intro announced
  have plain : entry.fact?.bind Fact.plain? = some name := by
    obtain ⟨item, content⟩ := entry
    cases content with
    | interface => cases notInterface
    | enum | typedef => exact declared
    | _ => cases declared
  refine distinct.announced name (List.mem_filterMap.mpr ⟨_, announced, rfl⟩) ?_
  rw [reads.facts_eq, List.filterMap_filterMap]
  exact List.mem_filterMap.mpr ⟨entry, listed, plain⟩

/-- **A declared name leads to its declaration**, whatever stands before or behind it. -/
theorem find?_of_declared (reads : Reads root entries outline)
    (distinct : Fact.Distinct root.facts) (listed : entry ∈ entries)
    (declared : entry.fact?.bind Fact.declared? = some name)
    (indexed : entry.indexed? = some (name, id)) :
    outline.draft.tree.find? name = some id := by
  -- Everything of that name is the entry itself or announces it.
  have others : ∀ other ∈ entries, ∀ number, other.indexed? = some (name, number) →
      other = entry ∨ Fact.forward name ∈ root.facts ∧ other.isInterface = false := by
    intro other otherListed number otherIndexed
    obtain ⟨fact, stated, isDeclared | ⟨rfl, notInterface⟩⟩ := Entry.fact?_of_indexed? otherIndexed
    · refine .inl (reads.eq_of_declared distinct listed otherListed declared ?_)
      rw [stated, Option.bind_some, isDeclared]
    · exact .inr ⟨reads.mem_facts otherListed stated, notInterface⟩
  refine reads.indexed.find?_eq_some_iff.mpr ?_
  cases isInterface : entry.isInterface with
  | true =>
    refine .inl ⟨reads.bears_interface_iff.mpr ⟨entry, listed, indexed, isInterface⟩, ?_⟩
    intro later isLater bears
    obtain ⟨other, otherListed, otherIndexed, otherInterface⟩ := reads.bears_interface_iff.mp bears
    rcases others other otherListed later otherIndexed with rfl | ⟨-, notInterface⟩
    · cases indexed.symm.trans otherIndexed
      exact Nat.lt_irrefl _ isLater
    · rw [otherInterface] at notInterface
      cases notInterface
  | false =>
    have notAnnounced := reads.not_announced distinct listed declared isInterface
    refine .inr ⟨?_, reads.bears_indexed_iff.mpr ⟨entry, listed, indexed⟩, ?_⟩
    · intro number bears
      obtain ⟨other, otherListed, otherIndexed, otherInterface⟩ :=
        reads.bears_interface_iff.mp bears
      rcases others other otherListed number otherIndexed with rfl | ⟨announced, -⟩
      · rw [isInterface] at otherInterface
        cases otherInterface
      · exact notAnnounced announced
    · intro earlier isEarlier bears
      obtain ⟨other, otherListed, otherIndexed⟩ := reads.bears_indexed_iff.mp bears
      rcases others other otherListed earlier otherIndexed with rfl | ⟨announced, -⟩
      · cases indexed.symm.trans otherIndexed
        exact Nat.lt_irrefl _ isEarlier
      · exact notAnnounced announced

/-- A name that is announced and not declared leads to a forward declaration. -/
theorem find?_of_announced (reads : Reads root entries outline)
    (distinct : Fact.Distinct root.facts) (announced : Fact.forward name ∈ root.facts)
    (undeclared : ∀ parts, Fact.interface name parts ∉ root.facts) :
    ∃ item short, (item, Content.forward short) ∈ entries ∧
      outline.draft.tree.find? name = some item.id := by
  obtain ⟨⟨item, content⟩, listed, stated⟩ := reads.exists_entry_of_fact announced
  have indexed : ∃ id, Entry.indexed? (item, content) = some (name, id) := by
    cases content with
    | forward short =>
      cases stated
      exact ⟨item.id, rfl⟩
    | _ => cases stated
  obtain ⟨first, isIndexed⟩ := indexed
  cases found : outline.draft.tree.find? name with
  | none =>
    exact absurd (reads.bears_indexed_iff.mpr ⟨_, listed, isIndexed⟩)
      (reads.indexed.find?_eq_none_iff.mp found first)
  | some id =>
    -- Whatever the name leads to is one of its forward declarations, since nothing declares it.
    obtain ⟨⟨other, said⟩, otherListed, otherIndexed⟩ :=
      reads.bears_indexed_iff.mp (reads.indexed.chosen name id found).isIndexed
    cases said with
    | forward short =>
      cases otherIndexed
      exact ⟨other, short, otherListed, rfl⟩
    | interface short =>
      cases otherIndexed
      exact absurd (reads.mem_facts otherListed rfl) (undeclared _)
    | enum | typedef =>
      cases otherIndexed
      exact absurd announced (reads.not_announced distinct otherListed rfl rfl)
    | _ => cases otherIndexed

end Reads

/-! ## What names lead to -/

theorem DeclTree.exists_kind?_of_bare {tree : DeclTree} {id : DeclId} {decl : Decl}
    (found : tree.bare[id]? = some decl) :
    ∃ kind, tree.kind? id = some kind ∧ kind.bare = decl.kind := by
  rw [getElem?_bare, Option.map_eq_some_iff] at found
  obtain ⟨full, here, rfl⟩ := found
  exact ⟨full.kind, by rw [kind?, here]; rfl, rfl⟩

/-- The names of an outline lead where the facts say, and it registers the references among them. -/
structure Outline.Follows (outline : Outline) (facts : List Fact) : Prop where
  interface : ∀ name parts, .interface name parts ∈ facts → ∃ id contents,
    outline.draft.tree.find? name = some id ∧
      outline.draft.tree.kind? id = some (.interface contents)
  enum : ∀ name, .enum name ∈ facts → ∃ id enumerators,
    outline.draft.tree.find? name = some id ∧
      outline.draft.tree.kind? id = some (.enum enumerators)
  typedef : ∀ scope name expression, .typedef scope name expression ∈ facts →
    ∃ declarator target, outline.draft.tree.find? name = some declarator ∧
      outline.draft.tree.kind? declarator = some (.declarator target) ∧
      ⟨declarator, name, expression, scope⟩ ∈ outline.aliases
  forward : ∀ name, .forward name ∈ facts → (∀ parts, .interface name parts ∉ facts) →
    ∃ id target, outline.draft.tree.find? name = some id ∧
      outline.draft.tree.kind? id = some (.forward target)
  nothing : ∀ name, (∀ fact ∈ facts, fact.declared? ≠ some name ∧ fact ≠ .forward name) →
    outline.draft.tree.find? name = none
  aliases : ∀ entry ∈ outline.aliases, .typedef entry.scope entry.name entry.expression ∈ facts
  callables : ∀ scope text, .callable scope text ∈ facts ↔
    ∃ callable ∈ outline.callables, callable.scope = scope ∧ callable.text = text
  bases : ∀ scope reference, .base scope reference ∈ facts ↔
    ∃ base ∈ outline.bases, base.scope = scope ∧ base.reference = reference

namespace Reads

variable {root : Element} {entries : List Entry} {outline : Outline}

theorem exists_kind? (reads : Reads root entries outline) {entry : Entry} (listed : entry ∈ entries)
    (offset : Nat) {decl : Decl} (found : entry.decls[offset]? = some decl) :
    ∃ kind, outline.draft.tree.kind? (entry.1.id + offset) = some kind ∧ kind.bare = decl.kind :=
  DeclTree.exists_kind?_of_bare (reads.holds.getElem?_bare reads.laid listed offset found)

theorem callable_mem_facts_iff (reads : Reads root entries outline) (scope : ScopedName)
    (text : CallableText) :
    Fact.callable scope text ∈ root.facts ↔
      ∃ callable ∈ outline.callables, callable.scope = scope ∧ callable.text = text := by
  rw [reads.holds.callables]
  constructor
  · intro stated
    obtain ⟨⟨item, content⟩, listed, states⟩ := reads.exists_entry_of_fact stated
    cases content with
    | operation | attributes =>
      cases states
      exact ⟨_, List.mem_filterMap.mpr ⟨_, listed, rfl⟩, rfl, rfl⟩
    | _ => cases states
  · rintro ⟨callable, isOpen, rfl, rfl⟩
    obtain ⟨⟨item, content⟩, listed, opened⟩ := List.mem_filterMap.mp isOpen
    cases content with
    | operation | attributes =>
      cases opened
      exact reads.mem_facts listed rfl
    | _ => cases opened

theorem base_mem_facts_iff (reads : Reads root entries outline) (scope : ScopedName)
    (reference : String) :
    Fact.base scope reference ∈ root.facts ↔
      ∃ base ∈ outline.bases, base.scope = scope ∧ base.reference = reference := by
  rw [reads.holds.bases]
  constructor
  · intro stated
    obtain ⟨⟨item, content⟩, listed, states⟩ := reads.exists_entry_of_fact stated
    cases content with
    | base =>
      cases states
      exact ⟨_, List.mem_filterMap.mpr ⟨_, listed, rfl⟩, rfl, rfl⟩
    | _ => cases states
  · rintro ⟨base, isOpen, rfl, rfl⟩
    obtain ⟨⟨item, content⟩, listed, opened⟩ := List.mem_filterMap.mp isOpen
    cases content with
    | base =>
      cases opened
      exact reads.mem_facts listed rfl
    | _ => cases opened

/-- **Names lead where the facts of the document say.** -/
theorem follows (reads : Reads root entries outline) (distinct : Fact.Distinct root.facts) :
    outline.Follows root.facts where
  interface name parts stated := by
    obtain ⟨⟨item, content⟩, listed, states⟩ := reads.exists_entry_of_fact stated
    cases content with
    | interface =>
      cases states
      obtain ⟨kind, found, bare⟩ := reads.exists_kind? listed 0 rfl
      cases kind with
      | interface contents =>
        exact ⟨item.id, contents, reads.find?_of_declared distinct listed rfl rfl, found⟩
      | _ => cases bare
    | _ => cases states
  enum name stated := by
    obtain ⟨⟨item, content⟩, listed, states⟩ := reads.exists_entry_of_fact stated
    cases content with
    | enum =>
      cases states
      obtain ⟨kind, found, bare⟩ := reads.exists_kind? listed 0 rfl
      cases kind with
      | enum enumerators =>
        exact ⟨item.id, enumerators, reads.find?_of_declared distinct listed rfl rfl, found⟩
      | _ => cases bare
    | _ => cases states
  typedef scope name expression stated := by
    obtain ⟨⟨item, content⟩, listed, states⟩ := reads.exists_entry_of_fact stated
    cases content with
    | typedef =>
      cases states
      obtain ⟨kind, found, bare⟩ := reads.exists_kind? listed 1 rfl
      cases kind with
      | declarator target =>
        refine ⟨item.id + 1, target, reads.find?_of_declared distinct listed rfl rfl, found, ?_⟩
        rw [reads.holds.aliases]
        exact List.mem_filterMap.mpr ⟨_, listed, rfl⟩
      | _ => cases bare
    | _ => cases states
  forward name stated undeclared := by
    obtain ⟨item, short, listed, leads⟩ := reads.find?_of_announced distinct stated undeclared
    obtain ⟨kind, found, bare⟩ := reads.exists_kind? listed 0 rfl
    cases kind with
    | forward target => exact ⟨item.id, target, leads, found⟩
    | _ => cases bare
  nothing name unstated := by
    refine reads.indexed.find?_eq_none_iff.mpr fun id bears => ?_
    obtain ⟨entry, listed, indexed⟩ := reads.bears_indexed_iff.mp bears
    obtain ⟨fact, stated, declares | ⟨announces, -⟩⟩ := Entry.fact?_of_indexed? indexed
    · exact (unstated fact (reads.mem_facts listed stated)).1 declares
    · exact (unstated fact (reads.mem_facts listed stated)).2 announces
  aliases entry isAlias := by
    rw [reads.holds.aliases] at isAlias
    obtain ⟨⟨item, content⟩, listed, named⟩ := List.mem_filterMap.mp isAlias
    cases content with
    | typedef =>
      cases named
      exact reads.mem_facts listed rfl
    | _ => cases named
  callables := reads.callable_mem_facts_iff
  bases := reads.base_mem_facts_iff

end Reads

end IdlBridge
