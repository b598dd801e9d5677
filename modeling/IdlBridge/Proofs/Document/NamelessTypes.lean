import IdlBridge.Proofs.DeclTree.Forwards
import IdlBridge.Proofs.Document.Kinds
import IdlBridge.Proofs.Document.Nesting
import IdlBridge.Proofs.Document.Offers
import IdlBridge.Proofs.Markup.RoundTrip
import IdlBridge.Proofs.Text.Braces

/-!
# References without a name

A type expression may have no name at all: it is blank, or it consists of `::` marks. The candidates
for such a reference are the scopes around it themselves. A mark is read from the global scope only,
where nothing is declared without a name, so a document with it is rejected. A blank expression is
looked up like any other and stands for the innermost scope around it whose name leads to a
declaration (`Loads.exists_lookup`). Inside an interface that is the interface itself
(`Loads.types_of_nameless`).
-/

set_option autoImplicit false

namespace IdlBridge

open Markup

/-! ## Blank expressions -/

namespace Text

/-- Cutting a text into words loses nothing but its blanks. -/
theorem flatten_wordsOf (text : List Char) :
    (wordsOf text).flatten = text.filter fun c => !isBlank c := by
  fun_induction wordsOf text with
  | case1 => rfl
  | case2 c text blank ih => simpa [blank] using ih
  | case3 c dark d text run runs blank cut ih =>
    rw [cut] at ih
    simp [cut, blank, dark, ih]
  | case4 c dark d text run runs alsoDark cut ih =>
    rw [cut] at ih
    simpa [cut, alsoDark, dark] using ih
  | case5 c text dark none ih =>
    cases text with
    | nil => simp [wordsOf, dark]
    | cons d text =>
      cases cut : wordsOf (d :: text) with
      | nil =>
        rw [cut] at ih
        simpa [cut, dark] using ih
      | cons run runs => exact (none d text run runs rfl cut).elim

end Text

namespace ScopedName

variable {scope name : ScopedName} {text : String}

/-- Blank pieces between marks, the first of which does not begin the text, are a blank text. -/
theorem isBlank_of_splitScopes {text : List Char}
    (blank : ∀ piece ∈ splitScopes text, ∀ c ∈ piece, Text.isBlank c = true)
    (relative : [':', ':'].isPrefixOf (Text.trimFront text) = false) :
    ∀ c ∈ text, Text.isBlank c = true := by
  fun_induction splitScopes text with
  | case1 => simp
  | case2 text ih =>
    have dark : Text.trimFront (':' :: ':' :: text) = ':' :: ':' :: text :=
      List.dropWhile_cons_of_neg (by decide)
    simp [dark] at relative
  | case3 c text _ none ih => exact absurd none (splitScopes_ne_nil text)
  | case4 c text _ piece pieces cut ih =>
    rw [List.forall_mem_cons, List.forall_mem_cons] at blank
    obtain ⟨⟨first, rest⟩, others⟩ := blank
    have front : Text.trimFront (c :: text) = Text.trimFront text :=
      List.dropWhile_cons_of_pos first
    rw [front] at relative
    rw [cut] at ih
    exact List.forall_mem_cons.mpr
      ⟨first, ih (List.forall_mem_cons.mpr ⟨rest, others⟩) relative⟩

/-- The pieces of a reference without a name are blank. -/
theorem isBlank_pieces (nameless : (ofText text).isRoot = true) :
    ∀ piece ∈ splitScopes text.toList, ∀ c ∈ piece, Text.isBlank c = true := by
  have empty : ∀ piece ∈ splitScopes text.toList, Text.trimChars piece = [] := by
    simpa [ofText, isRoot] using nameless
  exact fun piece listed => Text.isBlank_of_trimChars (empty piece listed)

/-- A reference without a name that is not read from the global scope is blank. -/
theorem isBlank_of_nameless (nameless : (ofText text).isRoot = true)
    (relative : isAbsolute text = false) : ∀ c ∈ text.toList, Text.isBlank c = true :=
  isBlank_of_splitScopes (isBlank_pieces nameless) relative

/-- A character that is neither a blank nor part of a mark. -/
def isNaming (c : Char) : Bool :=
  !(Text.isBlank c || c == ':')

theorem avoids_of_nameless (nameless : (ofText text).isRoot = true) :
    Text.Avoids isNaming text := by
  intro c listed
  rcases mem_splitScopes listed with rfl | ⟨piece, isPiece, inside⟩
  · decide
  · simp [isNaming, isBlank_pieces nameless piece isPiece c inside]

/-- A reference without a name is no keyword. -/
theorem ofText?_of_nameless (nameless : (ofText text).isRoot = true) :
    BasicType.ofText? text = none := by
  have words : ∀ word ∈ Text.words text, Text.Avoids isNaming word := by
    intro word isWord c listed
    obtain ⟨chars, isRun, rfl⟩ := List.mem_map.mp isWord
    rw [String.toList_ofList] at listed
    have inside : c ∈ (Text.wordsOf text.toList).flatten := List.mem_flatten.mpr ⟨_, isRun, listed⟩
    rw [Text.flatten_wordsOf] at inside
    exact avoids_of_nameless nameless c (List.mem_of_mem_filter inside)
  have joined : Text.Avoids isNaming (Text.join " " (Text.words text)) :=
    .join (.ofChars [' '] rfl) words
  rw [BasicType.ofText?, BasicType.ofSpelling?, List.find?_eq_none]
  intro basic _ spelled
  rw [← beq_iff_eq.mp spelled] at joined
  revert joined
  cases basic <;> decide

/-- A candidate is a scope around the reference, followed by its components. -/
theorem exists_of_mem_candidates (listed : name ∈ scope.candidates text) :
    ∃ outer : ScopedName, outer.parts <+: scope.parts ∧ name = outer.append (ofText text) ∧
      (isAbsolute text = true → outer = .root) := by
  rw [candidates] at listed
  split at listed
  · cases List.mem_singleton.mp listed
    exact ⟨.root, List.nil_prefix, rfl, fun _ => rfl⟩
  · rename_i relative
    obtain ⟨outer, isOuter, rfl⟩ := List.mem_map.mp listed
    obtain ⟨depth, -, rfl⟩ := List.mem_map.mp isOuter
    exact ⟨_, List.take_prefix depth scope.parts, rfl, fun absolute => absurd absolute relative⟩

theorem head?_enclosing (scope : ScopedName) : scope.enclosing.head? = some scope := by
  simp [enclosing, List.range_succ, length]

/-- The first candidate of a reference without a name is the scope in which it stands. -/
theorem head?_candidates (scope : ScopedName) (nameless : (ofText text).isRoot = true)
    (relative : isAbsolute text = false) : (scope.candidates text).head? = some scope := by
  have whole : scope.append (ofText text) = scope := by
    rw [append, List.isEmpty_iff.mp nameless, List.append_nil]
  rw [candidates, if_neg (by simp [relative]), List.head?_map, head?_enclosing, Option.map_some,
    whole]

end ScopedName

theorem Outline.Means.exists_standsFor {outline : Outline} {scope : ScopedName} {text : String}
    {type : IdlType} (means : outline.Means (.expression scope text) type)
    (notBasic : BasicType.ofText? text = none) :
    ∃ name id, outline.StandsFor scope text name id := by
  cases means with
  | basic spelled =>
    rw [notBasic] at spelled
    cases spelled
  | interface stands | forward stands | enum stands | named stands => exact ⟨_, _, stands⟩

/-! ## References of a document -/

/-- The type expressions of a content. A typedef of a sequence has the one for the elements. -/
def Content.references : Content → List String
  | typedef _ expression => [(sequenceElement? expression).getD expression]
  | operation _ returns params => returns :: params.map (·.type)
  | attributes _ _ type => [type]
  | _ => []

/-- The type expressions of an item, with the scope in which they are read. -/
def Item.references (item : Item) : List (ScopedName × String) :=
  match item.read with
  | .ok content => content.references.map (item.scope, ·)
  | .error _ => []

/-- The type expressions of a document. -/
def Markup.Element.references (root : Element) : List (ScopedName × String) :=
  root.items.flatMap Item.references

theorem Markup.Element.mem_references {root : Element} {scope : ScopedName} {text : String} :
    (scope, text) ∈ root.references ↔ ∃ item ∈ root.items, ∃ content, item.read = .ok content ∧
      item.scope = scope ∧ text ∈ content.references := by
  rw [references, List.mem_flatMap]
  refine exists_congr fun item => and_congr_right fun _ => ?_
  rw [Item.references]
  cases item.read with
  | error cause => simp
  | ok content => simp [and_comm]

/-- Every declaration is named as a member of a scope. -/
theorem Entry.scopedName_eq {entry : Entry} {decl : Decl} (listed : decl ∈ entry.decls) :
    decl.scopedName = entry.1.scope.child decl.name := by
  obtain ⟨item, content⟩ := entry
  cases content with
  | typedef name expression => rcases List.mem_pair.mp listed with rfl | rfl <;> rfl
  | pragma | base => cases listed
  | module | interface | forward | enum | operation | attributes =>
    cases List.mem_singleton.mp listed
    rfl

/-- A name that an interface has leads to an interface. -/
theorem DeclTree.Indexed.exists_interface {tree : DeclTree} (indexed : tree.Indexed)
    {name : ScopedName} {id : DeclId} (bears : tree.Bears Label.isInterface name id) :
    ∃ other parts, tree.find? name = some other ∧ tree.kind? other = some (.interface parts) := by
  cases found : tree.find? name with
  | none => exact absurd bears.isIndexed (indexed.absent name found id)
  | some other =>
    rcases indexed.chosen name other found with ⟨interface, -⟩ | ⟨none, -⟩
    · obtain ⟨decl, here, -, isInterface⟩ := bears_iff.mp interface
      obtain ⟨parts, kind⟩ := DeclKind.isInterface_iff.mp isInterface
      exact ⟨other, parts, rfl, by rw [kind?, here, Option.map_some, kind]⟩
    · exact absurd bears (none id)

namespace Reads

variable {root : Element} {entries : List Entry} {outline : Outline}

/-- Nothing is declared without a name. -/
theorem find?_root (reads : Reads root entries outline) :
    outline.draft.tree.find? .root = none := by
  have indexed : outline.draft.tree.Indexed := (Outline.nested_ofRoot reads.read).built.indexed
  rw [indexed.find?_eq_none_iff]
  intro id bears
  obtain ⟨decl, found, named, -⟩ := DeclTree.bears_iff.mp bears
  have bare : outline.draft.tree.bare[id]? = some decl.bare := by
    rw [DeclTree.getElem?_bare, found]
    rfl
  rw [reads.holds.bare] at bare
  obtain ⟨entry, -, made⟩ := List.mem_flatMap.mp (List.mem_of_getElem? bare)
  have child := Entry.scopedName_eq made
  rw [Decl.bare, named] at child
  simp [ScopedName.root, ScopedName.child] at child

end Reads

namespace Loads

variable {root : Element} {entries : List Entry} {outline : Outline} {tree : DeclTree}

theorem mem_entries (loads : Loads root entries outline tree) {item : Item} {content : Content}
    (listed : item ∈ root.items) (read : item.read = .ok content) : (item, content) ∈ entries := by
  obtain ⟨carried, isEntry⟩ := loads.exists_entry listed
  have own := Item.read_eq_ok_iff.mpr (loads.laid.carries _ isEntry)
  cases own.symm.trans read
  exact isEntry

theorem indexed (loads : Loads root entries outline tree) : tree.Indexed := by
  obtain ⟨draft, nested, rfl⟩ :=
    Outline.nested_resolve (Outline.nested_ofRoot loads.read) loads.resolved
  exact nested.built.indexed

/-- A typedef has the type that it makes of the meaning of its target. -/
theorem typedef (loads : Loads root entries outline tree) {item : Item} {name expression : String}
    (listed : (item, .typedef name expression) ∈ entries) :
    ∃ type, tree.kind? item.id = some (.typedef type [item.id + 1]) ∧
      ∃ target, outline.Means
          (.expression item.scope ((sequenceElement? expression).getD expression)) target ∧
        TypeAlias.wrap ⟨item.id + 1, item.scope.child name, expression, item.scope⟩ target =
          .ok type := by
  obtain ⟨type, -, stored, -⟩ := loads.shown listed
  have kind : tree.kind? item.id = some (.typedef type [item.id + 1]) := by
    rw [DeclTree.kind?, stored]
    rfl
  obtain ⟨entry, -, own, means⟩ := loads.stores.typedef_registered _ _ _ kind
  rw [← List.singleton_inj.mp own] at means
  have aliased : ⟨item.id + 1, item.scope.child name, expression, item.scope⟩ ∈
      outline.aliases := by
    rw [loads.holds.aliases]
    exact List.mem_filterMap.mpr ⟨_, listed, rfl⟩
  obtain ⟨other, isOther, same, target, meant, wrapped⟩ := means.exists_target loads.registered
  cases loads.registered.alias_unique aliased isOther same
  exact ⟨type, kind, target, meant, wrapped⟩

/-- Every type expression of a document that can be loaded has a meaning. -/
theorem exists_means (loads : Loads root entries outline tree) {scope : ScopedName} {text : String}
    (listed : (scope, text) ∈ root.references) :
    ∃ type, outline.Means (.expression scope text) type := by
  have meaningful := loads.registered.meaningful loads.resolved
  obtain ⟨item, isItem, content, read, rfl, written⟩ := Element.mem_references.mp listed
  have isEntry := loads.mem_entries isItem read
  have callable : ∀ callable, Entry.openCallable? (item, content) = some callable →
      callable ∈ outline.callables := by
    intro callable opened
    rw [loads.holds.callables]
    exact List.mem_filterMap.mpr ⟨_, isEntry, opened⟩
  cases content with
  | typedef name expression =>
    cases List.mem_singleton.mp written
    obtain ⟨-, -, target, meant, -⟩ := loads.typedef isEntry
    exact ⟨target, meant⟩
  | operation name returns params => exact meaningful.callables _ (callable _ rfl) text written
  | attributes names readonly type => exact meaningful.callables _ (callable _ rfl) text written
  | _ => cases written

/-- Every type expression of a document that can be loaded is a keyword, or it is looked up to a
declaration whose name is a scope around the expression followed by its components. -/
theorem exists_lookup (loads : Loads root entries outline tree) {scope : ScopedName} {text : String}
    (listed : (scope, text) ∈ root.references) (notBasic : BasicType.ofText? text = none) :
    ∃ outer id, outer.parts <+: scope.parts ∧
      tree.lookup? scope text = some (ScopedName.append outer (.ofText text), id) ∧
      tree.Declares DeclKind.Referable (outer.append (.ofText text)) id ∧
      ((ScopedName.ofText text).isRoot = true →
        ScopedName.isAbsolute text = false ∧ outer ≠ .root) := by
  obtain ⟨type, means⟩ := loads.exists_means listed
  obtain ⟨name, id, stands⟩ := means.exists_standsFor notBasic
  obtain ⟨before, after, split, -, found⟩ := stands.first
  obtain ⟨outer, around, rfl, absolute⟩ :=
    ScopedName.exists_of_mem_candidates (split ▸ List.mem_append_right before List.mem_cons_self)
  have looked : tree.lookup? scope text = _ :=
    (DeclTree.lookup?_of_unresolved loads.same scope text).trans
      (DeclTree.lookup?_eq_some_iff.mpr stands.first)
  have alsoFound := (DeclTree.find?_of_unresolved loads.same _).trans found
  have declared := DeclTree.bears_isIndexed_iff.mp (loads.indexed.chosen _ id alsoFound).isIndexed
  refine ⟨outer, id, around, looked, declared, ?_⟩
  intro nameless
  -- The scope alone is what is found, and the global scope is never found.
  have whole : outer.append (.ofText text) = outer := by
    rw [ScopedName.append, List.isEmpty_iff.mp nameless, List.append_nil]
  have inside : outer ≠ .root := by
    rintro rfl
    rw [whole, loads.find?_root] at found
    cases found
  exact ⟨Bool.eq_false_iff.mpr fun isAbsolute => inside (absolute isAbsolute), inside⟩

theorem isAbsolute_of_nameless (loads : Loads root entries outline tree) {scope : ScopedName}
    {text : String} (listed : (scope, text) ∈ root.references)
    (nameless : (ScopedName.ofText text).isRoot = true) : ScopedName.isAbsolute text = false := by
  obtain ⟨outer, -, -, -, -, inside⟩ :=
    loads.exists_lookup listed (ScopedName.ofText?_of_nameless nameless)
  exact (inside nameless).1

/-- The scope of what stands in an interface is the name of an interface. -/
theorem find?_scope (loads : Loads root entries outline tree) {item : Item}
    (isItem : item ∈ root.items) (isPart : ¬ item.place.isScope = true) :
    ∃ id parts, outline.draft.tree.find? item.scope = some id ∧
      outline.draft.tree.kind? id = some (.interface parts) := by
  obtain ⟨number, place⟩ := Item.exists_interface isPart
  rcases root.arranged_items.exists_opener isItem with ⟨here, -⟩ | ⟨around, isAround, opens, -⟩
  · rw [place] at here
    cases here
  · obtain ⟨content, isEntry⟩ := loads.exists_entry isAround
    rw [place] at opens
    obtain ⟨name, -, ⟨-, same⟩ | ⟨rfl, same⟩⟩ := (loads.laid.carries _ isEntry).of_inner? opens
    · cases same
    · cases same
      have bare := loads.holds.getElem?_bare loads.laid isEntry 0 rfl
      rw [DeclTree.getElem?_bare, Option.map_eq_some_iff] at bare
      obtain ⟨decl, found, blank⟩ := bare
      have bears : outline.draft.tree.Bears Label.isInterface item.scope around.id := by
        have named : decl.scopedName = around.scope.child name := congrArg Decl.scopedName blank
        have kind : decl.kind.bare = .interface .empty := congrArg Decl.kind blank
        refine DeclTree.bears_iff.mpr ⟨decl, found, ?_, ?_⟩
        · rw [named, loads.scope_of_place isEntry isItem place]
        · cases shape : decl.kind with
          | interface => rfl
          | _ => simp [shape, DeclKind.bare] at kind
      exact (Outline.nested_ofRoot loads.read).built.indexed.exists_interface bears

/-- Inside an interface, an expression without a name means the interface. -/
theorem means_of_nameless (loads : Loads root entries outline tree) {item : Item}
    (isItem : item ∈ root.items) (isPart : ¬ item.place.isScope = true) {text : String}
    (nameless : (ScopedName.ofText text).isRoot = true)
    (relative : ScopedName.isAbsolute text = false) :
    outline.Means (.expression item.scope text) (.interface item.scope) := by
  obtain ⟨id, parts, found, kind⟩ := loads.find?_scope isItem isPart
  have blank := Text.trimChars_of_isBlank (ScopedName.isBlank_of_nameless nameless relative)
  have notSequence : sequenceElement? text = none := by
    rw [sequenceElement?, blank]
    rfl
  obtain ⟨others, split⟩ :=
    List.head?_eq_some_iff.mp (ScopedName.head?_candidates item.scope nameless relative)
  have first : outline.draft.tree.FirstDeclared (item.scope.candidates text) item.scope id :=
    ⟨[], others, split, by simp, found⟩
  exact .interface ⟨ScopedName.ofText?_of_nameless nameless, notSequence, first⟩ kind

/-- Inside an interface, a typedef without a name stands for the interface. -/
theorem typedef_of_nameless (loads : Loads root entries outline tree) {item : Item}
    {name expression : String} (isItem : item ∈ root.items)
    (read : item.read = .ok (.typedef name expression)) (isPart : ¬ item.place.isScope = true)
    (nameless :
      (ScopedName.ofText ((sequenceElement? expression).getD expression)).isRoot = true) :
    tree.kind? item.id = some (.typedef
      (if (sequenceElement? expression).isSome then
        .sequence (item.scope.child name) (.interface item.scope)
      else .interface item.scope) [item.id + 1]) := by
  have isReference : (item.scope, (sequenceElement? expression).getD expression) ∈
      root.references :=
    Element.mem_references.mpr ⟨item, isItem, _, read, rfl, List.mem_cons_self⟩
  have relative := loads.isAbsolute_of_nameless isReference nameless
  obtain ⟨type, kind, target, means, wrapped⟩ := loads.typedef (loads.mem_entries isItem read)
  cases (loads.means_of_nameless isItem isPart nameless relative).unique loads.registered means
  rw [kind]
  rw [TypeAlias.wrap] at wrapped
  split at wrapped <;> cases wrapped <;> simp [*]

/-- Inside an interface, an expression without a name stands for the interface. -/
theorem types_of_nameless (loads : Loads root entries outline tree) {item : Item}
    {content : Content} (isItem : item ∈ root.items) (read : item.read = .ok content)
    (callable : content.isCallable? = some true) :
    ∃ kind, tree.kind? item.id = some kind ∧
      List.Forall₂ (fun text type => (ScopedName.ofText text).isRoot = true →
        type = .interface item.scope) content.references kind.exchanged := by
  have isEntry := loads.mem_entries isItem read
  have carries := loads.laid.carries _ isEntry
  obtain ⟨callable, opened, isPart, same, here⟩ : ∃ callable,
      Entry.openCallable? (item, content) = some callable ∧ ¬ item.place.isScope = true ∧
        callable.text.expressions = content.references ∧ callable.scope = item.scope := by
    cases content with
    | operation => exact ⟨_, rfl, carries.1, rfl, rfl⟩
    | attributes => exact ⟨_, rfl, carries.1, rfl, rfl⟩
    | _ => cases callable
  obtain ⟨kind, types, stored, typed, means⟩ := loads.callable isEntry opened
  have meant := means.forall₂_exchanged typed
  rw [same, here] at meant
  have listed : ∀ text ∈ content.references, (item.scope, text) ∈ root.references :=
    fun text written => Element.mem_references.mpr ⟨item, isItem, content, read, rfl, written⟩
  refine ⟨kind, stored, (List.forall₂_and_left _ _ |>.mpr ⟨listed, meant⟩).imp ?_⟩
  rintro text type ⟨isReference, means⟩ nameless
  have relative := loads.isAbsolute_of_nameless isReference nameless
  exact (loads.means_of_nameless isItem isPart nameless relative).unique loads.registered means

end Loads

/-- **A reference without a name is rejected, or it stands for a scope around it.** It is rejected
outside of all scopes and if it is read from the global scope. In a document that can be loaded,
every reference is looked up to a declaration whose name is a scope around it followed by its
components. Without components that is a scope alone, and in all that stands in an interface the
type is the interface. -/
theorem nameless_references_exact {document : String} {root : Element}
    (parsed : Element.ofDocument document = .ok root) :
    (∀ scope text, (scope, text) ∈ root.references → (ScopedName.ofText text).isRoot = true →
      ScopedName.isAbsolute text = true ∨ scope = .root →
        ∃ cause, DeclTree.ofDocument document = .error cause) ∧
    ∀ tree, DeclTree.ofDocument document = .ok tree →
      (∀ scope text, (scope, text) ∈ root.references → BasicType.ofText? text = none →
        ∃ outer id, outer.parts <+: scope.parts ∧
          tree.lookup? scope text = some (ScopedName.append outer (.ofText text), id) ∧
          tree.Declares DeclKind.Referable (outer.append (.ofText text)) id ∧
          ((ScopedName.ofText text).isRoot = true →
            ScopedName.isAbsolute text = false ∧ outer ≠ .root)) ∧
      (∀ item ∈ root.items, ∀ content, item.read = .ok content → content.isCallable? = some true →
        ∃ kind, tree.kind? item.id = some kind ∧
          List.Forall₂ (fun text type => (ScopedName.ofText text).isRoot = true →
            type = .interface item.scope) content.references kind.exchanged) ∧
      ∀ item ∈ root.items, ∀ name expression, item.read = .ok (.typedef name expression) →
        ¬ item.place.isScope = true →
        (ScopedName.ofText ((sequenceElement? expression).getD expression)).isRoot = true →
          tree.kind? item.id = some (.typedef
            (if (sequenceElement? expression).isSome then
              .sequence (item.scope.child name) (.interface item.scope)
            else .interface item.scope) [item.id + 1]) := by
  have exists_loads : ∀ tree, DeclTree.ofDocument document = .ok tree →
      ∃ entries outline, Loads root entries outline tree := by
    intro tree loaded
    rw [DeclTree.ofDocument_eq parsed, bind_eq_ok_iff] at loaded
    obtain ⟨outline, read, resolved⟩ := loaded
    obtain ⟨entries, loads⟩ := exists_loads read resolved
    exact ⟨entries, outline, loads⟩
  constructor
  · intro scope text listed nameless unplaced
    cases loaded : DeclTree.ofDocument document with
    | error cause => exact ⟨cause, rfl⟩
    | ok tree =>
      obtain ⟨entries, outline, loads⟩ := exists_loads tree loaded
      obtain ⟨outer, id, around, -, -, inside⟩ :=
        loads.exists_lookup listed (ScopedName.ofText?_of_nameless nameless)
      obtain ⟨relative, placed⟩ := inside nameless
      rcases unplaced with absolute | rfl
      · simp [relative] at absolute
      · exact absurd (congrArg ScopedName.mk (List.prefix_nil.mp around)) placed
  · intro tree loaded
    obtain ⟨entries, outline, loads⟩ := exists_loads tree loaded
    refine ⟨?_, ?_, ?_⟩
    · intro scope text listed notBasic
      exact loads.exists_lookup listed notBasic
    · intro item isItem content read callable
      exact loads.types_of_nameless isItem read callable
    · intro item isItem name expression read isPart nameless
      exact loads.typedef_of_nameless isItem read isPart nameless

/-- A document with a reference that consists of marks. -/
def marksDocument : String :=
  "<tree file=\"a.idl\"><interface name=\"I\"><attribute names=\"x\" type=\" :: \"/>" ++
  "</interface></tree>"

/-- A document with a blank reference beside one with a name. -/
def blankDocument : String :=
  "<tree file=\"a.idl\"><module name=\"m\"><interface name=\"I\"><operation name=\"f\">" ++
  "<param name=\"p\" direction=\"in\" type=\" \"/>" ++
  "<param name=\"q\" direction=\"in\" type=\"m::I\"/></operation></interface></module></tree>"

theorem exists_marksDocument :
    ∃ root, Element.ofDocument marksDocument = .ok root ∧
      root.references = [(⟨["I"]⟩, " :: ")] := by
  have chars : marksDocument.toList = _ :=
    toList_append_eq String.toList_ofList String.toList_ofList
  have read := ofDocument_of_toList chars rfl
  have facts : (Element.ofDocument marksDocument).toOption.map Element.references =
      some [(⟨["I"]⟩, " :: ")] := by
    rw [read]
    decide +kernel
  obtain ⟨root, isRoot, references⟩ := Option.map_eq_some_iff.mp facts
  exact ⟨root, eq_ok_of_toOption isRoot, references⟩

theorem exists_blankDocument :
    ∃ root, Element.ofDocument blankDocument = .ok root ∧
      (DeclTree.ofDocument blankDocument).isOk = true ∧
      (⟨["m", "I"]⟩, " ") ∈ root.references ∧
      ∃ item ∈ root.items, item.id = 2 ∧ item.scope = ⟨["m", "I"]⟩ ∧
        item.read = .ok (.operation "f" "void" [⟨"p", .input, " "⟩, ⟨"q", .input, "m::I"⟩]) := by
  have chars : blankDocument.toList = _ :=
    toList_append_eq (toList_append_eq String.toList_ofList String.toList_ofList)
      String.toList_ofList
  have read := ofDocument_of_toList chars rfl
  have facts : (Element.ofDocument blankDocument).toOption.map (fun root =>
      ((Outline.ofRoot root >>= Outline.resolve).isOk,
        (root.items[2]?).map fun item => (item.id, item.scope),
        (root.items[2]?).bind fun item => item.read.toOption)) =
      some (true, some (2, ⟨["m", "I"]⟩),
        some (.operation "f" "void" [⟨"p", .input, " "⟩, ⟨"q", .input, "m::I"⟩])) := by
    rw [read]
    decide +kernel
  obtain ⟨root, isRoot, facts⟩ := Option.map_eq_some_iff.mp facts
  simp only [Prod.mk.injEq, Option.map_eq_some_iff, Option.bind_eq_some_iff] at facts
  obtain ⟨resolved, ⟨item, isItem, number, scope⟩, ⟨other, isOther, content⟩⟩ := facts
  cases isItem.symm.trans isOther
  have parsed := eq_ok_of_toOption isRoot
  have isListed := List.mem_of_getElem? isItem
  have readOperation := eq_ok_of_toOption content
  refine ⟨root, parsed, ?_, ?_, item, isListed, number, scope, readOperation⟩
  · rw [DeclTree.ofDocument_eq parsed]
    exact resolved
  · refine Element.mem_references.mpr ⟨item, isListed, _, readOperation, scope, ?_⟩
    exact List.mem_cons_of_mem _ List.mem_cons_self

/-- The first document is rejected, and in the second the blank parameter is the interface. -/
theorem marks_rejected_and_blank_typed :
    (∃ cause, DeclTree.ofDocument marksDocument = .error cause) ∧
    ∃ tree outer id returns type, DeclTree.ofDocument blankDocument = .ok tree ∧
      outer ≠ ScopedName.root ∧ outer.parts <+: ["m", "I"] ∧
      tree.Declares DeclKind.Referable (outer.append (.ofText " ")) id ∧
      (tree.kind? 2).map DeclKind.exchanged = some [returns, .interface ⟨["m", "I"]⟩, type] := by
  constructor
  · obtain ⟨root, parsed, references⟩ := exists_marksDocument
    refine (nameless_references_exact parsed).1 ⟨["I"]⟩ " :: " ?_ (by decide) (.inl (by decide))
    rw [references]
    exact List.mem_cons_self
  · obtain ⟨root, parsed, accepted, isReference, item, isItem, number, scope, read⟩ :=
      exists_blankDocument
    cases loaded : DeclTree.ofDocument blankDocument with
    | error cause =>
      rw [loaded] at accepted
      cases accepted
    | ok tree =>
      obtain ⟨looked, typed, -⟩ := (nameless_references_exact parsed).2 tree loaded
      obtain ⟨outer, id, around, -, declared, inside⟩ := looked _ _ isReference (by decide)
      obtain ⟨kind, stored, types⟩ := typed item isItem _ read rfl
      rw [number] at stored
      rw [scope] at types
      generalize exchanged : kind.exchanged = found at types
      obtain _ | ⟨-, _ | ⟨isInterface, _ | ⟨-, ⟨⟩⟩⟩⟩ := types
      cases isInterface (by decide)
      have shown := (congrArg (Option.map DeclKind.exchanged) stored).trans
        (congrArg some exchanged)
      exact ⟨tree, outer, id, _, _, rfl, (inside (by decide)).2, around, declared, shown⟩

/-- A document with a blank reference. -/
def unnamedTypeDocument : String :=
  "<tree file=\"a.idl\"><interface name=\"I\"><attribute names=\"x\" type=\"\"/></interface></tree>"

/-- The document is loaded, and the attribute is of the type of the interface in which it stands. -/
theorem unnamedTypeDocument_loaded :
    (DeclTree.ofDocument unnamedTypeDocument).toOption.map (fun tree =>
        (tree.kind? 0, tree.kind? 1)) =
      some (some (.interface ⟨[], [1], [], []⟩),
        some (.attributes ⟨.interface ⟨["I"]⟩, false, ["x"]⟩)) := by
  have chars : unnamedTypeDocument.toList = _ := String.toList_ofList
  have read := ofDocument_of_toList chars rfl
  rw [DeclTree.ofDocument, read]
  decide +kernel

end IdlBridge
