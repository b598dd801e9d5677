import IdlBridge.Proofs.Document.ClosedTypes
import IdlBridge.Proofs.Document.Loading

/-!
# Kinds of types and bases

Only results of operations should be without a value, and only interfaces should be inherited from.
Loading checks neither. What it does can still be said exactly.

A parameter, an attribute or the element of a sequence is void exactly if its expression means void
(`Stores.voidOnlyReturned_iff`). An expression means void only if it is the keyword or leads to a
typedef that is (`Means.spells_void`), so nothing but results is void in a document that writes the
keyword for results only. A base is whatever its reference finds: besides interfaces, forward
declarations and aliases of interfaces also enumerations and aliases of other types. Nothing is
inherited through those (`Loads.inheritable_or`).
-/

set_option autoImplicit false

namespace IdlBridge

open Markup

/-! ## Values and bases -/

/-- The types of what a callable takes, in either direction. -/
def DeclKind.passed : DeclKind → List IdlType
  | operation signature => signature.params.map (·.type)
  | attributes group => [group.type]
  | _ => []

/-- The types that stand in a declaration. -/
def DeclKind.types : DeclKind → List IdlType
  | typedef aliased _ => [aliased]
  | kind => kind.exchanged

/-- A sequence in which some element is without a value. -/
def IdlType.hasVoidElement : IdlType → Bool
  | sequence _ element => element.isVoid || element.hasVoidElement
  | _ => false

theorem IdlType.isVoid_iff {type : IdlType} : type.isVoid = true ↔ type = .void := by
  cases type with
  | basic type => cases type <;> simp [isVoid, void]
  | _ => simp [isVoid, void]

theorem DeclKind.exists_callableTypes {kind : DeclKind} {type : IdlType}
    (listed : type ∈ kind.passed) : ∃ types, kind.callableTypes? = some types := by
  cases kind with
  | operation | attributes => exact ⟨_, rfl⟩
  | _ => cases listed

namespace DeclTree

/-- Parameters, attributes and elements of sequences have values. -/
structure VoidOnlyReturned (tree : DeclTree) : Prop where
  passed : ∀ id kind, tree.kind? id = some kind → .void ∉ kind.passed
  elements : ∀ id kind, tree.kind? id = some kind →
    ∀ type ∈ kind.types, type.hasVoidElement = false

/-- An interface, a forward declaration, or an alias of an interface. -/
inductive Inheritable (tree : DeclTree) (id : DeclId) : Prop
  | interface {parts : Interface} (kind : tree.kind? id = some (.interface parts))
  | forward {target : Option DeclId} (kind : tree.kind? id = some (.forward target))
  | aliased {target : Option DeclId} {typedef : DeclId} {name : ScopedName}
      (kind : tree.kind? id = some (.declarator target))
      (owns : tree.Owns typedef id (.interface name))

/-- An enumeration, or an alias of something that is no interface. -/
inductive Uninheritable (tree : DeclTree) (id : DeclId) : Prop
  | enum {enumerators : List String} (kind : tree.kind? id = some (.enum enumerators))
  | aliased {target : Option DeclId} {typedef : DeclId} {type : IdlType}
      (kind : tree.kind? id = some (.declarator target)) (owns : tree.Owns typedef id type)
      (other : type.isInterface = false)

end DeclTree

/-- The expressions for what a callable takes. -/
def CallableText.passed : CallableText → List String
  | .operation _ params => params.map (·.type)
  | .attributes type => [type]

namespace Outline

variable {outline : Outline} {tree : DeclTree}

/-- The expressions for elements of sequences, parameters and attributes. -/
def valuePhrases (outline : Outline) : List TypePhrase :=
  outline.aliases.filterMap (fun entry =>
      (sequenceElement? entry.expression).map (.expression entry.scope)) ++
    outline.callables.flatMap fun callable =>
      callable.text.passed.map (.expression callable.scope)

/-- The keyword is written for results only. -/
structure SpellsVoidForResults (outline : Outline) : Prop where
  aliases : ∀ entry ∈ outline.aliases, BasicType.ofText? entry.target ≠ some .void
  callables : ∀ callable ∈ outline.callables, ∀ text ∈ callable.text.passed,
    BasicType.ofText? text ≠ some .void

instance (outline : Outline) : Decidable outline.SpellsVoidForResults :=
  decidable_of_iff
    ((∀ entry ∈ outline.aliases, BasicType.ofText? entry.target ≠ some .void) ∧
      ∀ callable ∈ outline.callables, ∀ text ∈ callable.text.passed,
        BasicType.ofText? text ≠ some .void)
    ⟨fun ⟨aliases, callables⟩ => ⟨aliases, callables⟩, fun spells =>
      ⟨spells.aliases, spells.callables⟩⟩

theorem mem_valuePhrases {phrase : TypePhrase} : phrase ∈ outline.valuePhrases ↔
    (∃ entry ∈ outline.aliases, ∃ inner, sequenceElement? entry.expression = some inner ∧
      .expression entry.scope inner = phrase) ∨
    ∃ callable ∈ outline.callables, ∃ text ∈ callable.text.passed,
      .expression callable.scope text = phrase := by
  simp [valuePhrases]

/-! ## What means void -/

/-- A sequence without values comes from a typedef whose element expression means void. -/
theorem Means.exists_voidElement {phrase : TypePhrase} {type : IdlType}
    (means : outline.Means phrase type) (holds : type.hasVoidElement = true) :
    ∃ element ∈ outline.valuePhrases, outline.Means element .void := by
  induction means with
  | basic | interface | forward | enum => cases holds
  | named _ _ _ ih | plain _ _ _ ih => exact ih holds
  | @sequence entry inner element listed written means flat _ =>
    -- The element is no sequence itself, so it is void or it holds nothing void.
    have isVoid : element.isVoid = true := by
      cases element with
      | sequence => cases flat
      | _ => simpa [IdlType.hasVoidElement] using holds
    rw [IdlType.isVoid_iff] at isVoid
    subst isVoid
    exact ⟨_, mem_valuePhrases.mpr (.inl ⟨entry, listed, inner, written, rfl⟩), means⟩

/-- What means void is the keyword, or leads to a typedef that is. -/
theorem Means.spells_void {phrase : TypePhrase} {type : IdlType}
    (means : outline.Means phrase type) (isVoid : type = .void) :
    (∃ scope text, phrase = .expression scope text ∧ BasicType.ofText? text = some .void) ∨
      ∃ entry ∈ outline.aliases, BasicType.ofText? entry.target = some .void := by
  induction means with
  | @basic scope text type spelled =>
    cases isVoid
    exact .inl ⟨scope, text, rfl, spelled⟩
  | interface | forward | enum | sequence => cases isVoid
  | named _ _ _ ih =>
    rcases ih isVoid with ⟨_, _, isExpression, _⟩ | viaTypedef
    · cases isExpression
    · exact .inr viaTypedef
  | @plain entry type listed notSequence _ ih =>
    rcases ih isVoid with ⟨scope, text, isExpression, spelled⟩ | viaTypedef
    · cases isExpression
      refine .inr ⟨entry, listed, ?_⟩
      rw [TypeAlias.target, notSequence]
      exact spelled
    · exact .inr viaTypedef

theorem SpellsVoidForResults.not_means (spells : outline.SpellsVoidForResults)
    {phrase : TypePhrase} (listed : phrase ∈ outline.valuePhrases) :
    ¬ outline.Means phrase .void := by
  intro means
  rcases means.spells_void rfl with ⟨scope, text, rfl, spelled⟩ | ⟨entry, isAlias, spelled⟩
  · rcases mem_valuePhrases.mp listed with
      ⟨entry, isAlias, inner, written, same⟩ | ⟨callable, isCallable, text, passed, same⟩
    · cases same
      refine spells.aliases entry isAlias ?_
      rw [TypeAlias.target, written]
      exact spelled
    · cases same
      exact spells.callables callable isCallable text passed spelled
  · exact spells.aliases entry isAlias spelled

/-! ## Where void is stored -/

/-- What a callable exchanges has the types that its expressions mean. -/
theorem CallableMeans.forall₂_exchanged {scope : ScopedName} {text : CallableText}
    {types : CallableTypes} (means : outline.CallableMeans scope text types) {kind : DeclKind}
    (typed : kind.callableTypes? = some types) :
    List.Forall₂ (fun text type => outline.Means (.expression scope text) type) text.expressions
      kind.exchanged := by
  cases kind with
  | operation signature =>
    cases typed
    cases text with
    | attributes => exact means.elim
    | operation returns params =>
      refine .cons means.1 (List.forall₂_map_left_iff.mpr (List.forall₂_map_right_iff.mpr ?_))
      exact means.2.imp fun _ _ param => param.type
  | attributes group =>
    cases typed
    cases text with
    | operation => exact means.elim
    | attributes => exact .cons means .nil
  | _ => cases typed

/-- What a callable takes has the types that its expressions mean. -/
theorem CallableMeans.forall₂_passed {scope : ScopedName} {text : CallableText}
    {types : CallableTypes} (means : outline.CallableMeans scope text types) {kind : DeclKind}
    (typed : kind.callableTypes? = some types) :
    List.Forall₂ (fun text type => outline.Means (.expression scope text) type) text.passed
      kind.passed := by
  have exchanged := means.forall₂_exchanged typed
  cases kind with
  | operation signature =>
    cases typed
    cases text with
    | attributes => exact means.elim
    | operation returns params => exact (List.forall₂_cons.mp exchanged).2
  | attributes group =>
    cases typed
    cases text with
    | operation => exact means.elim
    | attributes => exact exchanged
  | _ => cases typed

/-- What a declaration takes is meant by an expression for a value. -/
theorem Stores.exists_phrase (stores : outline.Stores tree) {id : DeclId} {kind : DeclKind}
    (stored : tree.kind? id = some kind) {type : IdlType} (listed : type ∈ kind.passed) :
    ∃ phrase ∈ outline.valuePhrases, outline.Means phrase type := by
  obtain ⟨types, typed⟩ := DeclKind.exists_callableTypes listed
  obtain ⟨callable, isCallable, -, means⟩ := stores.callable_registered id kind types stored typed
  obtain ⟨text, paired, meant⟩ := exists_mem_zip (means.forall₂_passed typed).flip listed
  refine ⟨_, mem_valuePhrases.mpr (.inr ⟨callable, isCallable, text, ?_, rfl⟩), meant⟩
  exact (List.of_mem_zip paired).2

/-- The types that stand in a declaration are meanings. -/
theorem Stores.exists_means_types (stores : outline.Stores tree) {id : DeclId} {kind : DeclKind}
    (stored : tree.kind? id = some kind) {type : IdlType} (listed : type ∈ kind.types) :
    ∃ phrase, outline.Means phrase type := by
  cases kind with
  | typedef aliased declarators =>
    obtain ⟨entry, -, -, means⟩ := stores.typedef_registered id aliased declarators stored
    cases List.mem_singleton.mp listed
    exact ⟨_, means⟩
  | operation | attributes =>
    obtain ⟨scope, text, means⟩ := stores.exists_means stored listed
    exact ⟨_, means⟩
  | _ => cases listed

/-- **Void is stored exactly where it is meant.** -/
theorem Stores.voidOnlyReturned_iff (registered : outline.Registered)
    (stores : outline.Stores tree) :
    tree.VoidOnlyReturned ↔ ∀ phrase ∈ outline.valuePhrases, ¬ outline.Means phrase .void := by
  constructor
  · intro kept phrase listed means
    rcases mem_valuePhrases.mp listed with
      ⟨entry, isAlias, inner, written, rfl⟩ | ⟨callable, isCallable, text, passed, rfl⟩
    · obtain ⟨id, type, stored, meant⟩ := stores.alias_stored entry isAlias
      cases meant.unique registered (.sequence isAlias written means rfl)
      cases kept.elements id _ stored _ (List.mem_singleton.mpr rfl)
    · obtain ⟨kind, types, stored, typed, meant⟩ := stores.callable_stored callable isCallable
      obtain ⟨type, paired, typeMeant⟩ := exists_mem_zip (meant.forall₂_passed typed) passed
      cases typeMeant.unique registered means
      exact kept.passed callable.id kind stored (List.of_mem_zip paired).2
  · intro valued
    constructor
    · intro id kind stored listed
      obtain ⟨phrase, isValue, means⟩ := stores.exists_phrase stored listed
      exact valued phrase isValue means
    · intro id kind stored type listed
      rw [← Bool.not_eq_true]
      intro holds
      obtain ⟨phrase, means⟩ := stores.exists_means_types stored listed
      obtain ⟨element, isValue, isVoid⟩ := means.exists_voidElement holds
      exact valued element isValue isVoid

end Outline

/-! ## What bases are -/

namespace Loads

variable {root : Element} {entries : List Entry} {outline : Outline} {tree : DeclTree}

/-- A base is what some name leads to. -/
theorem exists_find?_of_base (loads : Loads root entries outline tree) {id : DeclId}
    {parts : Interface} (stored : tree.kind? id = some (.interface parts)) {base : DeclId}
    (listed : base ∈ parts.bases) : ∃ name, tree.find? name = some base := by
  have declared : ∃ parts, outline.draft.tree.kind? id = some (.interface parts) := by
    obtain ⟨kind, found, alike⟩ := DeclTree.exists_kind?_of_unresolved loads.same.symm stored
    cases kind with
    | interface parts => exact ⟨parts, found⟩
    | _ => cases alike
  have looked := Outline.bases_of_resolve loads.resolved declared (loads.holds.unbased id)
  have own : tree.partOf DeclKind.bases id = parts.bases := by
    rw [DeclTree.partOf, stored]
    rfl
  rw [own] at looked
  obtain ⟨reference, -, found⟩ := exists_mem_zip looked.flip listed
  obtain ⟨name, -, -, -, -, here⟩ := Outline.baseOf_eq_ok_iff.mp found
  exact ⟨name, by rw [DeclTree.find?_of_unresolved loads.same, here]⟩

/-- A declarator has a typedef of its own, and stands for what the type of that names. -/
theorem exists_owns (loads : Loads root entries outline tree) {id : DeclId}
    {target : Option DeclId} (stored : tree.kind? id = some (.declarator target)) :
    ∃ typedef aliased, tree.Owns typedef id aliased ∧
      tree.kind? id = some (.declarator (tree.aliasOf aliased)) := by
  obtain ⟨kind, found, alike⟩ := DeclTree.exists_kind?_of_unresolved loads.same.symm stored
  cases kind with
  | declarator old =>
    obtain ⟨entry, listed, rfl⟩ := loads.registered.exists_alias found
    obtain ⟨-, aliased, -, means⟩ := loads.stores.alias_stored entry listed
    obtain ⟨typedef, owns⟩ := loads.registered.owns loads.same loads.stores listed means
    exact ⟨typedef, aliased, owns, loads.registered.kind?_eq_aliasOf loads.resolved listed means⟩
  | _ => cases alike

/-- **What a name leads to can be inherited from, or nothing is inherited through it.** -/
theorem inheritable_or (loads : Loads root entries outline tree) (indexed : tree.Indexed)
    {name : ScopedName} {id : DeclId} (found : tree.find? name = some id) :
    tree.Inheritable id ∨ tree.Uninheritable id ∧ tree.resolve? id = none := by
  obtain ⟨decl, here, -, referable⟩ :=
    DeclTree.bears_isIndexed_iff.mp (indexed.chosen name id found).isIndexed
  have stored : tree.kind? id = some decl.kind := by
    rw [DeclTree.kind?, here]
    rfl
  obtain ⟨_, _, _, kind⟩ := decl
  cases referable with
  | interface parts => exact .inl (.interface stored)
  | forward target => exact .inl (.forward stored)
  | enum enumerators =>
    refine .inr ⟨.enum stored, ?_⟩
    rw [DeclTree.resolve?, DeclTree.follow, stored]
  | declarator target =>
    -- Only an alias of an interface points at a declaration.
    obtain ⟨typedef, aliased, owns, kind⟩ := loads.exists_owns stored
    cases aliased with
    | interface name => exact .inl (.aliased stored owns)
    | _ => exact .inr ⟨.aliased stored owns rfl, DeclTree.resolve?_eq_none kind⟩

end Loads

/-- **Loading keeps the kinds of a document.** Parameters, attributes and elements of sequences are
void exactly where the document says so. A base that cannot be inherited from is an enumeration or
an alias of another type, and nothing is inherited through it. -/
theorem loaded_kinds_exact {document : String} {tree : DeclTree}
    (loaded : DeclTree.ofDocument document = .ok tree) :
    ∃ root outline, Element.ofDocument document = .ok root ∧ Outline.ofRoot root = .ok outline ∧
      (tree.VoidOnlyReturned ↔
        ∀ phrase ∈ outline.valuePhrases, ¬ outline.Means phrase .void) ∧
      (outline.SpellsVoidForResults → tree.VoidOnlyReturned) ∧
      ∀ id parts, tree.kind? id = some (.interface parts) → ∀ base ∈ parts.bases,
        tree.Inheritable base ∨ tree.Uninheritable base ∧ tree.resolve? base = none := by
  obtain ⟨draft, nested, rfl⟩ := DeclTree.nested_ofDocument loaded
  have indexed := nested.built.indexed
  simp only [DeclTree.ofDocument, bind_eq_ok_iff] at loaded
  obtain ⟨root, parsed, outline, read, resolved⟩ := loaded
  obtain ⟨entries, loads⟩ := exists_loads read resolved
  have meant := loads.stores.voidOnlyReturned_iff loads.registered
  refine ⟨root, outline, parsed, read, meant, ?_, ?_⟩
  · intro spells
    exact meant.mpr fun phrase listed => spells.not_means listed
  · intro id parts stored base listed
    obtain ⟨name, found⟩ := loads.exists_find?_of_base stored listed
    exact loads.inheritable_or indexed found

/-- A document with an alias of an interface and an enumeration as bases. -/
def mixedBasesDocument : String :=
  "<tree file=\"a\"><enum name=\"E\"/><interface name=\"B\"/><typedef name=\"A\" type=\"B\"/>" ++
  "<interface name=\"I\"><inherits ref=\"A\"/><inherits ref=\"E\"/><operation name=\"f\">" ++
  "<param name=\"p\" direction=\"in\" type=\"A\"/></operation></interface></tree>"

theorem mixedBasesDocument_kinds :
    ∃ tree parts, DeclTree.ofDocument mixedBasesDocument = .ok tree ∧ tree.VoidOnlyReturned ∧
      tree.kind? 4 = some (.interface parts) ∧ parts.bases = [3, 0] ∧ tree.Inheritable 3 ∧
      tree.Uninheritable 0 ∧ tree.resolve? 0 = none := by
  have facts : (Element.ofDocument mixedBasesDocument >>= Outline.ofRoot).toOption.map
      (fun outline => (decide outline.SpellsVoidForResults, outline.resolve.toOption.map
        fun tree => [tree.kind? 0, tree.kind? 2, tree.kind? 3, tree.kind? 4])) =
      some (true, some [some (.enum []), some (.typedef (.interface ⟨["B"]⟩) [3]),
        some (.declarator (some 1)), some (.interface ⟨[3, 0], [5], [], []⟩)]) := by
    decide +kernel
  obtain ⟨outline, isOutline, facts⟩ := Option.map_eq_some_iff.mp facts
  obtain ⟨spelled, facts⟩ := Prod.mk.inj facts
  obtain ⟨tree, isTree, facts⟩ := Option.map_eq_some_iff.mp facts
  simp only [List.cons.injEq, and_true] at facts
  obtain ⟨enumeration, introduced, declared, inherits⟩ := facts
  have outlined := eq_ok_of_toOption isOutline
  obtain ⟨root, parsed, read⟩ := bind_eq_ok_iff.mp outlined
  have loaded : DeclTree.ofDocument mixedBasesDocument = .ok tree := by
    rw [DeclTree.ofDocument_eq parsed, read]
    exact eq_ok_of_toOption isTree
  obtain ⟨_, _, alsoParsed, alsoRead, -, results, bases⟩ := loaded_kinds_exact loaded
  cases parsed.symm.trans alsoParsed
  cases read.symm.trans alsoRead
  refine ⟨tree, _, loaded, results (of_decide_eq_true spelled), inherits, rfl, ?_, ?_⟩
  · rcases bases 4 _ inherits 3 List.mem_cons_self with inheritable | ⟨uninheritable, -⟩
    · exact inheritable
    · cases uninheritable with
      | enum kind => cases declared.symm.trans kind
      | aliased kind owns other =>
        cases owns.only 2 _ _ introduced List.mem_cons_self
        cases introduced.symm.trans owns.introduces
        cases other
  · rcases bases 4 _ inherits 0 (by simp) with inheritable | uninheritable
    · cases inheritable with
      | interface kind | forward kind | aliased kind => cases enumeration.symm.trans kind
    · exact uninheritable

/-- A document with a void attribute, and with an enumeration as base. -/
def voidAttributeDocument : String :=
  "<tree file=\"a.idl\"><enum name=\"E\"/><interface name=\"I\"><inherits ref=\"E\"/>" ++
  "<attribute names=\"x\" type=\"void\"/></interface></tree>"

/-- The document is loaded with both. -/
theorem voidAttributeDocument_loaded :
    (DeclTree.ofDocument voidAttributeDocument).toOption.map (fun tree =>
        (tree.kind? 0, tree.kind? 1, tree.kind? 2)) =
      some (some (.enum []), some (.interface ⟨[0], [2], [], []⟩),
        some (.attributes ⟨.void, false, ["x"]⟩)) := by
  decide +kernel

end IdlBridge
