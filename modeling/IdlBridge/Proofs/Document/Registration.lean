import IdlBridge.Document.Outline
import IdlBridge.Proofs.DeclTree.Growth
import IdlBridge.Proofs.Success

/-!
# What an outline registers

The first half of loading declares every element and keeps the type expressions of typedefs and
callables aside. The outline of a document registers exactly what it declares
(`Outline.ofRoot_registers`): its aliases are the typedefs of the draft, each with its
declarator and the scope around it, and its callables are the operations and attributes of the
draft, each with the scope of its interface. Until the second half all their types are `void`.
-/

set_option autoImplicit false

namespace IdlBridge

open Markup

namespace DeclKind

/-- The kind of names that typedefs introduce. -/
def isDeclarator : DeclKind → Bool
  | declarator _ => true
  | _ => false

/-- The kind of typedefs. -/
def isTypedef : DeclKind → Bool
  | typedef _ _ => true
  | _ => false

end DeclKind

/-- The kind of a callable whose types are not known yet. -/
def CallableText.Untyped : CallableText → DeclKind → Prop
  | .operation _ params, kind =>
    kind = .operation ⟨.void, params.map fun param => ⟨param.name, .void, param.direction⟩⟩
  | .attributes _, kind => ∃ readonly names, kind = .attributes ⟨.void, readonly, names⟩

/-- A typedef and its declarator stand side by side in the declarations, both under the full
name of the typedef. -/
def TypeAlias.Introduced (entry : TypeAlias) (decls : List Decl) : Prop :=
  ∃ id name file, entry.declarator = id + 1 ∧ entry.name = entry.scope.child name ∧
    decls[id]? = some ⟨name, entry.name, file, .typedef .void [id + 1]⟩ ∧
    decls[id + 1]? = some ⟨name, entry.name, file, .declarator none⟩

/-- A callable is declared without types, inside the scope in which its types are read. -/
def OpenCallable.Introduced (callable : OpenCallable) (decls : List Decl) : Prop :=
  ∃ decl, decls[callable.id]? = some decl ∧
    decl.scopedName = callable.scope.child decl.name ∧ callable.text.Untyped decl.kind

/-- The registered typedefs and callables are exactly those that are declared. -/
structure Registers (decls : List Decl) (aliases : List TypeAlias)
    (callables : List OpenCallable) : Prop where
  alias_declarators : aliases.map (·.declarator) = positions DeclKind.isDeclarator decls
  alias_typedefs : aliases.map (·.declarator) = (positions DeclKind.isTypedef decls).map (· + 1)
  callable_ids : callables.map (·.id) = positions DeclKind.isCallable decls
  alias_introduced : ∀ entry ∈ aliases, entry.Introduced decls
  callable_introduced : ∀ callable ∈ callables, callable.Introduced decls

/-! ## Registration of a single declaration -/

/-- A declaration keeps its position when others are appended. -/
theorem found_append {decls : List Decl} {id : DeclId} {decl : Decl}
    (found : decls[id]? = some decl) (added : List Decl) : (decls ++ added)[id]? = some decl := by
  rw [List.getElem?_append_left (List.getElem?_eq_some_iff.mp found).1, found]

theorem TypeAlias.Introduced.append {entry : TypeAlias} {decls : List Decl}
    (introduced : entry.Introduced decls) (added : List Decl) :
    entry.Introduced (decls ++ added) := by
  obtain ⟨id, name, file, follows, named, typedef, declarator⟩ := introduced
  exact ⟨id, name, file, follows, named, found_append typedef added,
    found_append declarator added⟩

theorem OpenCallable.Introduced.append {callable : OpenCallable} {decls : List Decl}
    (introduced : callable.Introduced decls) (added : List Decl) :
    callable.Introduced (decls ++ added) := by
  obtain ⟨decl, found, named, untyped⟩ := introduced
  exact ⟨decl, found_append found added, named, untyped⟩

namespace Registers

variable {decls : List Decl} {aliases : List TypeAlias} {callables : List OpenCallable}

theorem nil : Registers [] [] [] where
  alias_declarators := rfl
  alias_typedefs := rfl
  callable_ids := rfl
  alias_introduced := by simp
  callable_introduced := by simp

/-- A declaration that is neither a typedef nor a callable registers nothing. -/
theorem other (registers : Registers decls aliases callables) {decl : Decl}
    (notDeclarator : decl.kind.isDeclarator = false) (notTypedef : decl.kind.isTypedef = false)
    (notCallable : decl.kind.isCallable = false) :
    Registers (decls ++ [decl]) aliases callables where
  alias_declarators := by simp [positions_append, notDeclarator, registers.alias_declarators]
  alias_typedefs := by simp [positions_append, notTypedef, registers.alias_typedefs]
  callable_ids := by simp [positions_append, notCallable, registers.callable_ids]
  alias_introduced := fun entry listed => (registers.alias_introduced entry listed).append _
  callable_introduced := fun callable listed =>
    (registers.callable_introduced callable listed).append _

/-- A typedef is registered together with its declarator. -/
theorem typedef (registers : Registers decls aliases callables) (scope : ScopedName)
    (name file expression : String) :
    Registers
      (decls ++ [⟨name, scope.child name, file, .typedef .void [decls.length + 1]⟩,
        ⟨name, scope.child name, file, .declarator none⟩])
      (aliases ++ [⟨decls.length + 1, scope.child name, expression, scope⟩]) callables := by
  have split (first second : Decl) : decls ++ [first, second] = (decls ++ [first]) ++ [second] := by
    simp
  constructor
  · rw [split, positions_append, positions_append, List.map_append, registers.alias_declarators]
    simp [DeclKind.isDeclarator]
  · rw [split, positions_append, positions_append, List.map_append, registers.alias_typedefs]
    simp [DeclKind.isTypedef]
  · rw [split, positions_append, positions_append, registers.callable_ids]
    simp [DeclKind.isCallable]
  · intro entry listed
    rcases List.mem_append.mp listed with earlier | new
    · exact (registers.alias_introduced entry earlier).append _
    · rw [List.mem_singleton] at new
      subst new
      exact ⟨decls.length, name, file, rfl, rfl, by simp, by simp⟩
  · exact fun callable listed => (registers.callable_introduced callable listed).append _

/-- A callable is registered with the scope it is declared in. -/
theorem callable (registers : Registers decls aliases callables) {decl : Decl}
    {scope : ScopedName} {text : CallableText} (named : decl.scopedName = scope.child decl.name)
    (untyped : text.Untyped decl.kind) :
    Registers (decls ++ [decl]) aliases (callables ++ [⟨decls.length, text, scope⟩]) := by
  have kinds : decl.kind.isDeclarator = false ∧ decl.kind.isTypedef = false ∧
      decl.kind.isCallable = true := by
    cases text with
    | operation returns params =>
      have kind : decl.kind = .operation _ := untyped
      simp [kind, DeclKind.isDeclarator, DeclKind.isTypedef, DeclKind.isCallable]
    | attributes type =>
      obtain ⟨readonly, names, kind⟩ := untyped
      simp [kind, DeclKind.isDeclarator, DeclKind.isTypedef, DeclKind.isCallable]
  obtain ⟨notDeclarator, notTypedef, isCallable⟩ := kinds
  constructor
  · simp [positions_append, notDeclarator, registers.alias_declarators]
  · simp [positions_append, notTypedef, registers.alias_typedefs]
  · simp [positions_append, isCallable, registers.callable_ids]
  · exact fun entry listed => (registers.alias_introduced entry listed).append _
  · intro callable listed
    rcases List.mem_append.mp listed with earlier | new
    · exact (registers.callable_introduced callable earlier).append _
    · rw [List.mem_singleton] at new
      subst new
      exact ⟨decl, by simp, named, untyped⟩

end Registers

/-! ## Registration of a document -/

namespace Outline

/-- The outline registers exactly what its draft declares. -/
def Registered (outline : Outline) : Prop :=
  Registers outline.draft.tree.bare outline.aliases outline.callables

/-- An outline that grows keeps its bare declarations and what it registers stays exact. -/
structure Extends (outline larger : Outline) : Prop where
  grows : outline.draft.tree.bare <+: larger.draft.tree.bare
  registered : outline.Registered → larger.Registered

namespace Extends

theorem refl (outline : Outline) : outline.Extends outline :=
  ⟨List.prefix_refl _, id⟩

theorem trans {first second third : Outline} (earlier : first.Extends second)
    (later : second.Extends third) : first.Extends third :=
  ⟨earlier.grows.trans later.grows, later.registered ∘ earlier.registered⟩

/-- A parent that is known stays known. -/
theorem knows {outline larger : Outline} (extended : outline.Extends larger)
    {parent : Option DeclId} (known : outline.draft.Knows parent) :
    larger.draft.Knows parent := by
  intro id isParent
  have longer := extended.grows.length_le
  rw [DeclTree.length_bare, DeclTree.length_bare] at longer
  exact Nat.lt_of_lt_of_le (known id isParent) longer

/-- Changes of a draft that leave its bare declarations alone. -/
theorem of_bare_eq {outline : Outline} {change : Draft → Draft}
    (same : (change outline.draft).tree.bare = outline.draft.tree.bare) :
    outline.Extends (outline.mapDraft change) where
  grows := ⟨[], (List.append_nil _).trans same.symm⟩
  registered registered := by
    rw [Registered, mapDraft, same]
    exact registered

/-- Additions that are neither typedefs nor callables. -/
theorem of_bare_append {outline : Outline} {change : Draft → Draft} {decl : Decl}
    (appended : (change outline.draft).tree.bare = outline.draft.tree.bare ++ [decl])
    (notDeclarator : decl.kind.isDeclarator = false) (notTypedef : decl.kind.isTypedef = false)
    (notCallable : decl.kind.isCallable = false) :
    outline.Extends (outline.mapDraft change) where
  grows := by
    rw [mapDraft, appended]
    exact List.prefix_append _ _
  registered registered := by
    rw [Registered, mapDraft, appended]
    exact Registers.other registered notDeclarator notTypedef notCallable

end Extends

/-- A declaration that has just been added can be a parent. -/
theorem knows_of_bare_append {outline : Outline} {change : Draft → Draft} {decl : Decl}
    (appended : (change outline.draft).tree.bare = outline.draft.tree.bare ++ [decl]) :
    (outline.mapDraft change).draft.Knows (some outline.draft.nextId) := by
  intro id isParent
  cases isParent
  have longer := congrArg List.length appended
  simp only [DeclTree.length_bare, List.length_append, List.length_singleton] at longer
  show outline.draft.tree.size < (change outline.draft).tree.size
  omega

theorem memberName_eq_child (outline : Outline) (parent : Option DeclId) (name : String) :
    outline.draft.memberName parent name = (outline.scopeOf parent).child name := by
  cases parent <;> rfl

theorem addTypedef_extends {outline larger : Outline} {parent : Option DeclId}
    {element : Element} (known : outline.draft.Knows parent)
    (added : outline.addTypedef parent element = .ok larger) : outline.Extends larger := by
  simp only [addTypedef, bind_eq_ok_iff] at added
  obtain ⟨name, -, expression, -, added⟩ := added
  cases added
  have appended := Draft.bare_addTypedef known name .void
  constructor
  · rw [appended]
    exact List.prefix_append _ _
  · intro registered
    rw [Registered, appended, memberName_eq_child]
    have next : outline.draft.nextDeclarator = outline.draft.tree.bare.length + 1 := by
      simp [Draft.nextDeclarator, Draft.nextId]
    simp only [next]
    exact Registers.typedef registered (outline.scopeOf parent) name _ expression

theorem addEnum_extends {outline larger : Outline} {parent : Option DeclId} {element : Element}
    (added : outline.addEnum parent element = .ok larger) : outline.Extends larger := by
  simp only [addEnum, bind_eq_ok_iff] at added
  obtain ⟨enumerators, -, name, -, added⟩ := added
  cases added
  exact .of_bare_append (Draft.bare_add ..) rfl rfl rfl

/-- Callables are added under their interface and registered with their types as text. -/
theorem addCallable_extends {outline : Outline} {interface : DeclId} {name : String}
    {kind : DeclKind} {text : CallableText} (untyped : text.Untyped kind.bare) :
    outline.Extends
      { outline with
        draft := outline.draft.add (some interface) name kind
        callables := outline.callables ++
          [⟨outline.draft.nextId, text, outline.scopeOf (some interface)⟩] } := by
  constructor
  · rw [Draft.bare_add]
    exact List.prefix_append _ _
  · intro registered
    rw [Registered, Draft.bare_add, Draft.nextId, ← DeclTree.length_bare]
    exact Registers.callable registered (memberName_eq_child outline (some interface) name) untyped

theorem addOperation_extends {outline larger : Outline} {interface : DeclId} {element : Element}
    (added : outline.addOperation interface element = .ok larger) : outline.Extends larger := by
  simp only [addOperation, bind_eq_ok_iff] at added
  obtain ⟨name, -, params, -, added⟩ := added
  cases added
  exact addCallable_extends rfl

theorem addAttributes_extends {outline larger : Outline} {interface : DeclId} {element : Element}
    (added : outline.addAttributes interface element = .ok larger) : outline.Extends larger := by
  simp only [addAttributes, bind_eq_ok_iff] at added
  obtain ⟨listed, -, added⟩ := added
  split at added
  · simp [bind_eq_ok_iff] at added
  · simp only [bind_eq_ok_iff] at added
    obtain ⟨readonly, -, type, -, added⟩ := added
    cases added
    exact addCallable_extends ⟨readonly, _, rfl⟩

theorem addPart_extends {outline larger : Outline} {interface : DeclId} {enclosing : ScopedName}
    {file : String} {element : Element} (known : outline.draft.Knows (some interface))
    (added : addPart interface enclosing file outline element = .ok larger) :
    outline.Extends larger := by
  rw [addPart] at added
  -- Switching the file changes no declaration.
  have switched : outline.Extends
      (outline.mapDraft (·.setFile ((element.attr? "file").getD file))) := .of_bare_eq rfl
  refine switched.trans ?_
  split at added
  · cases added
    exact .of_bare_eq (Draft.bare_addPragma ..)
  · rw [bind_eq_ok_iff] at added
    obtain ⟨reference, -, added⟩ := added
    cases added
    exact ⟨List.prefix_refl _, id⟩
  · exact addOperation_extends added
  · exact addAttributes_extends added
  · exact addTypedef_extends (switched.knows known) added
  · exact addEnum_extends added
  · cases added

theorem addInterface_extends {outline larger : Outline} {parent : Option DeclId} {file : String}
    {element : Element} (added : outline.addInterface parent file element = .ok larger) :
    outline.Extends larger := by
  simp only [addInterface, bind_eq_ok_iff] at added
  obtain ⟨name, -, added⟩ := added
  have appended := outline.draft.bare_addInterface parent name
  have declared : outline.Extends (outline.mapDraft (·.addInterface parent name)) :=
    .of_bare_append appended rfl rfl rfl
  have known : (outline.mapDraft (·.addInterface parent name)).draft.Knows
      (some outline.draft.nextId) := knows_of_bare_append appended
  refine declared.trans (foldlM_keeps _ ?_ (.refl _) added)
  intro part _ before after extended step
  exact extended.trans (addPart_extends (extended.knows known) step)

mutual

theorem addDefinition_extends (context : String) (parent : Option DeclId) (file : String)
    (outline larger : Outline) (known : outline.draft.Knows parent) :
    ∀ element : Element, addDefinition context parent file outline element = .ok larger →
      outline.Extends larger
  | ⟨tag, attrs, children, text⟩, added => by
    unfold addDefinition at added
    have switched : outline.Extends
        (outline.mapDraft (·.setFile ((Element.attr? ⟨tag, attrs, children, text⟩ "file").getD file))) :=
      .of_bare_eq rfl
    refine switched.trans ?_
    split at added
    · rw [bind_eq_ok_iff] at added
      obtain ⟨name, -, added⟩ := added
      exact .trans (.of_bare_append (Draft.bare_add ..) rfl rfl rfl)
        (addDefinitions_extends _ _ _ _ _ (knows_of_bare_append (Draft.bare_add ..)) children added)
    · exact addInterface_extends added
    · rw [bind_eq_ok_iff] at added
      obtain ⟨name, -, added⟩ := added
      cases added
      exact .of_bare_append (Draft.bare_add ..) rfl rfl rfl
    · exact addTypedef_extends (switched.knows known) added
    · exact addEnum_extends added
    · cases added

theorem addDefinitions_extends (context : String) (parent : Option DeclId) (file : String)
    (outline larger : Outline) (known : outline.draft.Knows parent) :
    ∀ elements : List Element, addDefinitions context parent file outline elements = .ok larger →
      outline.Extends larger
  | [], added => by
    cases added
    exact .refl _
  | element :: elements, added => by
    rw [addDefinitions, bind_eq_ok_iff] at added
    obtain ⟨middle, first, rest⟩ := added
    have extended := addDefinition_extends context parent file outline middle known element first
    exact extended.trans
      (addDefinitions_extends context parent file middle larger (extended.knows known) elements rest)

end

/-- **The outline of a document registers exactly what it declares.** -/
theorem ofRoot_registers {root : Element} {outline : Outline} (read : ofRoot root = .ok outline) :
    outline.Registered := by
  simp only [ofRoot] at read
  split at read
  · simp [bind_eq_ok_iff] at read
  · simp only [bind_eq_ok_iff] at read
    obtain ⟨file, -, added⟩ := read
    have extended := addDefinitions_extends _ none _ _ _ (by simp [Draft.Knows]) _ added
    exact extended.registered Registers.nil

end Outline

end IdlBridge
