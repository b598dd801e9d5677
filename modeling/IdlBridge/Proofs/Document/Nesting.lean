import IdlBridge.Document.Resolution
import IdlBridge.Proofs.DeclTree.Placement
import IdlBridge.Proofs.Document.Registration

/-!
# Nesting of loaded declarations

A document declares modules and interfaces outside every module or directly inside one, and its
declarations are added in that way. So the tree of a document that can be loaded is the tree of a
nested draft (`DeclTree.nested_ofDocument`), whatever its references stand for.
-/

set_option autoImplicit false

namespace IdlBridge

open Markup

namespace Outline

/-! ## Declarations -/

/-- Changes that leave the bare declarations alone keep modules. -/
theorem isScope_of_extends {outline larger : Outline} (extended : outline.Extends larger)
    {parent : Option DeclId} (inModule : outline.draft.tree.isScope parent = true) :
    larger.draft.tree.isScope parent = true := by
  cases parent with
  | none => rfl
  | some id => exact DeclTree.isModule_of_prefix extended.grows inModule

theorem nested_addTypedef {outline larger : Outline} {parent : Option DeclId} {element : Element}
    (nested : outline.draft.Nested) (known : outline.draft.Knows parent)
    (added : outline.addTypedef parent element = .ok larger) : larger.draft.Nested := by
  simp only [addTypedef, bind_eq_ok_iff] at added
  obtain ⟨name, -, expression, -, added⟩ := added
  cases added
  exact .edit nested (.addTypedef parent name .void) known rfl

theorem nested_addEnum {outline larger : Outline} {parent : Option DeclId} {element : Element}
    (nested : outline.draft.Nested) (known : outline.draft.Knows parent)
    (added : outline.addEnum parent element = .ok larger) : larger.draft.Nested := by
  simp only [addEnum, bind_eq_ok_iff] at added
  obtain ⟨enumerators, -, name, -, added⟩ := added
  cases added
  exact .edit nested (.addEnum parent name enumerators) known rfl

theorem nested_addOperation {outline larger : Outline} {interface : DeclId} {element : Element}
    (nested : outline.draft.Nested) (known : outline.draft.Knows (some interface))
    (added : outline.addOperation interface element = .ok larger) : larger.draft.Nested := by
  simp only [addOperation, bind_eq_ok_iff] at added
  obtain ⟨name, -, params, -, added⟩ := added
  cases added
  exact .edit nested (.addOperation interface name _) known rfl

theorem nested_addAttributes {outline larger : Outline} {interface : DeclId} {element : Element}
    (nested : outline.draft.Nested) (known : outline.draft.Knows (some interface))
    (added : outline.addAttributes interface element = .ok larger) : larger.draft.Nested := by
  simp only [addAttributes, bind_eq_ok_iff] at added
  obtain ⟨listed, -, added⟩ := added
  split at added
  · simp [bind_eq_ok_iff] at added
  · simp only [bind_eq_ok_iff] at added
    obtain ⟨readonly, -, type, -, added⟩ := added
    cases added
    exact .edit nested (.addAttributes interface _) known rfl

theorem nested_addPart {outline larger : Outline} {interface : DeclId} {enclosing : ScopedName}
    {file : String} {element : Element} (nested : outline.draft.Nested)
    (known : outline.draft.Knows (some interface))
    (added : addPart interface enclosing file outline element = .ok larger) :
    larger.draft.Nested := by
  rw [addPart] at added
  have switched :
      (outline.mapDraft (·.setFile ((element.attr? "file").getD file))).draft.Nested :=
    .edit nested (.setFile _) (Draft.knows_none _) rfl
  split at added
  · cases added
    exact .edit switched (.addPragma interface _) (Draft.knows_none _) rfl
  · rw [bind_eq_ok_iff] at added
    obtain ⟨reference, -, added⟩ := added
    cases added
    exact switched
  · exact nested_addOperation switched known added
  · exact nested_addAttributes switched known added
  · exact nested_addTypedef switched known added
  · exact nested_addEnum switched known added
  · cases added

theorem nested_addInterface {outline larger : Outline} {parent : Option DeclId} {file : String}
    {element : Element} (nested : outline.draft.Nested) (known : outline.draft.Knows parent)
    (inModule : outline.draft.tree.isScope parent = true)
    (added : outline.addInterface parent file element = .ok larger) : larger.draft.Nested := by
  simp only [addInterface, bind_eq_ok_iff] at added
  obtain ⟨name, -, added⟩ := added
  let declared := outline.mapDraft (·.addInterface parent name)
  have start : declared.draft.Nested ∧ declared.draft.Knows (some outline.draft.nextId) :=
    ⟨.edit nested (.addInterface parent name) known inModule,
      knows_of_bare_append (outline.draft.bare_addInterface parent name)⟩
  refine (foldlM_keeps (fun outline' => outline'.draft.Nested ∧
    outline'.draft.Knows (some outline.draft.nextId)) ?_ start added).1
  rintro part _ before after ⟨nested, known⟩ step
  exact ⟨nested_addPart nested known step, (addPart_extends known step).knows known⟩

mutual

theorem nested_addDefinition (context : String) (parent : Option DeclId) (file : String)
    (outline larger : Outline) (nested : outline.draft.Nested)
    (known : outline.draft.Knows parent)
    (inModule : outline.draft.tree.isScope parent = true) :
    ∀ element : Element, addDefinition context parent file outline element = .ok larger →
      larger.draft.Nested
  | ⟨tag, attrs, children, text⟩, added => by
    unfold addDefinition at added
    have switched : (outline.mapDraft (·.setFile
        ((Element.attr? ⟨tag, attrs, children, text⟩ "file").getD file))).draft.Nested :=
      .edit nested (.setFile _) (Draft.knows_none _) rfl
    split at added
    · rw [bind_eq_ok_iff] at added
      obtain ⟨name, -, added⟩ := added
      refine nested_addDefinitions _ _ _ _ _ (.edit switched (.addModule parent name) known inModule)
        (knows_of_bare_append (Draft.bare_add ..)) ?_ children added
      exact Draft.isModule_addModule _ parent name
    · exact nested_addInterface switched known inModule added
    · rw [bind_eq_ok_iff] at added
      obtain ⟨name, -, added⟩ := added
      cases added
      exact .edit switched (.addForward parent name) known rfl
    · exact nested_addTypedef switched known added
    · exact nested_addEnum switched known added
    · cases added

theorem nested_addDefinitions (context : String) (parent : Option DeclId) (file : String)
    (outline larger : Outline) (nested : outline.draft.Nested)
    (known : outline.draft.Knows parent)
    (inModule : outline.draft.tree.isScope parent = true) :
    ∀ elements : List Element, addDefinitions context parent file outline elements = .ok larger →
      larger.draft.Nested
  | [], added => by
    cases added
    exact nested
  | element :: elements, added => by
    rw [addDefinitions, bind_eq_ok_iff] at added
    obtain ⟨middle, first, rest⟩ := added
    have extended := addDefinition_extends context parent file outline middle known element first
    exact nested_addDefinitions context parent file middle larger
      (nested_addDefinition context parent file outline middle nested known inModule element first)
      (extended.knows known) (isScope_of_extends extended inModule) elements rest

end

theorem nested_ofRoot {root : Element} {outline : Outline} (read : ofRoot root = .ok outline) :
    outline.draft.Nested := by
  simp only [ofRoot] at read
  split at read
  · simp [bind_eq_ok_iff] at read
  · simp only [bind_eq_ok_iff] at read
    obtain ⟨file, -, added⟩ := read
    exact nested_addDefinitions _ none _ _ _
      (.edit (.empty file) (.setFilename _) (Draft.knows_none _) rfl) (Draft.knows_none _) rfl _
      added

/-! ## References -/

/-- What every step of a series of changes keeps, the series keeps. -/
theorem nested_foldl {β : Type} {change : Draft → β → Draft}
    (keeps : ∀ draft entry, Draft.Nested draft → (change draft entry).Nested) {draft : Draft}
    (nested : draft.Nested) (entries : List β) : (entries.foldl change draft).Nested := by
  induction entries generalizing draft with
  | nil => exact nested
  | cons entry entries ih => exact ih (keeps draft entry nested)

theorem nested_setAliasType {draft : Draft} (nested : draft.Nested) (declarator : DeclId)
    (type : IdlType) : (draft.setAliasType declarator type).Nested := by
  rw [Draft.setAliasType]
  split
  · rename_i target _
    exact .edit (.edit nested (.setAlias declarator target) (Draft.knows_none _) rfl)
      (.setAliasedType declarator type) (Draft.knows_none _) rfl
  · exact .edit nested (.setAliasedType declarator type) (Draft.knows_none _) rfl

theorem nested_setTypes {draft : Draft} (nested : draft.Nested) (id : DeclId)
    (types : CallableTypes) : (draft.setTypes id types).Nested := by
  cases types with
  | operation signature => exact .edit nested (.setOperation id signature) (Draft.knows_none _) rfl
  | attributes type => exact .edit nested (.setAttributeType id type) (Draft.knows_none _) rfl

/-- Resolving references neither adds declarations nor moves them. -/
theorem nested_resolve {outline : Outline} {tree : DeclTree} (nested : outline.draft.Nested)
    (resolved : outline.resolve = .ok tree) : ∃ draft : Draft, draft.Nested ∧ draft.tree = tree := by
  simp only [resolve, bind_eq_ok_iff] at resolved
  obtain ⟨table, -, types, -, bases, -, resolved⟩ := resolved
  cases resolved
  refine ⟨_, ?_, rfl⟩
  refine nested_foldl (fun _ entry nested => ?_) ?_ _
  · exact .edit nested (.addBase entry.1.interface entry.2) (Draft.knows_none _) rfl
  · refine nested_foldl (fun _ entry nested => nested_setTypes nested entry.1.id entry.2) ?_ _
    exact nested_foldl (fun _ entry nested => nested_setAliasType nested entry.1 entry.2) nested _

end Outline

/-- **Every loaded tree is nested.** -/
theorem DeclTree.nested_ofDocument {document : String} {tree : DeclTree}
    (loaded : DeclTree.ofDocument document = .ok tree) :
    ∃ draft : Draft, draft.Nested ∧ draft.tree = tree := by
  simp only [ofDocument, bind_eq_ok_iff] at loaded
  obtain ⟨root, -, outline, read, resolved⟩ := loaded
  exact Outline.nested_resolve (Outline.nested_ofRoot read) resolved

end IdlBridge
