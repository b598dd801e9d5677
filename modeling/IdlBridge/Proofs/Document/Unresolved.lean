import IdlBridge.Proofs.DeclTree.Index
import IdlBridge.Proofs.Document.LoadedTypes

/-!
# What resolution leaves alone

Resolving the references of an outline fills in types, the targets of declarators and the bases of
interfaces. Everything else is final after the first half of loading: the names and files of
declarations, where they are listed, the pragmas of interfaces, the targets of forward declarations
and the index. `DeclTree.unresolved` blanks out what is filled in, and a resolved tree differs from
the tree of its outline only there (`Outline.unresolved_of_resolve`).
-/

set_option autoImplicit false

namespace IdlBridge

/-- The kind without what resolution fills in. -/
def DeclKind.unresolved : DeclKind → DeclKind
  | interface parts => interface { parts with bases := [] }
  | typedef _ declarators => typedef .void declarators
  | declarator _ => declarator none
  | operation _ => operation ⟨.void, []⟩
  | attributes group => attributes { group with type := .void }
  | kind => kind

/-- The declaration without what resolution fills in. -/
def Decl.unresolved (decl : Decl) : Decl :=
  { decl with kind := decl.kind.unresolved }

namespace DeclTree

variable {tree other : DeclTree}

/-- The tree without what resolution fills in. -/
def unresolved (tree : DeclTree) : DeclTree :=
  { tree with decls := tree.decls.map Decl.unresolved }

theorem decl?_unresolved (tree : DeclTree) (id : DeclId) :
    tree.unresolved.decl? id = (tree.decl? id).map Decl.unresolved := by
  simp [unresolved, decl?]

theorem kind?_unresolved (tree : DeclTree) (id : DeclId) :
    tree.unresolved.kind? id = (tree.kind? id).map DeclKind.unresolved := by
  rw [kind?, decl?_unresolved, kind?, Option.map_map, Option.map_map]
  rfl

/-! ## Trees that differ only in what is filled in -/

section Same

variable (same : other.unresolved = tree.unresolved)

include same

theorem size_of_unresolved : other.size = tree.size := by
  simpa [unresolved, size] using congrArg (fun blank => blank.decls.size) same

theorem index_of_unresolved : other.index = tree.index :=
  congrArg (fun blank => blank.index) same

theorem find?_of_unresolved (name : ScopedName) : other.find? name = tree.find? name := by
  rw [find?, find?, index_of_unresolved same]

theorem map_kind?_of_unresolved (id : DeclId) :
    (other.kind? id).map DeclKind.unresolved = (tree.kind? id).map DeclKind.unresolved := by
  rw [← kind?_unresolved, ← kind?_unresolved, same]

/-- What is declared in one tree is declared in the other, up to what is filled in. -/
theorem exists_kind?_of_unresolved {id : DeclId} {kind : DeclKind}
    (found : tree.kind? id = some kind) :
    ∃ full, other.kind? id = some full ∧ full.unresolved = kind.unresolved := by
  have blank := map_kind?_of_unresolved same id
  rw [found] at blank
  exact Option.map_eq_some_iff.mp blank

theorem map_decl?_of_unresolved (id : DeclId) :
    (other.decl? id).map Decl.unresolved = (tree.decl? id).map Decl.unresolved := by
  rw [← decl?_unresolved, ← decl?_unresolved, same]

end Same

end DeclTree

/-! ## Resolution -/

namespace Draft

variable {draft : Draft}

theorem unresolved_modifyKind {id : DeclId} {change : DeclKind → DeclKind}
    (keeps : ∀ kind, (change kind).unresolved = kind.unresolved) :
    (draft.modifyKind id change).tree.unresolved = draft.tree.unresolved := by
  have decls : (draft.modifyKind id change).tree.decls.map Decl.unresolved =
      draft.tree.decls.map Decl.unresolved := by
    apply Array.ext'
    rw [Array.toList_map, Array.toList_map]
    exact map_decls_modifyKind fun decl =>
      congrArg (fun kind => { decl with kind }) (keeps decl.kind)
  rw [DeclTree.unresolved, decls]
  rfl

theorem unresolved_setAliasType (draft : Draft) (declarator : DeclId) (type : IdlType) :
    (draft.setAliasType declarator type).tree.unresolved = draft.tree.unresolved := by
  obtain ⟨pointed, split, change⟩ := draft.setAliasType_eq declarator type
  have first : pointed.tree.unresolved = draft.tree.unresolved := by
    rcases change with rfl | ⟨target, rfl⟩
    · rfl
    · refine unresolved_modifyKind fun kind => ?_
      cases kind <;> rfl
  rw [split, ← first, setAliasedType]
  split
  · rfl
  · refine unresolved_modifyKind fun kind => ?_
    cases kind <;> rfl

theorem unresolved_setTypes (draft : Draft) (id : DeclId) (types : CallableTypes) :
    (draft.setTypes id types).tree.unresolved = draft.tree.unresolved := by
  rw [setTypes_eq]
  refine unresolved_modifyKind fun kind => ?_
  cases types <;> cases kind <;> rfl

theorem unresolved_addBase (draft : Draft) (interface base : DeclId) :
    (draft.addBase interface base).tree.unresolved = draft.tree.unresolved := by
  refine unresolved_modifyKind fun kind => ?_
  cases kind <;> rfl

/-- What every change of a series leaves alone, the series leaves alone. -/
theorem unresolved_foldl {β : Type} {change : Draft → β → Draft}
    (keeps : ∀ draft entry, (change draft entry).tree.unresolved = draft.tree.unresolved)
    (draft : Draft) (entries : List β) :
    (entries.foldl change draft).tree.unresolved = draft.tree.unresolved := by
  induction entries generalizing draft with
  | nil => rfl
  | cons entry entries ih => rw [List.foldl_cons, ih, keeps]

end Draft

namespace Outline

variable {outline : Outline}

theorem unresolved_withAliases (outline : Outline) (table : AliasTable) :
    (outline.withAliases table).tree.unresolved = outline.draft.tree.unresolved := by
  refine Draft.unresolved_foldl (fun draft entry => ?_) _ table
  exact draft.unresolved_setAliasType entry.1 entry.2

theorem unresolved_withBases (outline : Outline) (table : AliasTable) (types : List CallableTypes)
    (bases : List DeclId) :
    (outline.withBases table types bases).tree.unresolved = outline.draft.tree.unresolved := by
  calc (outline.withBases table types bases).tree.unresolved
      = (outline.withCallables table types).tree.unresolved := by
        refine Draft.unresolved_foldl (fun draft entry => ?_) _ _
        exact draft.unresolved_addBase entry.1.interface entry.2
    _ = (outline.withAliases table).tree.unresolved := by
        refine Draft.unresolved_foldl (fun draft entry => ?_) _ _
        exact draft.unresolved_setTypes entry.1.id entry.2
    _ = outline.draft.tree.unresolved := outline.unresolved_withAliases table

/-- **Resolution only fills in** types, targets of declarators and bases. -/
theorem unresolved_of_resolve {tree : DeclTree} (resolved : outline.resolve = .ok tree) :
    tree.unresolved = outline.draft.tree.unresolved := by
  obtain ⟨table, types, bases, -, -, -, rfl⟩ := resolve_eq_ok_iff.mp resolved
  exact outline.unresolved_withBases table types bases

end Outline

end IdlBridge
