import IdlBridge.Document.Resolution
import IdlBridge.Proofs.DeclTree.Listing

/-!
# What pragmas do not influence

No declaration depends on the pragmas of an interface. `DeclTree.unannotated` leaves them out, and
every change of a draft can be made with or without them: additions (`Draft.unannotated_add`) and
the changes by which references are resolved (`Draft.unannotated_setAliasType` and the others). A
tree is known from what it is without pragmas and from the pragmas of each interface
(`DeclTree.eq_of_unannotated`), and `DeclTree.setPragma` changes one of these and nothing else.
-/

set_option autoImplicit false

namespace IdlBridge

/-- The kind without pragmas. -/
def DeclKind.unannotated : DeclKind → DeclKind
  | interface parts => interface { parts with pragmas := [] }
  | kind => kind

/-- The kind with one of its pragmas replaced. -/
def DeclKind.setPragma (slot : Nat) (pragma : Pragma) : DeclKind → DeclKind
  | interface parts => interface { parts with pragmas := parts.pragmas.set slot pragma }
  | kind => kind

/-- The declaration without pragmas. -/
def Decl.unannotated (decl : Decl) : Decl :=
  { decl with kind := decl.kind.unannotated }

namespace DeclKind

variable {kind other : DeclKind}

@[simp] theorem isIndexed_unannotated (kind : DeclKind) :
    kind.unannotated.isIndexed = kind.isIndexed := by
  cases kind <;> rfl

@[simp] theorem isInterface_unannotated (kind : DeclKind) :
    kind.unannotated.isInterface = kind.isInterface := by
  cases kind <;> rfl

theorem eq_of_unannotated (same : other.unannotated = kind.unannotated)
    (pragmas : other.pragmas = kind.pragmas) : other = kind := by
  cases other with
  | interface parts =>
    cases kind with
    | interface parts' =>
      cases parts
      cases parts'
      simp_all [unannotated, DeclKind.pragmas]
    | _ => cases same
  | _ => cases kind <;> first | exact same | cases same

end DeclKind

namespace DeclTree

variable {tree other : DeclTree}

/-- The tree without pragmas. -/
def unannotated (tree : DeclTree) : DeclTree :=
  { tree with decls := tree.decls.map Decl.unannotated }

theorem decl?_unannotated (tree : DeclTree) (id : DeclId) :
    tree.unannotated.decl? id = (tree.decl? id).map Decl.unannotated := by
  simp [unannotated, decl?]

theorem kind?_unannotated (tree : DeclTree) (id : DeclId) :
    tree.unannotated.kind? id = (tree.kind? id).map DeclKind.unannotated := by
  rw [kind?, decl?_unannotated, kind?, Option.map_map, Option.map_map]
  rfl

@[simp] theorem scopedName_unannotated (tree : DeclTree) (id : DeclId) :
    tree.unannotated.scopedName id = tree.scopedName id := by
  rw [scopedName, decl?_unannotated, Option.map_map]
  rfl

@[simp] theorem isInterface_unannotated (tree : DeclTree) (id : DeclId) :
    tree.unannotated.isInterface id = tree.isInterface id := by
  rw [isInterface, interface?, decl?_unannotated, isInterface, interface?]
  cases tree.decl? id with
  | none => rfl
  | some decl =>
    cases kind : decl.kind <;>
      simp [Decl.interface?, Decl.unannotated, DeclKind.unannotated, kind]

/-- **A tree is known from its declarations without pragmas and from the pragmas.** -/
theorem eq_of_unannotated (same : other.unannotated = tree.unannotated)
    (pragmas : ∀ id, other.partOf DeclKind.pragmas id = tree.partOf DeclKind.pragmas id) :
    other = tree := by
  have decls : other.decls = tree.decls := by
    apply Array.ext_getElem?
    intro id
    have blank := congrArg (decl? · id) same
    simp only [decl?_unannotated] at blank
    change other.decl? id = tree.decl? id
    cases found : tree.decl? id with
    | none => rwa [found, Option.map_none, Option.map_eq_none_iff] at blank
    | some decl =>
      rw [found, Option.map_some, Option.map_eq_some_iff] at blank
      obtain ⟨full, here, alike⟩ := blank
      have lists := pragmas id
      rw [partOf_of_decl? here, partOf_of_decl? found] at lists
      have kind := DeclKind.eq_of_unannotated (congrArg Decl.kind alike) lists
      obtain ⟨name, scopedName, file, _⟩ := decl
      obtain ⟨_, _, _, _⟩ := full
      cases kind
      cases alike
      rw [here]
  have rest : { other with decls := tree.decls } = tree :=
    congrArg (fun blank => { blank with decls := tree.decls }) same
  rw [← rest, ← decls]

end DeclTree

namespace Draft

variable {draft : Draft}

/-- The draft without pragmas. -/
def unannotated (draft : Draft) : Draft :=
  { draft with tree := draft.tree.unannotated }

@[simp] theorem nextId_unannotated (draft : Draft) : draft.unannotated.nextId = draft.nextId := by
  simp [nextId, unannotated, DeclTree.unannotated, DeclTree.size]

@[simp] theorem memberName_unannotated (draft : Draft) (parent : Option DeclId) (name : String) :
    draft.unannotated.memberName parent name = draft.memberName parent name := by
  cases parent with
  | none => rfl
  | some id => rw [memberName, memberName, unannotated, DeclTree.scopedName_unannotated]

/-- A change that does not look at pragmas. -/
theorem unannotated_modifyKind {change : DeclKind → DeclKind}
    (blind : ∀ kind, (change kind).unannotated = change kind.unannotated) (draft : Draft)
    (id : DeclId) :
    (draft.modifyKind id change).unannotated = draft.unannotated.modifyKind id change := by
  have decls : (draft.modifyKind id change).tree.decls.map Decl.unannotated =
      (draft.unannotated.modifyKind id change).tree.decls := by
    apply Array.ext_getElem?
    intro position
    simp only [modifyKind, mapDecls, unannotated, DeclTree.unannotated, Array.getElem?_map,
      Array.getElem?_modify]
    split
    · cases draft.tree.decls[position]? with
      | none => rfl
      | some decl => simp [Decl.unannotated, blind]
    · rfl
  exact congrArg (fun decls => draft.mapDecls fun _ => decls) decls

/-- A change of nothing but pragmas. -/
theorem unannotated_modifyKind_of_eq {change : DeclKind → DeclKind}
    (keeps : ∀ kind, (change kind).unannotated = kind.unannotated) (draft : Draft) (id : DeclId) :
    (draft.modifyKind id change).unannotated = draft.unannotated := by
  have decls : (draft.modifyKind id change).tree.decls.map Decl.unannotated =
      draft.unannotated.tree.decls := by
    apply Array.ext_getElem?
    intro position
    simp only [modifyKind, mapDecls, unannotated, DeclTree.unannotated, Array.getElem?_map,
      Array.getElem?_modify]
    split
    · cases draft.tree.decls[position]? with
      | none => rfl
      | some decl => simp [Decl.unannotated, keeps]
    · rfl
  exact congrArg (fun decls => draft.mapDecls fun _ => decls) decls

theorem unannotated_append (draft : Draft) (parent : Option DeclId) (name : String)
    {kind : DeclKind} (plain : kind.unannotated = kind) :
    (draft.append parent name kind).unannotated = draft.unannotated.append parent name kind := by
  have decls : (draft.append parent name kind).tree.decls.map Decl.unannotated =
      (draft.unannotated.append parent name kind).tree.decls := by
    rw [append, append, memberName_unannotated]
    simp only [mapDecls, Array.map_push, Decl.unannotated, plain]
    rfl
  exact congrArg (fun decls => draft.mapDecls fun _ => decls) decls

theorem unannotated_listUnder (draft : Draft) (parent : Option DeclId) (member : DeclId)
    (callable : Bool) :
    (draft.listUnder parent member callable).unannotated =
      draft.unannotated.listUnder parent member callable := by
  cases parent with
  | none => rfl
  | some id =>
    refine unannotated_modifyKind (fun kind => ?_) draft id
    cases kind with
    | interface parts => cases callable <;> rfl
    | _ => rfl

theorem unannotated_enterName (draft : Draft) (id : DeclId) :
    (draft.enterName id).unannotated = draft.unannotated.enterName id := by
  have blank : draft.unannotated.tree.decl? id = (draft.tree.decl? id).map Decl.unannotated :=
    draft.tree.decl?_unannotated id
  cases found : draft.tree.decl? id with
  | none =>
    rw [found] at blank
    rw [enterName, found, enterName, blank]
    rfl
  | some decl =>
    rw [found] at blank
    have same : (decl.unannotated.kind.isIndexed && (decl.unannotated.kind.isInterface ||
          (draft.unannotated.tree.find? decl.unannotated.scopedName).isNone)) =
        (decl.kind.isIndexed &&
          (decl.kind.isInterface || (draft.tree.find? decl.scopedName).isNone)) := by
      rw [Decl.unannotated, DeclKind.isIndexed_unannotated, DeclKind.isInterface_unannotated]
      rfl
    rw [enterName, found, enterName, blank]
    simp only [Option.map_some, same]
    split <;> rfl

theorem unannotated_add (draft : Draft) (parent : Option DeclId) (name : String)
    {kind : DeclKind} (plain : kind.unannotated = kind) :
    (draft.add parent name kind).unannotated = draft.unannotated.add parent name kind := by
  rw [add, unannotated_enterName, unannotated_listUnder, unannotated_append _ _ _ plain, add,
    nextId_unannotated]

theorem unannotated_addInterface (draft : Draft) (parent : Option DeclId) (name : String) :
    (draft.addInterface parent name).unannotated = draft.unannotated.addInterface parent name := by
  have linked : ∀ (own : ScopedName) (target : DeclId) (decl : Decl),
      (if decl.scopedName = own then { decl with kind := decl.kind.announce target }
        else decl).unannotated =
      if decl.unannotated.scopedName = own then
        { decl.unannotated with kind := decl.unannotated.kind.announce target }
      else decl.unannotated := by
    intro own target decl
    rw [show decl.unannotated.scopedName = decl.scopedName from rfl]
    split
    · have blind : (decl.kind.announce target).unannotated =
          decl.kind.unannotated.announce target := by
        cases decl.kind with
        | forward known => cases known <;> rfl
        | _ => rfl
      exact congrArg (fun kind => { decl with kind }) blind
    · rfl
  rw [addInterface, addInterface, nextId_unannotated, memberName_unannotated,
    ← unannotated_add draft parent name rfl]
  simp only [mapDecls, unannotated, DeclTree.unannotated, Array.map_map, Function.comp_def, linked]

theorem unannotated_addForward (draft : Draft) (parent : Option DeclId) (name : String) :
    (draft.addForward parent name).unannotated = draft.unannotated.addForward parent name := by
  have known : draft.unannotated.tree.isInterface = draft.tree.isInterface :=
    funext draft.tree.isInterface_unannotated
  rw [addForward, unannotated_add _ _ _ rfl, addForward, memberName_unannotated, known]
  rfl

theorem aliasOf_unannotated (draft : Draft) (type : IdlType) :
    draft.unannotated.aliasOf type = draft.aliasOf type := by
  cases type <;> rfl

theorem unannotated_addTypedef (draft : Draft) (parent : Option DeclId) (name : String)
    (aliased : IdlType) :
    (draft.addTypedef parent name aliased).unannotated =
      draft.unannotated.addTypedef parent name aliased := by
  rw [addTypedef, unannotated_enterName, unannotated_append _ _ _ rfl, unannotated_add _ _ _ rfl,
    addTypedef, nextDeclarator, nextDeclarator, nextId_unannotated, aliasOf_unannotated]

theorem unannotated_addPragma (draft : Draft) (interface : DeclId) (pragma : Pragma) :
    (draft.addPragma interface pragma).unannotated = draft.unannotated := by
  refine unannotated_modifyKind_of_eq (fun kind => ?_) draft interface
  cases kind <;> rfl

/-! ## References -/

theorem unannotated_addBase (draft : Draft) (interface base : DeclId) :
    (draft.addBase interface base).unannotated = draft.unannotated.addBase interface base := by
  refine unannotated_modifyKind (fun kind => ?_) draft interface
  cases kind <;> rfl

theorem unannotated_setTypes (draft : Draft) (id : DeclId) (types : CallableTypes) :
    (draft.setTypes id types).unannotated = draft.unannotated.setTypes id types := by
  cases types with
  | operation | attributes =>
    refine unannotated_modifyKind (fun kind => ?_) draft id
    cases kind <;> rfl

/-- A search that does not look at pragmas. -/
theorem findIdx?_unannotated {test : Decl → Bool}
    (blind : ∀ decl, test decl.unannotated = test decl) (draft : Draft) :
    draft.unannotated.tree.decls.findIdx? test = draft.tree.decls.findIdx? test :=
  Array.findIdx?_map.trans (congrArg (Array.findIdx? · draft.tree.decls) (funext blind))

theorem unannotated_setAliasedType (draft : Draft) (declarator : DeclId) (type : IdlType) :
    (draft.setAliasedType declarator type).unannotated =
      draft.unannotated.setAliasedType declarator type := by
  rw [setAliasedType, setAliasedType, findIdx?_unannotated]
  · split
    · rfl
    · rename_i id _
      refine unannotated_modifyKind (fun kind => ?_) draft id
      cases kind <;> rfl
  · intro decl
    cases kind : decl.kind <;> simp [Decl.unannotated, DeclKind.unannotated, kind]

theorem unannotated_setAliasType (draft : Draft) (declarator : DeclId) (type : IdlType) :
    (draft.setAliasType declarator type).unannotated =
      draft.unannotated.setAliasType declarator type := by
  rw [setAliasType, setAliasType, aliasOf_unannotated]
  split
  · rw [unannotated_setAliasedType, setAlias, unannotated_modifyKind, setAlias]
    intro kind
    cases kind <;> rfl
  · exact draft.unannotated_setAliasedType declarator type

end Draft

namespace DeclTree

/-- The tree with one pragma replaced: the one at `slot` of the interface with the given number. -/
def setPragma (tree : DeclTree) (id : DeclId) (slot : Nat) (pragma : Pragma) : DeclTree :=
  (Draft.modifyKind ⟨tree, ""⟩ id (DeclKind.setPragma slot pragma)).tree

theorem unannotated_setPragma (tree : DeclTree) (id : DeclId) (slot : Nat) (pragma : Pragma) :
    (tree.setPragma id slot pragma).unannotated = tree.unannotated := by
  have keeps : ∀ kind, (DeclKind.setPragma slot pragma kind).unannotated = kind.unannotated := by
    intro kind
    cases kind <;> rfl
  exact congrArg Draft.tree (Draft.unannotated_modifyKind_of_eq keeps ⟨tree, ""⟩ id)

theorem pragmas_setPragma (tree : DeclTree) (id : DeclId) (slot : Nat) (pragma : Pragma)
    (position : DeclId) :
    (tree.setPragma id slot pragma).partOf DeclKind.pragmas position =
      if position = id then (tree.partOf DeclKind.pragmas position).set slot pragma
      else tree.partOf DeclKind.pragmas position := by
  rw [partOf, setPragma, Draft.kind?_modifyKind, partOf]
  by_cases own : position = id
  · rw [if_pos own.symm, if_pos own]
    cases tree.kind? position with
    | none => simp
    | some kind => cases kind <;> simp [DeclKind.setPragma, DeclKind.pragmas]
  · rw [if_neg (Ne.symm own), if_neg own]

theorem lookup?_unannotated (tree : DeclTree) (scope : ScopedName) (reference : String) :
    tree.unannotated.lookup? scope reference = tree.lookup? scope reference :=
  rfl

/-- Types are read without regard to pragmas. -/
theorem readType_unannotated (tree : DeclTree) (scope : ScopedName) (context expression : String) :
    tree.unannotated.readType scope context expression =
      tree.readType scope context expression := by
  rw [readType, readType, lookup?_unannotated]
  split
  · rfl
  · split
    · rfl
    · split
      · rfl
      · rename_i name id _
        rw [kind?_unannotated]
        cases tree.kind? id with
        | none => rfl
        | some kind => cases kind <;> rfl

end DeclTree

namespace Outline

variable {outline : Outline}

/-- The outline without pragmas. -/
def unannotated (outline : Outline) : Outline :=
  outline.mapDraft Draft.unannotated

theorem typeOfAlias_unannotated (outline : Outline) :
    outline.unannotated.typeOfAlias = outline.typeOfAlias := by
  have read : outline.unannotated.readTarget = outline.readTarget := by
    funext entry
    exact DeclTree.readType_unannotated ..
  have named : outline.unannotated.draft.tree.scopedName = outline.draft.tree.scopedName :=
    funext outline.draft.tree.scopedName_unannotated
  funext table declarator
  rw [typeOfAlias, read, named]
  rfl

theorem typeOf_unannotated (outline : Outline) :
    outline.unannotated.typeOf = outline.typeOf := by
  funext table scope context expression
  have read : outline.unannotated.draft.tree.readType scope context expression =
      outline.draft.tree.readType scope context expression := DeclTree.readType_unannotated ..
  rw [typeOf, typeOf, read, typeOfAlias_unannotated]

theorem callableTypes_unannotated (outline : Outline) :
    outline.unannotated.callableTypes = outline.callableTypes := by
  funext table callable
  have named : outline.unannotated.draft.tree.scopedName callable.id =
      outline.draft.tree.scopedName callable.id := DeclTree.scopedName_unannotated ..
  rw [callableTypes, callableTypes, typeOf_unannotated, named]

theorem baseOf_unannotated (outline : Outline) : outline.unannotated.baseOf = outline.baseOf := by
  funext base
  have named : outline.unannotated.draft.tree.scopedName base.interface =
      outline.draft.tree.scopedName base.interface := DeclTree.scopedName_unannotated ..
  rw [baseOf, baseOf, named]
  rfl

/-- A series of changes that do not look at pragmas. -/
theorem unannotated_foldl {β : Type} {change : Draft → β → Draft}
    (blind : ∀ draft entry, (change draft entry).unannotated = change draft.unannotated entry)
    (draft : Draft) (entries : List β) :
    (entries.foldl change draft).unannotated = entries.foldl change draft.unannotated := by
  induction entries generalizing draft with
  | nil => rfl
  | cons entry entries ih => rw [List.foldl_cons, List.foldl_cons, ih, blind]

/-- **References are resolved without regard to pragmas.** -/
theorem resolve_unannotated (outline : Outline) :
    outline.unannotated.resolve = outline.resolve.map DeclTree.unannotated := by
  have table : outline.unannotated.aliasTable = outline.aliasTable := by
    rw [aliasTable, aliasTable, typeOfAlias_unannotated]
    rfl
  rw [resolve, resolve, table, callableTypes_unannotated, baseOf_unannotated,
    show outline.unannotated.callables = outline.callables from rfl,
    show outline.unannotated.bases = outline.bases from rfl]
  cases outline.aliasTable with
  | error cause => rfl
  | ok table =>
    cases typed : outline.callables.mapM (outline.callableTypes table) with
    | error cause => simp [bind, Except.bind, Except.map, typed]
    | ok types =>
      cases based : outline.bases.mapM outline.baseOf with
      | error cause => simp [bind, Except.bind, Except.map, typed]
      | ok bases =>
        have aliased := unannotated_foldl (fun draft (entry : DeclId × IdlType) =>
          Draft.unannotated_setAliasType draft entry.1 entry.2) outline.draft table
        have called := fun draft => unannotated_foldl
          (fun draft (entry : OpenCallable × CallableTypes) =>
            Draft.unannotated_setTypes draft entry.1.id entry.2) draft (outline.callables.zip types)
        have derived := fun draft => unannotated_foldl
          (fun draft (entry : OpenBase × DeclId) =>
            Draft.unannotated_addBase draft entry.1.interface entry.2) draft
          (outline.bases.zip bases)
        simp only [bind, Except.bind, Except.map, typed]
        refine congrArg Except.ok (Eq.trans ?_ (congrArg Draft.tree (derived _).symm))
        rw [called, aliased]
        rfl

end Outline

end IdlBridge
