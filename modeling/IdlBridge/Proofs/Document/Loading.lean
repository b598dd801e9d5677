import IdlBridge.Proofs.Document.Description
import IdlBridge.Proofs.Document.Unresolved

/-!
# Loaded trees and the entries of their documents

Loading a document reads its items, puts them down and resolves what they refer to. What the tree
holds in the end can be read off the entries and the outline (`Loads`): the declarations of each
entry (`Loads.decl?_of_mem`), the lists of members (`Loads.listing`), the pragmas and the bases of
interfaces (`Loads.pragmas`, `Loads.bases`) and the types of callables (`Loads.callable`).
-/

set_option autoImplicit false

namespace IdlBridge

open Markup

theorem DeclKind.bare_unresolved (kind : DeclKind) :
    kind.unresolved.bare = kind.bare.unresolved := by
  cases kind <;> rfl

namespace DeclTree

variable {tree other : DeclTree}

theorem listing_of_unresolved (same : other.unresolved = tree.unresolved)
    (parent : Option DeclId) (callable : Bool) :
    other.listing parent callable = tree.listing parent callable := by
  have declarations : other.declarations = tree.declarations :=
    congrArg (fun blank => blank.declarations) same
  have blank : ∀ kind : DeclKind, kind.unresolved.lists callable = kind.lists callable := by
    intro kind
    cases kind <;> rfl
  have kinds : ∀ any : DeclTree, ∀ id, (any.kind? id).map (·.lists callable) =
      ((any.kind? id).map DeclKind.unresolved).map (·.lists callable) := by
    intro any id
    rw [Option.map_map]
    exact congrArg (Option.map · (any.kind? id)) (funext fun kind => (blank kind).symm)
  cases parent with
  | none => rw [listing, listing, declarations]
  | some id => rw [listing, listing, kinds, kinds, map_kind?_of_unresolved same]

theorem pragmas_of_unresolved (same : other.unresolved = tree.unresolved) (id : DeclId) :
    other.partOf DeclKind.pragmas id = tree.partOf DeclKind.pragmas id := by
  have blank : ∀ kind : DeclKind, kind.unresolved.pragmas = kind.pragmas := by
    intro kind
    cases kind <;> rfl
  have kinds : ∀ any : DeclTree, (any.kind? id).map DeclKind.pragmas =
      ((any.kind? id).map DeclKind.unresolved).map DeclKind.pragmas := by
    intro any
    rw [Option.map_map]
    exact congrArg (Option.map · (any.kind? id)) (funext fun kind => (blank kind).symm)
  rw [partOf, partOf, kinds, kinds, map_kind?_of_unresolved same]

theorem lookup?_of_unresolved (same : other.unresolved = tree.unresolved) (scope : ScopedName)
    (reference : String) : other.lookup? scope reference = tree.lookup? scope reference := by
  have found : ∀ name, (other.find? name).map (name, ·) = (tree.find? name).map (name, ·) := by
    intro name
    rw [find?_of_unresolved same]
  rw [lookup?, lookup?, funext found]

end DeclTree

/-! ## Bases -/

namespace Draft

/-- Bases are appended to their interfaces in their order. -/
theorem bases_foldl_addBase {id : DeclId} (entries : List (OpenBase × DeclId)) {draft : Draft}
    (isInterface : ∃ parts, draft.tree.kind? id = some (.interface parts)) :
    (entries.foldl (fun draft entry => draft.addBase entry.1.interface entry.2) draft).tree.partOf
        DeclKind.bases id =
      draft.tree.partOf DeclKind.bases id ++
        (entries.filter fun entry => entry.1.interface = id).map Prod.snd := by
  induction entries generalizing draft with
  | nil => exact (List.append_nil _).symm
  | cons entry entries ih =>
    obtain ⟨parts, here⟩ := isInterface
    rw [List.foldl_cons, List.filter_cons]
    by_cases own : entry.1.interface = id
    · have added : (draft.addBase entry.1.interface entry.2).tree.kind? id =
          some (.interface { parts with bases := parts.bases ++ [entry.2] }) := by
        rw [addBase, kind?_modifyKind, if_pos own, here]
        rfl
      rw [ih ⟨_, added⟩, DeclTree.partOf, DeclTree.partOf, added, here, if_pos (by simpa using own)]
      simp [DeclKind.bases]
    · have same :
          (draft.addBase entry.1.interface entry.2).tree.kind? id = draft.tree.kind? id := by
        rw [addBase, kind?_modifyKind, if_neg own]
      rw [ih ⟨parts, same.trans here⟩, DeclTree.partOf, same, if_neg (by simpa using own)]
      rfl

end Draft

namespace Outline

variable {outline : Outline} {tree : DeclTree}

/-- The partners of the chosen members of a list. -/
theorem forall₂_filter_zip {α β : Type} {related : α → β → Prop} (chosen : α → Bool) {list : List α}
    {partners : List β} (all : List.Forall₂ related list partners) :
    List.Forall₂ related (list.filter chosen)
      (((list.zip partners).filter fun pair => chosen pair.1).map Prod.snd) := by
  induction all with
  | nil => exact .nil
  | @cons first partner _ _ paired _ ih =>
    rw [List.zip_cons_cons, List.filter_cons, List.filter_cons]
    cases chosen first with
    | true => exact .cons paired ih
    | false => exact ih

/-- The bases of an interface are what its references are looked up to, in their order. -/
theorem bases_of_resolve (resolved : outline.resolve = .ok tree) {id : DeclId}
    (isInterface : ∃ parts, outline.draft.tree.kind? id = some (.interface parts))
    (unbased : outline.draft.tree.partOf DeclKind.bases id = []) :
    List.Forall₂ (fun base target => outline.baseOf base = .ok target)
      (outline.bases.filter fun base => base.interface = id) (tree.partOf DeclKind.bases id) := by
  obtain ⟨table, types, bases, -, -, based, rfl⟩ := resolve_eq_ok_iff.mp resolved
  obtain ⟨parts, declared⟩ := isInterface
  -- Neither typedefs nor callables touch an interface.
  have kept : (outline.withCallables table types).tree.kind? id = some (.interface parts) := by
    have isInterface : DeclKind.isInterface (.interface parts) = true := rfl
    refine eq_some_of_map_guard ?_ declared isInterface
    rw [map_kind?_withCallables _ (fun _ _ => rfl) (fun _ _ => rfl),
      map_kind?_withAliases _ (fun _ _ => rfl) (fun _ _ _ => rfl)]
  have written := Draft.bases_foldl_addBase (outline.bases.zip bases) ⟨parts, kept⟩
  rw [DeclTree.partOf, declared] at unbased
  rw [withBases, written, DeclTree.partOf, kept, unbased, List.nil_append]
  exact forall₂_filter_zip (fun base => decide (base.interface = id)) based

end Outline

/-! ## Loading -/

/-- Loading a document that can be parsed is outlining it and resolving the outline. -/
theorem DeclTree.ofDocument_eq {document : String} {root : Element}
    (parsed : Element.ofDocument document = .ok root) :
    DeclTree.ofDocument document = Outline.ofRoot root >>= Outline.resolve := by
  rw [DeclTree.ofDocument, parsed]
  rfl

/-- The outline of a document, with the entries that were put down. -/
structure Reads (root : Element) (entries : List Entry) (outline : Outline) : Prop where
  items : entries.map Prod.fst = root.items
  laid : Laid root entries
  holds : outline.Holds entries
  read : Outline.ofRoot root = .ok outline

/-- Every outline comes from the entries of its document. -/
theorem exists_reads {root : Element} {outline : Outline}
    (read : Outline.ofRoot root = .ok outline) : ∃ entries, Reads root entries outline := by
  obtain ⟨-, file, contents, -, carries, rfl⟩ := Outline.ofRoot_eq_ok_iff.mp read
  have laid := Laid.ofForall₂ carries
  exact ⟨root.items.zip contents, List.map_fst_zip (Nat.le_of_eq carries.length_eq), laid,
    Outline.holds_putAll laid, read⟩

/-- The tree of a document, with the entries and the outline through which it was loaded. -/
structure Loads (root : Element) (entries : List Entry) (outline : Outline) (tree : DeclTree) :
    Prop extends Reads root entries outline where
  resolved : outline.resolve = .ok tree

/-- Every loaded tree comes from the entries of its document. -/
theorem exists_loads {root : Element} {outline : Outline} {tree : DeclTree}
    (read : Outline.ofRoot root = .ok outline) (resolved : outline.resolve = .ok tree) :
    ∃ entries, Loads root entries outline tree := by
  obtain ⟨entries, reads⟩ := exists_reads read
  exact ⟨entries, reads, resolved⟩

namespace Loads

variable {root : Element} {entries : List Entry} {outline : Outline} {tree : DeclTree}

theorem registered (loads : Loads root entries outline tree) : outline.Registered :=
  Outline.ofRoot_registers loads.read

theorem same (loads : Loads root entries outline tree) :
    tree.unresolved = outline.draft.tree.unresolved :=
  Outline.unresolved_of_resolve loads.resolved

theorem stores (loads : Loads root entries outline tree) : outline.Stores tree :=
  loads.registered.stores loads.resolved

theorem file (loads : Loads root entries outline tree) : root.attr? "file" = some tree.file := by
  obtain ⟨-, file, contents, named, -, rfl⟩ := Outline.ofRoot_eq_ok_iff.mp loads.read
  have kept : tree.file = file :=
    (congrArg (fun blank => blank.file) loads.same).trans (Outline.file_putAll ..)
  rw [named, kept]

/-- The declarations of an entry, with what later additions and resolution have filled in. -/
theorem decl?_of_mem (loads : Loads root entries outline tree) {entry : Entry}
    (listed : entry ∈ entries) (offset : Nat) {decl : Decl}
    (found : entry.decls[offset]? = some decl) :
    ∃ kind, tree.decl? (entry.1.id + offset) = some { decl with kind } ∧
      kind.bare.unresolved = decl.kind.unresolved := by
  have here := loads.holds.getElem?_bare loads.laid listed offset found
  rw [DeclTree.getElem?_bare, Option.map_eq_some_iff] at here
  obtain ⟨middle, declared, rfl⟩ := here
  have blank := DeclTree.map_decl?_of_unresolved loads.same (entry.1.id + offset)
  rw [declared, Option.map_some, Option.map_eq_some_iff] at blank
  obtain ⟨⟨name, scopedName, file, kind⟩, stored, alike⟩ := blank
  rw [Decl.unresolved, Decl.unresolved, Decl.mk.injEq] at alike
  obtain ⟨rfl, rfl, rfl, alike⟩ := alike
  refine ⟨kind, stored, ?_⟩
  show kind.bare.unresolved = middle.kind.bare.unresolved
  rw [← DeclKind.bare_unresolved, ← DeclKind.bare_unresolved, alike]

theorem listing (loads : Loads root entries outline tree) (parent : Option DeclId)
    (callable : Bool) :
    tree.listing parent callable = entries.filterMap (Entry.listedUnder? parent callable) := by
  rw [DeclTree.listing_of_unresolved loads.same, loads.holds.listing]

theorem pragmas (loads : Loads root entries outline tree) (id : DeclId) :
    tree.partOf DeclKind.pragmas id = entries.filterMap (Entry.pragmaOf? id) := by
  rw [DeclTree.pragmas_of_unresolved loads.same, loads.holds.pragmas]

/-- The bases of an interface are what its references are looked up to, in their order. -/
theorem bases (loads : Loads root entries outline tree) {item : Item} {name : String}
    (listed : (item, .interface name) ∈ entries) :
    List.Forall₂ (fun base target => outline.baseOf base = .ok target)
      (outline.bases.filter fun base => base.interface = item.id)
      (tree.partOf DeclKind.bases item.id) := by
  refine Outline.bases_of_resolve loads.resolved ?_ (loads.holds.unbased item.id)
  exact DeclTree.interface_of_bare (loads.holds.getElem?_bare loads.laid listed 0 rfl) rfl

/-- A callable has the types that its expressions mean. -/
theorem callable (loads : Loads root entries outline tree) {entry : Entry} {callable : OpenCallable}
    (listed : entry ∈ entries) (isCallable : entry.openCallable? = some callable) :
    ∃ kind types, tree.kind? entry.1.id = some kind ∧ kind.callableTypes? = some types ∧
      outline.CallableMeans callable.scope callable.text types := by
  have registered : callable ∈ outline.callables := by
    rw [loads.holds.callables]
    exact List.mem_filterMap.mpr ⟨entry, listed, isCallable⟩
  have number : callable.id = entry.1.id := by
    rw [Entry.openCallable?] at isCallable
    split at isCallable <;> cases isCallable <;> rfl
  rw [← number]
  exact loads.stores.callable_stored callable registered

end Loads

end IdlBridge
