import IdlBridge.Proofs.DeclTree.Listing
import IdlBridge.Proofs.Document.Arrangement

/-!
# What items leave in the outline

An item with its content says by itself what it adds to the outline: its declarations, where they
are listed, a pragma, or a reference that is resolved later. Putting it down adds exactly that
(`Outline.Ready.gains_record`), because its number is the next one and its place has been opened by
an earlier item. So the outline of a document can be read off the list of its items
(`Outline.holds_putAll`).
-/

set_option autoImplicit false

namespace IdlBridge

open Markup

/-! ## Entries -/

/-- An item and what it carries. -/
abbrev Entry := Item × Content

/-- The list in which a content is found: the callables of its parent, or the rest. -/
def Content.isCallable? : Content → Option Bool
  | pragma _ _ | base _ _ => none
  | operation _ _ _ | attributes _ _ _ => some true
  | _ => some false

/-- A declaration in the scope and the file of the item. -/
def Item.declare (item : Item) (name : String) (kind : DeclKind) : Decl :=
  ⟨name, item.scope.child name, item.file, kind⟩

namespace Entry

/-- The declarations that an entry makes, before anything is filled in. -/
def decls (entry : Entry) : List Decl :=
  match entry.2 with
  | .module name => [entry.1.declare name (.module [])]
  | .interface name => [entry.1.declare name (.interface .empty)]
  | .forward name => [entry.1.declare name (.forward none)]
  | .typedef name _ =>
    [entry.1.declare name (.typedef .void [entry.1.id + 1]),
      entry.1.declare name (.declarator none)]
  | .enum name enumerators => [entry.1.declare name (.enum enumerators)]
  | .operation name _ params =>
    [entry.1.declare name
      (.operation ⟨.void, params.map fun param => ⟨param.name, .void, param.direction⟩⟩)]
  | .attributes names readonly _ =>
    [entry.1.declare (names.head?.getD "") (.attributes ⟨.void, readonly, names⟩)]
  | .pragma _ _ | .base _ _ => []

/-- The number of the entry, if it is listed there. -/
def listedUnder? (parent : Option DeclId) (callable : Bool) (entry : Entry) : Option DeclId :=
  if parent = entry.1.place.parent? ∧ entry.2.isCallable? = some callable then some entry.1.id
  else none

/-- The pragma that an entry adds to an interface. -/
def pragmaOf? (id : DeclId) (entry : Entry) : Option Pragma :=
  match entry.2 with
  | .pragma interface pragma => if interface = id then some pragma else none
  | _ => none

/-- The typedef whose type is resolved later. -/
def typeAlias? (entry : Entry) : Option TypeAlias :=
  match entry.2 with
  | .typedef name expression =>
    some ⟨entry.1.id + 1, entry.1.scope.child name, expression, entry.1.scope⟩
  | _ => none

/-- The callable whose types are resolved later. -/
def openCallable? (entry : Entry) : Option OpenCallable :=
  match entry.2 with
  | .operation _ returns params =>
    some ⟨entry.1.id, .operation returns params, entry.1.scope⟩
  | .attributes _ _ type => some ⟨entry.1.id, .attributes type, entry.1.scope⟩
  | _ => none

/-- The base that is resolved later. -/
def openBase? (entry : Entry) : Option OpenBase :=
  match entry.2 with
  | .base interface reference => some ⟨interface, reference, entry.1.around⟩
  | _ => none

theorem length_decls {entry : Entry} (carries : entry.1.Carries entry.2) :
    entry.decls.length = entry.1.element.width := by
  rw [Item.width_of_carries carries, decls]
  cases entry.2 <;> rfl

end Entry

/-- Entries that carry what their items say, in the arrangement of a document. -/
structure Laid (root : Element) (entries : List Entry) : Prop where
  carries : ∀ entry ∈ entries, entry.1.Carries entry.2
  arranged : Arranged [root] .outermost 0 (entries.map Prod.fst)

namespace Laid

variable {root : Element} {entries : List Entry} {entry : Entry}

theorem front {rest : List Entry} (laid : Laid root (entries ++ rest)) : Laid root entries where
  carries := fun entry listed => laid.carries entry (List.mem_append_left _ listed)
  arranged := by
    intro before item after split
    refine laid.arranged before item (after ++ rest.map Prod.fst) ?_
    rw [List.map_append, split, List.append_assoc, List.cons_append]

theorem ofForall₂ {contents : List Content}
    (carries : List.Forall₂ Item.Carries root.items contents) :
    Laid root (root.items.zip contents) where
  carries := by
    rintro ⟨item, content⟩ listed
    exact (List.forall₂_iff_zip.mp carries).2 listed
  arranged := by
    rw [List.map_fst_zip (Nat.le_of_eq carries.length_eq)]
    exact root.arranged_items

theorem length_flatMap_decls (laid : Laid root entries) :
    (entries.flatMap Entry.decls).length = widthOf (entries.map Prod.fst) := by
  have carries := laid.carries
  clear laid
  induction entries with
  | nil => rfl
  | cons entry entries ih =>
    rw [List.flatMap_cons, List.length_append, List.map_cons, widthOf,
      Entry.length_decls (carries entry List.mem_cons_self),
      ih fun other listed => carries other (List.mem_cons_of_mem _ listed)]

/-- Around every item there is the root. -/
theorem outer_ne_nil (laid : Laid root entries) (listed : entry ∈ entries) :
    entry.1.outer ≠ [] := by
  rcases laid.arranged.exists_opener (List.mem_map_of_mem listed) with ⟨-, outer⟩ | ⟨_, -, -, outer⟩
    <;> rw [outer] <;> exact List.cons_ne_nil _ _

/-- The declarations of an entry have the numbers of its item. -/
theorem getElem?_flatMap_decls (laid : Laid root entries) (listed : entry ∈ entries) {offset : Nat}
    (inside : offset < entry.decls.length) :
    (entries.flatMap Entry.decls)[entry.1.id + offset]? = entry.decls[offset]? := by
  obtain ⟨before, after, rfl⟩ := List.append_of_mem listed
  obtain ⟨number, -⟩ := laid.arranged (before.map Prod.fst) entry.1 (after.map Prod.fst) (by simp)
  rw [Nat.zero_add, ← (laid.front).length_flatMap_decls] at number
  rw [number, List.flatMap_append, List.getElem?_append_right (Nat.le_add_right _ _),
    Nat.add_sub_cancel_left, List.flatMap_cons, List.getElem?_append_left inside]

end Laid

/-- The name of the elements that carry such a content. -/
def Content.tag : Content → String
  | module _ => "module"
  | interface _ => "interface"
  | forward _ => "forward"
  | typedef _ _ => "typedef"
  | enum _ _ => "enum"
  | operation _ _ _ => "operation"
  | attributes _ _ _ => "attribute"
  | pragma _ _ => "pragma"
  | base _ _ => "inherits"

namespace Item.Carries

variable {item : Item} {content : Content}

theorem name_eq (carries : item.Carries content) : item.element.name = content.tag := by
  cases content with
  | typedef | enum => exact carries.1
  | _ => exact carries.2.1

/-- Callables stand in interfaces only. -/
theorem callable_eq_false {callable : Bool} (carries : item.Carries content)
    (sort : content.isCallable? = some callable) (isScope : item.place.isScope = true) :
    callable = false := by
  cases content with
  | operation | attributes => exact absurd isScope carries.1
  | pragma | base => cases sort
  | _ => exact (Option.some.inj sort).symm

/-- What opens a place is a module or an interface. -/
theorem of_inner? {inner : Place} (carries : item.Carries content)
    (opens : item.inner? = some inner) :
    ∃ name, item.element.attr? "name" = some name ∧
      (content = .module name ∧ inner = .module item.id ∨
        content = .interface name ∧ inner = .interface item.id) := by
  rw [inner?, carries.name_eq] at opens
  cases content with
  | module name =>
    refine ⟨name, carries.2.2, .inl ⟨rfl, ?_⟩⟩
    cases place : item.place <;> simp_all [Place.inner?, Content.tag]
  | interface name =>
    refine ⟨name, carries.2.2, .inr ⟨rfl, ?_⟩⟩
    cases place : item.place <;> simp_all [Place.inner?, Content.tag]
  | _ => cases place : item.place <;> simp [Place.inner?, Content.tag, place] at opens

end Item.Carries

namespace Outline

/-! ## What an outline holds -/

/-- The outline holds what the entries say, in their order. -/
structure Holds (outline : Outline) (entries : List Entry) : Prop where
  bare : outline.draft.tree.bare = entries.flatMap Entry.decls
  listing : ∀ parent callable, outline.draft.tree.listing parent callable =
    entries.filterMap (Entry.listedUnder? parent callable)
  pragmas : ∀ id, outline.draft.tree.partOf DeclKind.pragmas id =
    entries.filterMap (Entry.pragmaOf? id)
  unbased : ∀ id, outline.draft.tree.partOf DeclKind.bases id = []
  aliases : outline.aliases = entries.filterMap Entry.typeAlias?
  callables : outline.callables = entries.filterMap Entry.openCallable?
  bases : outline.bases = entries.filterMap Entry.openBase?

/-- The outline has grown by what one entry says. -/
structure Gains (outline larger : Outline) (entry : Entry) : Prop where
  bare : larger.draft.tree.bare = outline.draft.tree.bare ++ entry.decls
  listing : ∀ parent callable, larger.draft.tree.listing parent callable =
    outline.draft.tree.listing parent callable ++ (entry.listedUnder? parent callable).toList
  pragmas : ∀ id, larger.draft.tree.partOf DeclKind.pragmas id =
    outline.draft.tree.partOf DeclKind.pragmas id ++ (entry.pragmaOf? id).toList
  unbased : ∀ id, larger.draft.tree.partOf DeclKind.bases id =
    outline.draft.tree.partOf DeclKind.bases id
  aliases : larger.aliases = outline.aliases ++ entry.typeAlias?.toList
  callables : larger.callables = outline.callables ++ entry.openCallable?.toList
  bases : larger.bases = outline.bases ++ entry.openBase?.toList

theorem filterMap_snoc {α β : Type} (choose : α → Option β) (list : List α) (last : α) :
    (list ++ [last]).filterMap choose = list.filterMap choose ++ (choose last).toList := by
  rw [List.filterMap_append]
  cases chosen : choose last <;> simp [chosen]

theorem Holds.snoc {outline larger : Outline} {entries : List Entry} {entry : Entry}
    (holds : outline.Holds entries) (gains : outline.Gains larger entry) :
    larger.Holds (entries ++ [entry]) where
  bare := by rw [gains.bare, holds.bare, List.flatMap_append, List.flatMap_singleton]
  listing parent callable := by rw [gains.listing, holds.listing, filterMap_snoc]
  pragmas id := by rw [gains.pragmas, holds.pragmas, filterMap_snoc]
  unbased id := by rw [gains.unbased, holds.unbased]
  aliases := by rw [gains.aliases, holds.aliases, filterMap_snoc]
  callables := by rw [gains.callables, holds.callables, filterMap_snoc]
  bases := by rw [gains.bases, holds.bases, filterMap_snoc]

theorem holds_start (root : Element) (file : String) : (start root file).Holds [] where
  bare := rfl
  listing parent callable := by cases parent <;> cases callable <;> rfl
  pragmas _ := rfl
  unbased _ := rfl
  aliases := rfl
  callables := rfl
  bases := rfl

/-! ## One entry -/

section OneEntry

variable {root : Element} {outline : Outline} {entries : List Entry} {entry : Entry}

/-- The next declaration is numbered as the next item. -/
theorem Holds.nextId_eq (holds : outline.Holds entries) (laid : Laid root (entries ++ [entry])) :
    outline.draft.nextId = entry.1.id := by
  obtain ⟨number, -⟩ := laid.arranged (entries.map Prod.fst) entry.1 [] (by simp)
  rw [number, Nat.zero_add, ← laid.front.length_flatMap_decls, ← holds.bare, DeclTree.length_bare]
  rfl

/-- The declarations of an entry are found under its numbers. -/
theorem Holds.getElem?_bare (holds : outline.Holds entries) (laid : Laid root entries)
    (listed : entry ∈ entries) (offset : Nat) {decl : Decl}
    (found : entry.decls[offset]? = some decl) :
    outline.draft.tree.bare[entry.1.id + offset]? = some decl := by
  rw [holds.bare, laid.getElem?_flatMap_decls listed (List.getElem?_eq_some_iff.mp found).1, found]

/-- What stands around an item is the root, or a module or an interface put down before. -/
theorem Holds.exists_parent (holds : outline.Holds entries)
    (laid : Laid root (entries ++ [entry])) :
    entry.1.place = .outermost ∧ entry.1.outer = [root] ∨
      ∃ around ∈ entries, ∃ name kind, outline.draft.tree.bare[around.1.id]? =
          some (around.1.declare name kind) ∧
        around.1.element.attr? "name" = some name ∧
        entry.1.outer = around.1.element :: around.1.outer ∧
        (kind = .module [] ∧ entry.1.place = .module around.1.id ∨
          kind = .interface .empty ∧ entry.1.place = .interface around.1.id) := by
  obtain ⟨-, stands⟩ := laid.arranged (entries.map Prod.fst) entry.1 [] (by simp)
  rcases stands with here | ⟨item, earlier, opens, outer⟩
  · exact .inl here
  · obtain ⟨around, listed, rfl⟩ := List.mem_map.mp earlier
    have carries := laid.front.carries around listed
    refine .inr ⟨around, listed, ?_⟩
    obtain ⟨name, named, ⟨content, place⟩ | ⟨content, place⟩⟩ := carries.of_inner? opens
    · refine ⟨name, .module [], holds.getElem?_bare laid.front listed 0 ?_, named, outer,
        .inl ⟨rfl, place⟩⟩
      rw [Entry.decls, content]
      rfl
    · refine ⟨name, .interface .empty, holds.getElem?_bare laid.front listed 0 ?_, named, outer,
        .inr ⟨rfl, place⟩⟩
      rw [Entry.decls, content]
      rfl

/-- The scope in which an item stands is the one of its parent. -/
theorem Holds.around (holds : outline.Holds entries) (laid : Laid root (entries ++ [entry])) :
    outline.Around entry.1.place.parent? entry.1.outer := by
  rcases holds.exists_parent laid with ⟨place, outer⟩ | ⟨around, listed, name, kind, found, named,
    outer, opened⟩
  · rw [place, outer]
    exact ⟨Draft.knows_none _, rfl⟩
  · have parent : entry.1.place.parent? = some around.1.id := by
      rcases opened with ⟨-, place⟩ | ⟨-, place⟩ <;> rw [place] <;> rfl
    have nested := laid.front.outer_ne_nil listed
    rw [parent, outer]
    refine ⟨fun id isParent => ?_, ?_⟩
    · cases isParent
      rw [Draft.nextId, ← DeclTree.length_bare]
      exact (List.getElem?_eq_some_iff.mp found).1
    · rw [scopeOf, DeclTree.scopedName_eq_bare, found, chainScope_cons nested, named]
      rfl

/-- The parent of an item can list what the item declares. -/
theorem Holds.canList (holds : outline.Holds entries) (laid : Laid root (entries ++ [entry]))
    {callable : Bool} (sort : entry.2.isCallable? = some callable) :
    outline.draft.tree.CanList entry.1.place.parent? callable := by
  have plain : entry.1.place.isScope = true → callable = false :=
    (laid.carries entry (by simp)).callable_eq_false sort
  rcases holds.exists_parent laid with ⟨place, -⟩ | ⟨around, listed, name, kind, found, -, -,
    ⟨rfl, place⟩ | ⟨rfl, place⟩⟩
  · rw [place] at plain ⊢
    exact plain rfl
  · rw [place] at plain ⊢
    rw [plain rfl]
    exact DeclTree.canList_of_bare found rfl
  · rw [place]
    exact DeclTree.canList_of_bare found rfl

theorem toList_listedUnder? {callable : Bool} (sort : entry.2.isCallable? = some callable)
    (parent : Option DeclId) (other : Bool) :
    (entry.listedUnder? parent other).toList =
      if parent = entry.1.place.parent? ∧ other = callable then [entry.1.id] else [] := by
  rw [Entry.listedUnder?, sort]
  by_cases same : parent = entry.1.place.parent? ∧ other = callable
  · rw [if_pos ⟨same.1, by rw [same.2]⟩, if_pos same, Option.toList_some]
  · rw [if_neg fun both => same ⟨both.1, (Option.some.inj both.2).symm⟩, if_neg same,
      Option.toList_none]

theorem pragmaOf?_eq_none {callable : Bool} (sort : entry.2.isCallable? = some callable)
    (id : DeclId) : entry.pragmaOf? id = none := by
  rw [Entry.pragmaOf?]
  cases content : entry.2 with
  | pragma => rw [content] at sort; cases sort
  | _ => rfl

/-- The file of new declarations is none of the things that an entry adds. -/
theorem Gains.of_setFile {larger : Outline} {file : String}
    (gained : (outline.mapDraft (·.setFile file)).Gains larger entry) :
    outline.Gains larger entry :=
  ⟨gained.bare, gained.listing, gained.pragmas, gained.unbased, gained.aliases, gained.callables,
    gained.bases⟩

/-- The outline is ready for an entry: the next number is the one of the item, declarations get its
file, and its parent is there and can take it. -/
structure Ready (outline : Outline) (entry : Entry) : Prop where
  number : outline.draft.nextId = entry.1.id
  file : outline.draft.currentFile = entry.1.file
  around : outline.Around entry.1.place.parent? entry.1.outer
  canList : ∀ {callable}, entry.2.isCallable? = some callable →
    outline.draft.tree.CanList entry.1.place.parent? callable
  isInterface : ∀ {interface pragma}, entry.2 = .pragma interface pragma →
    ∃ parts, outline.draft.tree.kind? interface = some (.interface parts)

theorem Holds.ready (holds : outline.Holds entries) (laid : Laid root (entries ++ [entry])) :
    (outline.mapDraft (·.setFile entry.1.file)).Ready entry where
  number := holds.nextId_eq laid
  file := rfl
  around := ⟨(holds.around laid).known, (holds.around laid).scope⟩
  canList sort := holds.canList laid sort
  isInterface := by
    intro interface pragma content
    have carries := laid.carries entry (by simp)
    rw [content] at carries
    rcases holds.exists_parent laid with ⟨place, -⟩ | ⟨around, -, name, kind, found, -, -,
      ⟨-, place⟩ | ⟨rfl, place⟩⟩
    · cases place.symm.trans carries.1
    · cases place.symm.trans carries.1
    · cases place.symm.trans carries.1
      exact DeclTree.interface_of_bare found rfl

namespace Ready

theorem declare_eq (ready : outline.Ready entry) (name : String) (kind : DeclKind) :
    entry.1.declare name kind = ⟨name, outline.draft.memberName entry.1.place.parent? name,
      outline.draft.currentFile, kind⟩ := by
  rw [Item.declare, memberName_eq_child, ready.around.scope, ready.file]
  rfl

theorem scopeOf_eq (ready : outline.Ready entry) :
    outline.scopeOf entry.1.place.parent? = entry.1.scope :=
  ready.around.scope

/-- A declaration that is added as it is. -/
theorem gains_add (ready : outline.Ready entry) {larger : Outline} (name : String)
    (kind : DeclKind) (draft : larger.draft = outline.draft.add entry.1.place.parent? name kind)
    (sort : entry.2.isCallable? = some kind.isCallable)
    (decls : entry.decls = [entry.1.declare name kind.bare])
    (lists : ∀ callable, kind.lists callable = []) (pragmas : kind.pragmas = [])
    (unbased : kind.bases = [])
    (aliases : larger.aliases = outline.aliases ++ entry.typeAlias?.toList)
    (callables : larger.callables = outline.callables ++ entry.openCallable?.toList)
    (bases : larger.bases = outline.bases ++ entry.openBase?.toList) :
    outline.Gains larger entry where
  bare := by rw [draft, Draft.bare_add, decls, ready.declare_eq]
  listing parent callable := by
    rw [draft, Draft.listing_add ready.around.known name kind (ready.canList sort) lists,
      toList_listedUnder? sort, ready.number]
  pragmas id := by
    rw [draft, Draft.partOf_add DeclKind.isKept_pragmas name pragmas, pragmaOf?_eq_none sort,
      Option.toList_none, List.append_nil]
  unbased id := by rw [draft, Draft.partOf_add DeclKind.isKept_bases name unbased]
  aliases := aliases
  callables := callables
  bases := bases

theorem gains_interface {item : Item} {name : String}
    (ready : outline.Ready (item, .interface name)) :
    outline.Gains (outline.mapDraft (·.addInterface item.place.parent? name))
      (item, .interface name) where
  bare := by
    have decls : Entry.decls (item, .interface name) =
        [item.declare name (.interface .empty)] := rfl
    rw [decls, ready.declare_eq]
    exact Draft.bare_addInterface ..
  listing parent callable := by
    have sort : (Content.interface name).isCallable? = some false := rfl
    rw [toList_listedUnder? sort, ← ready.number]
    exact Draft.listing_addInterface ready.around.known name (ready.canList sort) parent callable
  pragmas id :=
    (Draft.partOf_addInterface DeclKind.isKept_pragmas name rfl id).trans (List.append_nil _).symm
  unbased id := Draft.partOf_addInterface DeclKind.isKept_bases name rfl id
  aliases := (List.append_nil _).symm
  callables := (List.append_nil _).symm
  bases := (List.append_nil _).symm

theorem gains_typedef {item : Item} {name expression : String}
    (ready : outline.Ready (item, .typedef name expression)) (around : ScopedName) :
    outline.Gains (outline.record item.place.parent? around (.typedef name expression))
      (item, .typedef name expression) where
  bare := by
    let entry : Entry := (item, .typedef name expression)
    have decls : entry.decls = [item.declare name (.typedef .void [item.id + 1]),
        item.declare name (.declarator none)] := rfl
    rw [decls, ready.declare_eq, ready.declare_eq, ← ready.number]
    exact Draft.bare_addTypedef ready.around.known name .void
  listing parent callable := by
    have sort : (Content.typedef name expression).isCallable? = some false := rfl
    rw [toList_listedUnder? sort, ← ready.number]
    exact Draft.listing_addTypedef ready.around.known name (ready.canList sort) .void parent
      callable
  pragmas id := by
    refine Eq.trans ?_ (List.append_nil _).symm
    exact Draft.partOf_addTypedef DeclKind.isKept_pragmas name (fun _ => rfl) (fun _ => rfl) id
  unbased id :=
    Draft.partOf_addTypedef DeclKind.isKept_bases name (fun _ => rfl) (fun _ => rfl) id
  aliases := by
    rw [record, memberName_eq_child, ready.scopeOf_eq, Draft.nextDeclarator, ready.number]
    rfl
  callables := (List.append_nil _).symm
  bases := (List.append_nil _).symm

theorem gains_pragma {item : Item} {interface : DeclId} {pragma : Pragma}
    (ready : outline.Ready (item, .pragma interface pragma)) :
    outline.Gains (outline.mapDraft (·.addPragma interface pragma))
      (item, .pragma interface pragma) where
  bare := (Draft.bare_addPragma ..).trans (List.append_nil _).symm
  listing parent callable := by
    rw [Entry.listedUnder?, if_neg (by simp [Content.isCallable?]), Option.toList_none,
      List.append_nil]
    exact Draft.listing_addPragma ..
  pragmas id := by
    obtain ⟨parts, isInterface⟩ := ready.isInterface rfl
    rw [Entry.pragmaOf?]
    refine (Draft.pragmas_addPragma isInterface pragma id).trans ?_
    by_cases own : interface = id
    · simp [own]
    · simp [own]
  unbased id := Draft.bases_addPragma ..
  aliases := (List.append_nil _).symm
  callables := (List.append_nil _).symm
  bases := (List.append_nil _).symm

/-- **An item adds to the outline what it says by itself.** -/
theorem gains_record (ready : outline.Ready entry) :
    outline.Gains (outline.record entry.1.place.parent? entry.1.around entry.2) entry := by
  obtain ⟨item, content⟩ := entry
  have nothing : ∀ {α : Type} (list : List α), list = list ++ (none : Option α).toList :=
    fun list => (List.append_nil list).symm
  cases content with
  | module name =>
    exact ready.gains_add name (.module []) rfl rfl rfl (fun callable => by cases callable <;> rfl)
      rfl rfl (nothing _) (nothing _) (nothing _)
  | interface name => exact ready.gains_interface
  | forward name =>
    exact ready.gains_add name (.forward _) rfl rfl rfl (fun _ => rfl) rfl rfl (nothing _)
      (nothing _) (nothing _)
  | typedef name expression => exact ready.gains_typedef item.around
  | enum name enumerators =>
    exact ready.gains_add name (.enum enumerators) rfl rfl rfl (fun _ => rfl) rfl rfl (nothing _)
      (nothing _) (nothing _)
  | operation name returns params =>
    refine ready.gains_add name (.operation _) rfl rfl rfl (fun _ => rfl) rfl rfl (nothing _) ?_
      (nothing _)
    rw [record, ready.scopeOf_eq, ready.number]
    rfl
  | attributes names readonly type =>
    refine ready.gains_add _ (.attributes _) rfl rfl rfl (fun _ => rfl) rfl rfl (nothing _) ?_
      (nothing _)
    rw [record, ready.scopeOf_eq, ready.number]
    rfl
  | pragma interface pragma => exact ready.gains_pragma
  | base interface reference =>
    have unlisted : ∀ parent callable,
        Entry.listedUnder? parent callable (item, .base interface reference) = none :=
      fun parent callable => if_neg (by simp [Content.isCallable?])
    exact ⟨nothing _, fun parent callable => by rw [unlisted]; exact nothing _, fun _ => nothing _,
      fun _ => rfl, nothing _, nothing _, rfl⟩

end Ready

end OneEntry

/-! ## The main file -/

theorem file_record (outline : Outline) (parent : Option DeclId) (around : ScopedName)
    (content : Content) :
    (outline.record parent around content).draft.tree.file = outline.draft.tree.file := by
  cases content with
  | interface name => exact Draft.file_add ..
  | typedef name expression => exact Draft.file_addTypedef ..
  | pragma interface pragma => rfl
  | base interface reference => rfl
  | module | forward | enum | operation | attributes => exact Draft.file_add ..

theorem file_putAll (outline : Outline) (entries : List Entry) :
    (outline.putAll entries).draft.tree.file = outline.draft.tree.file := by
  induction entries generalizing outline with
  | nil => rfl
  | cons entry entries ih => exact (ih _).trans (file_record ..)

/-- **The outline of a document holds what its items say.** -/
theorem holds_putAll {root : Element} {file : String} {entries : List Entry}
    (laid : Laid root entries) : ((start root file).putAll entries).Holds entries := by
  induction entries using List.reverseRecOn with
  | nil => exact holds_start root file
  | append_singleton entries entry ih =>
    have before := ih laid.front
    rw [putAll, List.foldl_append]
    exact before.snoc (before.ready laid).gains_record.of_setFile

end Outline

end IdlBridge
