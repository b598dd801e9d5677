import IdlBridge.Proofs.DeclTree.Index

/-!
# Where forward declarations lead

A forward declaration and the interface it announces are linked from both sides. A forward
declaration looks for an interface when it is added, and an interface looks for forward declarations
that are still open when it is added. Over a whole construction the links follow one rule
(`DeclTree.Announces`): a forward declaration leads to the latest interface of its name in front of
it, and if there is none in front, to the first one behind it. It stays open exactly as long as no
interface has its name (`DeclTree.Linked`).

Each addition keeps the rule. An addition that is no interface changes no link and takes its own from
the index (`Linked.append`); an interface closes the open links of its name (`Linked.interface`).
A forward declaration that a name leads to is therefore open (`Indexed.target_of_find?`).
-/

set_option autoImplicit false

namespace IdlBridge

/-! ## Links -/

/-- The name of a forward declaration and the interface it leads to, once that is known. -/
def Decl.link? (decl : Decl) : Option (ScopedName × Option DeclId) :=
  match decl.kind with
  | .forward target => some (decl.scopedName, target)
  | _ => none

/-- Closes an open link of the given name. -/
def closeLink (own : ScopedName) (interface : DeclId) (link : ScopedName × Option DeclId) :
    ScopedName × Option DeclId :=
  (link.1, if link.1 = own then link.2.or (some interface) else link.2)

/-- A member of a list with one more at its end is a member of the list or the last one. -/
theorem getElem?_concat_cases {α : Type} {list : List α} {last found : α} {position : Nat}
    (here : (list ++ [last])[position]? = some found) :
    list[position]? = some found ∨ position = list.length ∧ found = last := by
  rcases Nat.lt_or_ge position list.length with old | new
  · rw [List.getElem?_append_left old] at here
    exact .inl here
  · have bound := (List.getElem?_eq_some_iff.mp here).1
    rw [List.length_append, List.length_singleton] at bound
    have atEnd : position = list.length := by omega
    rw [atEnd, List.getElem?_concat_length] at here
    exact .inr ⟨atEnd, (Option.some.inj here).symm⟩

namespace DeclTree

variable {tree larger : DeclTree} {name : ScopedName} {label : Label}

/-- The links of all declarations, in order. -/
def links (tree : DeclTree) : List (Option (ScopedName × Option DeclId)) :=
  tree.decls.toList.map Decl.link?

@[simp]
theorem length_links (tree : DeclTree) : tree.links.length = tree.size := by
  simp [links, size]

theorem getElem?_links (tree : DeclTree) (id : DeclId) :
    tree.links[id]? = (tree.decl? id).map Decl.link? := by
  simp [links, decl?]

theorem lt_size_of_links {id : DeclId} {link : Option (ScopedName × Option DeclId)}
    (found : tree.links[id]? = some link) : id < tree.size := by
  simpa using (List.getElem?_eq_some_iff.mp found).1

/-- The interface is the latest of its name in front of the forward declaration, or the first of its
name at all and behind it. -/
def Announces (tree : DeclTree) (name : ScopedName) (forward interface : DeclId) : Prop :=
  tree.Bears Label.isInterface name interface ∧
    (interface < forward ∧
        (∀ between, interface < between → between < forward →
          ¬ tree.Bears Label.isInterface name between) ∨
      forward < interface ∧
        ∀ earlier, earlier < interface → ¬ tree.Bears Label.isInterface name earlier)

/-- A forward declaration leads to the interface that it announces, and is open only if no interface
has its name. -/
structure Linked (tree : DeclTree) : Prop where
  unannounced : ∀ (id : DeclId) (name : ScopedName), tree.links[id]? = some (some (name, none)) →
    ∀ other, ¬ tree.Bears Label.isInterface name other
  announces : ∀ (id : DeclId) (name : ScopedName) (interface : DeclId),
    tree.links[id]? = some (some (name, some interface)) → tree.Announces name id interface

/-! ## What additions do to links -/

/-- Declarations that are there keep their sort. -/
theorem bears_of_lt (appended : larger.labels = tree.labels ++ [label]) {sort : Label → Bool}
    {id : DeclId} (old : id < tree.size) :
    larger.Bears sort name id ↔ tree.Bears sort name id := by
  rw [bears_of_appended appended, or_iff_left]
  rintro ⟨rfl, -⟩
  exact Nat.lt_irrefl _ old

/-- A new declaration is no new interface of a name, unless it is one and has the name. -/
theorem bears_isInterface_of_appended (appended : larger.labels = tree.labels ++ [label])
    (plain : label.isInterface = false ∨ label.name ≠ name) {id : DeclId} :
    larger.Bears Label.isInterface name id ↔ tree.Bears Label.isInterface name id := by
  rw [bears_of_appended appended, or_iff_left]
  rintro ⟨-, named, isInterface⟩
  rcases plain with notInterface | otherName
  · rw [notInterface] at isInterface
    cases isInterface
  · exact otherName named

/-- An announcement stands whatever is added. -/
theorem Announces.of_appended {forward interface : DeclId}
    (announces : tree.Announces name forward interface) (known : forward < tree.size)
    (appended : larger.labels = tree.labels ++ [label]) :
    larger.Announces name forward interface := by
  obtain ⟨bears, position⟩ := announces
  have bound := lt_size_of_bears bears
  refine ⟨(bears_of_lt appended bound).mpr bears, ?_⟩
  rcases position with ⟨front, latest⟩ | ⟨behind, first⟩
  · refine .inl ⟨front, ?_⟩
    intro between after before
    rw [bears_of_lt appended (Nat.lt_trans before known)]
    exact latest between after before
  · refine .inr ⟨behind, ?_⟩
    intro earlier before
    rw [bears_of_lt appended (Nat.lt_trans before bound)]
    exact first earlier before

/-- An addition that is no interface takes its link from the latest interface of its name. -/
theorem Linked.append (linked : tree.Linked) {link : Option (ScopedName × Option DeclId)}
    (appended : larger.labels = tree.labels ++ [label]) (plain : label.isInterface = false)
    (links : larger.links = tree.links ++ [link])
    (unannounced : ∀ name, link = some (name, none) →
      ∀ other, ¬ tree.Bears Label.isInterface name other)
    (latest : ∀ name interface, link = some (name, some interface) →
      tree.Bears Label.isInterface name interface ∧
        ∀ later, interface < later → ¬ tree.Bears Label.isInterface name later) :
    larger.Linked := by
  have interfaces : ∀ name id, larger.Bears Label.isInterface name id ↔
      tree.Bears Label.isInterface name id :=
    fun name id => bears_isInterface_of_appended appended (.inl plain)
  constructor
  · intro id name found other
    rw [interfaces]
    rw [links] at found
    rcases getElem?_concat_cases found with old | ⟨-, new⟩
    · exact linked.unannounced id name old other
    · exact unannounced name new.symm other
  · intro id name interface found
    rw [links] at found
    rcases getElem?_concat_cases found with old | ⟨last, new⟩
    · exact (linked.announces id name interface old).of_appended (lt_size_of_links old) appended
    · obtain ⟨bears, none⟩ := latest name interface new.symm
      have front := lt_size_of_bears bears
      rw [← length_links, ← last] at front
      refine ⟨(interfaces name interface).mpr bears, .inl ⟨front, ?_⟩⟩
      intro between after _
      rw [interfaces]
      exact none between after

/-- An interface closes the open links of its name. -/
theorem Linked.interface (linked : tree.Linked)
    (appended : larger.labels = tree.labels ++ [label]) (isInterface : label.isInterface = true)
    (links : larger.links =
      tree.links.map (Option.map (closeLink label.name tree.size)) ++ [none]) :
    larger.Linked := by
  -- A link of the larger tree is one of the smaller, closed if it was open under the new name.
  have before : ∀ (id : DeclId) (name : ScopedName) (target : Option DeclId),
      larger.links[id]? = some (some (name, target)) →
      ∃ old : Option DeclId, tree.links[id]? = some (some (name, old)) ∧
        target = if name = label.name then old.or (some tree.size) else old := by
    intro id name target found
    rw [links] at found
    rcases getElem?_concat_cases found with here | ⟨-, new⟩
    · rw [List.getElem?_map, Option.map_eq_some_iff] at here
      obtain ⟨link, here, closed⟩ := here
      obtain ⟨⟨own, old⟩, rfl, same⟩ := Option.map_eq_some_iff.mp closed
      rw [closeLink, Prod.mk.injEq] at same
      obtain ⟨rfl, rfl⟩ := same
      exact ⟨old, here, rfl⟩
    · cases new
  constructor
  · intro id name found other
    obtain ⟨old, here, closed⟩ := before id name none found
    by_cases own : name = label.name
    · rw [if_pos own] at closed
      cases old <;> cases closed
    · rw [if_neg own] at closed
      rw [bears_isInterface_of_appended appended (.inr (Ne.symm own))]
      exact linked.unannounced id name (closed ▸ here) other
  · intro id name interface found
    obtain ⟨old, here, closed⟩ := before id name (some interface) found
    have known := lt_size_of_links here
    cases old with
    | some target =>
      have kept : interface = target := by
        split at closed
        · exact Option.some.inj closed
        · exact Option.some.inj closed
      subst kept
      exact (linked.announces id name interface here).of_appended known appended
    | none =>
      split at closed
      · -- The link was open, so the interface is the first of its name.
        rename_i own
        cases closed
        refine ⟨(bears_of_appended appended).mpr (.inr ⟨rfl, own.symm, isInterface⟩),
          .inr ⟨known, ?_⟩⟩
        intro earlier front
        rw [bears_of_lt appended front]
        exact linked.unannounced id name here earlier
      · cases closed

/-- Only labels and links count. -/
theorem Linked.of_same (linked : tree.Linked) (labels : larger.labels = tree.labels)
    (links : larger.links = tree.links) : larger.Linked := by
  have bears : ∀ name id, larger.Bears Label.isInterface name id ↔
      tree.Bears Label.isInterface name id := by
    intro name id
    rw [Bears, Bears, labels]
  constructor
  · intro id name found other
    rw [links] at found
    rw [bears]
    exact linked.unannounced id name found other
  · intro id name interface found
    rw [links] at found
    simpa only [Announces, bears] using linked.announces id name interface found

theorem isInterface_iff_bears {id : DeclId} (indexed : tree.Bears Label.isIndexed name id) :
    tree.isInterface id = true ↔ tree.Bears Label.isInterface name id := by
  obtain ⟨decl, here, named, -⟩ := bears_iff.mp indexed
  have known : tree.isInterface id = decl.kind.isInterface := by
    rw [isInterface, interface?, here, Option.bind_some, Decl.interface?]
    cases decl.kind <;> rfl
  rw [known, bears_iff]
  constructor
  · intro isInterface
    exact ⟨decl, here, named, isInterface⟩
  · rintro ⟨other, alsoHere, -, isInterface⟩
    cases here.symm.trans alsoHere
    exact isInterface

/-- The index leads to an interface only if it is the latest of its name, and to none only if there
is none. -/
theorem Indexed.latest (indexed : tree.Indexed) (name : ScopedName) :
    ((tree.find? name).filter tree.isInterface = none →
        ∀ other, ¬ tree.Bears Label.isInterface name other) ∧
      ∀ interface, (tree.find? name).filter tree.isInterface = some interface →
        tree.Bears Label.isInterface name interface ∧
          ∀ later, interface < later → ¬ tree.Bears Label.isInterface name later := by
  cases found : tree.find? name with
  | none =>
    refine ⟨fun _ other bears => ?_, fun interface isFound => by cases isFound⟩
    exact indexed.absent name found other bears.isIndexed
  | some id =>
    have chosen := indexed.chosen name id found
    rw [Option.filter_some]
    rcases chosen with ⟨interface, latest⟩ | ⟨none, isIndexed, -⟩
    · rw [if_pos ((isInterface_iff_bears interface.isIndexed).mpr interface)]
      refine ⟨fun absurd => (by cases absurd), fun other isFound => ?_⟩
      cases isFound
      exact ⟨interface, latest⟩
    · rw [if_neg (mt (isInterface_iff_bears isIndexed).mp (none id))]
      exact ⟨fun _ => none, fun interface absurd => (by cases absurd)⟩

end DeclTree

/-! ## What edits do to links -/

namespace Draft

variable {draft : Draft}

theorem links_modifyKind {id : DeclId} {change : DeclKind → DeclKind}
    (keeps : ∀ decl : Decl, Decl.link? { decl with kind := change decl.kind } = decl.link?) :
    (draft.modifyKind id change).tree.links = draft.tree.links :=
  map_decls_modifyKind keeps

theorem links_listUnder (draft : Draft) (parent : Option DeclId) (member : DeclId)
    (callable : Bool) :
    (draft.listUnder parent member callable).tree.links = draft.tree.links := by
  cases parent with
  | none => rfl
  | some id =>
    apply links_modifyKind
    rintro ⟨name, scopedName, file, kind⟩
    cases kind with
    | interface parts => cases callable <;> rfl
    | _ => rfl

theorem links_enterName (draft : Draft) (id : DeclId) :
    (draft.enterName id).tree.links = draft.tree.links := by
  unfold enterName
  split
  · rfl
  · split <;> rfl

theorem links_append (draft : Draft) (parent : Option DeclId) (name : String) (kind : DeclKind) :
    (draft.append parent name kind).tree.links = draft.tree.links ++
      [Decl.link? ⟨name, draft.memberName parent name, draft.currentFile, kind⟩] := by
  simp [append, mapDecls, DeclTree.links]

theorem links_add (draft : Draft) (parent : Option DeclId) (name : String) (kind : DeclKind) :
    (draft.add parent name kind).tree.links = draft.tree.links ++
      [Decl.link? ⟨name, draft.memberName parent name, draft.currentFile, kind⟩] := by
  rw [add, links_enterName, links_listUnder, links_append]

/-- An interface closes the open links of its name and has none itself. -/
theorem links_addInterface (draft : Draft) (parent : Option DeclId) (name : String) :
    (draft.addInterface parent name).tree.links =
      draft.tree.links.map (Option.map (closeLink (draft.memberName parent name) draft.nextId)) ++
        [none] := by
  have closed : ∀ (target : DeclId) (own : ScopedName) (decl : Decl),
      (if decl.scopedName = own then { decl with kind := decl.kind.announce target }
        else decl).link? = decl.link?.map (closeLink own target) := by
    intro target own decl
    obtain ⟨name, scopedName, file, kind⟩ := decl
    by_cases same : scopedName = own
    · rw [if_pos same]
      cases kind with
      | forward known => cases known <;> simp [Decl.link?, DeclKind.announce, closeLink, same]
      | _ => rfl
    · rw [if_neg same]
      cases kind with
      | forward known => simp [Decl.link?, closeLink, same]
      | _ => rfl
  have added : (draft.addInterface parent name).tree.links =
      (draft.add parent name (.interface .empty)).tree.links.map
        (Option.map (closeLink (draft.memberName parent name) draft.nextId)) := by
    simp only [addInterface, DeclTree.links, mapDecls, Array.toList_map, List.map_map,
      Function.comp_def, closed]
  rw [added, links_add, List.map_append]
  rfl

theorem linked_add (linked : draft.tree.Linked) (parent : Option DeclId) (name : String)
    {kind : DeclKind} (plain : kind.isInterface = false) (unlinked : ∀ target, kind ≠ .forward target) :
    (draft.add parent name kind).tree.Linked := by
  have none : Decl.link? ⟨name, draft.memberName parent name, draft.currentFile, kind⟩ = none := by
    cases kind with
    | forward target => exact absurd rfl (unlinked target)
    | _ => rfl
  refine linked.append (labels_add draft parent name kind) plain (links_add draft parent name kind)
    (fun own isLink => ?_) (fun own interface isLink => ?_)
  · cases none.symm.trans isLink
  · cases none.symm.trans isLink

theorem linked_addForward (indexed : draft.tree.Indexed) (linked : draft.tree.Linked)
    (parent : Option DeclId) (name : String) : (draft.addForward parent name).tree.Linked := by
  obtain ⟨unannounced, latest⟩ := indexed.latest (draft.memberName parent name)
  refine linked.append (labels_add draft parent name _) rfl (links_add draft parent name _)
    (fun own isLink => ?_) (fun own interface isLink => ?_)
  · obtain ⟨rfl, target⟩ := Prod.mk.inj (Option.some.inj isLink)
    exact unannounced target
  · obtain ⟨rfl, target⟩ := Prod.mk.inj (Option.some.inj isLink)
    exact latest interface target

theorem linked_addInterface (linked : draft.tree.Linked) (parent : Option DeclId) (name : String) :
    (draft.addInterface parent name).tree.Linked := by
  have appended := (labels_addInterface draft parent name).trans
    (labels_add draft parent name (.interface .empty))
  exact linked.interface appended rfl (links_addInterface draft parent name)

theorem linked_addTypedef (linked : draft.tree.Linked) (parent : Option DeclId) (name : String)
    (aliased : IdlType) : (draft.addTypedef parent name aliased).tree.Linked := by
  have typedef := linked_add linked parent name
    (show (DeclKind.typedef aliased [draft.nextDeclarator]).isInterface = false from rfl)
    (fun target same => by cases same)
  have labels := labels_append (draft.add parent name (.typedef aliased [draft.nextDeclarator]))
    parent name (.declarator (draft.aliasOf aliased))
  have links := links_append (draft.add parent name (.typedef aliased [draft.nextDeclarator]))
    parent name (.declarator (draft.aliasOf aliased))
  rw [← labels_enterName _ draft.nextDeclarator] at labels
  rw [← links_enterName _ draft.nextDeclarator] at links
  refine typedef.append labels rfl links (fun own isLink => ?_) (fun own interface isLink => ?_)
  · cases isLink
  · cases isLink

theorem linked_modifyKind (linked : draft.tree.Linked) {id : DeclId}
    {change : DeclKind → DeclKind}
    (labels : ∀ name kind, (change kind).label name = kind.label name)
    (links : ∀ decl : Decl, Decl.link? { decl with kind := change decl.kind } = decl.link?) :
    (draft.modifyKind id change).tree.Linked :=
  linked.of_same (labels_modifyKind labels) (links_modifyKind links)

/-- **Forward declarations lead to the interfaces that they announce.** -/
theorem Built.linked (built : draft.Built) : draft.tree.Linked := by
  induction built with
  | empty file =>
    constructor
    · intro id name found
      simp [DeclTree.links, Draft.empty, DeclTree.empty] at found
    · intro id name interface found
      simp [DeclTree.links, Draft.empty, DeclTree.empty] at found
  | @edit draft built edit known ih =>
    cases edit with
    | setFilename | setFile => exact ih.of_same rfl rfl
    | addForward parent name => exact linked_addForward built.indexed ih parent name
    | addInterface parent name => exact linked_addInterface ih parent name
    | addTypedef parent name aliased => exact linked_addTypedef ih parent name aliased
    | addModule | addEnum | addOperation | addAttributes =>
      exact linked_add ih _ _ rfl fun target same => by cases same
    | setAliasedType declarator type =>
      rw [Edit.apply, setAliasedType]
      split
      · exact ih
      · apply linked_modifyKind ih
        · intro name kind
          cases kind <;> rfl
        · rintro ⟨name, scopedName, file, kind⟩
          cases kind <;> rfl
    | setAlias | addBase | addPragma | setOperation | setAttributeType =>
      apply linked_modifyKind ih
      · intro name kind
        cases kind <;> rfl
      · rintro ⟨name, scopedName, file, kind⟩
        cases kind <;> rfl

end Draft

namespace DeclTree

variable {tree : DeclTree} {name : ScopedName} {id : DeclId}

theorem Built.linked (built : tree.Built) : tree.Linked := by
  obtain ⟨draft, built, rfl⟩ := built
  exact Draft.Built.linked built

theorem links_of_forward {decl : Decl} {target : Option DeclId} (here : tree.decl? id = some decl)
    (forward : decl.kind = .forward target) :
    tree.links[id]? = some (some (decl.scopedName, target)) := by
  rw [getElem?_links, here, Option.map_some, Decl.link?, forward]

end DeclTree

/-! ## Forward declarations that a name leads to -/

/-- The interface that a forward declaration leads to, and the name under which it does. -/
def Decl.announcement? (decl : Decl) : Option (ScopedName × DeclId) :=
  match decl.kind with
  | .forward target => target.map (decl.scopedName, ·)
  | _ => none

namespace DeclTree

variable {tree : DeclTree} {name : ScopedName} {id : DeclId}

/-- Where the forward declarations of a tree lead. -/
def announcements (tree : DeclTree) : List (Option (ScopedName × DeclId)) :=
  tree.decls.toList.map Decl.announcement?

/-- Forward declarations lead to interfaces of their own name. -/
def Announced (tree : DeclTree) : Prop :=
  ∀ name target, some (name, target) ∈ tree.announcements → tree.Bears Label.isInterface name target

/-- Where forward declarations lead, there are interfaces of their names. -/
theorem Linked.announced (linked : tree.Linked) : tree.Announced := by
  intro name target listed
  obtain ⟨decl, isDecl, announces⟩ := List.mem_map.mp listed
  obtain ⟨id, here⟩ := List.getElem?_of_mem isDecl
  rw [Array.getElem?_toList] at here
  rw [Decl.announcement?] at announces
  split at announces
  · rename_i known forward
    obtain ⟨interface, rfl, same⟩ := Option.map_eq_some_iff.mp announces
    cases same
    exact (linked.announces id _ target (links_of_forward here forward)).1
  · cases announces

theorem Built.announced (built : tree.Built) : tree.Announced :=
  built.linked.announced

/-- A name leads to a forward declaration only if there is no interface of that name, so the forward
declaration leads nowhere. -/
theorem Indexed.target_of_find? (indexed : tree.Indexed) (announced : tree.Announced)
    (found : tree.find? name = some id) {target : Option DeclId}
    (forward : tree.kind? id = some (.forward target)) : target = none := by
  obtain ⟨decl, here, kind⟩ := Option.map_eq_some_iff.mp forward
  cases target with
  | none => rfl
  | some interface =>
    have named : decl.scopedName = name := by
      have same := indexed.scopedName_of_find? found
      rwa [scopedName, here] at same
    have listed : some (name, interface) ∈ tree.announcements := by
      refine List.mem_map.mpr ⟨decl, ?_, by simp [Decl.announcement?, kind, named]⟩
      exact Array.mem_toList_iff.mpr (Array.mem_of_getElem? here)
    have isInterface := announced name interface listed
    rcases indexed.chosen name id found with ⟨own, -⟩ | ⟨none, -⟩
    · obtain ⟨same, alsoHere, -, isOwn⟩ := bears_iff.mp own
      cases here.symm.trans alsoHere
      simp [DeclKind.label, kind, DeclKind.isInterface] at isOwn
    · exact absurd isInterface (none interface)

/-! ## Names and links by kind -/

/-- The declaration has the name and is of the given sort. -/
def Declares (tree : DeclTree) (sort : DeclKind → Prop) (name : ScopedName) (id : DeclId) : Prop :=
  ∃ decl, tree.decl? id = some decl ∧ decl.scopedName = name ∧ sort decl.kind

end DeclTree

namespace DeclKind

/-- What declares an interface in full. -/
def IsInterface (kind : DeclKind) : Prop :=
  ∃ parts, kind = interface parts

/-- What a name can lead to. -/
inductive Referable : DeclKind → Prop
  | interface (parts : Interface) : Referable (.interface parts)
  | forward (target : Option DeclId) : Referable (.forward target)
  | declarator (target : Option DeclId) : Referable (.declarator target)
  | enum (enumerators : List String) : Referable (.enum enumerators)

theorem isInterface_iff {kind : DeclKind} : kind.isInterface = true ↔ kind.IsInterface := by
  cases kind <;> simp [isInterface, IsInterface]

theorem isIndexed_iff {kind : DeclKind} : kind.isIndexed = true ↔ kind.Referable := by
  constructor
  · intro indexed
    cases kind with
    | interface parts => exact .interface parts
    | forward target => exact .forward target
    | declarator target => exact .declarator target
    | enum enumerators => exact .enum enumerators
    | _ => cases indexed
  · intro referable
    cases referable <;> rfl

end DeclKind

namespace DeclTree

variable {tree : DeclTree} {name : ScopedName} {id : DeclId}

theorem bears_isInterface_iff :
    tree.Bears Label.isInterface name id ↔ tree.Declares DeclKind.IsInterface name id := by
  simp only [bears_iff, Declares, ← DeclKind.isInterface_iff]
  rfl

theorem bears_isIndexed_iff :
    tree.Bears Label.isIndexed name id ↔ tree.Declares DeclKind.Referable name id := by
  simp only [bears_iff, Declares, ← DeclKind.isIndexed_iff]
  rfl

/-- A forward declaration has at most one place to lead to. -/
theorem Announces.unique {forward interface other : DeclId}
    (announces : tree.Announces name forward interface)
    (alsoAnnounces : tree.Announces name forward other) : other = interface := by
  obtain ⟨bears, position⟩ := announces
  obtain ⟨otherBears, otherPosition⟩ := alsoAnnounces
  rcases Nat.lt_trichotomy other interface with before | same | after
  · rcases position with ⟨front, -⟩ | ⟨-, first⟩
    · rcases otherPosition with ⟨-, otherLatest⟩ | ⟨otherBehind, -⟩
      · exact absurd bears (otherLatest interface before front)
      · exact absurd (Nat.lt_trans front otherBehind) (Nat.lt_asymm before)
    · exact absurd otherBears (first other before)
  · exact same
  · rcases otherPosition with ⟨otherFront, -⟩ | ⟨-, otherFirst⟩
    · rcases position with ⟨-, latest⟩ | ⟨behind, -⟩
      · exact absurd otherBears (latest other after otherFront)
      · exact absurd (Nat.lt_trans otherFront behind) (Nat.lt_asymm after)
    · exact absurd bears (otherFirst interface after)

/-- As soon as some interface has the name of a forward declaration, one is announced. -/
theorem Linked.target_iff (linked : tree.Linked) {target : Option DeclId}
    (found : tree.links[id]? = some (some (name, target))) :
    (target = none ↔ ∀ other, ¬ tree.Bears Label.isInterface name other) ∧
      ∀ interface, target = some interface ↔ tree.Announces name id interface := by
  cases target with
  | none =>
    have unannounced := linked.unannounced id name found
    refine ⟨iff_of_true rfl unannounced, fun interface => iff_of_false (by simp) ?_⟩
    exact fun announces => unannounced interface announces.1
  | some known =>
    have announces := linked.announces id name known found
    refine ⟨iff_of_false (by simp) fun none => none known announces.1, fun interface => ?_⟩
    constructor
    · intro same
      cases same
      exact announces
    · intro other
      rw [announces.unique other]

/-- Where a forward declaration leads to an interface, that interface is what it resolves to. -/
theorem resolve?_of_forward {forward interface : DeclId}
    (leads : tree.kind? forward = some (.forward (some interface)))
    (bears : tree.Bears Label.isInterface name interface) :
    tree.resolve? forward = some interface := by
  obtain ⟨decl, here, -, isInterface⟩ := bears_iff.mp bears
  obtain ⟨parts, kind⟩ := DeclKind.isInterface_iff.mp isInterface
  have inhabited : ∃ smaller, tree.size = smaller + 1 :=
    ⟨tree.size - 1, (Nat.succ_pred_eq_of_pos (Nat.zero_lt_of_lt (lt_size_of_bears bears))).symm⟩
  obtain ⟨smaller, size⟩ := inhabited
  have there : tree.kind? interface = some (.interface parts) := by
    rw [kind?, here, Option.map_some, kind]
  rw [resolve?, follow, leads, size]
  simp only [follow, there]

/-- **The index and the targets of forward declarations are exact.** A name leads to the latest
interface that has it, and without any to the first declaration of another kind that can be referred
to. A forward declaration leads to the interface of its name that was the latest in front of it, and
without one in front to the first behind it. So if no two interfaces have its name, it resolves to
what its name leads to as soon as there is an interface. -/
theorem built_names_exact {tree : DeclTree} (built : tree.Built) :
    (∀ name,
      (tree.find? name = none ↔ ∀ id, ¬ tree.Declares DeclKind.Referable name id) ∧
      ∀ id, tree.find? name = some id ↔
        tree.Declares DeclKind.IsInterface name id ∧
            (∀ later, id < later → ¬ tree.Declares DeclKind.IsInterface name later) ∨
          (∀ other, ¬ tree.Declares DeclKind.IsInterface name other) ∧
            tree.Declares DeclKind.Referable name id ∧
            ∀ earlier, earlier < id → ¬ tree.Declares DeclKind.Referable name earlier) ∧
    ∀ forward decl target, tree.decl? forward = some decl → decl.kind = .forward target →
      (target = none ↔ ∀ id, ¬ tree.Declares DeclKind.IsInterface decl.scopedName id) ∧
      (∀ interface, target = some interface ↔
        tree.Declares DeclKind.IsInterface decl.scopedName interface ∧
          (interface < forward ∧
              (∀ between, interface < between → between < forward →
                ¬ tree.Declares DeclKind.IsInterface decl.scopedName between) ∨
            forward < interface ∧
              ∀ earlier, earlier < interface →
                ¬ tree.Declares DeclKind.IsInterface decl.scopedName earlier)) ∧
      ((∀ first second, tree.Declares DeclKind.IsInterface decl.scopedName first →
          tree.Declares DeclKind.IsInterface decl.scopedName second → first = second) →
        (∃ id, tree.Declares DeclKind.IsInterface decl.scopedName id) →
        tree.resolve? forward = tree.find? decl.scopedName) := by
  have indexed := built.indexed
  simp only [← bears_isInterface_iff, ← bears_isIndexed_iff]
  refine ⟨fun name => ⟨indexed.find?_eq_none_iff, fun id => indexed.find?_eq_some_iff⟩, ?_⟩
  intro forward decl target here kind
  obtain ⟨open?, leads⟩ := built.linked.target_iff (links_of_forward here kind)
  refine ⟨open?, leads, ?_⟩
  rintro unique ⟨interface, bears⟩
  -- The name leads to the only interface that has it, and so does the forward declaration.
  have named : tree.find? decl.scopedName = some interface := by
    refine indexed.find?_eq_some_iff.mpr (.inl ⟨bears, ?_⟩)
    intro later behind alsoBears
    exact Nat.ne_of_lt behind (unique interface later bears alsoBears)
  cases target with
  | none => exact absurd bears (open?.mp rfl interface)
  | some known =>
    have announced := ((leads known).mp rfl).1
    cases unique interface known bears announced
    have linkedTo : tree.kind? forward = some (.forward (some interface)) := by
      rw [kind?, here, Option.map_some, kind]
    rw [resolve?_of_forward linkedTo bears, named]

/-- A tree in which one name is announced three times, belongs to an enumeration and to two
interfaces, and another is announced in front of its only interface. -/
def shadowedTree : DeclTree :=
  let draft := ((Draft.empty "a.idl").addForward none "N").addEnum none "N" []
  let draft := ((draft.addInterface none "N").addForward none "N").addInterface none "N"
  (((draft.addForward none "N").addForward none "M").addInterface none "M").tree

theorem built_shadowedTree : shadowedTree.Built := by
  refine ⟨_, .edit (.edit (.edit (.edit (.edit (.edit (.edit (.edit (.empty "a.idl")
    (.addForward none "N") ?_) (.addEnum none "N" []) ?_) (.addInterface none "N") ?_)
    (.addForward none "N") ?_) (.addInterface none "N") ?_) (.addForward none "N") ?_)
    (.addForward none "M") ?_) (.addInterface none "M") ?_, rfl⟩
  all_goals exact Draft.knows_none _

/-- Only the last declaration is an interface of the second name. -/
theorem shadowedTree_unique {id : DeclId}
    (declares : shadowedTree.Declares DeclKind.IsInterface ⟨["M"]⟩ id) : id = 7 := by
  have labels : shadowedTree.labels =
      [⟨⟨["N"]⟩, true, false⟩, ⟨⟨["N"]⟩, true, false⟩, ⟨⟨["N"]⟩, true, true⟩,
        ⟨⟨["N"]⟩, true, false⟩, ⟨⟨["N"]⟩, true, true⟩, ⟨⟨["N"]⟩, true, false⟩,
        ⟨⟨["M"]⟩, true, false⟩, ⟨⟨["M"]⟩, true, true⟩] := by
    with_unfolding_all decide
  obtain ⟨label, here, named, isInterface⟩ := bears_isInterface_iff.mpr declares
  rw [labels] at here
  clear declares labels
  rcases id with _ | _ | _ | _ | _ | _ | _ | _ | beyond
  all_goals simp at here
  all_goals subst here
  all_goals simp at named isInterface
  rfl

theorem shadowedTree_leads :
    shadowedTree.Built ∧ shadowedTree.find? ⟨["N"]⟩ = some 4 ∧
      (∀ later, 4 < later → ¬ shadowedTree.Declares DeclKind.IsInterface ⟨["N"]⟩ later) ∧
      shadowedTree.kind? 0 = some (.forward (some 2)) ∧
      (∀ earlier, earlier < 2 →
        ¬ shadowedTree.Declares DeclKind.IsInterface ⟨["N"]⟩ earlier) ∧
      shadowedTree.resolve? 6 = shadowedTree.find? ⟨["M"]⟩ := by
  obtain ⟨names, forwards⟩ := built_names_exact built_shadowedTree
  have facts : shadowedTree.find? ⟨["N"]⟩ = some 4 ∧
      shadowedTree.decl? 0 = some ⟨"N", ⟨["N"]⟩, "a.idl", .forward (some 2)⟩ ∧
      shadowedTree.decl? 4 = some ⟨"N", ⟨["N"]⟩, "a.idl", .interface .empty⟩ ∧
      shadowedTree.decl? 6 = some ⟨"M", ⟨["M"]⟩, "a.idl", .forward (some 7)⟩ ∧
      shadowedTree.decl? 7 = some ⟨"M", ⟨["M"]⟩, "a.idl", .interface .empty⟩ := by
    with_unfolding_all decide
  obtain ⟨found, first, second, announcing, only⟩ := facts
  obtain ⟨-, announced, -⟩ := forwards 0 _ _ first rfl
  obtain ⟨-, -, resolved⟩ := forwards 6 _ _ announcing rfl
  refine ⟨built_shadowedTree, found, ?_, by rw [kind?, first]; rfl, ?_, ?_⟩
  · rcases (names ⟨["N"]⟩).2 4 |>.mp found with ⟨-, latest⟩ | ⟨none, -, -⟩
    · exact latest
    · exact absurd ⟨_, second, rfl, _, rfl⟩ (none 4)
  · rcases ((announced 2).mp rfl).2 with ⟨front, -⟩ | ⟨-, earliest⟩
    · exact absurd front (by decide)
    · exact earliest
  · refine resolved (fun one other isOne isOther => ?_) ⟨7, _, only, rfl, _, rfl⟩
    rw [shadowedTree_unique isOne, shadowedTree_unique isOther]

end DeclTree

end IdlBridge
