import IdlBridge.Proofs.Adapter.Namespaces
import IdlBridge.Proofs.Adapter.SheetText
import IdlBridge.Proofs.DeclTree.Correspondence
import IdlBridge.Proofs.DeclTree.Tour

/-!
# The source as a concatenation

One sheet and one stack of scopes serve for all interfaces of a source, but nothing is carried over
from one to the next: each begins at the outermost level with no block open, and leaves both as they
were. So the source is the preamble followed by what is written for each interface alone
(`definitionsAlone`). Within an interface the same holds of its methods, whose loops are numbered
from the beginning in each (`Method.exists_layoutAll_alone`). What is written for an interface is
thus read off the interface, its callables and the names of the interfaces it derives from.
-/

set_option autoImplicit false

namespace IdlBridge

/-- The declarations of the callables of an interface, in order. -/
def DeclTree.callablesOf (tree : DeclTree) (id : DeclId) : List Decl :=
  match tree.interface? id with
  | some parts => parts.callables.filterMap tree.decl?
  | none => []

namespace Adapter

/-! ## Layouts alone -/

namespace Layout

/-- The text of a layout that is written alone. -/
def text (layout : Layout) (width : Nat) : String :=
  ((Sheet.empty width).writeAll layout).text

theorem text_append {first : Layout} (keeps : first.KeepsLevel) (second : Layout) (width : Nat) :
    text (first ++ second) width = first.text width ++ second.text width := by
  have back : ((Sheet.empty width).writeAll first).cleared = Sheet.empty width := by
    rw [Sheet.cleared, Sheet.width_writeAll, level_writeAll, keeps]
    rfl
  rw [text, Sheet.writeAll_append, Sheet.text_writeAll, back]
  rfl

/-- Layouts that keep the level are written as if each were alone. -/
theorem text_flatten {layouts : List Layout} (keeps : ∀ layout ∈ layouts, layout.KeepsLevel)
    (width : Nat) :
    text layouts.flatten width = String.join (layouts.map (text · width)) := by
  induction layouts with
  | nil => rfl
  | cons layout layouts ih =>
    rw [List.forall_mem_cons] at keeps
    rw [List.flatten_cons, text_append keeps.1, ih keeps.2, List.map_cons, String.join_cons]

theorem keepsLevel_flatten {layouts : List Layout} (keeps : ∀ layout ∈ layouts, layout.KeepsLevel) :
    KeepsLevel layouts.flatten := by
  induction layouts with
  | nil => exact fun _ => rfl
  | cons layout layouts ih =>
    rw [List.forall_mem_cons] at keeps
    exact keeps.1.append (ih keeps.2)

end Layout

/-! ## Methods alone -/

/-- What is written for a method alone. -/
def Method.alone (root : ScopedName) (qualifier : String) (method : Method) :
    Except Error Layout :=
  (method.definition root qualifier).map Prod.fst

/-- **Methods are written as if each were alone**, however many loops were numbered before. -/
theorem Method.exists_layoutAll_alone (root : ScopedName) (qualifier : String) {unbraced : Prop}
    {methods : List Method} (writable : ∀ method ∈ methods, method.body.Writable unbraced) :
    ∃ layouts : List Layout, methods.map (Method.alone root qualifier) = layouts.map .ok ∧
      (∀ layout ∈ layouts, layout.KeepsLevel) ∧
      ∀ loops, ∃ next,
        layoutAll .definition root qualifier loops methods = .ok (layouts.flatten, next) := by
  induction methods with
  | nil => exact ⟨[], rfl, by simp, fun loops => ⟨loops, rfl⟩⟩
  | cons method methods ih =>
    obtain ⟨inner, count, written, closed⟩ :=
      Body.exists_layout root (writable method List.mem_cons_self)
    obtain ⟨layouts, alone, keeps, later⟩ :=
      ih fun other listed => writable other (List.mem_cons_of_mem _ listed)
    have own : method.definition root qualifier = .ok (method.defined qualifier inner, count) := by
      rw [definition, written]
      rfl
    refine ⟨method.defined qualifier inner :: layouts, ?_, ?_, fun loops => ?_⟩
    · rw [List.map_cons, List.map_cons, alone, Method.alone, own]
      rfl
    · exact List.forall_mem_cons.mpr ⟨keepsLevel_defined qualifier method closed.level, keeps⟩
    · obtain ⟨next, done⟩ := later count
      refine ⟨next, ?_⟩
      simp only [layoutAll, layout, own, done, bind, Except.bind]
      rfl

/-! ## Interfaces alone -/

/-- The scopes in which an interface is met that stands in the modules. No block is open. -/
def Scopes.within (outer : String) (modules : List String) : Scopes :=
  modules.foldl Scopes.enter (.start outer)

theorem Scopes.within_eq (outer : String) (modules : List String) :
    Scopes.within outer modules = ⟨outer :: modules, 0, 0, 0⟩ := by
  induction modules using List.reverseRecOn with
  | nil => rfl
  | append_singleton modules name ih =>
    rw [within] at ih
    rw [within, List.foldl_append, ih]
    rfl

/-- The definitions that are written for an interface alone, on an empty sheet and in its own
scopes. -/
def definitionsAlone (settings : Settings) (tree : DeclTree) (stop : Stop) :
    Except Error String :=
  (classesLayout settings tree (guardOf tree.fileBase) .definition
    (.within settings.outer stop.modules) stop.id).map
    fun change => Layout.text change.2 settings.indentWidth

namespace Subject

variable (subject : Subject)

/-- The constructor of the final class in the source. -/
def defineConstructor : Layout :=
  let own := finalClass subject.decl.name
  [.line (subject.qualified own ++ "::" ++ own ++ "(" ++ subject.remote ++
    "_ptr _aobjref,::PortableServer::POA_ptr aPp)")] ++
  Layout.braces
    [.line ("_objref = " ++ subject.remote ++ "::_duplicate(_aobjref);"),
     .line "_objref->add_ref();",
     .line "_setPOA(::PortableServer::POA::_duplicate(aPp));"]

/-- The hook with the blocks around it. -/
def placedHook : Layout :=
  subject.blocks.flatMap Scopes.openBlock ++ subject.defineHook ++
    (List.replicate subject.blocks.length Scopes.closeBlock).flatten

/-- The parts of the definitions of an interface. Every method is a part of its own. -/
def parts : List (Except Error Layout) :=
  [.ok (if subject.settings.isRoot subject.name then subject.defineRootMembers else []),
   .ok subject.defineUnwrap] ++
  subject.methods.map (Method.alone subject.settings.root
    (qualifierIn .definition (subject.settings.adapterName subject.name))) ++
  [.ok subject.defineConstructor] ++
  subject.downcasts.map (Method.alone subject.settings.root
    (subject.qualified (finalClass subject.decl.name) ++ "::")) ++
  [.ok subject.defineFactory, .ok subject.placedHook]

theorem keepsLevel_placedHook : subject.placedHook.KeepsLevel := by
  intro level
  rw [placedHook, Layout.levelAfter_append, Layout.levelAfter_append, levelAfter_openBlocks,
    subject.keepsLevel_defineHook, levelAfter_closeBlocks, Nat.add_sub_cancel]

/-- **What is written for an interface are its parts one after another.** -/
theorem exists_parts :
    ∃ layouts : List Layout, subject.parts = layouts.map .ok ∧
      (∀ layout ∈ layouts, layout.KeepsLevel) ∧
      ∃ members, subject.members = .ok members ∧
        members ++ subject.placedHook = layouts.flatten := by
  obtain ⟨methods, methodsAlone, methodsKeep, methodsDone⟩ := Method.exists_layoutAll_alone
    subject.settings.root (qualifierIn .definition (subject.settings.adapterName subject.name))
    subject.writable_methods
  obtain ⟨accessors, accessorsAlone, accessorsKeep, accessorsDone⟩ :=
    Method.exists_layoutAll_alone subject.settings.root
      (subject.qualified (finalClass subject.decl.name) ++ "::")
      (subject.writable_downcasts True)
  obtain ⟨_, methodsWritten⟩ := methodsDone 0
  obtain ⟨_, accessorsWritten⟩ := accessorsDone 0
  refine ⟨[if subject.settings.isRoot subject.name then subject.defineRootMembers else [],
      subject.defineUnwrap] ++ methods ++ [subject.defineConstructor] ++ accessors ++
      [subject.defineFactory, subject.placedHook], ?_, ?_, ?_⟩
  · rw [parts, methodsAlone, accessorsAlone]
    simp
  · have root : Layout.KeepsLevel
        (if subject.settings.isRoot subject.name then subject.defineRootMembers else []) := by
      intro level
      split <;> simp [defineRootMembers]
    have unwrap : subject.defineUnwrap.KeepsLevel := by
      intro level
      simp [defineUnwrap]
    have constructor : subject.defineConstructor.KeepsLevel := by
      intro level
      simp [defineConstructor]
    simp only [List.forall_mem_append, List.forall_mem_cons]
    exact ⟨⟨⟨⟨⟨root, unwrap, by simp⟩, methodsKeep⟩, constructor, by simp⟩, accessorsKeep⟩,
      subject.keepsLevel_defineFactory, subject.keepsLevel_placedHook, by simp⟩
  · refine ⟨(if subject.settings.isRoot subject.name then subject.defineRootMembers else []) ++
      subject.defineUnwrap ++ methods.flatten ++
      (subject.defineConstructor ++ accessors.flatten) ++ subject.defineFactory, ?_, by simp⟩
    rw [members, defineAbstract, methodsLayout, methodsWritten, defineFinal, accessorsWritten]
    rfl

/-- The names of the interfaces of the object determine the accessors. -/
theorem downcasts_eq_map_closure :
    subject.downcasts = (subject.tree.closure subject.id).map fun name =>
      { returns := "::" ++ name.text ++ "_ptr"
        name := downcastName name
        params := ""
        throws := ""
        body := .fixed [.line "return _objref;"] } := by
  rw [DeclTree.closure, List.map_map]
  rfl

/-- What is written for an interface depends on its name, its callables and the names of the
interfaces it derives from. -/
theorem parts_congr {subject other : Subject} (settings : other.settings = subject.settings)
    (name : other.name = subject.name) (simple : other.decl.name = subject.decl.name)
    (callables : other.callables = subject.callables)
    (closure : other.tree.closure other.id = subject.tree.closure subject.id) :
    other.parts = subject.parts := by
  have methods : other.methods = subject.methods := by
    rw [methods_eq, methods_eq, callables, settings, name]
  have downcasts : other.downcasts = subject.downcasts := by
    rw [downcasts_eq_map_closure, downcasts_eq_map_closure, closure]
  simp only [parts, methods, downcasts, defineRootMembers, defineUnwrap, defineConstructor,
    defineFactory, placedHook, defineHook, blocks, qualified, remote, settings, name, simple]

end Subject

/-! ## The whole source -/

variable {settings : Settings} {tree : DeclTree}

theorem Segment.Written.unique {mode : Mode} {segments : List Segment} {sheet next other : Sheet}
    (once : Written settings tree mode sheet segments next)
    (again : Written settings tree mode sheet segments other) : next = other := by
  obtain ⟨layouts, done, rfl⟩ := once
  obtain ⟨others, othersDone, rfl⟩ := again
  have same : layouts = others :=
    Relator.RightUnique.forall₂ (fun _ _ _ here there => Except.ok.inj (here.symm.trans there))
      done othersDone
  rw [same]

theorem interface?_isSome {id : DeclId} {decl : Decl} (found : tree.decl? id = some decl)
    (isInterface : tree.isInterface id = true) : decl.interface?.isSome = true := by
  rwa [DeclTree.isInterface, DeclTree.interface?, found] at isInterface

/-- An interface of a tree. -/
def Subject.inTree (settings : Settings) (tree : DeclTree) (id : DeclId) (decl : Decl) : Subject :=
  ⟨settings, tree, guardOf tree.fileBase, id, decl⟩

/-- The interface that is written at a stop. -/
def subjectAt? (settings : Settings) (tree : DeclTree) (stop : Stop) : Option Subject :=
  (tree.visitAt? stop.id).bind (Subject.ofVisit? settings tree)

/-- The stop is at an interface of the main file. -/
def isVisited (tree : DeclTree) (stop : Stop) : Bool :=
  tree.isLocal stop.id && tree.isInterface stop.id

theorem subjectAt?_eq {stop : Stop} {decl : Decl} (found : tree.decl? stop.id = some decl) :
    subjectAt? settings tree stop =
      if isVisited tree stop then some (.inTree settings tree stop.id decl)
      else none := by
  rw [subjectAt?, DeclTree.visitAt?, isVisited, DeclTree.isLocal, DeclTree.isInterface,
    DeclTree.interface?, found]
  by_cases own : decl.file = tree.file <;> by_cases interface : decl.interface?.isSome <;>
    simp [own, interface, Subject.ofVisit?, found, Subject.inTree]

theorem definitionsAlone_eq {stop : Stop} {decl : Decl} (found : tree.decl? stop.id = some decl)
    (interface : decl.interface?.isSome = true)
    (named : decl.scopedName = ScopedName.child ⟨stop.modules⟩ decl.name) :
    definitionsAlone settings tree stop =
      (Subject.inTree settings tree stop.id decl).members.map fun members =>
        Layout.text (members ++ (Subject.inTree settings tree stop.id decl).placedHook)
          settings.indentWidth := by
  have blocks : (Subject.inTree settings tree stop.id decl).blocks =
      settings.outer :: stop.modules := by
    show settings.outer :: decl.scopedName.parts.dropLast = _
    rw [named, ScopedName.child, List.dropLast_concat]
  have layout := (Subject.inTree settings tree stop.id decl).layout_definition
    (.within settings.outer stop.modules)
  rw [definitionsAlone, Pass.classesLayout_eq found interface, ← Subject.inTree, layout,
    Scopes.within_eq, Subject.placedHook, blocks]
  cases (Subject.inTree settings tree stop.id decl).members with
  | error cause => rfl
  | ok members => simp [Except.map, Scopes.materialize, Scopes.escape]

/-- The definitions of one interface are its parts, and they are what the source holds for it. -/
theorem exists_definitionsAlone (settings : Settings) {stop : Stop} {decl : Decl}
    (found : tree.decl? stop.id = some decl) (interface : decl.interface?.isSome = true)
    (named : decl.scopedName = ScopedName.child ⟨stop.modules⟩ decl.name) :
    ∃ layouts : List Layout,
      (Subject.inTree settings tree stop.id decl).parts = layouts.map .ok ∧
      (∀ layout ∈ layouts, layout.KeepsLevel) ∧
      definitionsAlone settings tree stop =
        .ok (String.join (layouts.map (Layout.text · settings.indentWidth))) ∧
      ∀ sheet, Segment.Written settings tree .definition sheet
        (Pass.sourceSegments (.inTree settings tree stop.id decl))
        (sheet.writeAll layouts.flatten) := by
  have text : definitionsAlone settings tree stop = _ := definitionsAlone_eq found interface named
  generalize Subject.inTree settings tree stop.id decl = subject at text ⊢
  obtain ⟨layouts, parts, keeps, members, done, whole⟩ := subject.exists_parts
  refine ⟨layouts, parts, keeps, ?_, fun sheet => ?_⟩
  · rw [text, done, ← Layout.text_flatten keeps, ← whole]
    rfl
  · refine ⟨members :: subject.blocks.map Scopes.openBlock ++ subject.defineHook ::
      List.replicate subject.blocks.length Scopes.closeBlock, ?_, ?_⟩
    · refine .cons done (List.rel_append ?_ (.cons rfl ?_))
      · rw [List.forall₂_map_left_iff, List.forall₂_map_right_iff]
        exact List.forall₂_same.mpr fun _ _ => rfl
      · exact List.forall₂_iff_zip.mpr ⟨by simp, by simp +contextual [Segment.layout]⟩
    · rw [← whole, Subject.placedHook]
      simp [List.flatMap_def]

/-- **The interfaces at the stops are written as if each were alone.** -/
theorem exists_definitions (settings : Settings) {stops : List Stop}
    (known : ∀ stop ∈ stops, ∃ decl, tree.decl? stop.id = some decl ∧
      decl.scopedName = ScopedName.child ⟨stop.modules⟩ decl.name) :
    ∃ layouts : List Layout, (∀ layout ∈ layouts, layout.KeepsLevel) ∧
      List.Forall₂ (fun stop layout =>
        definitionsAlone settings tree stop = .ok (Layout.text layout settings.indentWidth))
        (stops.filter (isVisited tree)) layouts ∧
      ∀ sheet, Segment.Written settings tree .definition sheet
        ((stops.filterMap (subjectAt? settings tree)).flatMap Pass.sourceSegments)
        (sheet.writeAll layouts.flatten) := by
  induction stops with
  | nil => exact ⟨[], by simp, .nil, fun sheet => ⟨[], .nil, rfl⟩⟩
  | cons stop stops ih =>
    rw [List.forall_mem_cons] at known
    obtain ⟨⟨decl, found, named⟩, known⟩ := known
    obtain ⟨layouts, keeps, alone, written⟩ := ih known
    have subject : subjectAt? settings tree stop = _ := subjectAt?_eq found
    by_cases visited : isVisited tree stop = true
    · have interface := interface?_isSome found (Bool.and_eq_true_iff.mp visited).2
      obtain ⟨own, -, ownKeeps, ownAlone, ownWritten⟩ :=
        exists_definitionsAlone settings found interface named
      rw [if_pos visited] at subject
      refine ⟨own.flatten :: layouts, ?_, ?_, fun sheet => ?_⟩
      · exact List.forall_mem_cons.mpr ⟨Layout.keepsLevel_flatten ownKeeps, keeps⟩
      · rw [List.filter_cons_of_pos visited]
        exact .cons (by rw [ownAlone, Layout.text_flatten ownKeeps]) alone
      · rw [List.filterMap_cons_some subject, List.flatMap_cons, List.flatten_cons,
          Sheet.writeAll_append]
        exact (ownWritten sheet).trans (written _)
    · rw [if_neg visited] at subject
      rw [List.filter_cons_of_neg visited, List.filterMap_cons_none subject]
      exact ⟨layouts, keeps, alone, written⟩

theorem visited_eq_filterMap {stops : List Stop}
    (meets : tree.visits.filter Visit.meets = stops.filterMap fun stop => tree.visitAt? stop.id) :
    Subject.visited settings tree = stops.filterMap (subjectAt? settings tree) := by
  rw [Subject.visited, ← Visit.filterMap_filter_meets tree.visits (fun _ => rfl) rfl, meets,
    List.filterMap_filterMap]
  rfl

/-- A built tree is written into the source as its preamble and the interfaces at the stops. -/
theorem generate_definition_eq {stops : List Stop} {layouts : List Layout} (built : tree.Built)
    (meets : tree.visits.filter Visit.meets = stops.filterMap fun stop => tree.visitAt? stop.id)
    (keeps : ∀ layout ∈ layouts, layout.KeepsLevel)
    (written : ∀ sheet, Segment.Written settings tree .definition sheet
      ((stops.filterMap (subjectAt? settings tree)).flatMap Pass.sourceSegments)
      (sheet.writeAll layouts.flatten)) :
    generate settings tree .definition =
      .ok (Layout.text (preamble settings tree .definition) settings.indentWidth ++
        String.join (layouts.map (Layout.text · settings.indentWidth))) := by
  obtain ⟨segments, last, pass, follows, -, done, emits, -, -⟩ :=
    Pass.exists_follows built settings .definition
  have source := follows.source rfl
  rw [← Subject.visited, visited_eq_filterMap meets] at source
  have whole := emits.written
  rw [Pass.endSegments, List.append_nil, source] at whole
  have beginning : Segment.Written settings tree .definition (.empty settings.indentWidth)
      [.preamble] ((Sheet.empty settings.indentWidth).writeAll
        (preamble settings tree .definition)) := ⟨[_], .cons rfl .nil, by simp⟩
  have sheet := whole.unique (beginning.trans (written _))
  rw [generate, done, ← Layout.text_flatten keeps,
    ← Layout.text_append (Pass.keepsLevel_preamble settings tree .definition)]
  show Except.ok pass.sheet.text = _
  rw [sheet, ← Sheet.writeAll_append]
  rfl

/-! ## Other interfaces -/

theorem callables_inTree {id : DeclId} {decl : Decl} (found : tree.decl? id = some decl) :
    (Subject.inTree settings tree id decl).callables = tree.callablesOf id := by
  rw [DeclTree.callablesOf, DeclTree.interface?, found]
  rfl

/-- **Other interfaces do not matter for the definitions of an interface.** -/
theorem definitionsAlone_congr (settings : Settings) {other : DeclTree}
    {same : DeclId → DeclId → Prop} (corresponds : tree.Corresponds other same)
    (names : ∀ id otherId, same id otherId → other.scopedName otherId = tree.scopedName id)
    {stop otherStop : Stop} {decl otherDecl : Decl} (found : tree.decl? stop.id = some decl)
    (otherFound : other.decl? otherStop.id = some otherDecl)
    (named : decl.scopedName = ScopedName.child ⟨stop.modules⟩ decl.name)
    (otherNamed : otherDecl.scopedName = ScopedName.child ⟨otherStop.modules⟩ otherDecl.name)
    (paired : same stop.id otherStop.id)
    (callables : other.callablesOf otherStop.id = tree.callablesOf stop.id) :
    definitionsAlone settings other otherStop = definitionsAlone settings tree stop := by
  obtain ⟨resolved, otherResolved⟩ := corresponds.resolved paired
  have interface := interface?_isSome found (DeclTree.isInterface_of_follow resolved)
  have otherInterface :=
    interface?_isSome otherFound (DeclTree.isInterface_of_follow otherResolved)
  have name : otherDecl.scopedName = decl.scopedName := by
    have equal := names _ _ paired
    rwa [DeclTree.scopedName, DeclTree.scopedName, found, otherFound] at equal
  have simple : otherDecl.name = decl.name := by
    rw [named, otherNamed] at name
    have parts : otherStop.modules ++ [otherDecl.name] = stop.modules ++ [decl.name] :=
      congrArg ScopedName.parts name
    exact (List.append_inj' parts rfl).2 |> List.singleton_inj.mp
  have closure : other.closure otherStop.id = tree.closure stop.id :=
    map_eq_of_forall₂ ((corresponds.linearize paired).imp fun _ _ alike => names _ _ alike)
  have parts : (Subject.inTree settings other otherStop.id otherDecl).parts =
      (Subject.inTree settings tree stop.id decl).parts := by
    refine Subject.parts_congr rfl name simple ?_ closure
    rw [callables_inTree found, callables_inTree otherFound, callables]
  obtain ⟨layouts, own, -, text, -⟩ := exists_definitionsAlone settings found interface named
  obtain ⟨others, otherOwn, -, otherText, -⟩ :=
    exists_definitionsAlone settings otherFound otherInterface otherNamed
  have images : (others.map .ok : List (Except Error Layout)) = layouts.map .ok := by
    rw [← otherOwn, parts, own]
  have equal : others = layouts :=
    List.map_injective_iff.mpr (fun _ _ => Except.ok.inj) images
  rw [text, otherText, equal]

/-- **The source is a concatenation.** There is one tour through a built tree. The source is the
preamble, followed by what is written for each interface of the main file alone, in the order of
the tour. What is written for an interface are its parts, each alone, and among them its methods.
Another tree may hold the interface among other interfaces, in another order and under another
number. If the interfaces it derives from correspond, the same is written for it. -/
theorem definitions_concatenate {tree : DeclTree} (built : tree.Built) (settings : Settings) :
    ∃ stops, (∀ others, tree.Tour [] tree.declarations others ↔ others = stops) ∧
      (∃ texts,
        List.Forall₂ (fun stop text => definitionsAlone settings tree stop = .ok text)
          (stops.filter (isVisited tree)) texts ∧
        generate settings tree .definition =
          .ok (Layout.text (preamble settings tree .definition) settings.indentWidth ++
            String.join texts)) ∧
      (∀ stop ∈ stops, isVisited tree stop = true →
        ∃ decl, ∃ layouts : List Layout, tree.decl? stop.id = some decl ∧
          (Subject.inTree settings tree stop.id decl).parts = layouts.map .ok ∧
          definitionsAlone settings tree stop =
            .ok (String.join (layouts.map (Layout.text · settings.indentWidth)))) ∧
      ∀ (other : DeclTree) (same : DeclId → DeclId → Prop) (otherStops : List Stop),
        other.Built → other.Tour [] other.declarations otherStops →
        tree.Corresponds other same →
        (∀ id otherId, same id otherId → other.scopedName otherId = tree.scopedName id) →
        ∀ stop ∈ stops, ∀ otherStop ∈ otherStops, same stop.id otherStop.id →
          other.callablesOf otherStop.id = tree.callablesOf stop.id →
          definitionsAlone settings other otherStop = definitionsAlone settings tree stop := by
  obtain ⟨stops, tour, meets⟩ := built.exists_tour
  have known := tour.named built.listed none rfl (List.Subset.refl _)
  refine ⟨stops, fun others => ⟨tour.unique, fun equal => equal ▸ tour⟩, ?_, ?_, ?_⟩
  · obtain ⟨layouts, keeps, alone, written⟩ := exists_definitions settings known
    refine ⟨layouts.map (Layout.text · settings.indentWidth), ?_,
      generate_definition_eq built meets keeps written⟩
    rw [List.forall₂_map_right_iff]
    exact alone
  · intro stop isStop visited
    obtain ⟨decl, found, named⟩ := known stop isStop
    have interface := interface?_isSome found (Bool.and_eq_true_iff.mp visited).2
    obtain ⟨layouts, parts, -, text, -⟩ := exists_definitionsAlone settings found interface named
    exact ⟨decl, layouts, found, parts, text⟩
  · intro other same otherStops otherBuilt otherTour corresponds names stop isStop otherStop
      isOther paired callables
    obtain ⟨decl, found, named⟩ := known stop isStop
    obtain ⟨otherDecl, otherFound, otherNamed⟩ :=
      otherTour.named otherBuilt.listed none rfl (List.Subset.refl _) otherStop isOther
    exact definitionsAlone_congr settings corresponds names found otherFound named otherNamed
      paired callables

/-- Two attributes that are sequences, so that each of their four methods has a loop. -/
def sequenceAttributes : AttributeGroup :=
  ⟨.sequence ⟨["Longs"]⟩ (.basic .long), false, ["first", "second"]⟩

/-- A tree with an interface in a module and its base in front of the module. -/
def basedTree : DeclTree :=
  let draft := ((Draft.empty "a.idl").addInterface none "Base").addModule none "m"
  let draft := (draft.addInterface (some 1) "Node").addAttributes (some 2) sequenceAttributes
  (draft.addBase 2 0).tree

/-- The same interface behind another one, and its base behind the module. -/
def widenedTree : DeclTree :=
  let draft := ((Draft.empty "a.idl").addModule none "m").addInterface (some 0) "Extra"
  let draft := (draft.addInterface (some 0) "Node").addAttributes (some 2) sequenceAttributes
  ((draft.addInterface none "Base").addBase 2 4).tree

theorem built_basedTree : basedTree.Built := by
  refine ⟨_, .edit (.edit (.edit (.edit (.edit (.empty "a.idl") (.addInterface none "Base") ?_)
    (.addModule none "m") ?_) (.addInterface (some 1) "Node") ?_)
    (.addAttributes 2 sequenceAttributes) ?_) (.addBase 2 0) ?_, rfl⟩
  all_goals with_unfolding_all decide

theorem built_widenedTree : widenedTree.Built := by
  refine ⟨_, .edit (.edit (.edit (.edit (.edit (.edit (.empty "a.idl") (.addModule none "m") ?_)
    (.addInterface (some 0) "Extra") ?_) (.addInterface (some 0) "Node") ?_)
    (.addAttributes 2 sequenceAttributes) ?_) (.addInterface none "Base") ?_)
    (.addBase 2 4) ?_, rfl⟩
  all_goals with_unfolding_all decide

/-- In both trees the interface has the same number, its base has not. -/
def SameInTrees (id otherId : DeclId) : Prop :=
  id = 2 ∧ otherId = 2 ∨ id = 0 ∧ otherId = 4

theorem corresponds_basedTree : basedTree.Corresponds widenedTree SameInTrees where
  functional := by
    rintro id otherId third (⟨rfl, rfl⟩ | ⟨rfl, rfl⟩) (⟨again, rfl⟩ | ⟨again, rfl⟩)
    · rfl
    · cases again
    · cases again
    · rfl
  injective := by
    rintro id third otherId (⟨rfl, rfl⟩ | ⟨rfl, rfl⟩) (⟨rfl, again⟩ | ⟨rfl, again⟩)
    · rfl
    · cases again
    · cases again
    · rfl
  resolved := by
    rintro id otherId (⟨rfl, rfl⟩ | ⟨rfl, rfl⟩)
    all_goals with_unfolding_all decide
  bases := by
    have bases : basedTree.resolvedBases 2 = [0] ∧ widenedTree.resolvedBases 2 = [4] ∧
        basedTree.resolvedBases 0 = [] ∧ widenedTree.resolvedBases 4 = [] := by
      with_unfolding_all decide
    obtain ⟨own, otherOwn, noBase, otherNoBase⟩ := bases
    rintro id otherId (⟨rfl, rfl⟩ | ⟨rfl, rfl⟩)
    · rw [own, otherOwn]
      exact .cons (.inr ⟨rfl, rfl⟩) .nil
    · rw [noBase, otherNoBase]
      exact .nil

theorem basedTree_definitions_kept :
    basedTree.Built ∧ widenedTree.Built ∧ ∃ text texts others,
      definitionsAlone .default basedTree ⟨["m"], 2⟩ = .ok text ∧
      definitionsAlone .default widenedTree ⟨["m"], 2⟩ = .ok text ∧
      text ∈ texts ∧ text ∈ others ∧
      generate .default basedTree .definition =
        .ok (Layout.text (preamble .default basedTree .definition) 2 ++ String.join texts) ∧
      generate .default widenedTree .definition =
        .ok (Layout.text (preamble .default widenedTree .definition) 2 ++ String.join others) := by
  obtain ⟨stops, only, ⟨texts, alone, whole⟩, -, kept⟩ :=
    definitions_concatenate built_basedTree .default
  obtain ⟨otherStops, otherOnly, ⟨others, otherAlone, otherWhole⟩, -, -⟩ :=
    definitions_concatenate built_widenedTree .default
  have tour := (only stops).mpr rfl
  have otherTour := (otherOnly otherStops).mpr rfl
  have interfaces :
      basedTree.decl? 2 = some ⟨"Node", ⟨["m", "Node"]⟩, "a.idl",
        .interface { Interface.empty with bases := [0], callables := [3] }⟩ ∧
      widenedTree.decl? 2 = some ⟨"Node", ⟨["m", "Node"]⟩, "a.idl",
        .interface { Interface.empty with bases := [4], callables := [3] }⟩ := by
    with_unfolding_all decide
  have listed : 1 ∈ basedTree.membersOf none ∧ basedTree.isLocal 1 = true ∧
      2 ∈ basedTree.membersOf (some 1) := by
    with_unfolding_all decide
  have otherListed : 0 ∈ widenedTree.membersOf none ∧ widenedTree.isLocal 0 = true ∧
      2 ∈ widenedTree.membersOf (some 0) := by
    with_unfolding_all decide
  have reached : basedTree.Reached 2 := ⟨_, .module .outermost listed.1 listed.2.1, listed.2.2⟩
  have otherReached : widenedTree.Reached 2 :=
    ⟨_, .module .outermost otherListed.1 otherListed.2.1, otherListed.2.2⟩
  have met : ⟨["m"], 2⟩ ∈ stops :=
    tour.mem_of_reached built_basedTree.listed reached interfaces.1 rfl
  have otherMet : ⟨["m"], 2⟩ ∈ otherStops :=
    otherTour.mem_of_reached built_widenedTree.listed otherReached interfaces.2 rfl
  have names : ∀ id otherId, SameInTrees id otherId →
      widenedTree.scopedName otherId = basedTree.scopedName id := by
    rintro id otherId (⟨rfl, rfl⟩ | ⟨rfl, rfl⟩)
    all_goals with_unfolding_all decide
  have same := kept widenedTree SameInTrees otherStops built_widenedTree otherTour
    corresponds_basedTree names _ met _ otherMet (.inl ⟨rfl, rfl⟩) (by with_unfolding_all decide)
  obtain ⟨text, isText, own⟩ := exists_mem_zip alone
    (List.mem_filter.mpr ⟨met, by with_unfolding_all decide⟩)
  obtain ⟨otherText, isOther, otherOwn⟩ := exists_mem_zip otherAlone
    (List.mem_filter.mpr ⟨otherMet, by with_unfolding_all decide⟩)
  rw [same, own] at otherOwn
  obtain rfl : text = otherText := Except.ok.inj otherOwn
  exact ⟨built_basedTree, built_widenedTree, text, texts, others, own, same.trans own,
    (List.of_mem_zip isText).2, (List.of_mem_zip isOther).2, whole, otherWhole⟩

end Adapter

end IdlBridge
