import IdlBridge.Proofs.Adapter.Segments
import IdlBridge.Proofs.DeclTree.Walk
import IdlBridge.Proofs.Success

/-!
# Namespaces of the generated classes

A pass follows every walk to its end and is then back in the scope in which it began
(`Pass.leads_of_walk`). So a pass through a built tree never fails, writes every interface inside
the namespace blocks of its scope, opens no block without need, and ends with no block open
(`Pass.exists_run`). The full names by which the source refers to the classes are the paths to
where the header declares them (`Subject.qualifiedNames_eq`).
-/

set_option autoImplicit false

namespace IdlBridge

/-! ## Full names -/

theorem Text.join_concat (glue : String) (texts : List String) (nonempty : texts ≠ [])
    (last : String) :
    join glue (texts ++ [last]) = join glue texts ++ glue ++ last := by
  induction texts with
  | nil => exact absurd rfl nonempty
  | cons text texts ih =>
    cases texts with
    | nil => rfl
    | cons next texts =>
      have rest := ih (List.cons_ne_nil _ _)
      rw [List.cons_append, List.cons_append, join, ← List.cons_append, rest, join]
      simp only [String.append_assoc]

namespace Adapter

namespace Subject

/-- The interface is named by its scope and its own name. -/
def Named (subject : Subject) : Prop :=
  ∃ scope : ScopedName, subject.name = scope.child subject.decl.name

/-- The subject of a visit to an interface. -/
def ofVisit? (settings : Settings) (tree : DeclTree) : Visit → Option Subject
  | .interface id =>
    (tree.decl? id).map fun decl => ⟨settings, tree, guardOf tree.fileBase, id, decl⟩
  | _ => none

/-- The interfaces for which adapters are written, in the order of the visits. -/
def visited (settings : Settings) (tree : DeclTree) : List Subject :=
  tree.visits.filterMap (ofVisit? settings tree)

variable {subject : Subject}

theorem qualified_eq_join (named : subject.Named) (className : String) :
    subject.qualified className = Text.join "::" (subject.blocks ++ [className]) := by
  obtain ⟨scope, named⟩ := named
  have parent : subject.name.parent? = some scope := by
    simp [ScopedName.parent?, named, ScopedName.child]
  have parts : subject.blocks = subject.settings.outer :: scope.parts := by
    simp [blocks, named, ScopedName.child]
  rw [qualified, sibling, parent, parts, Text.join_concat _ _ (List.cons_ne_nil _ _)]
  cases inner : scope.parts with
  | nil => simp [ScopedName.isRoot, inner, Text.join]
  | cons part rest =>
    simp [ScopedName.isRoot, ScopedName.text, inner, Text.join, String.append_assoc]

theorem adapterName_eq_join (named : subject.Named) :
    subject.settings.adapterName subject.name =
      Text.join "::" (subject.blocks ++ [subject.decl.name]) := by
  obtain ⟨scope, named⟩ := named
  rw [Settings.adapterName, ScopedName.text, blocks, named, ScopedName.child,
    List.dropLast_concat, List.cons_append]
  cases whole : scope.parts ++ [subject.decl.name] with
  | nil => simp at whole
  | cons part parts => rfl

/-- **The names in the source are the paths to the classes in the header.** -/
theorem qualifiedNames_eq (named : subject.Named) :
    subject.qualifiedNames =
      subject.classNames.map fun className =>
        Text.join "::" (subject.blocks ++ [className]) := by
  simp only [qualifiedNames, classNames, List.map_cons, List.map_nil, qualified_eq_join named,
    adapterName_eq_join named]

end Subject

namespace Pass

variable {settings : Settings} {tree : DeclTree} {mode : Mode}

/-! ## Following visits -/

theorem filterMap_openings {α : Type} {select : Segment → Option α}
    (none : ∀ name, select (.opening name) = none) (names : List String) :
    (names.map Segment.opening).filterMap select = [] := by
  simp [none]

theorem filterMap_closings {α : Type} {select : Segment → Option α}
    (none : select .closing = none) (count : Nat) :
    (List.replicate count Segment.closing).filterMap select = [] := by
  simp [none]

/-- What the source holds for one interface. The hook alone stands inside blocks. -/
def sourceSegments (subject : Subject) : List Segment :=
  .members subject :: subject.blocks.map .opening ++ .hook subject ::
    List.replicate subject.blocks.length .closing

theorem filterMap_sourceSegments {α : Type} {select : Segment → Option α}
    (opening : ∀ name, select (.opening name) = none) (closing : select .closing = none)
    (subject : Subject) :
    (sourceSegments subject).filterMap select =
      (select (.members subject)).toList ++ (select (.hook subject)).toList := by
  rw [sourceSegments, List.cons_append, List.filterMap_cons, List.filterMap_append,
    filterMap_openings opening, List.filterMap_cons, filterMap_closings closing]
  cases select (.members subject) <;> cases select (.hook subject) <;> rfl

/-- Between two visits a pass is inside a scope, in the source outside all blocks. -/
structure At (settings : Settings) (mode : Mode) (scope : ScopedName) (pass : Pass) : Prop
    extends Inside settings scope pass where
  outside : mode = .definition → pass.scopes.depth = 0

/-- Visits take a pass from one state to another, and what is written are the segments. -/
structure Follows (settings : Settings) (tree : DeclTree) (mode : Mode) (pass : Pass)
    (visits : List Visit) (segments : List Segment) (next : Pass) : Prop where
  done : visits.foldlM (step settings tree mode) pass = .ok next
  emits : Emits settings tree mode pass segments next
  begun : .preamble ∉ segments
  subjects : segments.filterMap (Segment.subject? mode) =
    visits.filterMap (Subject.ofVisit? settings tree)
  /-- A file is noted when it is included. -/
  noted : next.included = (segments.filterMap Segment.file?).reverse ++ pass.included
  /-- The source is a sequence of parts, one for each interface. -/
  source : mode = .definition →
    segments = (visits.filterMap (Subject.ofVisit? settings tree)).flatMap sourceSegments

namespace Follows

theorem trans {pass middle next : Pass} {first second : List Visit}
    {segments others : List Segment}
    (before : Follows settings tree mode pass first segments middle)
    (after : Follows settings tree mode middle second others next) :
    Follows settings tree mode pass (first ++ second) (segments ++ others) next where
  done := by
    rw [List.foldlM_append, before.done]
    exact after.done
  emits := before.emits.trans after.emits
  begun listed := (List.mem_append.mp listed).elim before.begun after.begun
  subjects := by rw [List.filterMap_append, List.filterMap_append, before.subjects, after.subjects]
  noted := by
    rw [after.noted, before.noted, List.filterMap_append, List.reverse_append, List.append_assoc]
  source isSource := by
    rw [List.filterMap_append, List.flatMap_append, ← before.source isSource,
      ← after.source isSource]

/-- Visits at which nothing is written. -/
theorem silent {pass next : Pass} {visit : Visit}
    (done : step settings tree mode pass visit = .ok next) (sheet : next.sheet = pass.sheet)
    (blocks : next.scopes.blocks = pass.scopes.blocks) (included : next.included = pass.included)
    (none : Subject.ofVisit? settings tree visit = none) :
    Follows settings tree mode pass [visit] [] next where
  done := by
    rw [List.foldlM_cons, done]
    rfl
  emits := .nothing sheet blocks
  begun := by simp
  subjects := by rw [List.filterMap_cons_none none]; rfl
  noted := included
  source _ := by rw [List.filterMap_cons_none none]; rfl

theorem members {pass next : Pass} {visits : List Visit} {segments : List Segment}
    (follows : Follows settings tree mode pass visits segments next)
    (isSource : mode = .definition) :
    segments.filterMap Segment.membersOf? = visits.filterMap (Subject.ofVisit? settings tree) := by
  have one (subject : Subject) :
      (sourceSegments subject).filterMap Segment.membersOf? = [subject] :=
    filterMap_sourceSegments (fun _ => rfl) rfl subject
  rw [follows.source isSource, List.filterMap_flatMap]
  simp only [one, List.flatMap_singleton']

end Follows

/-- The visits lead from one scope to another, from whatever state. -/
def Leads (settings : Settings) (tree : DeclTree) (mode : Mode) (visits : List Visit)
    (scope last : ScopedName) : Prop :=
  ∀ pass, At settings mode scope pass → ∃ segments next,
    Follows settings tree mode pass visits segments next ∧ At settings mode last next

theorem Leads.trans {scope middle last : ScopedName} {first second : List Visit}
    (before : Leads settings tree mode first scope middle)
    (after : Leads settings tree mode second middle last) :
    Leads settings tree mode (first ++ second) scope last := by
  intro pass start
  obtain ⟨segments, between, follows, inside⟩ := before pass start
  obtain ⟨others, next, rest, stop⟩ := after between inside
  exact ⟨segments ++ others, next, follows.trans rest, stop⟩

theorem leads_nil (scope : ScopedName) : Leads settings tree mode [] scope scope := by
  intro pass start
  exact ⟨[], pass, ⟨rfl, .nothing rfl rfl, by simp, rfl, rfl, fun _ => rfl⟩, start⟩

theorem leads_enter (scope : ScopedName) (name : String) :
    Leads settings tree mode [.enter name] scope (scope.child name) := by
  intro pass start
  refine ⟨[], { pass with scopes := pass.scopes.enter name }, .silent rfl rfl ?_ rfl rfl,
    start.enter name, start.outside⟩
  exact List.take_append_of_le_length start.depth_le

theorem leads_leave (scope : ScopedName) (name : String) :
    Leads settings tree mode [.leave] (scope.child name) scope := by
  intro pass start
  refine ⟨_, _, ⟨rfl, .leave pass start.depth_le, ?_, ?_, ?_, fun isSource => ?_⟩,
    start.toInside.leave, fun isSource => ?_⟩
  · split <;> simp
  · split <;> cases mode <;> rfl
  · split <;> rfl
  · simp [start.outside isSource, Subject.ofVisit?]
  · simp [Scopes.leave, start.outside isSource]

theorem keepsLevel_includeLine (file : String) : Layout.KeepsLevel [includeLine file] := by
  intro level
  rfl

/-- In the header a file that is met for the first time is included outside all blocks. -/
theorem leads_external (scope : ScopedName) (file : String) :
    Leads settings tree mode [.external file] scope scope := by
  intro pass start
  cases mode with
  | definition => exact ⟨[], pass, .silent rfl rfl rfl rfl rfl, start⟩
  | declaration =>
    by_cases known : pass.included.contains file
    · refine ⟨[], pass, .silent ?_ rfl rfl rfl rfl, start⟩
      simp only [step, includeFile, noteFile, known]
      rfl
    · let noted : Pass := { pass with included := file :: pass.included }
      have inside : Inside settings scope noted :=
        ⟨start.stack, start.depth_le, start.level, start.counted⟩
      have noting : Emits settings tree .declaration pass [] noted := .nothing rfl rfl
      have closing : Emits settings tree .declaration noted _ _ := .escape noted inside.depth_le
      have including : Emits settings tree .declaration
          (noted.writeScoped noted.scopes.escape) [.included file] _ := .including _ file rfl
      refine ⟨_, _, ⟨?_, (noting.trans closing).trans including, ?_, ?_, ?_, nofun⟩,
        inside.escape.write (keepsLevel_includeLine _), fun _ => rfl⟩
      · simp only [List.foldlM_cons, step, includeFile, noteFile, known]
        rfl
      · simp
      · rw [List.nil_append, List.filterMap_append, filterMap_closings rfl]
        rfl
      · rw [List.nil_append, List.filterMap_append, filterMap_closings rfl]
        rfl

theorem classesLayout_eq {id : DeclId} {decl : Decl} (found : tree.decl? id = some decl)
    (interface : decl.interface?.isSome = true) (guard : String) (scopes : Scopes) :
    classesLayout settings tree guard mode scopes id =
      Subject.layout ⟨settings, tree, guard, id, decl⟩ mode scopes := by
  simp only [classesLayout, found, interface, if_true]

/-- In the header the classes stand inside the blocks of their scope, in the source the hook. -/
theorem leads_interface {scope : ScopedName} {id : DeclId} {decl : Decl}
    (found : tree.decl? id = some decl) (interface : decl.interface?.isSome = true)
    (named : decl.scopedName = scope.child decl.name) :
    Leads settings tree mode [.interface id] scope scope := by
  intro pass start
  let subject : Subject := ⟨settings, tree, guardOf tree.fileBase, id, decl⟩
  have blocks : pass.scopes.stack = subject.blocks := by
    rw [start.stack, Subject.blocks, Subject.name, named, ScopedName.child, List.dropLast_concat]
  have visited : [Visit.interface id].filterMap (Subject.ofVisit? settings tree) = [subject] := by
    simp [Subject.ofVisit?, found, subject]
  cases mode with
  | declaration =>
    obtain ⟨classes, done, keeps, -⟩ := subject.exists_classes
    have writing : Emits settings tree .declaration pass _ _ :=
      .interface pass (.classes subject) done (fun _ => rfl) rfl blocks
    have notSource : Mode.declaration ≠ .definition := by decide
    refine ⟨_, _, ⟨?_, writing, ?_, ?_, ?_, fun isSource => absurd isSource notSource⟩,
      start.materialize.write keeps, fun isSource => absurd isSource notSource⟩
    · simp only [List.foldlM_cons, step, writeClasses, classesLayout_eq found interface,
        Subject.layout_declaration]
      rw [done]
      rfl
    · simp [-List.map_drop]
    · rw [List.filterMap_append, filterMap_openings fun _ => rfl, List.nil_append, visited]
      rfl
    · rw [List.filterMap_append, filterMap_openings fun _ => rfl]
      rfl
  | definition =>
    obtain ⟨members, done, keeps, -⟩ := subject.exists_members
    have inside := start.toInside.write keeps
    have defining : Emits settings tree .definition pass [.members subject] _ :=
      .plain pass done (fun _ => rfl) rfl rfl
    have hooking : Emits settings tree .definition (pass.write members) _ _ :=
      .interface _ (.hook subject) rfl (fun _ => rfl) rfl blocks
    have hooked := inside.materialize.write subject.keepsLevel_defineHook
    have closing : Emits settings tree .definition _ _ _ := .escape _ hooked.depth_le
    have segments : [.members subject] ++
        (((pass.write members).scopes.stack.drop (pass.write members).scopes.depth).map .opening ++
          [.hook subject]) ++ List.replicate (pass.write members).scopes.stack.length .closing =
        sourceSegments subject := by
      rw [scopes_write, start.outside rfl, blocks, List.drop_zero, sourceSegments]
      simp
    have emits := (defining.trans hooking).trans closing
    refine ⟨sourceSegments subject, _, ⟨?_, segments ▸ emits, ?_, ?_, ?_, fun _ => ?_⟩,
      hooked.escape, fun _ => rfl⟩
    · simp only [List.foldlM_cons, step, writeClasses, classesLayout_eq found interface,
        Subject.layout_definition]
      rw [done]
      simp only [Except.map, bind, Except.bind, writeScoped, write, Sheet.writeAll_append]
      rfl
    · simp [sourceSegments]
    · rw [visited, filterMap_sourceSegments (fun _ => rfl) rfl]
      rfl
    · rw [filterMap_sourceSegments (fun _ => rfl) rfl]
      rfl
    · rw [visited, List.flatMap_singleton]

/-- **Every walk is followed to its end**, back in the scope in which it began. -/
theorem leads_of_walk {scope : ScopedName} {visits : List Visit} (walk : tree.Walk scope visits) :
    Leads settings tree mode visits scope scope := by
  induction walk with
  | nil => exact leads_nil _
  | @module scope name inner rest _ _ inside later =>
    exact (leads_enter scope name).trans (inside.trans ((leads_leave scope name).trans later))
  | interface found interface named _ later =>
    exact (leads_interface found interface named).trans later
  | @external scope file rest _ later => exact (leads_external scope file).trans later

/-! ## Whole passes -/

theorem keepsLevel_preamble (settings : Settings) (tree : DeclTree) (mode : Mode) :
    (preamble settings tree mode).KeepsLevel := by
  intro level
  cases mode <;> simp [preamble, banner, headerPreamble, sourcePreamble, includeLine]

theorem keepsLevel_headerEpilogue (guard : String) :
    (headerEpilogue settings guard).KeepsLevel := by
  intro level
  simp [headerEpilogue]

/-- What ends a file, behind the visits: in the header open blocks are closed. -/
def endSegments (pass : Pass) : Mode → List Segment
  | .declaration => List.replicate pass.scopes.depth .closing ++ [.epilogue]
  | .definition => []

/-- A pass through a built tree writes the preamble, follows the visits and ends the file. -/
theorem exists_follows (built : tree.Built) (settings : Settings) (mode : Mode) :
    ∃ segments last pass,
      Follows settings tree mode ((start settings).write (preamble settings tree mode)) tree.visits
        segments last ∧
      At settings mode .root last ∧
      run settings tree mode = .ok pass ∧
      Emits settings tree mode (start settings) (.preamble :: segments ++ last.endSegments mode)
        pass ∧
      Inside settings .root pass ∧ pass.scopes.depth = 0 := by
  have beginning : Emits settings tree mode (start settings) [.preamble] _ :=
    .plain _ rfl (fun _ => rfl) (by cases mode <;> rfl) rfl
  have inside := (Inside.start settings).write (keepsLevel_preamble settings tree mode)
  have leads : Leads settings tree mode tree.visits .root .root := leads_of_walk built.walk
  obtain ⟨segments, last, follows, stop⟩ := leads _ ⟨inside, fun _ => rfl⟩
  cases mode with
  | declaration =>
    have closing : Emits settings tree .declaration last _ _ := .escape last stop.depth_le
    have ending : Emits settings tree .declaration _ [.epilogue] _ :=
      .plain (last.writeScoped last.scopes.escape) rfl (fun _ => rfl) rfl rfl
    refine ⟨segments, last, _, follows, stop, ?_,
      (beginning.trans follows.emits).trans (closing.trans ending),
      stop.toInside.escape.write (keepsLevel_headerEpilogue _), rfl⟩
    rw [run, follows.done]
    rfl
  | definition =>
    have emits := beginning.trans follows.emits
    refine ⟨segments, last, last, follows, stop, ?_, ?_, stop.toInside, stop.outside rfl⟩
    · rw [run, follows.done]
      rfl
    · rw [endSegments, List.append_nil]
      exact emits

theorem filterMap_endSegments {α : Type} {select : Segment → Option α} (pass : Pass)
    (closing : select .closing = none) (epilogue : select .epilogue = none) (mode : Mode) :
    (pass.endSegments mode).filterMap select = [] := by
  cases mode with
  | declaration =>
    rw [endSegments, List.filterMap_append, filterMap_closings closing,
      List.filterMap_cons_none epilogue]
    rfl
  | definition => rfl

/-- A pass through a built tree reaches its end, where no block is open. -/
theorem exists_run (built : tree.Built) (settings : Settings) (mode : Mode) :
    ∃ segments pass, run settings tree mode = .ok pass ∧
      Emits settings tree mode (start settings) segments pass ∧
      segments.filterMap (Segment.subject? mode) = Subject.visited settings tree ∧
      (mode = .definition →
        segments.filterMap Segment.membersOf? = Subject.visited settings tree) ∧
      Inside settings .root pass ∧ pass.scopes.depth = 0 := by
  obtain ⟨segments, last, pass, follows, -, done, emits, inside, outside⟩ :=
    exists_follows built settings mode
  refine ⟨_, pass, done, emits, ?_, fun isSource => ?_, inside, outside⟩
  · rw [List.cons_append, List.filterMap_cons_none (by cases mode <;> rfl), List.filterMap_append,
      follows.subjects, filterMap_endSegments last (Segment.subject?_closing mode)
        (by cases mode <;> rfl), List.append_nil]
    rfl
  · rw [List.cons_append, List.filterMap_cons_none rfl, List.filterMap_append,
      follows.members isSource, filterMap_endSegments last rfl rfl, List.append_nil]
    rfl

end Pass

/-- What is visited is a declaration of the tree. -/
theorem Subject.exists_of_mem_visited {settings : Settings} {tree : DeclTree} {subject : Subject}
    (visited : subject ∈ Subject.visited settings tree) :
    ∃ id decl, tree.decl? id = some decl ∧
      subject = ⟨settings, tree, guardOf tree.fileBase, id, decl⟩ := by
  obtain ⟨visit, -, own⟩ := List.mem_filterMap.mp visited
  cases visit with
  | interface id =>
    obtain ⟨decl, found, rfl⟩ := Option.map_eq_some_iff.mp own
    exact ⟨id, decl, found, rfl⟩
  | enter name => cases own
  | leave => cases own
  | external file => cases own

theorem Subject.settings_of_mem_visited {settings : Settings} {tree : DeclTree} {subject : Subject}
    (visited : subject ∈ Subject.visited settings tree) : subject.settings = settings := by
  obtain ⟨id, decl, -, rfl⟩ := exists_of_mem_visited visited
  rfl

/-- Interfaces are visited inside the scopes that name them. -/
theorem Subject.named_of_walk {settings : Settings} {tree : DeclTree} {scope : ScopedName}
    {visits : List Visit} (walk : tree.Walk scope visits) :
    ∀ subject ∈ visits.filterMap (ofVisit? settings tree), subject.Named := by
  induction walk with
  | nil => nofun
  | @module scope name inner rest _ _ inside later =>
    intro subject listed
    rw [List.cons_append, List.filterMap_cons_none rfl, List.filterMap_append,
      List.filterMap_cons_none rfl] at listed
    rcases List.mem_append.mp listed with inModule | behind
    · exact inside subject inModule
    · exact later subject behind
  | @interface scope id decl rest found _ named _ later =>
    intro subject listed
    have own : ofVisit? settings tree (.interface id) =
        some ⟨settings, tree, guardOf tree.fileBase, id, decl⟩ := by
      rw [ofVisit?, found, Option.map_some]
    rw [List.filterMap_cons_some own] at listed
    rcases List.mem_cons.mp listed with rfl | behind
    · exact ⟨scope, named⟩
    · exact later subject behind
  | external _ later =>
    intro subject listed
    rw [List.filterMap_cons_none rfl] at listed
    exact later subject listed

/-- A tree with an interface in a module behind a declaration of another file. -/
def nestedTree : DeclTree :=
  let draft := (Draft.empty "d.idl").addModule none "dom"
  let draft := ((draft.setFile "e.idl").addInterface none "Base").setFile "d.idl"
  (draft.addInterface (some 0) "Node").tree

theorem built_nestedTree : nestedTree.Built := by
  refine ⟨_, .edit (.edit (.edit (.edit (.edit (.empty "d.idl") (.addModule none "dom") ?_)
    (.setFile "e.idl") ?_) (.addInterface none "Base") ?_) (.setFile "d.idl") ?_)
    (.addInterface (some 0) "Node") ?_, rfl⟩
  all_goals decide +kernel

end Adapter

end IdlBridge
