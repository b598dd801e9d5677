import IdlBridge.Adapter.Pass
import IdlBridge.Proofs.Adapter.ClassLayouts

/-!
# Segments of a generated file

A generated file is a series of segments: its beginning and end, included headers, the classes of
interfaces or their members and hooks, and the beginnings and ends of namespace blocks. The blocks
that are open at some point are read off the segments in front of it (`blocksAfter`).

A pass goes from one state to another by writing segments (`Pass.Emits`). In doing so it writes
every interface inside the blocks of its own scope, opens no block but to write an interface in it,
and includes headers outside all blocks. The scopes of the pass agree all the time with the blocks
and with the level of the text (`Pass.Inside`).
-/

set_option autoImplicit false

namespace IdlBridge.Adapter

/-- A part of a generated file. -/
inductive Segment
  | preamble
  | included (file : String)
  /-- A namespace block begins. -/
  | opening (name : String)
  /-- The innermost namespace block ends. -/
  | closing
  | classes (subject : Subject)
  | members (subject : Subject)
  | hook (subject : Subject)
  | epilogue
  deriving Repr, Inhabited

namespace Segment

/-- What is written for a segment. -/
def layout (settings : Settings) (tree : DeclTree) (mode : Mode) : Segment → Except Error Layout
  | preamble => .ok (Adapter.preamble settings tree mode)
  | included file => .ok [includeLine (includeFor settings.filePrefix file)]
  | opening name => .ok (Scopes.openBlock name)
  | closing => .ok Scopes.closeBlock
  | classes subject => subject.classes
  | members subject => subject.members
  | hook subject => .ok subject.defineHook
  | epilogue => .ok (headerEpilogue settings (guardOf tree.fileBase))

/-- The second sheet is the first with the segments written on it. -/
def Written (settings : Settings) (tree : DeclTree) (mode : Mode) (sheet : Sheet)
    (segments : List Segment) (next : Sheet) : Prop :=
  ∃ layouts,
    List.Forall₂ (fun segment layout => segment.layout settings tree mode = .ok layout) segments
      layouts ∧
    next = sheet.writeAll layouts.flatten

theorem Written.trans {settings : Settings} {tree : DeclTree} {mode : Mode}
    {sheet middle next : Sheet} {first second : List Segment}
    (before : Written settings tree mode sheet first middle)
    (after : Written settings tree mode middle second next) :
    Written settings tree mode sheet (first ++ second) next := by
  obtain ⟨layouts, done, rfl⟩ := before
  obtain ⟨others, othersDone, rfl⟩ := after
  refine ⟨layouts ++ others, List.rel_append done othersDone, ?_⟩
  rw [List.flatten_append, Sheet.writeAll_append]

/-- The interface that is written inside its namespace: with its classes in the header, with its
hook in the source. -/
def subject? : Mode → Segment → Option Subject
  | .declaration, classes subject => some subject
  | .definition, hook subject => some subject
  | _, _ => none

/-- What is written for an interface inside its namespace in the header: all its classes. -/
theorem layout_of_subject?_declaration {settings : Settings} {tree : DeclTree} {segment : Segment}
    {subject : Subject} (isSubject : segment.subject? .declaration = some subject) :
    segment.layout settings tree .declaration = subject.classes := by
  cases segment with
  | classes other =>
    cases isSubject
    rfl
  | _ => cases isSubject

/-- What is written for an interface inside its namespace in the source: the function that refers to
the instance of its factory. -/
theorem layout_of_subject?_definition {settings : Settings} {tree : DeclTree} {segment : Segment}
    {subject : Subject} (isSubject : segment.subject? .definition = some subject) :
    segment.layout settings tree .definition =
      .ok [.line ("void " ++ hookName subject.name.simple ++ "() \x7b " ++
        factoryInstance subject.name ++ ".Name(); \x7d")] := by
  cases segment with
  | hook other =>
    cases isSubject
    rfl
  | _ => cases isSubject

/-- The interface whose members are written. -/
def membersOf? : Segment → Option Subject
  | members subject => some subject
  | _ => none

/-- The file whose header is included. -/
def file? : Segment → Option String
  | included file => some file
  | _ => none

theorem file?_eq_some_iff {segment : Segment} {file : String} :
    segment.file? = some file ↔ segment = included file := by
  cases segment <;> simp [file?]

@[simp]
theorem subject?_opening (mode : Mode) (name : String) : (opening name).subject? mode = none := by
  cases mode <;> rfl

@[simp]
theorem subject?_closing (mode : Mode) : closing.subject? mode = none := by
  cases mode <;> rfl

/-- The open blocks behind a segment, outermost first, given those in front of it. Only an open
block can be closed. -/
def blocks? (blocks : List String) : Segment → Option (List String)
  | opening name => some (blocks ++ [name])
  | closing => if blocks.isEmpty then none else some blocks.dropLast
  | _ => some blocks

end Segment

/-- The open blocks behind segments, outermost first, given those in front of them. -/
def blocksAfter (blocks : List String) (segments : List Segment) : Option (List String) :=
  segments.foldlM Segment.blocks? blocks

@[simp]
theorem blocksAfter_nil (blocks : List String) : blocksAfter blocks [] = some blocks := rfl

theorem blocksAfter_cons (blocks : List String) (segment : Segment) (segments : List Segment) :
    blocksAfter blocks (segment :: segments) =
      (segment.blocks? blocks).bind (blocksAfter · segments) :=
  List.foldlM_cons

theorem blocksAfter_append {blocks middle : List String} {first second : List Segment}
    (before : blocksAfter blocks first = some middle) :
    blocksAfter blocks (first ++ second) = blocksAfter middle second := by
  rw [blocksAfter, List.foldlM_append]
  rw [blocksAfter] at before
  rw [before]
  rfl

theorem blocksAfter_openings (blocks names : List String) :
    blocksAfter blocks (names.map .opening) = some (blocks ++ names) := by
  induction names generalizing blocks with
  | nil => simp
  | cons name names ih =>
    rw [List.map_cons, blocksAfter_cons, Segment.blocks?]
    simpa using ih (blocks ++ [name])

theorem blocksAfter_closings (blocks : List String) :
    blocksAfter blocks (List.replicate blocks.length .closing) = some [] := by
  induction blocks using List.reverseRecOn with
  | nil => rfl
  | append_singleton blocks name ih =>
    have closed : Segment.blocks? (blocks ++ [name]) .closing = some blocks := by
      simp [Segment.blocks?]
    rw [List.length_append, List.length_singleton, List.replicate_succ, blocksAfter_cons, closed]
    exact ih

/-- A member of one list put behind another is in the one or in the other. -/
theorem mem_split_append {α : Type} {first second before after : List α} {member : α}
    (split : first ++ second = before ++ member :: after) :
    (∃ between, first = before ++ member :: between ∧ after = between ++ second) ∨
      ∃ between, before = first ++ between ∧ second = between ++ member :: after := by
  rcases List.append_eq_append_iff.mp split with ⟨between, rfl, rest⟩ | ⟨between, rfl, rest⟩
  · exact .inr ⟨between, rfl, rest⟩
  · cases between with
    | nil => exact .inr ⟨[], by simp, by simpa using rest.symm⟩
    | cons head between =>
      obtain ⟨rfl, rfl⟩ := List.cons.inj rest
      exact .inl ⟨between, rfl, rfl⟩

theorem levelAfter_openBlocks (level : Nat) (names : List String) :
    Layout.levelAfter level (names.flatMap Scopes.openBlock) = level + names.length := by
  induction names generalizing level with
  | nil => rfl
  | cons name names ih =>
    rw [List.flatMap_cons, Layout.levelAfter_append, ih, List.length_cons]
    exact Nat.add_right_comm level 1 names.length

theorem levelAfter_closeBlocks (level count : Nat) :
    Layout.levelAfter level (List.replicate count Scopes.closeBlock).flatten = level - count := by
  induction count generalizing level with
  | zero => rfl
  | succ count ih =>
    rw [List.replicate_succ, List.flatten_cons, Layout.levelAfter_append, ih]
    exact Nat.sub_right_comm level 1 count

/-- The blocks that are open in the text. -/
def Scopes.blocks (scopes : Scopes) : List String :=
  scopes.stack.take scopes.depth

/-- The blocks in which an interface belongs. -/
def Subject.blocks (subject : Subject) : List String :=
  subject.settings.outer :: subject.name.parts.dropLast

namespace Pass

@[simp]
theorem scopes_write (pass : Pass) (layout : Layout) : (pass.write layout).scopes = pass.scopes :=
  rfl

@[simp]
theorem sheet_write (pass : Pass) (layout : Layout) :
    (pass.write layout).sheet = pass.sheet.writeAll layout := rfl

@[simp]
theorem scopes_writeScoped (pass : Pass) (change : Scopes × Layout) :
    (pass.writeScoped change).scopes = change.1 := rfl

@[simp]
theorem sheet_writeScoped (pass : Pass) (change : Scopes × Layout) :
    (pass.writeScoped change).sheet = pass.sheet.writeAll change.2 := rfl

/-! ## Writing segments -/

/-- A pass gets from one state to another by writing the segments. -/
structure Emits (settings : Settings) (tree : DeclTree) (mode : Mode) (pass : Pass)
    (segments : List Segment) (next : Pass) : Prop where
  written : Segment.Written settings tree mode pass.sheet segments next.sheet
  blocks : blocksAfter pass.scopes.blocks segments = some next.scopes.blocks
  /-- An interface is written inside the blocks in which it belongs. -/
  placed : ∀ before segment after subject, segments = before ++ segment :: after →
    segment.subject? mode = some subject →
      blocksAfter pass.scopes.blocks before = some subject.blocks
  /-- Behind the beginning of a block there are only others until an interface is written. -/
  used : ∀ before name after, segments = before ++ .opening name :: after →
    ∃ (inner : List String) (segment : Segment) (rest : List Segment) (subject : Subject),
      after = inner.map .opening ++ segment :: rest ∧
      segment.subject? mode = some subject
  /-- Headers are included where no block is open. -/
  outside : ∀ before file after, segments = before ++ .included file :: after →
    blocksAfter pass.scopes.blocks before = some []

namespace Emits

variable {settings : Settings} {tree : DeclTree} {mode : Mode}

/-- A change of the scopes that leaves the open blocks as they are writes nothing. -/
theorem nothing {pass next : Pass} (sheet : next.sheet = pass.sheet)
    (blocks : next.scopes.blocks = pass.scopes.blocks) :
    Emits settings tree mode pass [] next where
  written := ⟨[], .nil, sheet⟩
  blocks := by rw [blocks, blocksAfter_nil]
  placed := by simp
  used := by simp
  outside := by simp

theorem trans {pass middle next : Pass} {first second : List Segment}
    (before : Emits settings tree mode pass first middle)
    (after : Emits settings tree mode middle second next) :
    Emits settings tree mode pass (first ++ second) next where
  written := before.written.trans after.written
  blocks := by rw [blocksAfter_append before.blocks, after.blocks]
  placed := by
    intro front segment back subject split isSubject
    rcases mem_split_append split with ⟨between, own, -⟩ | ⟨between, rfl, own⟩
    · exact before.placed front segment between subject own isSubject
    · rw [blocksAfter_append before.blocks]
      exact after.placed between segment back subject own isSubject
  used := by
    intro front name back split
    rcases mem_split_append split with ⟨between, own, rfl⟩ | ⟨between, rfl, own⟩
    · obtain ⟨inner, segment, rest, subject, rfl, isSubject⟩ := before.used front name between own
      exact ⟨inner, segment, rest ++ second, subject, by simp, isSubject⟩
    · exact after.used between name back own
  outside := by
    intro front file back split
    rcases mem_split_append split with ⟨between, own, -⟩ | ⟨between, rfl, own⟩
    · exact before.outside front file between own
    · rw [blocksAfter_append before.blocks]
      exact after.outside between file back own

/-- Segments that begin no block, write no interface inside one and include no header. -/
theorem quiet {pass next : Pass} {segments : List Segment}
    (written : Segment.Written settings tree mode pass.sheet segments next.sheet)
    (blocks : blocksAfter pass.scopes.blocks segments = some next.scopes.blocks)
    (quiet : ∀ segment ∈ segments, segment.subject? mode = none ∧
      (∀ name, segment ≠ .opening name) ∧ segment.file? = none) :
    Emits settings tree mode pass segments next where
  written := written
  blocks := blocks
  placed := by
    rintro before segment after subject rfl isSubject
    simp [(quiet segment (by simp)).1] at isSubject
  used := by
    rintro before name after rfl
    exact absurd rfl ((quiet (.opening name) (by simp)).2.1 name)
  outside := by
    rintro before file after rfl
    have noFile := (quiet (.included file) (by simp)).2.2
    cases noFile

/-- A single segment that has nothing to do with blocks. -/
theorem plain (pass : Pass) {segment : Segment} {layout : Layout}
    (done : segment.layout settings tree mode = .ok layout)
    (blocks : ∀ blocks, segment.blocks? blocks = some blocks)
    (noSubject : segment.subject? mode = none) (noFile : segment.file? = none) :
    Emits settings tree mode pass [segment] (pass.write layout) := by
  refine quiet ⟨[layout], .cons done .nil, by simp⟩ ?_ ?_
  · rw [blocksAfter_cons, blocks]
    rfl
  · rintro other listed
    cases List.mem_singleton.mp listed
    refine ⟨noSubject, fun name isOpening => ?_, noFile⟩
    simpa [isOpening, Segment.blocks?] using blocks []

/-- A header is included where no block is open. -/
theorem including (pass : Pass) (file : String) (closed : pass.scopes.blocks = []) :
    Emits settings tree mode pass [.included file]
      (pass.write [includeLine (includeFor settings.filePrefix file)]) where
  written := ⟨[_], .cons rfl .nil, by simp⟩
  blocks := rfl
  placed := by
    intro before segment after subject split isSubject
    cases before with
    | nil =>
      obtain ⟨rfl, -⟩ := List.cons.inj split
      cases mode <;> cases isSubject
    | cons => simp at split
  used := by
    intro before name after split
    cases before <;> simp at split
  outside := by
    intro before other after split
    cases before with
    | nil => rw [closed, blocksAfter_nil]
    | cons => simp at split

/-- All blocks are closed. -/
theorem escape (pass : Pass) (bounded : pass.scopes.depth ≤ pass.scopes.stack.length) :
    Emits settings tree mode pass (List.replicate pass.scopes.depth .closing)
      (pass.writeScoped pass.scopes.escape) := by
  refine quiet ⟨List.replicate pass.scopes.depth Scopes.closeBlock, ?_, rfl⟩ ?_ ?_
  · exact List.forall₂_iff_zip.mpr ⟨by simp, by simp +contextual [Segment.layout]⟩
  · have count : pass.scopes.blocks.length = pass.scopes.depth := by
      rw [Scopes.blocks, List.length_take, Nat.min_eq_left bounded]
    rw [← count, blocksAfter_closings]
    simp [Scopes.escape, Scopes.blocks]
  · rintro segment listed
    cases List.eq_of_mem_replicate listed
    exact ⟨Segment.subject?_closing mode, fun _ => Segment.noConfusion, rfl⟩

/-- An interface is written inside all blocks of its scope. -/
theorem interface (pass : Pass) (segment : Segment) {subject : Subject} {layout : Layout}
    (done : segment.layout settings tree mode = .ok layout)
    (blocks : ∀ blocks, segment.blocks? blocks = some blocks)
    (isSubject : segment.subject? mode = some subject)
    (scope : pass.scopes.stack = subject.blocks) :
    Emits settings tree mode pass
      ((pass.scopes.stack.drop pass.scopes.depth).map .opening ++ [segment])
      ((pass.writeScoped pass.scopes.materialize).write layout) where
  written := by
    refine ⟨(pass.scopes.stack.drop pass.scopes.depth).map Scopes.openBlock ++ [layout], ?_, ?_⟩
    · refine List.rel_append ?_ (.cons done .nil)
      rw [List.forall₂_map_left_iff, List.forall₂_map_right_iff]
      exact List.forall₂_same.mpr fun _ _ => rfl
    · simp [Scopes.materialize, List.flatMap_def]
  blocks := by
    rw [blocksAfter_append (blocksAfter_openings _ _), blocksAfter_cons, blocks]
    simp [Scopes.materialize, Scopes.blocks]
  placed := by
    intro before other after second split isSecond
    rcases mem_split_append split with ⟨between, own, -⟩ | ⟨between, rfl, own⟩
    · have opened : other ∈ (pass.scopes.stack.drop pass.scopes.depth).map Segment.opening := by
        rw [own]
        simp
      obtain ⟨name, -, rfl⟩ := List.mem_map.mp opened
      simp at isSecond
    · obtain ⟨rfl, rfl, -⟩ : between = [] ∧ other = segment ∧ after = [] := by
        cases between <;> simp_all
      obtain rfl : second = subject := by simpa [isSecond] using isSubject
      rw [List.append_nil, blocksAfter_openings, Scopes.blocks, List.take_append_drop, scope]
  used := by
    intro before name after split
    rcases mem_split_append split with ⟨between, own, rfl⟩ | ⟨between, -, own⟩
    · obtain ⟨outer, rest, -, -, inside⟩ := List.map_eq_append_iff.mp own
      obtain ⟨-, inner, -, -, rfl⟩ := List.map_eq_cons_iff.mp inside
      exact ⟨inner, segment, [], subject, rfl, isSubject⟩
    · have isOpening : segment = .opening name := by
        cases between <;> simp_all
      simp [isOpening] at isSubject
  outside := by
    intro before file after split
    rcases mem_split_append split with ⟨between, own, -⟩ | ⟨between, -, own⟩
    · have opened : Segment.included file ∈
          (pass.scopes.stack.drop pass.scopes.depth).map Segment.opening := by
        rw [own]
        simp
      obtain ⟨name, -, other⟩ := List.mem_map.mp opened
      cases other
    · have isFile : segment = .included file := by
        cases between <;> simp_all
      subst isFile
      cases mode <;> cases isSubject

/-- Leaving a scope closes its block if that is open. -/
theorem leave (pass : Pass) (bounded : pass.scopes.depth ≤ pass.scopes.stack.length) :
    Emits settings tree mode pass
      (if pass.scopes.depth > pass.scopes.stack.dropLast.length then [.closing] else [])
      (pass.writeScoped pass.scopes.leave) := by
  rw [Scopes.leave]
  split
  · rename_i isOpen
    have depth : pass.scopes.depth = pass.scopes.stack.length := by
      rw [List.length_dropLast] at isOpen
      omega
    have nonempty : pass.scopes.stack ≠ [] := by
      intro none
      simp [none] at depth isOpen
      omega
    refine quiet ⟨[Scopes.closeBlock], .cons rfl .nil, rfl⟩ ?_ ?_
    · simp [blocksAfter_cons, Segment.blocks?, Scopes.blocks, depth, nonempty]
    · rintro segment listed
      cases List.mem_singleton.mp listed
      exact ⟨Segment.subject?_closing mode, fun _ => Segment.noConfusion, rfl⟩
  · rename_i isClosed
    refine nothing rfl ?_
    rw [scopes_writeScoped, Scopes.blocks, Scopes.blocks, List.dropLast_eq_take,
      List.take_take, Nat.min_eq_left]
    simpa using isClosed

end Emits

/-! ## Scopes and blocks -/

/-- The pass is inside a scope, and its level and its counters agree with the open blocks. -/
structure Inside (settings : Settings) (scope : ScopedName) (pass : Pass) : Prop where
  stack : pass.scopes.stack = settings.outer :: scope.parts
  depth_le : pass.scopes.depth ≤ pass.scopes.stack.length
  level : pass.sheet.level = pass.scopes.depth
  counted : pass.scopes.opened = pass.scopes.closed + pass.scopes.depth

namespace Inside

variable {settings : Settings} {scope : ScopedName} {pass : Pass}

theorem start (settings : Settings) : Inside settings .root (Pass.start settings) where
  stack := rfl
  depth_le := Nat.zero_le _
  level := rfl
  counted := rfl

theorem write (inside : Inside settings scope pass) {layout : Layout}
    (keeps : layout.KeepsLevel) : Inside settings scope (pass.write layout) where
  stack := inside.stack
  depth_le := inside.depth_le
  level := by
    rw [sheet_write, Layout.level_writeAll, keeps, inside.level, scopes_write]
  counted := inside.counted

theorem enter (inside : Inside settings scope pass) (name : String) :
    Inside settings (scope.child name) { pass with scopes := pass.scopes.enter name } where
  stack := by simp [Scopes.enter, inside.stack, ScopedName.child]
  depth_le := by
    rw [Scopes.enter, List.length_append]
    exact Nat.le_add_right_of_le inside.depth_le
  level := inside.level
  counted := inside.counted

theorem leave {name : String} (inside : Inside settings (scope.child name) pass) :
    Inside settings scope (pass.writeScoped pass.scopes.leave) := by
  have stack : pass.scopes.stack.dropLast = settings.outer :: scope.parts := by
    rw [inside.stack, ScopedName.child, ← List.cons_append, List.dropLast_concat]
  have length : pass.scopes.stack.length = pass.scopes.stack.dropLast.length + 1 := by
    simp [inside.stack, ScopedName.child]
  have bounded := inside.depth_le
  have level := inside.level
  have counted := inside.counted
  rw [Scopes.leave]
  split
  · refine ⟨stack, Nat.le_refl _, ?_, ?_⟩
    · rw [sheet_writeScoped, Layout.level_writeAll, level, scopes_writeScoped]
      show pass.scopes.depth - 1 = pass.scopes.stack.dropLast.length
      omega
    · rw [scopes_writeScoped]
      show pass.scopes.opened = pass.scopes.closed + 1 + pass.scopes.stack.dropLast.length
      omega
  · refine ⟨stack, ?_, level, counted⟩
    rw [scopes_writeScoped]
    show pass.scopes.depth ≤ pass.scopes.stack.dropLast.length
    omega

theorem materialize (inside : Inside settings scope pass) :
    Inside settings scope (pass.writeScoped pass.scopes.materialize) where
  stack := inside.stack
  depth_le := Nat.le_refl _
  level := by
    rw [sheet_writeScoped, Layout.level_writeAll, Scopes.materialize, levelAfter_openBlocks,
      List.length_drop, inside.level]
    exact Nat.add_sub_cancel' inside.depth_le
  counted := by
    have counted := inside.counted
    have bounded := inside.depth_le
    simp only [scopes_writeScoped, Scopes.materialize, List.length_drop]
    omega

theorem escape (inside : Inside settings scope pass) :
    Inside settings scope (pass.writeScoped pass.scopes.escape) where
  stack := inside.stack
  depth_le := Nat.zero_le _
  level := by
    rw [sheet_writeScoped, Layout.level_writeAll, Scopes.escape, levelAfter_closeBlocks,
      inside.level, Nat.sub_self]
    rfl
  counted := inside.counted

end Inside

end Pass

end IdlBridge.Adapter
