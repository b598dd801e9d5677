import IdlBridge.Proofs.Adapter.ClassBalance
import IdlBridge.Proofs.Adapter.Includes

/-!
# Balanced files

If no name, file name or setting holds a brace, what is written for an interface is balanced by
itself, and a namespace block opens one brace and closes it again. So after every visit the text has
as many open braces as there are open blocks (`Pass.nested_step`), and the whole file is balanced.

The levels do not depend on the names. What is written for an interface, and for each of its
callables, ends at the level at which it began, and no dedent is lost on the way. The same holds of
a whole pass (`Pass.exists_keepsLevel`).
-/

set_option autoImplicit false

namespace IdlBridge

open Text (isBrace)

/-! ## Names that are visited -/

/-- The name or file that a visit mentions avoids the characters. -/
def Visit.Avoids (chosen : Char → Bool) : Visit → Prop
  | enter name => Text.Avoids chosen name
  | external file => Text.Avoids chosen file
  | _ => True

theorem DeclTree.Avoids.visitsOf {chosen : Char → Bool} {tree : DeclTree}
    (avoids : tree.Avoids chosen) (depth : Nat) (ids : List DeclId) :
    ∀ visit ∈ tree.visitsOf depth ids, visit.Avoids chosen := by
  induction depth generalizing ids with
  | zero => exact fun visit listed => by cases listed
  | succ depth ih =>
    intro visit listed
    rw [DeclTree.visitsOf] at listed
    obtain ⟨id, -, listed⟩ := List.mem_flatMap.mp listed
    cases found : tree.decl? id with
    | none => simp [found] at listed
    | some decl =>
      have own := avoids.decls id decl found
      simp only [found] at listed
      split at listed
      · split at listed
        · rename_i members _
          rcases List.mem_append.mp listed with inside | last
          · rcases List.mem_cons.mp inside with rfl | deeper
            · exact own.name
            · exact ih members visit deeper
          · cases List.mem_singleton.mp last
            trivial
        · cases List.mem_singleton.mp listed
          trivial
        · cases listed
      · cases List.mem_singleton.mp listed
        exact own.file

namespace Adapter

/-! ## Open blocks and open braces -/

theorem nests_openBlocks {names : List String} (unbraced : ∀ name ∈ names, Text.Avoids isBrace name)
    (depth : Nat) :
    Text.Nests depth (depth + names.length)
      (Layout.braceMarks (names.flatMap Scopes.openBlock)) := by
  induction names generalizing depth with
  | nil => exact Text.Balanced.nil.nests depth
  | cons name names ih =>
    rw [List.forall_mem_cons] at unbraced
    have head : Layout.braceMarks (Scopes.openBlock name) = ['\x7b'] := by
      have own := unbraced.1
      simp (disch := first | assumption | exact .literal _ rfl) [Scopes.openBlock,
        Text.Avoids.braceMarks_eq]
      rfl
    rw [List.flatMap_cons, Layout.braceMarks_append, head, List.length_cons, Nat.add_comm _ 1,
      ← Nat.add_assoc]
    exact (Text.nests_opening depth).append (ih unbraced.2 (depth + 1))

theorem nests_closeBlocks (depth count : Nat) :
    Text.Nests (depth + count) depth
      (Layout.braceMarks (List.replicate count Scopes.closeBlock).flatten) := by
  induction count with
  | zero => exact Text.Balanced.nil.nests depth
  | succ count ih =>
    rw [List.replicate_succ, List.flatten_cons, Layout.braceMarks_append]
    exact (Text.nests_closing (depth + count)).append ih

theorem Sheet.braceMarks_writeAll (sheet : Sheet) (layout : Layout) :
    Text.braceMarks (sheet.writeAll layout).text =
      Text.braceMarks sheet.text ++ layout.braceMarks := by
  obtain ⟨added, written, marks⟩ := sheet.exists_text_writeAll layout
  rw [written, Text.braceMarks_append, marks]

namespace Pass

variable {settings : Settings} {tree : DeclTree} {mode : Mode} {pass : Pass}

/-- The text has as many open braces as there are open blocks, and no scope holds a brace in its
name. -/
structure Nested (pass : Pass) : Prop where
  depth_le : pass.scopes.depth ≤ pass.scopes.stack.length
  named : ∀ name ∈ pass.scopes.stack, Text.Avoids isBrace name
  nests : Text.Nests 0 pass.scopes.depth (Text.braceMarks pass.sheet.text)

namespace Nested

theorem start (outer : Text.Avoids isBrace settings.outer) : Nested (Pass.start settings) where
  depth_le := Nat.zero_le _
  named name listed := by
    cases List.mem_singleton.mp listed
    exact outer
  nests := Text.Balanced.nil.nests 0

theorem writeScoped (nested : pass.Nested) {change : Scopes × Layout}
    (depth_le : change.1.depth ≤ change.1.stack.length)
    (named : ∀ name ∈ change.1.stack, Text.Avoids isBrace name)
    (nests : Text.Nests pass.scopes.depth change.1.depth change.2.braceMarks) :
    (pass.writeScoped change).Nested where
  depth_le := depth_le
  named := named
  nests := by
    rw [sheet_writeScoped, scopes_writeScoped, Sheet.braceMarks_writeAll]
    exact nested.nests.append nests

theorem write (nested : pass.Nested) {layout : Layout} (balanced : layout.Balanced) :
    (pass.write layout).Nested :=
  show (pass.writeScoped (pass.scopes, layout)).Nested from
    nested.writeScoped nested.depth_le nested.named (Text.Balanced.nests balanced _)

theorem nests_materialize (nested : pass.Nested) :
    Text.Nests pass.scopes.depth pass.scopes.stack.length
      (Layout.braceMarks pass.scopes.materialize.2) := by
  have missing : ∀ name ∈ pass.scopes.stack.drop pass.scopes.depth, Text.Avoids isBrace name :=
    fun name listed => nested.named name (List.mem_of_mem_drop listed)
  have opened := nests_openBlocks missing pass.scopes.depth
  rwa [List.length_drop, Nat.add_sub_cancel' nested.depth_le] at opened

theorem materialize (nested : pass.Nested) :
    (pass.writeScoped pass.scopes.materialize).Nested :=
  nested.writeScoped (Nat.le_refl _) nested.named nested.nests_materialize

theorem escape (nested : pass.Nested) : (pass.writeScoped pass.scopes.escape).Nested :=
  nested.writeScoped (Nat.zero_le _) nested.named
    ((Nat.zero_add _ ▸ nests_closeBlocks 0 pass.scopes.depth :))

theorem leave (nested : pass.Nested) : (pass.writeScoped pass.scopes.leave).Nested := by
  have inner : ∀ name ∈ pass.scopes.stack.dropLast, Text.Avoids isBrace name :=
    fun name listed => nested.named name (List.mem_of_mem_dropLast listed)
  have bounded := nested.depth_le
  rw [Scopes.leave]
  split
  · rename_i isOpen
    have depth : pass.scopes.depth = pass.scopes.stack.dropLast.length + 1 := by
      rw [List.length_dropLast] at isOpen ⊢
      omega
    refine nested.writeScoped (Nat.le_refl _) inner ?_
    rw [depth]
    exact Text.nests_closing _
  · rename_i isClosed
    exact nested.writeScoped (Nat.le_of_not_gt isClosed) inner (Text.Balanced.nil.nests _)

end Nested

theorem braceMarks_includeLine (file : String) (rest : Layout) :
    Layout.braceMarks (includeLine file :: rest) = Text.braceMarks file ++ rest.braceMarks := by
  have before : Text.Avoids isBrace "#include \"" := .literal _ rfl
  have after : Text.Avoids isBrace "\"" := .literal _ rfl
  rw [includeLine, Layout.braceMarks_line, Text.braceMarks_append, Text.braceMarks_append,
    before.braceMarks_eq, after.braceMarks_eq, List.append_nil]
  rfl

theorem balanced_includeLine {file : String} (unbraced : Text.Avoids isBrace file) :
    Layout.Balanced [includeLine file] := by
  refine .of_none ?_
  rw [braceMarks_includeLine, unbraced.braceMarks_eq]
  rfl

theorem nested_includeFile (chosen : settings.Avoids isBrace) {file : String}
    (unbraced : Text.Avoids isBrace file) (nested : pass.Nested) :
    (pass.includeFile settings file).Nested := by
  have included : Text.Avoids isBrace (includeFor settings.filePrefix file) :=
    .append (.append chosen.filePrefix (Text.avoids_fileBase unbraced)) (.literal _ rfl)
  rw [includeFile, noteFile]
  split
  · rename_i noted isNew
    split at isNew
    · cases isNew
    · cases isNew
      have noted : Nested { pass with included := file :: pass.included } :=
        ⟨nested.depth_le, nested.named, nested.nests⟩
      exact noted.escape.write (balanced_includeLine included)
  · rename_i noted isOld
    split at isOld
    · cases isOld
      exact nested
    · cases isOld

/-- The state in which the classes of an interface are written. In the header the blocks of its
scope have been opened. -/
def atInterface (pass : Pass) : Mode → Pass
  | .declaration => pass.writeScoped pass.scopes.materialize
  | .definition => pass

theorem step_interface (settings : Settings) (tree : DeclTree) (mode : Mode) (pass : Pass)
    (id : DeclId) :
    step settings tree mode pass (.interface id) =
      (classesLayout settings tree (guardOf tree.fileBase) mode (pass.atInterface mode).scopes
        id).map (pass.atInterface mode).writeScoped := by
  cases mode <;> rfl

theorem nested_classes (names : tree.Avoids isBrace) (chosen : settings.Avoids isBrace)
    {id : DeclId} {change : Scopes × Layout} (nested : pass.Nested)
    (done : classesLayout settings tree (guardOf tree.fileBase) mode pass.scopes id =
      .ok change) : (pass.writeScoped change).Nested := by
  cases found : tree.decl? id with
  | none => simp [classesLayout, found] at done
  | some decl =>
    by_cases interface : decl.interface?.isSome = true
    · rw [classesLayout_eq found interface, ← Subject.inTree] at done
      have unbraced : (Subject.inTree settings tree id decl).Unbraced :=
        Subject.unbraced_inTree names chosen found
      generalize Subject.inTree settings tree id decl = subject at done unbraced
      cases mode with
      | declaration =>
        rw [Subject.layout_declaration, map_eq_ok_iff] at done
        obtain ⟨classes, classesDone, rfl⟩ := done
        exact nested.writeScoped nested.depth_le nested.named
          ((Subject.balanced_classes unbraced classesDone).nests _)
      | definition =>
        rw [Subject.layout_definition, map_eq_ok_iff] at done
        obtain ⟨members, membersDone, rfl⟩ := done
        have before := (Subject.balanced_members unbraced membersDone).nests pass.scopes.depth
        have hook := (Subject.balanced_defineHook unbraced).nests pass.scopes.stack.length
        have closing := nests_closeBlocks 0 pass.scopes.stack.length
        rw [Nat.zero_add] at closing
        refine nested.writeScoped (Nat.zero_le _) nested.named ?_
        simp only [Layout.braceMarks_append]
        exact ((before.append nested.nests_materialize).append hook).append closing
    · simp [classesLayout, found, interface] at done

/-- **Every visit keeps the open braces in step with the open blocks.** -/
theorem nested_step (names : tree.Avoids isBrace) (chosen : settings.Avoids isBrace)
    {visit : Visit} (unbraced : visit.Avoids isBrace) {next : Pass} (nested : pass.Nested)
    (done : step settings tree mode pass visit = .ok next) : next.Nested := by
  cases visit with
  | enter name =>
    cases done
    refine ⟨?_, fun other listed => ?_, nested.nests⟩
    · rw [Scopes.enter, List.length_append]
      exact Nat.le_add_right_of_le nested.depth_le
    · rcases List.mem_append.mp listed with outside | own
      · exact nested.named other outside
      · cases List.mem_singleton.mp own
        exact unbraced
  | leave =>
    cases done
    exact nested.leave
  | interface id =>
    rw [step_interface, map_eq_ok_iff] at done
    obtain ⟨change, classesDone, rfl⟩ := done
    have ready : (pass.atInterface mode).Nested := by
      cases mode with
      | declaration => exact nested.materialize
      | definition => exact nested
    exact nested_classes names chosen ready classesDone
  | external file =>
    cases mode with
    | declaration =>
      cases done
      exact nested_includeFile chosen unbraced nested
    | definition =>
      cases done
      exact nested

theorem balanced_preamble (names : tree.Avoids isBrace) (chosen : settings.Avoids isBrace)
    (mode : Mode) : (preamble settings tree mode).Balanced := by
  have filename := names.filename
  have base : Text.Avoids isBrace tree.fileBase := Text.avoids_fileBase names.file
  have guard := avoids_guardOf tree.fileBase
  have own := chosen.filePrefix
  have warning :
      Text.Avoids isBrace "\n * DO NOT EDIT DIRECTLY OR CHANGES WILL BE LOST!\n */" := .ofChars _ rfl
  refine .of_none ?_
  cases mode <;>
    simp (disch := first | assumption | exact .literal _ rfl) [preamble, banner, headerPreamble,
      sourcePreamble, braceMarks_includeLine, headerFile, headerGuard, publicPre, publicPost,
      Text.Avoids.braceMarks_eq]

theorem balanced_headerEpilogue (chosen : settings.Avoids isBrace) (fileBase : String) :
    (headerEpilogue settings (guardOf fileBase)).Balanced := by
  have guard := avoids_guardOf fileBase
  have own := chosen.filePrefix
  refine .of_none ?_
  simp (disch := first | assumption | exact .literal _ rfl) [headerEpilogue, headerGuard,
    publicPre, publicPost, Text.Avoids.braceMarks_eq]

/-- A pass that is done has closed as many braces as it has opened, up to the open blocks. -/
theorem nested_run (names : tree.Avoids isBrace) (chosen : settings.Avoids isBrace)
    (done : run settings tree mode = .ok pass) : pass.Nested := by
  rw [run, bind_eq_ok_iff] at done
  obtain ⟨last, visited, done⟩ := done
  have nested : last.Nested := by
    refine foldlM_keeps Nested ?_ ((Nested.start chosen.outer).write
      (balanced_preamble names chosen mode)) visited
    intro visit listed before after nested stepped
    exact nested_step names chosen (names.visitsOf _ _ visit listed) nested stepped
  cases mode with
  | declaration =>
    cases done
    exact nested.escape.write (balanced_headerEpilogue chosen _)
  | definition =>
    cases done
    exact nested

end Pass

/-! ## Levels of a whole pass -/

/-- **A pass keeps the level from its beginning to its end.** -/
theorem Pass.exists_keepsLevel {tree : DeclTree} (built : tree.Built) (settings : Settings)
    (mode : Mode) :
    ∃ segments layouts pass, run settings tree mode = .ok pass ∧
      List.Forall₂ (fun segment layout => Segment.layout settings tree mode segment = .ok layout)
        segments layouts ∧
      pass.sheet = (Sheet.empty settings.indentWidth).writeAll layouts.flatten ∧
      Layout.KeepsLevel layouts.flatten := by
  obtain ⟨segments, pass, done, emits, -, -, -, outside⟩ := exists_run built settings mode
  obtain ⟨layouts, written, sheet⟩ := emits.written
  have closed : blocksAfter [] segments = some [] := by
    have blocks := emits.blocks
    rwa [Scopes.blocks, Scopes.blocks, outside, List.take_zero] at blocks
  exact ⟨segments, layouts, pass, done, written, sheet, Segment.levelAfter_layouts written closed⟩

/-! ## Levels of single calls -/

namespace Pass

variable {tree : DeclTree}

/-- A walk leads into the scope of every interface on it. -/
theorem leads_to_interface (settings : Settings) (mode : Mode) {scope : ScopedName}
    {visits : List Visit} (walk : tree.Walk scope visits) {before after : List Visit} {id : DeclId}
    (split : visits = before ++ .interface id :: after) :
    ∃ inner, Leads settings tree mode before scope inner ∧
      ∃ decl, tree.decl? id = some decl ∧ decl.interface?.isSome = true ∧
        decl.scopedName = inner.child decl.name := by
  induction walk generalizing before after with
  | nil => simp at split
  | @module scope name inner rest inModule _ inside later =>
    cases before with
    | nil => simp at split
    | cons head before =>
      obtain ⟨rfl, behind⟩ := List.cons.inj split
      rcases mem_split_append behind with ⟨between, own, -⟩ | ⟨between, rfl, own⟩
      · obtain ⟨deepest, leads, found⟩ := inside own
        exact ⟨deepest, (leads_enter scope name).trans leads, found⟩
      · cases between with
        | nil => simp at own
        | cons head between =>
          obtain ⟨rfl, further⟩ := List.cons.inj own
          obtain ⟨deepest, leads, found⟩ := later further
          have through := (leads_of_walk inModule).trans ((leads_leave scope name).trans leads)
          exact ⟨deepest, (leads_enter scope name).trans through, found⟩
  | @interface scope number decl rest found interface named _ later =>
    cases before with
    | nil =>
      obtain ⟨same, -⟩ := List.cons.inj split
      cases same
      exact ⟨scope, leads_nil scope, decl, found, interface, named⟩
    | cons head before =>
      obtain ⟨rfl, behind⟩ := List.cons.inj split
      obtain ⟨deepest, leads, others⟩ := later behind
      exact ⟨deepest, (leads_interface found interface named).trans leads, others⟩
  | @external scope file rest _ later =>
    cases before with
    | nil => simp at split
    | cons head before =>
      obtain ⟨rfl, behind⟩ := List.cons.inj split
      obtain ⟨deepest, leads, others⟩ := later behind
      exact ⟨deepest, (leads_external scope file).trans leads, others⟩

/-- **All that is written for one interface keeps the level**, wherever the pass meets it. -/
theorem exists_interface (built : tree.Built) (settings : Settings) (mode : Mode)
    {before after : List Visit} {id : DeclId}
    (split : tree.visits = before ++ .interface id :: after) :
    ∃ reached change,
      before.foldlM (step settings tree mode)
        ((start settings).write (preamble settings tree mode)) = .ok reached ∧
      classesLayout settings tree (guardOf tree.fileBase) mode (reached.atInterface mode).scopes
        id = .ok change ∧
      step settings tree mode reached (.interface id) =
        .ok ((reached.atInterface mode).writeScoped change) ∧
      change.2.KeepsLevel := by
  obtain ⟨inner, leads, decl, found, interface, -⟩ :=
    leads_to_interface settings mode built.walk split
  have inside := (Inside.start settings).write (keepsLevel_preamble settings tree mode)
  obtain ⟨segments, reached, follows, stop⟩ := leads _ ⟨inside, fun _ => rfl⟩
  let subject : Subject := ⟨settings, tree, guardOf tree.fileBase, id, decl⟩
  have written : ∃ change,
      subject.layout mode (reached.atInterface mode).scopes = .ok change ∧
        change.2.KeepsLevel := by
    cases mode with
    | declaration =>
      obtain ⟨classes, done, keeps, -⟩ := subject.exists_classes
      exact ⟨_, by rw [subject.layout_declaration, done]; rfl, keeps⟩
    | definition =>
      obtain ⟨members, done, keeps, -⟩ := subject.exists_members
      refine ⟨_, by rw [subject.layout_definition, done]; rfl, fun level => ?_⟩
      -- Outside all blocks, as many blocks are opened for the hook as are closed behind it.
      have opened : (reached.atInterface .definition).scopes.materialize.2 =
          reached.scopes.stack.flatMap Scopes.openBlock := by
        simp only [atInterface, Scopes.materialize, stop.outside rfl, List.drop_zero]
      have closed : (reached.atInterface .definition).scopes.materialize.1.escape.2 =
          (List.replicate reached.scopes.stack.length Scopes.closeBlock).flatten := rfl
      simp only [opened, closed, Layout.levelAfter_append]
      rw [keeps, levelAfter_openBlocks, subject.keepsLevel_defineHook, levelAfter_closeBlocks,
        Nat.add_sub_cancel]
  obtain ⟨change, done, keeps⟩ := written
  rw [← classesLayout_eq found interface] at done
  refine ⟨reached, change, follows.done, done, ?_, keeps⟩
  rw [step_interface, done]
  rfl

end Pass

/-- Methods with writable bodies are written in either file, wherever loops are counted from. -/
theorem Method.exists_layoutAll (mode : Mode) (root : ScopedName) (qualifier : String)
    {unbraced : Prop} {methods : List Method}
    (writable : ∀ method ∈ methods, method.body.Writable unbraced) :
    ∃ layout : Layout, layout.KeepsLevel ∧
      ∀ loops, ∃ next, layoutAll mode root qualifier loops methods = .ok (layout, next) := by
  cases mode with
  | declaration =>
    exact ⟨_, fun level => Layout.levelAfter_lines level _,
      fun loops => ⟨loops, layoutAll_declaration root qualifier loops methods⟩⟩
  | definition =>
    obtain ⟨layouts, -, keeps, done⟩ := exists_layoutAll_alone root qualifier writable
    exact ⟨layouts.flatten, Layout.keepsLevel_flatten keeps, done⟩

theorem Method.layoutAll_append {mode : Mode} {root : ScopedName} {qualifier : String}
    {loops middle last : Nat} {first second : List Method} {layout rest : Layout}
    (before : layoutAll mode root qualifier loops first = .ok (layout, middle))
    (after : layoutAll mode root qualifier middle second = .ok (rest, last)) :
    layoutAll mode root qualifier loops (first ++ second) = .ok (layout ++ rest, last) := by
  induction first generalizing loops layout with
  | nil =>
    cases before
    exact after
  | cons method methods ih =>
    rw [layoutAll, bind_eq_ok_iff] at before
    obtain ⟨⟨own, counted⟩, ownDone, before⟩ := before
    rw [bind_eq_ok_iff] at before
    obtain ⟨⟨others, reached⟩, othersDone, before⟩ := before
    cases before
    rw [List.cons_append, layoutAll, bind_eq_ok_iff]
    refine ⟨_, ownDone, ?_⟩
    rw [bind_eq_ok_iff]
    exact ⟨_, ih othersDone, by rw [List.append_assoc]⟩

/-- **The methods of a class are written callable by callable**, and each keeps the level. -/
theorem exists_callableLayouts (settings : Settings) (mode : Mode) (active : ScopedName)
    (callables : List Decl) :
    ∃ layouts : List Layout,
      List.Forall₂ (fun callable layout => ∀ loops, ∃ next,
        methodsLayout settings mode active loops (callableMethods settings active callable) =
          .ok (layout, next)) callables layouts ∧
      (∀ layout ∈ layouts, layout.KeepsLevel) ∧
      ∀ loops, ∃ next,
        methodsLayout settings mode active loops
          (callables.flatMap (callableMethods settings active)) = .ok (layouts.flatten, next) := by
  induction callables with
  | nil => exact ⟨[], .nil, by simp, fun loops => ⟨loops, rfl⟩⟩
  | cons callable callables ih =>
    obtain ⟨layouts, each, others, all⟩ := ih
    have writable : ∀ method ∈ callableMethods settings active callable,
        method.body.Writable (active.Avoids isBrace ∧ callable.Avoids isBrace) :=
      fun method => writable_of_mem_callableMethods
    obtain ⟨layout, keeps, own⟩ := Method.exists_layoutAll mode settings.root
      (qualifierIn mode (settings.adapterName active)) writable
    refine ⟨layout :: layouts, .cons own each, List.forall_mem_cons.mpr ⟨keeps, others⟩,
      fun loops => ?_⟩
    obtain ⟨middle, ownDone⟩ := own loops
    obtain ⟨next, done⟩ := all middle
    exact ⟨next, Method.layoutAll_append ownDone done⟩

/-! ## Both files of a built tree -/

/-- **Generated files are balanced.** If no name, file name or setting holds a brace, either file of
a built tree is written, no front of it closes more braces than it opens, and the whole closes all.

Whatever the names are, every call that writes something ends at the level at which it began and
never goes below level zero: the pass as a whole, the call for each interface wherever the pass
meets it, and the calls for the operations and attributes, of which the methods of a class
consist. -/
theorem generated_files_balanced {tree : DeclTree} (built : tree.Built) (settings : Settings)
    (mode : Mode) :
    (tree.Avoids isBrace → settings.Avoids isBrace →
      ∃ text, generate settings tree mode = .ok text ∧ Text.Balanced text.toList) ∧
    (∃ layout pass, Pass.run settings tree mode = .ok pass ∧
      pass.sheet = (Sheet.empty settings.indentWidth).writeAll layout ∧
      pass.sheet.level = 0 ∧ layout.Supported 0) ∧
    (∀ before id after, tree.visits = before ++ .interface id :: after →
      ∃ reached change,
        before.foldlM (Pass.step settings tree mode)
          ((Pass.start settings).write (preamble settings tree mode)) = .ok reached ∧
        classesLayout settings tree (guardOf tree.fileBase) mode (reached.atInterface mode).scopes
          id = .ok change ∧
        Pass.step settings tree mode reached (.interface id) =
          .ok ((reached.atInterface mode).writeScoped change) ∧
        ((reached.atInterface mode).writeScoped change).sheet.level =
          (reached.atInterface mode).sheet.level ∧
        change.2.Supported (reached.atInterface mode).sheet.level) ∧
    ∀ subject ∈ Subject.visited settings tree,
      ∃ layouts : List Layout,
        List.Forall₂ (fun callable layout => ∀ loops, ∃ next,
          methodsLayout settings mode subject.name loops
            (callableMethods settings subject.name callable) = .ok (layout, next))
          subject.callables layouts ∧
        (∀ loops, ∃ next, methodsLayout settings mode subject.name loops subject.methods =
          .ok (layouts.flatten, next)) ∧
        ∀ layout ∈ layouts, ∀ sheet : Sheet,
          (sheet.writeAll layout).level = sheet.level ∧ layout.Supported sheet.level := by
  refine ⟨fun names chosen => ?_, ?_, fun before id after split => ?_, fun subject visited => ?_⟩
  · obtain ⟨-, pass, done, -, -, -, -, outside⟩ := Pass.exists_run built settings mode
    have nests := (Pass.nested_run names chosen done).nests
    rw [outside, ← Text.balanced_iff_nests, Text.braceMarks, Text.balanced_filter] at nests
    exact ⟨pass.sheet.text, by rw [generate, done]; rfl, nests⟩
  · obtain ⟨-, layouts, pass, done, -, sheet, keeps⟩ :=
      Pass.exists_keepsLevel built settings mode
    refine ⟨layouts.flatten, pass, done, sheet, ?_, keeps.supported 0⟩
    rw [sheet, Layout.level_writeAll, keeps]
    rfl
  · obtain ⟨reached, change, visited, done, stepped, keeps⟩ :=
      Pass.exists_interface built settings mode split
    refine ⟨reached, change, visited, done, stepped, ?_, keeps.supported _⟩
    rw [Pass.sheet_writeScoped, Layout.level_writeAll, keeps]
  · obtain ⟨layouts, each, keeps, all⟩ :=
      exists_callableLayouts settings mode subject.name subject.callables
    refine ⟨layouts, each, ?_, fun layout listed sheet => ⟨?_, (keeps layout listed).supported _⟩⟩
    · rw [subject.methods_eq, Subject.settings_of_mem_visited visited]
      exact all
    · rw [Layout.level_writeAll, keeps layout listed]

/-- The two sequence attributes of the interface in the module, between balanced braces. -/
theorem basedTree_files_balanced :
    basedTree.Built ∧ basedTree.Avoids isBrace ∧ Settings.default.Avoids isBrace ∧
    (∃ text, generate .default basedTree .definition = .ok text ∧ Text.Balanced text.toList) ∧
    basedTree.visits = [.interface 0, .enter "m"] ++ .interface 2 :: [.leave] ∧
    (∃ reached change,
      Pass.step .default basedTree .definition reached (.interface 2) =
        .ok ((reached.atInterface .definition).writeScoped change) ∧
      ((reached.atInterface .definition).writeScoped change).sheet.level =
        (reached.atInterface .definition).sheet.level ∧
      change.2.Supported (reached.atInterface .definition).sheet.level) ∧
    ∃ subject ∈ Subject.visited .default basedTree, ∃ callable layout next,
      subject.callables = [callable] ∧ callable.kind = .attributes sequenceAttributes ∧
      methodsLayout .default .definition subject.name 0
        (callableMethods .default subject.name callable) = .ok (layout, next) ∧
      ∀ sheet : Sheet,
        (sheet.writeAll layout).level = sheet.level ∧ layout.Supported sheet.level := by
  have names : basedTree.Avoids isBrace ∧ Settings.default.Avoids isBrace := by
    with_unfolding_all decide
  have visits : basedTree.visits = [.interface 0, .enter "m"] ++ .interface 2 :: [.leave] := by
    with_unfolding_all decide
  obtain ⟨texts, -, calls, callables⟩ :=
    generated_files_balanced built_basedTree .default .definition
  obtain ⟨reached, change, -, -, stepped, level, supported⟩ := calls _ _ _ visits
  let node : Decl := ⟨"Node", ⟨["m", "Node"]⟩, "a.idl",
    .interface { Interface.empty with bases := [0], callables := [3] }⟩
  have found : basedTree.decl? 2 = some node := by with_unfolding_all decide
  have visited : Subject.inTree .default basedTree 2 node ∈ Subject.visited .default basedTree :=
    List.mem_filterMap.mpr ⟨.interface 2, by simp [visits], by rw [Subject.ofVisit?, found]; rfl⟩
  have own : (Subject.inTree .default basedTree 2 node).callables =
      [⟨"first", ⟨["m", "Node", "first"]⟩, "a.idl", .attributes sequenceAttributes⟩] := by
    with_unfolding_all decide
  obtain ⟨layouts, each, -, levels⟩ := callables _ visited
  rw [own] at each
  obtain _ | ⟨done, _⟩ := each
  obtain ⟨next, done⟩ := done 0
  exact ⟨built_basedTree, names.1, names.2, texts names.1 names.2, visits,
    ⟨reached, change, stepped, level, supported⟩, _, visited, _, _, next, own, rfl, done,
    levels _ List.mem_cons_self⟩

end Adapter

end IdlBridge
