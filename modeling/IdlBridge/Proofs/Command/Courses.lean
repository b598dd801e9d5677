import IdlBridge.Proofs.Adapter.Totality
import IdlBridge.Proofs.Command.Targets

/-!
# Runs without errors of the file system

A run loads trees and writes files for them in turn. `Options.course` is a run that gives up on
errors of the file system; it has the steps of every run, and where it does not give up it has the
same outcome (`Options.run_of_course`).

Such a run can be told from the files at its start. The trees in front of the first one that does
not load are emitted in order (`Options.Leaves`), and that one is reported
(`Options.Leaves.course`). Nothing that is written keeps a later tree from being read, unless it has
the place of that tree (`Options.Leaves.read`). A tree with a file that is too large to be generated
ends the run as well, without a report (`Options.fileTasks_of_large`).
-/

set_option autoImplicit false

namespace IdlBridge.Command

open IdlBridge.Adapter IdlBridge.Storage

/-! ## What is written for a tree -/

/-- The files that are written for a tree, in order. -/
def Emission.modes : Emission → List Mode
  | both => [.definition, .declaration]
  | header => [.declaration]
  | source => [.definition]

namespace Options

/-- The texts that are written for a tree, with their paths. -/
def outputs (options : Options) (tree : DeclTree) : List (String × String) :=
  options.emission.modes.filterMap fun mode =>
    (produce options.settings tree mode).toOption.map fun text => (options.target tree mode, text)

/-- What has to be done for a tree. -/
def changes (options : Options) (tree : DeclTree) : List Change :=
  if options.check then []
  else .createDirectories options.output :: writes (options.outputs tree)

/-- None of the files that are wanted for the tree is too large to be generated. -/
def Fits (options : Options) (tree : DeclTree) : Prop :=
  options.check = false → ∀ mode ∈ options.emission.modes,
    ∃ text, produce options.settings tree mode = .ok text

variable {options : Options} {tree : DeclTree}

theorem mem_outputs {output : String × String} :
    output ∈ options.outputs tree ↔
      ∃ mode ∈ options.emission.modes, ∃ text, produce options.settings tree mode = .ok text ∧
        output = (options.target tree mode, text) := by
  simp only [outputs, List.mem_filterMap, Option.map_eq_some_iff]
  refine exists_congr fun mode => and_congr_right fun _ => exists_congr fun text => ?_
  refine and_congr ⟨eq_ok_of_toOption, fun generated => by rw [generated]; rfl⟩ eq_comm

theorem exists_singleTasks {mode : Mode} {text : String}
    (generated : produce options.settings tree mode = .ok text) :
    ∃ tasks, singleTasks options tree mode = .ok tasks ∧
      tasks.map Task.change =
        [.createDirectories options.output, .write (options.target tree mode) text] := by
  refine ⟨_, by rw [singleTasks, generated], ?_⟩
  rfl

/-- The tasks for a tree make the changes for it. -/
theorem exists_treeTasks (fits : options.Fits tree) :
    ∃ tasks, treeTasks options tree = .ok tasks ∧ tasks.map Task.change = options.changes tree := by
  rw [treeTasks, changes]
  cases check : options.check with
  | true => exact ⟨[], rfl, rfl⟩
  | false =>
    have fits := fits check
    rw [if_neg (by decide), if_neg (by decide)]
    cases emission : options.emission with
    | both =>
      obtain ⟨source, sourceDone⟩ := fits .definition (by simp [emission, Emission.modes])
      obtain ⟨header, headerDone⟩ := fits .declaration (by simp [emission, Emission.modes])
      refine ⟨_, by rw [pairTasks, producePair, sourceDone, headerDone]; rfl, ?_⟩
      simp [outputs, emission, Emission.modes, sourceDone, headerDone, Except.toOption, writes,
        Pair.changes, target]
    | header =>
      obtain ⟨header, headerDone⟩ := fits .declaration (by simp [emission, Emission.modes])
      simpa [outputs, emission, Emission.modes, headerDone, Except.toOption, writes] using
        exists_singleTasks headerDone
    | source =>
      obtain ⟨source, sourceDone⟩ := fits .definition (by simp [emission, Emission.modes])
      simpa [outputs, emission, Emission.modes, sourceDone, Except.toOption, writes] using
        exists_singleTasks sourceDone

/-- There are no tasks for a tree with a file that is too large. -/
theorem treeTasks_of_large (built : tree.Built) (large : ¬ options.Fits tree) :
    treeTasks options tree = .error .overflow := by
  simp only [Fits, not_forall] at large
  obtain ⟨check, mode, wanted, unfit⟩ := large
  have overflows := (produce_cases built options.settings mode).resolve_left unfit
  rw [treeTasks, check, if_neg (by decide)]
  cases emission : options.emission with
  | both =>
    have pair := (producePair_eq_overflow_iff built options.settings).mpr ⟨mode, overflows⟩
    simp only [pairTasks, pair]
    rfl
  | header | source =>
    rw [emission] at wanted
    cases List.mem_singleton.mp wanted
    simp only [singleTasks, overflows]
    rfl

end Options

theorem built_of_ofFile {content : Except FileError ByteArray} {tree : DeclTree}
    (loaded : DeclTree.ofFile content = .ok tree) : tree.Built := by
  cases content with
  | error error => cases loaded
  | ok bytes =>
    simp only [DeclTree.ofFile] at loaded
    split at loaded
    · exact built_of_ofDocument loaded
    · cases loaded

/-! ## Runs without errors of the file system -/

theorem isOk_iff {ε α : Type} {outcome : Except ε α} :
    outcome.isOk = true ↔ ∃ value, outcome = .ok value := by
  cases outcome <;> simp [Except.isOk, Except.toBool]

/-- Reads a file of the current files, and gives up on an error. -/
def readOrFail (path : String) : StateT Files (Except FileError) (Except FileError ByteArray) :=
  fun files => (files.read path).map fun content => (.ok content, files)

/-- Makes a change to the current files, and gives up on an error. -/
def applyOrFail (change : Change) : StateT Files (Except FileError) (Except FileError Unit) :=
  fun files => (files.apply change).map fun files => (.ok (), files)

namespace Options

/-- A run on the trees at given paths that gives up on errors of the file system. -/
def course (options : Options) (paths : List String) (files : Files) :
    Except FileError (Option Halt × Files) :=
  (runTrees readOrFail applyOrFail options paths).run files

/-- The file system reports no error in the run. -/
def isSmooth (options : Options) (files : Files) : Bool :=
  (options.course options.trees files).isOk

variable {options : Options} {files last : Files} {path : String} {paths : List String}
  {content : ByteArray} {tree : DeclTree}

theorem isSmooth_iff :
    options.isSmooth files = true ↔
      ∃ outcome, options.course options.trees files = .ok outcome := by
  rw [isSmooth, isOk_iff]

theorem runTasks_orFail (tasks : List Task) (files : Files) :
    runTasks applyOrFail tasks files =
      ((tasks.map Task.change).foldlM Files.apply files).map fun files => (none, files) := by
  induction tasks generalizing files with
  | nil => rfl
  | cons task tasks ih =>
    rw [List.map_cons, List.foldlM_cons]
    change (applyOrFail task.change files >>= _) = _
    rw [applyOrFail]
    cases files.apply task.change with
    | error error => rfl
    | ok files => exact ih files

theorem course_cons_of_unread {error : FileError} (unread : files.read path = .error error) :
    options.course (path :: paths) files = .error error := by
  change (readOrFail path files >>= _) = _
  rw [readOrFail, unread]
  rfl

/-- A run ends at a tree for which nothing can be done. -/
theorem course_cons_of_halt {halt : Halt} (read : files.read path = .ok content)
    (halts : fileTasks options path (.ok content) = .error halt) :
    options.course (path :: paths) files = .ok (some halt, files) := by
  change (readOrFail path files >>= _) = _
  rw [readOrFail, read]
  simp only [Except.map, bind, Except.bind, halts]
  rfl

theorem fileTasks_of_fails {error : LoadError}
    (fails : DeclTree.ofFile (.ok content) = .error error) :
    fileTasks options path (.ok content) =
      .error (.reported ⟨"failed to load " ++ path, error.causes⟩) := by
  rw [fileTasks, fails]

theorem fileTasks_of_large (loads : DeclTree.ofFile (.ok content) = .ok tree)
    (large : ¬ options.Fits tree) : fileTasks options path (.ok content) = .error .overflow := by
  rw [fileTasks, loads]
  exact treeTasks_of_large (built_of_ofFile loads) large

theorem course_cons_of_loads (read : files.read path = .ok content)
    (loads : DeclTree.ofFile (.ok content) = .ok tree) (fits : options.Fits tree) :
    options.course (path :: paths) files =
      (options.changes tree).foldlM Files.apply files >>= options.course paths := by
  obtain ⟨tasks, planned, changes⟩ := exists_treeTasks fits
  change (readOrFail path files >>= _) = _
  rw [readOrFail, read, ← changes]
  simp only [Except.map, bind, Except.bind, fileTasks, loads, planned]
  rw [StateT.bind, runTasks_orFail]
  cases (tasks.map Task.change).foldlM Files.apply files <;> rfl

/-- What a run that meets no error of the file system does first. -/
theorem course_cons_cases {outcome : Option Halt × Files}
    (smooth : options.course (path :: paths) files = .ok outcome) :
    ∃ content, files.read path = .ok content ∧
      ((∃ halt, fileTasks options path (.ok content) = .error halt ∧
          outcome = (some halt, files)) ∨
        ∃ tree next, DeclTree.ofFile (.ok content) = .ok tree ∧ options.Fits tree ∧
          (options.changes tree).foldlM Files.apply files = .ok next ∧
          options.course paths next = .ok outcome) := by
  cases read : files.read path with
  | error error => cases (course_cons_of_unread read).symm.trans smooth
  | ok content =>
    refine ⟨content, rfl, ?_⟩
    have halting : ∀ {halt}, fileTasks options path (.ok content) = .error halt →
        outcome = (some halt, files) := by
      intro halt halts
      cases (course_cons_of_halt read halts).symm.trans smooth
      rfl
    cases loaded : DeclTree.ofFile (.ok content) with
    | error error => exact .inl ⟨_, fileTasks_of_fails loaded, halting (fileTasks_of_fails loaded)⟩
    | ok tree =>
      by_cases fits : options.Fits tree
      · rw [course_cons_of_loads read loaded fits, bind_eq_ok_iff] at smooth
        obtain ⟨next, changed, smooth⟩ := smooth
        exact .inr ⟨tree, next, rfl, fits, changed, smooth⟩
      · exact .inl ⟨_, fileTasks_of_large loaded fits, halting (fileTasks_of_large loaded fits)⟩

/-- A run on trees goes on where a run on the first of them ends, unless that fails. -/
theorem course_append {before after : List String} {outcome : Option Halt × Files}
    (smooth : options.course (before ++ after) files = .ok outcome) :
    ∃ early, options.course before files = .ok early ∧
      (early.1 = none → options.course after early.2 = .ok outcome) := by
  induction before generalizing files with
  | nil => exact ⟨(none, files), rfl, fun _ => smooth⟩
  | cons path before ih =>
    obtain ⟨content, read, ⟨halt, halts, -⟩ | ⟨tree, next, loaded, fits, changed, smooth⟩⟩ :=
      course_cons_cases smooth
    · exact ⟨_, course_cons_of_halt read halts, fun passed => by cases passed⟩
    · obtain ⟨early, done, rest⟩ := ih smooth
      refine ⟨early, ?_, rest⟩
      rw [course_cons_of_loads read loaded fits, changed]
      exact done

theorem runTasks_of_changes {tasks : List Task}
    (done : (tasks.map Task.change).foldlM Files.apply files = .ok last) :
    (runTasks applyTo tasks).run files = (none, last) := by
  induction tasks generalizing files with
  | nil =>
    cases done
    rfl
  | cons task tasks ih =>
    rw [List.map_cons, List.foldlM_cons, bind_eq_ok_iff] at done
    obtain ⟨next, changed, done⟩ := done
    have applied : (applyTo task.change).run files = (.ok (), next) := by
      simp only [applyTo, bind_pure_comp, StateT.run_bind, StateT.run_get, pure_bind, changed,
        StateT.run_map, StateT.run_set, map_pure]
      rfl
    simp only [runTasks, StateT.run_bind, applied]
    exact ih done

/-- A run that meets no error of the file system is what it would be without giving up. -/
theorem run_of_course {outcome : Option Halt × Files}
    (smooth : options.course paths files = .ok outcome) :
    (runTrees readFrom applyTo options paths).run files = outcome := by
  induction paths generalizing files with
  | nil =>
    cases smooth
    rfl
  | cons path paths ih =>
    obtain ⟨content, read, ⟨halt, halts, rfl⟩ | ⟨tree, next, loaded, fits, changed, smooth⟩⟩ :=
      course_cons_cases smooth
    · simp only [runTrees, readFrom, bind_pure_comp, bind_map_left, StateT.run_bind,
        StateT.run_get, pure_bind, read, halts, StateT.run_pure]
      rfl
    · obtain ⟨tasks, planned, changes⟩ := exists_treeTasks fits
      have done := runTasks_of_changes (changes ▸ changed)
      simp only [runTrees, readFrom, bind_pure_comp, fileTasks, bind_map_left, StateT.run_bind,
        StateT.run_get, pure_bind, read, loaded, planned, done]
      exact ih smooth

end Options

/-! ## What is loaded -/

/-- All files can be read up to the first that does not load. The trees in front of it, and its
report. -/
inductive Loads (files : Files) : List String → List DeclTree → Option Halt → Prop
  | done : Loads files [] [] none
  | fails {path : String} {paths : List String} {content : ByteArray} {error : LoadError} :
    files.read path = .ok content → DeclTree.ofFile (.ok content) = .error error →
    Loads files (path :: paths) [] (some (.reported ⟨"failed to load " ++ path, error.causes⟩))
  | loads {path : String} {paths : List String} {content : ByteArray} {tree : DeclTree}
      {trees : List DeclTree} {halt? : Option Halt} :
    files.read path = .ok content → DeclTree.ofFile (.ok content) = .ok tree →
    Loads files paths trees halt? → Loads files (path :: paths) (tree :: trees) halt?

/-- The tree at a path. -/
def LoadsTo (files : Files) (path : String) (tree : DeclTree) : Prop :=
  DeclTree.ofFile (files.read path) = .ok tree

namespace Loads

variable {files other : Files} {paths before after : List String} {trees loaded : List DeclTree}
  {halt? : Option Halt}

theorem exists_path (loads : Loads files paths trees halt?) {tree : DeclTree}
    (listed : tree ∈ trees) : ∃ path ∈ paths, LoadsTo files path tree := by
  induction loads with
  | done => cases listed
  | fails => cases listed
  | loads read here _ ih =>
    rcases List.mem_cons.mp listed with rfl | later
    · exact ⟨_, List.mem_cons_self, by rw [LoadsTo, read, here]⟩
    · obtain ⟨path, isPath, loadsTo⟩ := ih later
      exact ⟨path, List.mem_cons_of_mem _ isPath, loadsTo⟩

/-- The trees are loaded from the first files. -/
theorem exists_prefix (loads : Loads files paths trees halt?) :
    ∃ before, before <+: paths ∧ List.Forall₂ (LoadsTo files) before trees := by
  induction loads with
  | done => exact ⟨[], List.nil_prefix, .nil⟩
  | fails => exact ⟨[], List.nil_prefix, .nil⟩
  | @loads path paths _ _ _ _ read here _ ih =>
    obtain ⟨before, isPrefix, matched⟩ := ih
    exact ⟨path :: before, List.cons_prefix_cons.mpr ⟨rfl, isPrefix⟩,
      .cons (by rw [LoadsTo, read, here]) matched⟩

theorem exists_read {path : String} (loads : Loads files (path :: paths) trees halt?) :
    ∃ content, files.read path = .ok content := by
  cases loads with
  | fails read _ => exact ⟨_, read⟩
  | loads read _ _ => exact ⟨_, read⟩

/-- The same is loaded where the same is read. -/
theorem of_read (loads : Loads files paths trees halt?)
    (reads : ∀ path ∈ paths, ∀ content, files.read path = .ok content →
      other.read path = .ok content) : Loads other paths trees halt? := by
  induction loads with
  | done => exact .done
  | fails read here => exact .fails (reads _ List.mem_cons_self _ read) here
  | loads read here _ ih =>
    exact .loads (reads _ List.mem_cons_self _ read) here
      (ih fun path listed => reads path (List.mem_cons_of_mem _ listed))

/-- What is loaded from the first files. -/
theorem split (matched : List.Forall₂ (LoadsTo files) before loaded)
    (loads : Loads files (before ++ after) trees halt?) :
    ∃ rest, trees = loaded ++ rest ∧ Loads files before loaded none ∧
      Loads files after rest halt? := by
  induction matched generalizing trees with
  | nil => exact ⟨trees, rfl, .done, loads⟩
  | cons here _ ih =>
    cases loads with
    | fails read failed =>
      rw [LoadsTo, read, failed] at here
      cases here
    | loads read found later =>
      rw [LoadsTo, read, found] at here
      cases here
      obtain ⟨rest, rfl, first, last⟩ := ih later
      exact ⟨rest, rfl, .loads read found first, last⟩

end Loads

namespace Options

variable {options : Options} {files now next last : Files} {trees more : List DeclTree}
  {tree : DeclTree} {paths : List String} {halt? : Option Halt}

/-- A run that checks and meets no error of the file system reads all files. -/
theorem exists_loads (check : options.check = true) {outcome : Option Halt × Files}
    (smooth : options.course paths files = .ok outcome) :
    ∃ trees halt?, Loads files paths trees halt? := by
  induction paths with
  | nil => exact ⟨[], none, .done⟩
  | cons path paths ih =>
    obtain ⟨content, read, ⟨halt, halts, -⟩ | ⟨tree, next, loaded, fits, changed, smooth⟩⟩ :=
      course_cons_cases smooth
    · cases loaded : DeclTree.ofFile (.ok content) with
      | error error => exact ⟨[], _, .fails read loaded⟩
      | ok tree =>
        rw [fileTasks, loaded] at halts
        simp [treeTasks, check] at halts
    · rw [changes, if_pos check] at changed
      cases changed
      obtain ⟨trees, halt?, loads⟩ := ih smooth
      exact ⟨tree :: trees, halt?, .loads read loaded loads⟩

/-! ## What is left behind -/

/-- The files after trees have been emitted: the output directory is created, and the texts are
written to their places in order. A run that checks leaves the files as they were. -/
structure Leaves (options : Options) (files : Files) (trees : List DeclTree) (last : Files) :
    Prop where
  untouched : options.check = true ∨ trees = [] → last = files
  filled : options.check = false → trees ≠ [] →
    ∃ made, files.createDirectories options.output = .ok made ∧ files.Grows made ∧
      made.Filled (trees.flatMap options.outputs) last

theorem Leaves.eq_or_filled (leaves : options.Leaves files trees last) :
    last = files ∨ ∃ made, files.createDirectories options.output = .ok made ∧ files.Grows made ∧
      made.Filled (trees.flatMap options.outputs) last := by
  by_cases idle : options.check = true ∨ trees = []
  · exact .inl (leaves.untouched idle)
  · rw [not_or, Bool.not_eq_true] at idle
    exact .inr (leaves.filled idle.1 idle.2)

theorem Leaves.refl (options : Options) (files : Files) : options.Leaves files [] files :=
  ⟨fun _ => rfl, fun _ some => absurd rfl some⟩

/-- The directory is there after it has been created, whether or not this has been done before. -/
theorem Leaves.exists_made (inDirectory : files.IsDirectory files.start)
    (leaves : options.Leaves files trees now) (check : options.check = false) {ready : Files}
    (created : now.createDirectories options.output = .ok ready) :
    ∃ made, files.createDirectories options.output = .ok made ∧ files.Grows made ∧
      made.Filled (trees.flatMap options.outputs) ready := by
  -- Before the first tree the directory may be missing; after that creating it changes nothing.
  by_cases none : trees = []
  · subst none
    rw [leaves.untouched (.inr rfl)] at created
    exact ⟨ready, created, (Files.createDirectories_again inDirectory created).1, .refl ready⟩
  · obtain ⟨made, makes, grows, filled⟩ := leaves.filled check none
    cases (filled.createDirectories inDirectory makes).symm.trans created
    exact ⟨made, makes, grows, filled⟩

/-- Emitting one more tree. -/
theorem Leaves.emit (inDirectory : files.IsDirectory files.start)
    (leaves : options.Leaves files trees now)
    (done : (options.changes tree).foldlM Files.apply now = .ok next) :
    options.Leaves files (trees ++ [tree]) next := by
  rw [changes] at done
  cases check : options.check with
  | true =>
    rw [check, if_pos rfl] at done
    cases done
    refine ⟨fun _ => leaves.untouched (.inl check), fun generates => ?_⟩
    cases check.symm.trans generates
  | false =>
    rw [check, if_neg (by decide)] at done
    obtain ⟨ready, created, written⟩ := bind_eq_ok_iff.mp done
    obtain ⟨made, makes, grows, filled⟩ := leaves.exists_made inDirectory check created
    refine ⟨fun neither => ?_, fun _ _ => ⟨made, makes, grows, ?_⟩⟩
    · rcases neither with checks | empty
      · cases check.symm.trans checks
      · exact absurd empty (by simp)
    · rw [List.flatMap_append, List.flatMap_singleton]
      exact filled.append written

/-- The tree can be emitted: the output directory can be created, and then all its files can be
written. -/
def CanEmit (options : Options) (files : Files) (tree : DeclTree) : Prop :=
  options.check = false → ∃ made, files.createDirectories options.output = .ok made ∧
    ∀ output ∈ options.outputs tree, made.CanWrite output.1

theorem Leaves.canEmit (leaves : options.Leaves files trees last) (listed : tree ∈ trees) :
    options.CanEmit files tree := by
  intro check
  obtain ⟨made, makes, -, filled⟩ := leaves.filled check (List.ne_nil_of_mem listed)
  refine ⟨made, makes, fun output isOutput => filled.can output ?_⟩
  exact List.mem_flatMap.mpr ⟨tree, listed, isOutput⟩

/-- A tree that can be emitted at the start can be emitted after others. -/
theorem Leaves.exists_emit (inDirectory : files.IsDirectory files.start)
    (leaves : options.Leaves files trees now) (can : options.CanEmit files tree) :
    ∃ next, (options.changes tree).foldlM Files.apply now = .ok next := by
  rw [changes]
  cases check : options.check with
  | true => exact ⟨now, rfl⟩
  | false =>
    obtain ⟨made, makes, canWrite⟩ := can check
    by_cases none : trees = []
    · rw [leaves.untouched (.inr none)]
      obtain ⟨next, written⟩ := (Files.Filled.refl made).exists_append canWrite
      exact ⟨next, bind_eq_ok_iff.mpr ⟨made, makes, written⟩⟩
    · obtain ⟨other, alsoMakes, -, filled⟩ := leaves.filled check none
      cases makes.symm.trans alsoMakes
      obtain ⟨next, written⟩ := filled.exists_append canWrite
      have stays := filled.createDirectories inDirectory makes
      exact ⟨next, bind_eq_ok_iff.mpr ⟨now, stays, written⟩⟩

/-- No tree has one of its files at the place of the path. -/
def Spares (options : Options) (files : Files) (trees : List DeclTree) (path : String) : Prop :=
  ∀ tree ∈ trees, ∀ mode,
    files.destination (options.target tree mode) ≠ files.destination path

theorem Leaves.read (leaves : options.Leaves files trees now) {path : String}
    (spares : options.Spares files trees path) {content : ByteArray}
    (read : files.read path = .ok content) : now.read path = .ok content := by
  rcases leaves.eq_or_filled with rfl | ⟨made, -, grows, filled⟩
  · exact read
  · refine filled.read grows (fun output listed => ?_) read
    obtain ⟨tree, isTree, isOutput⟩ := List.mem_flatMap.mp listed
    obtain ⟨mode, -, text, -, rfl⟩ := mem_outputs.mp isOutput
    exact spares tree isTree mode

theorem Leaves.start (leaves : options.Leaves files trees last) : last.start = files.start := by
  rcases leaves.eq_or_filled with rfl | ⟨made, -, grows, filled⟩
  · rfl
  · exact filled.start.trans grows.start

theorem Leaves.isDirectory (leaves : options.Leaves files trees last) {place : Location}
    (isDirectory : files.IsDirectory place) : last.IsDirectory place := by
  rcases leaves.eq_or_filled with rfl | ⟨made, -, grows, filled⟩
  · exact isDirectory
  · exact (filled.isDirectory place).mpr (grows.keeps place _ isDirectory)

/-- **A run emits what loads and reports what does not.** -/
theorem Leaves.course (inDirectory : files.IsDirectory files.start)
    (leaves : options.Leaves files trees now) (loads : Loads files paths more halt?)
    (spares : ∀ path ∈ paths, options.Spares files (trees ++ more) path)
    (fits : ∀ tree ∈ more, options.Fits tree)
    {outcome : Option Halt × Files} (smooth : options.course paths now = .ok outcome) :
    outcome.1 = halt? ∧ options.Leaves files (trees ++ more) outcome.2 := by
  -- What loads is told from the files at the start. What the run reads is the same, because the
  -- trees in front leave it alone.
  induction loads generalizing trees now with
  | done =>
    cases smooth
    rw [List.append_nil]
    exact ⟨rfl, leaves⟩
  | fails read failed =>
    rw [List.append_nil] at spares ⊢
    have readNow := leaves.read (spares _ List.mem_cons_self) read
    cases (course_cons_of_halt readNow (fileTasks_of_fails failed)).symm.trans smooth
    exact ⟨rfl, leaves⟩
  | @loads path paths content tree more halt? read loaded _ ih =>
    have readNow := leaves.read
      (fun other listed => spares _ List.mem_cons_self other (List.mem_append_left _ listed)) read
    rw [List.forall_mem_cons] at fits
    rw [course_cons_of_loads readNow loaded fits.1, bind_eq_ok_iff] at smooth
    obtain ⟨next, done, smooth⟩ := smooth
    have moved : trees ++ tree :: more = trees ++ [tree] ++ more := by simp
    rw [moved] at spares ⊢
    exact ih (leaves.emit inDirectory done)
      (fun other listed => spares other (List.mem_cons_of_mem _ listed)) fits.2 smooth

/-- A run on trees that can be emitted meets no error. -/
theorem Leaves.exists_course (inDirectory : files.IsDirectory files.start)
    (leaves : options.Leaves files trees now) (loads : Loads files paths more halt?)
    (spares : ∀ path ∈ paths, options.Spares files (trees ++ more) path)
    (fits : ∀ tree ∈ more, options.Fits tree)
    (can : ∀ tree ∈ more, options.CanEmit files tree) :
    ∃ outcome, options.course paths now = .ok outcome := by
  induction loads generalizing trees now with
  | done => exact ⟨_, rfl⟩
  | fails read failed =>
    rw [List.append_nil] at spares
    exact ⟨_, course_cons_of_halt (leaves.read (spares _ List.mem_cons_self) read)
      (fileTasks_of_fails failed)⟩
  | @loads path paths content tree more halt? read loaded _ ih =>
    have readNow := leaves.read
      (fun other listed => spares _ List.mem_cons_self other (List.mem_append_left _ listed)) read
    obtain ⟨next, done⟩ := leaves.exists_emit inDirectory (can tree List.mem_cons_self)
    have moved : trees ++ tree :: more = trees ++ [tree] ++ more := by simp
    rw [moved] at spares
    rw [List.forall_mem_cons] at fits
    obtain ⟨outcome, smooth⟩ := ih (leaves.emit inDirectory done)
      (fun other listed => spares other (List.mem_cons_of_mem _ listed)) fits.2
      fun later listed => can later (List.mem_cons_of_mem _ listed)
    exact ⟨outcome, by rw [course_cons_of_loads readNow loaded fits.1, done]; exact smooth⟩

end Options

end IdlBridge.Command
