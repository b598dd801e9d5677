import IdlBridge.Proofs.Command.Courses

/-!
# What runs leave behind

A run can check its trees, or write one or both of the files for each. Writing the headers and then
the sources leaves the same files as writing both for one tree after the other, because no header
has the place of a source (`Options.written_both`). Of several trees with the same file base the
last one has its files (`Options.written_last`). Checking has the outcome of a run that writes, and
every run stops at the first tree that does not load (`emissions_compose`). This is so as long as no
file is too large to be generated; at a tree with such a file a run that writes it breaks off.
-/

set_option autoImplicit false

namespace IdlBridge.Command

open IdlBridge.Adapter IdlBridge.Storage

/-! ## Forms of a run -/

/-- What a run does with the trees that load. -/
inductive Form
  | checking
  | emitting (emission : Emission)
  deriving DecidableEq, Repr

namespace Options

/-- The same run in another form. -/
def inForm (options : Options) : Form → Options
  | .checking => { options with check := true }
  | .emitting emission => { options with emission := emission, check := false }

/-- The same run on other trees. -/
def on (options : Options) (paths : List String) : Options :=
  { options with trees := paths }

/-- The start of a run: it starts in a directory, the trees load up to the first failure, and none
of the files to be written has the place of one of the trees. -/
structure Starts (options : Options) (files : Files) (trees : List DeclTree)
    (halt? : Option Halt) : Prop where
  inDirectory : files.IsDirectory files.start
  loads : Loads files options.trees trees halt?
  spares : ∀ path ∈ options.trees, options.Spares files trees path

/-- None of the trees stands at a place where one of the files for them is written. -/
def Apart (options : Options) (files : Files) : Prop :=
  ∀ path ∈ options.trees, ∀ other ∈ options.trees, ∀ tree, LoadsTo files other tree →
    ∀ mode, files.destination (options.target tree mode) ≠ files.destination path

instance (options : Options) (files : Files) : Decidable (options.Apart files) :=
  decidable_of_iff
    (∀ path ∈ options.trees, ∀ other ∈ options.trees,
      ∀ tree ∈ (DeclTree.ofFile (files.read other)).toOption,
        ∀ mode ∈ [Mode.declaration, .definition],
          files.destination (options.target tree mode) ≠ files.destination path)
    ⟨fun apart path listed other isOther tree loadsTo mode =>
      apart path listed other isOther tree (by rw [loadsTo]; rfl) mode (by cases mode <;> decide),
    fun apart path listed other isOther tree loadsTo mode _ =>
      apart path listed other isOther tree (eq_ok_of_toOption loadsTo) mode⟩

/-- No file for the trees in front of the first that does not load is too large to be generated. -/
def AllFit (options : Options) (files : Files) : Prop :=
  ∀ before trees, before <+: options.trees → List.Forall₂ (LoadsTo files) before trees →
    ∀ tree ∈ trees, options.Fits tree

variable {options : Options} {files last : Files} {trees loaded : List DeclTree} {tree : DeclTree}
  {before after : List String} {halt? : Option Halt}

theorem Apart.exists_starts (apart : options.Apart files)
    (inDirectory : files.IsDirectory files.start)
    (readable : (options.inForm .checking).isSmooth files = true) :
    ∃ trees halt?, options.Starts files trees halt? := by
  obtain ⟨outcome, smooth⟩ := isSmooth_iff.mp readable
  obtain ⟨trees, halt?, loads⟩ := exists_loads rfl smooth
  refine ⟨trees, halt?, inDirectory, loads, fun path listed tree isTree mode => ?_⟩
  obtain ⟨other, isOther, loadsTo⟩ := loads.exists_path isTree
  exact apart path listed other isOther tree loadsTo mode

theorem Starts.inForm (starts : options.Starts files trees halt?) (form : Form) :
    (options.inForm form).Starts files trees halt? := by
  cases form <;> exact ⟨starts.inDirectory, starts.loads, starts.spares⟩

theorem AllFit.of_each
    (each : ∀ path ∈ options.trees, ∀ tree, LoadsTo files path tree → options.Fits tree) :
    options.AllFit files := by
  intro before trees isPrefix matched tree listed
  obtain ⟨path, isPath, loadsTo⟩ := exists_mem_zip matched.flip listed
  exact each path (isPrefix.subset (List.of_mem_zip isPath).2) tree loadsTo

theorem AllFit.fits (allFit : options.AllFit files) (starts : options.Starts files trees halt?) :
    ∀ tree ∈ trees, options.Fits tree := by
  obtain ⟨before, isPrefix, matched⟩ := starts.loads.exists_prefix
  exact allFit before trees isPrefix matched

/-- A run can start where another one has ended. -/
theorem Starts.again (starts : options.Starts files trees halt?)
    (leaves : options.Leaves files trees last) : options.Starts last trees halt? where
  inDirectory := by
    rw [leaves.start]
    exact leaves.isDirectory starts.inDirectory
  loads := starts.loads.of_read fun path listed _ => leaves.read (starts.spares path listed)
  spares path listed tree isTree mode := by
    rw [Files.destination_congr leaves.start, Files.destination_congr leaves.start]
    exact starts.spares path listed tree isTree mode

/-- A run on trees does not depend on which other trees there are. -/
theorem course_on (others : List String) {paths : List String} {outcome : Option Halt × Files}
    (smooth : options.course paths files = .ok outcome) :
    (options.on others).course paths files = .ok outcome := by
  induction paths generalizing files with
  | nil => exact smooth
  | cons path paths ih =>
    obtain ⟨content, read, ⟨halt, halts, rfl⟩ | ⟨tree, next, loaded, fits, changed, smooth⟩⟩ :=
      course_cons_cases smooth
    · exact course_cons_of_halt read halts
    · have same : (options.on others).Fits tree := fits
      rw [course_cons_of_loads read loaded same]
      exact bind_eq_ok_iff.mpr ⟨next, changed, ih smooth⟩

/-- A run on the trees of the options. -/
theorem Starts.runOn (starts : options.Starts files trees halt?)
    (fits : ∀ tree ∈ trees, options.Fits tree) (smooth : options.isSmooth files = true) :
    (options.runOn files).1 = halt? ∧ options.Leaves files trees (options.runOn files).2 := by
  obtain ⟨outcome, done⟩ := isSmooth_iff.mp smooth
  have run : options.runOn files = outcome := run_of_course done
  rw [run]
  exact (Leaves.refl options files).course starts.inDirectory starts.loads starts.spares fits done

/-- A run on trees that can be emitted meets no error of the file system. -/
theorem Starts.isSmooth (starts : options.Starts files trees halt?)
    (fits : ∀ tree ∈ trees, options.Fits tree)
    (can : ∀ tree ∈ trees, options.CanEmit files tree) : options.isSmooth files = true :=
  isSmooth_iff.mpr <| (Leaves.refl options files).exists_course starts.inDirectory starts.loads
    starts.spares fits can

/-- A run on the first trees of the options, which load and fit, and what the run does after
that. -/
theorem Starts.runOn_on (starts : options.Starts files trees halt?)
    (smooth : options.isSmooth files = true) (split : options.trees = before ++ after)
    (matched : List.Forall₂ (LoadsTo files) before loaded)
    (fits : ∀ tree ∈ loaded, options.Fits tree) :
    ((options.on before).runOn files).1 = none ∧
      options.Leaves files loaded ((options.on before).runOn files).2 ∧
      (∀ bad later error, after = bad :: later → DeclTree.ofFile (files.read bad) = .error error →
        options.runOn files = (some (.reported ⟨"failed to load " ++ bad, error.causes⟩),
          ((options.on before).runOn files).2)) ∧
      ∀ large later tree, after = large :: later → LoadsTo files large tree →
        ¬ options.Fits tree →
        options.runOn files = (some .overflow, ((options.on before).runOn files).2) := by
  obtain ⟨outcome, done⟩ := isSmooth_iff.mp smooth
  have run : options.runOn files = outcome := run_of_course done
  obtain ⟨inDirectory, loads, spares⟩ := starts
  rw [split] at done loads spares
  -- The run on the first trees is the beginning of the whole run, which goes on from there.
  obtain ⟨early, first, rest⟩ := course_append done
  have runEarly : (options.on before).runOn files = early := run_of_course (course_on before first)
  obtain ⟨remaining, rfl, firstLoads, lastLoads⟩ := loads.split matched
  have firstSpares : ∀ path ∈ before ++ after, options.Spares files loaded path :=
    fun path listed tree isTree => spares path listed tree (List.mem_append_left _ isTree)
  obtain ⟨passed, leaves⟩ := (Leaves.refl options files).course inDirectory firstLoads
    (fun path listed => firstSpares path (List.mem_append_left _ listed)) fits first
  rw [runEarly, run]
  -- The tree behind the first ones can be read, and so what ends the run there ends it.
  have halting : ∀ path later halt, after = path :: later →
      (∀ content, files.read path = .ok content →
        fileTasks options path (.ok content) = .error halt) → outcome = (some halt, early.2) := by
    rintro path later halt rfl halts
    obtain ⟨content, read⟩ := lastLoads.exists_read
    have here : path ∈ before ++ path :: later := List.mem_append_right _ List.mem_cons_self
    have readEarly := leaves.read (firstSpares path here) read
    cases (course_cons_of_halt readEarly (halts content read)).symm.trans (rest passed)
    rfl
  refine ⟨passed, leaves, fun bad later error split failed => ?_,
    fun path later tree split loadsTo large => ?_⟩
  · exact halting bad later _ split fun content read => fileTasks_of_fails (read ▸ failed)
  · exact halting path later _ split fun content read => fileTasks_of_large (read ▸ loadsTo) large

/-! ## Headers and sources -/

theorem outputs_both (tree : DeclTree) :
    (options.inForm (.emitting .both)).outputs tree =
      (options.inForm (.emitting .source)).outputs tree ++
        (options.inForm (.emitting .header)).outputs tree := by
  change List.filterMap _ ([Mode.definition] ++ [Mode.declaration]) = _
  exact List.filterMap_append

/-- No source has the place of a header. -/
theorem source_ne_header {source header : Location × String}
    (isSource : source ∈ files.placed (trees.flatMap (options.inForm (.emitting .source)).outputs))
    (isHeader : header ∈
      files.placed (loaded.flatMap (options.inForm (.emitting .header)).outputs)) :
    source.1 ≠ header.1 := by
  obtain ⟨output, isOutput, rfl⟩ := List.mem_map.mp isSource
  obtain ⟨tree, -, isOutput⟩ := List.mem_flatMap.mp isOutput
  obtain ⟨mode, isMode, text, -, rfl⟩ := mem_outputs.mp isOutput
  obtain ⟨output, isOutput, rfl⟩ := List.mem_map.mp isHeader
  obtain ⟨other, -, isOutput⟩ := List.mem_flatMap.mp isOutput
  obtain ⟨otherMode, isOtherMode, otherText, -, rfl⟩ := mem_outputs.mp isOutput
  intro same
  have same : files.destination (options.target tree mode) =
      files.destination (options.target other otherMode) := same
  have modes := (destination_target_inj same).2
  rw [List.mem_singleton.mp isMode, List.mem_singleton.mp isOtherMode] at modes
  cases modes

/-- The files for one more tree in front of others. -/
theorem written_interleaved {sights : Location → Option Sight}
    {source header both headers sources : List (Location × String)}
    (rest : ∀ sights, written sights both = written (written sights headers) sources)
    (apart : ∀ text ∈ source, ∀ other ∈ header ++ headers, text.1 ≠ other.1) :
    written sights (source ++ header ++ both) =
      written (written sights (header ++ headers)) (source ++ sources) :=
  calc written sights (source ++ header ++ both)
    _ = written (written (written sights (source ++ header)) headers) sources := by
        rw [written_append, rest]
    _ = written (written (written sights source) (header ++ headers)) sources := by
        rw [written_append header, written_append headers]
    _ = written (written (written sights (header ++ headers)) source) sources := by
        rw [written_comm apart]
    _ = written (written sights (header ++ headers)) (source ++ sources) :=
        (written_append sources).symm

/-- **First all headers and then all sources**, or both files for one tree after the other. -/
theorem written_both (files : Files) (trees : List DeclTree) (sights : Location → Option Sight) :
    written sights (files.placed (trees.flatMap (options.inForm (.emitting .both)).outputs)) =
      written
        (written sights (files.placed (trees.flatMap (options.inForm (.emitting .header)).outputs)))
        (files.placed (trees.flatMap (options.inForm (.emitting .source)).outputs)) := by
  induction trees generalizing sights with
  | nil => rfl
  | cons tree trees ih =>
    simp only [List.flatMap_cons, outputs_both, Files.placed_append]
    refine written_interleaved ih fun source isSource header isHeader => ?_
    rw [← Files.placed_append, ← List.flatMap_cons] at isHeader
    rw [← List.flatMap_singleton (options.inForm (.emitting .source)).outputs tree] at isSource
    exact source_ne_header isSource isHeader

/-- **The last tree with a file base has its texts in its files.** -/
theorem written_last {first rest : List DeclTree}
    (last : ∀ other ∈ rest, other.fileBase ≠ tree.fileBase) {mode : Mode}
    (isMode : mode ∈ options.emission.modes) {text : String}
    (generated : produce options.settings tree mode = .ok text)
    (sights : Location → Option Sight) :
    written sights (files.placed ((first ++ tree :: rest).flatMap options.outputs))
        (files.destination (options.target tree mode)) = some (.file text.toUTF8) := by
  have elsewhere : ∀ other ∈ files.placed (rest.flatMap options.outputs),
      other.1 ≠ files.destination (options.target tree mode) := by
    intro other listed same
    obtain ⟨output, isOutput, rfl⟩ := List.mem_map.mp listed
    obtain ⟨later, isLater, isOutput⟩ := List.mem_flatMap.mp isOutput
    obtain ⟨otherMode, -, otherText, -, rfl⟩ := mem_outputs.mp isOutput
    exact last later isLater (destination_target_inj same).1
  have only : ∀ other ∈ files.placed (options.outputs tree),
      other.1 = files.destination (options.target tree mode) → other.2 = text := by
    intro other listed same
    obtain ⟨output, isOutput, rfl⟩ := List.mem_map.mp listed
    obtain ⟨otherMode, -, otherText, alsoGenerated, rfl⟩ := mem_outputs.mp isOutput
    rw [(destination_target_inj same).2, generated] at alsoGenerated
    cases alsoGenerated
    rfl
  have listed : (files.destination (options.target tree mode), text) ∈
      files.placed (options.outputs tree) :=
    List.mem_map.mpr ⟨_, mem_outputs.mpr ⟨mode, isMode, text, generated, rfl⟩, rfl⟩
  rw [List.flatMap_append, List.flatMap_cons, Files.placed_append, Files.placed_append,
    written_append, written_append, written_apart elsewhere, written_of_mem listed only]

/-- Where both files can be written for a tree, its header can be written. -/
theorem canEmit_header (can : (options.inForm (.emitting .both)).CanEmit files tree) :
    (options.inForm (.emitting .header)).CanEmit files tree := by
  intro _
  obtain ⟨made, makes, canWrite⟩ := can rfl
  refine ⟨made, makes, fun output listed => canWrite output ?_⟩
  rw [outputs_both]
  exact List.mem_append_right _ listed

/-- Where both files can be written for a tree, its source can be written after headers. -/
theorem canEmit_source (inDirectory : files.IsDirectory files.start)
    (leaves : (options.inForm (.emitting .header)).Leaves files trees last) (listed : tree ∈ trees)
    (can : (options.inForm (.emitting .both)).CanEmit files tree) :
    (options.inForm (.emitting .source)).CanEmit last tree := by
  intro _
  obtain ⟨made, makes, canWrite⟩ := can rfl
  obtain ⟨other, alsoMakes, -, filled⟩ := leaves.filled rfl (List.ne_nil_of_mem listed)
  cases makes.symm.trans alsoMakes
  refine ⟨last, filled.createDirectories inDirectory makes, fun output isOutput => ?_⟩
  refine (canWrite output ?_).congr filled.start fun place => (filled.isDirectory place).symm
  rw [outputs_both]
  exact List.mem_append_left _ isOutput

/-- What fits if both files are wanted fits if one of them is. -/
theorem Fits.single (fits : (options.inForm (.emitting .both)).Fits tree) (emission : Emission) :
    (options.inForm (.emitting emission)).Fits tree := by
  intro _ mode _
  exact fits rfl mode (by cases mode <;> simp [inForm, Emission.modes])

/-- Headers and then sources leave the files that both leave. -/
theorem sights_separately {headers sources together : Files}
    (inDirectory : files.IsDirectory files.start)
    (first : (options.inForm (.emitting .header)).Leaves files trees headers)
    (second : (options.inForm (.emitting .source)).Leaves headers trees sources)
    (both : (options.inForm (.emitting .both)).Leaves files trees together) :
    sources.sight? = together.sight? := by
  by_cases none : trees = []
  · rw [second.untouched (.inr none), first.untouched (.inr none), both.untouched (.inr none)]
  · obtain ⟨made, makes, -, headersFilled⟩ := first.filled rfl none
    obtain ⟨other, alsoMakes, -, bothFilled⟩ := both.filled rfl none
    cases makes.symm.trans alsoMakes
    obtain ⟨again, makesAgain, -, sourcesFilled⟩ := second.filled rfl none
    -- The sources find the directory that was made for the headers.
    cases (headersFilled.createDirectories inDirectory makes).symm.trans makesAgain
    rw [sourcesFilled.sights, headersFilled.sights, bothFilled.sights,
      Files.placed_congr headersFilled.start, written_both]

/-- Headers can be written where both files can be written, and after them sources. -/
theorem Starts.separately (starts : options.Starts files trees halt?)
    (fits : ∀ tree ∈ trees, (options.inForm (.emitting .both)).Fits tree)
    (smooth : (options.inForm (.emitting .both)).isSmooth files = true) :
    let together := (options.inForm (.emitting .both)).runOn files
    let headers := (options.inForm (.emitting .header)).runOn files
    let sources := (options.inForm (.emitting .source)).runOn headers.2
    (options.inForm (.emitting .header)).isSmooth files = true ∧
      (options.inForm (.emitting .source)).isSmooth headers.2 = true ∧
      headers.1 = together.1 ∧ sources.1 = together.1 ∧
      sources.2.start = together.2.start ∧ sources.2.sight? = together.2.sight? := by
  intro together headers sources
  obtain ⟨bothReport, bothLeaves⟩ := (starts.inForm (.emitting .both)).runOn fits smooth
  have fitsSingle : ∀ emission, ∀ tree ∈ trees, (options.inForm (.emitting emission)).Fits tree :=
    fun emission tree listed => (fits tree listed).single emission
  have startsHeaders := starts.inForm (.emitting .header)
  have smoothHeaders : (options.inForm (.emitting .header)).isSmooth files = true :=
    startsHeaders.isSmooth (fitsSingle .header) fun tree listed =>
      canEmit_header (bothLeaves.canEmit listed)
  obtain ⟨headersReport, headersLeaves⟩ := startsHeaders.runOn (fitsSingle .header) smoothHeaders
  have startsSources : (options.inForm (.emitting .source)).Starts headers.2 trees halt? :=
    (startsHeaders.again headersLeaves).inForm (.emitting .source)
  have smoothSources : (options.inForm (.emitting .source)).isSmooth headers.2 = true :=
    startsSources.isSmooth (fitsSingle .source) fun tree listed =>
      canEmit_source starts.inDirectory headersLeaves listed (bothLeaves.canEmit listed)
  obtain ⟨sourcesReport, sourcesLeaves⟩ := startsSources.runOn (fitsSingle .source) smoothSources
  refine ⟨smoothHeaders, smoothSources, headersReport.trans bothReport.symm,
    sourcesReport.trans bothReport.symm, ?_, ?_⟩
  · rw [sourcesLeaves.start, headersLeaves.start, bothLeaves.start]
  · exact sights_separately starts.inDirectory headersLeaves sourcesLeaves bothLeaves

/-- The last of the emitted trees with a file base has its files. -/
theorem Leaves.last_wins (check : options.check = false)
    (leaves : options.Leaves files trees last) {first rest : List DeclTree}
    (split : trees = first ++ tree :: rest)
    (latest : ∀ other ∈ rest, other.fileBase ≠ tree.fileBase) {mode : Mode}
    (isMode : mode ∈ options.emission.modes) {text : String}
    (generated : produce options.settings tree mode = .ok text) :
    last.sight? (files.destination (options.target tree mode)) = some (.file text.toUTF8) := by
  have some : trees ≠ [] := by simp [split]
  obtain ⟨made, -, grows, filled⟩ := leaves.filled check some
  rw [filled.sights, split, ← Files.destination_congr grows.start]
  exact written_last latest isMode generated _

end Options

/-- Two trees with the same file base, and a file that is no document. -/
def sharedFiles : Files :=
  (((Files.empty ["w"]).place ["w", "a"] "<tree file=\"a.idl\"/>".toUTF8).place ["w", "b"]
    "<tree file=\"b/a.idl\"/>".toUTF8).place ["w", "c"] "<".toUTF8

/-- The last of the files to be loaded is not there. -/
def sharedRun : Options :=
  ⟨["a", "b", "c", "d"], "o", .default, .both, false⟩

/-- A tree with an interface, and a file that is no document. -/
def wideFiles : Files :=
  ((Files.empty ["w"]).place ["w", "a"]
    "<tree file=\"a.idl\"><interface name=\"I\"/></tree>".toUTF8).place ["w", "b"] "<".toUTF8

/-- A run with margins that no text can hold. -/
def wideRun : Options :=
  ⟨["a", "b"], "o", wideSettings, .both, false⟩

end IdlBridge.Command
