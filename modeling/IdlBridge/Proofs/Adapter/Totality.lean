import IdlBridge.Proofs.Adapter.Capacity
import IdlBridge.Proofs.Adapter.Namespaces
import IdlBridge.Proofs.Adapter.Statements
import IdlBridge.Proofs.Document.ClosedTypes
import IdlBridge.Proofs.Document.References

/-!
# Generation fails by size alone

A pass through a built tree reaches its end, so both files are written for every tree that is built
from numbers that have been handed out, unless a text cannot be as large as a file was to be
(`exists_produce`). What the pass looks up on its way is mentioned in the tree, and everything that
is mentioned there has a declaration (`Subject.lt_size_of_mem_lookups`).

In a loaded tree no callable exchanges a sequence of sequences. The conversions of its values are
written in full: the line that stops the compiler stands for none of them
(`Step.layout_ne_nestedSequence`).
-/

set_option autoImplicit false

namespace IdlBridge.Adapter

/-! ## Steps of methods -/

/-- The steps of a body. -/
def Body.steps : Body → List Step
  | fixed _ => []
  | guarded before inside _ _ => before ++ inside

/-- The type of the value that a step handles. -/
def Step.type? : Step → Option IdlType
  | declareRemote type _ | declareLocal type _ | toLocal type _ _ _ _ | toRemote type _ _ _
  | freeLocal type _ _ | releaseRemote type _ => some type
  | call _ _ _ _ | giveBack _ => none

/-- The steps that turn a result over handle values of its type. -/
theorem type_of_mem_returnSteps {type other : IdlType} {remoteName localName length : String}
    {step : Step} (isStep : step ∈ returnSteps type remoteName localName length)
    (handles : step.type? = some other) : other = type := by
  simp only [returnSteps, List.mem_cons, List.not_mem_nil, or_false] at isStep
  rcases isStep with rfl | rfl | rfl | rfl <;> cases handles <;> rfl

theorem type_of_mem_before {param : Parameter} {step : Step} (isStep : step ∈ param.before)
    {type : IdlType} (handles : step.type? = some type) : type = param.type := by
  rw [Parameter.before] at isStep
  rcases List.mem_cons.mp isStep with rfl | converted
  · exact (Option.some.inj handles).symm
  · split at converted
    · cases List.mem_singleton.mp converted
      exact (Option.some.inj handles).symm
    · cases converted

theorem type_of_mem_after {param : Parameter} {step : Step} (isStep : step ∈ param.after)
    {type : IdlType} (handles : step.type? = some type) : type = param.type := by
  simp only [Parameter.after, List.mem_append] at isStep
  grind [Step.type?]

theorem mem_exchanged_of_operation {active : ScopedName} {name : String} {operation : Operation}
    {step : Step} (isStep : step ∈ (operationBody active name operation).steps) {type : IdlType}
    (handles : step.type? = some type) :
    type ∈ (DeclKind.operation operation).exchanged := by
  have ofParam : ∀ param ∈ operation.params,
      param.type ∈ (DeclKind.operation operation).exchanged :=
    fun param listed => List.mem_cons_of_mem _ (List.mem_map_of_mem listed)
  simp only [operationBody, Body.steps, List.mem_append, List.mem_cons, List.mem_flatMap] at isStep
  rcases isStep with (⟨param, listed, before⟩ | declared) | (rfl | ⟨param, listed, after⟩) |
    returned
  · exact type_of_mem_before before handles ▸ ofParam param listed
  · split at declared
    · cases List.mem_singleton.mp declared
      exact Option.some.inj handles ▸ List.mem_cons_self
    · cases declared
  · cases handles
  · exact type_of_mem_after after handles ▸ ofParam param listed
  · split at returned
    · exact type_of_mem_returnSteps returned handles ▸ List.mem_cons_self
    · cases returned

/-- Bodies handle values of the types that their callable exchanges. -/
theorem mem_exchanged_of_step {settings : Settings} {active : ScopedName} {callable : Decl}
    {method : Method} (listed : method ∈ callableMethods settings active callable) {step : Step}
    (isStep : step ∈ method.body.steps) {type : IdlType} (handles : step.type? = some type) :
    type ∈ callable.kind.exchanged := by
  rw [callableMethods] at listed
  split at listed
  · rename_i operation kind
    rw [kind]
    cases List.mem_singleton.mp listed
    simp only [operationMethod] at isStep
    split at isStep
    · cases isStep
    · cases isStep
    · cases isStep
    · exact mem_exchanged_of_operation isStep handles
  · rename_i group kind
    obtain ⟨name, -, listed⟩ := List.mem_flatMap.mp listed
    rw [kind, DeclKind.exchanged, List.mem_singleton]
    rcases List.mem_cons.mp listed with rfl | setter
    · simp only [getterMethod, getterBody, Body.steps, List.nil_append, List.mem_append,
        List.mem_cons, List.not_mem_nil, or_false] at isStep
      rcases isStep with (rfl | rfl) | returned
      · exact (Option.some.inj handles).symm
      · cases handles
      · exact type_of_mem_returnSteps returned handles
    · split at setter
      · cases setter
      · cases List.mem_singleton.mp setter
        simp only [setterMethod, setterBody, Body.steps, List.nil_append, List.mem_cons,
          List.not_mem_nil, or_false] at isStep
        rcases isStep with rfl | rfl | rfl | rfl <;> cases handles <;> rfl
  · cases listed

/-! ## Lines that stop the compiler -/

/-- A line that ends a statement stops nothing. -/
theorem line_ne_nestedSequence (text : String) (name : ScopedName) :
    [Piece.line (text ++ ";")] ≠ nestedSequence name := by
  intro same
  have lines : text ++ ";" = "#error sequence " ++ name.text ++
      " has a sequence element type, which cannot be converted" := by
    simpa [nestedSequence] using same
  have lasts := congrArg (fun line => line.toList.getLast?) lines
  have own : ";".toList.getLast? = some ';' := rfl
  have other : " has a sequence element type, which cannot be converted".toList.getLast? =
      some 'd' := by decide
  simp only [String.toList_append, List.getLast?_append, own, other, Option.some_or] at lasts
  cases lasts

/-- Nor does a line that ends a call. -/
theorem call_ne_nestedSequence (text : String) (name : ScopedName) :
    [Piece.line (text ++ ");")] ≠ nestedSequence name := by
  have split : text ++ ");" = text ++ ")" ++ ";" := by
    rw [String.append_assoc]
    rfl
  rw [split]
  exact line_ne_nestedSequence (text ++ ")") name

theorem ne_nestedSequence_of_length {layout : Layout} (length : layout.length ≠ 1)
    (name : ScopedName) : layout ≠ nestedSequence name := by
  rintro rfl
  exact length rfl

/-- A loop takes more than one line. -/
theorem ne_nestedSequence_of_loop {layout body : Layout} {index bound : String}
    (inside : loop index bound body <:+: layout) (name : ScopedName) :
    layout ≠ nestedSequence name := by
  refine ne_nestedSequence_of_length (fun single => ?_) name
  have long : 2 ≤ (loop index bound body).length := by
    simp [loop, Layout.braces, Layout.block]
  exact Nat.not_succ_le_self 1 (Nat.le_trans long (single ▸ inside.length_le))

theorem valueToLocal_ne_nestedSequence (type : IdlType) (source target : String) (element : Bool)
    (name : ScopedName) : valueToLocal type source target element ≠ nestedSequence name := by
  unfold valueToLocal
  generalize (if element = true then source else source ++ ".in()") = held
  dsimp only
  split
  · exact call_ne_nestedSequence _ name
  · exact call_ne_nestedSequence _ name
  · exact call_ne_nestedSequence _ name
  · exact ne_nestedSequence_of_length (by simp [Layout.indented]) name
  · exact line_ne_nestedSequence _ name

theorem valueToRemote_ne_nestedSequence (root : ScopedName) (type : IdlType)
    (source target : String) (name : ScopedName) :
    valueToRemote root type source target ≠ nestedSequence name := by
  unfold valueToRemote
  split
  · exact call_ne_nestedSequence _ name
  · exact call_ne_nestedSequence _ name
  · exact call_ne_nestedSequence _ name
  · exact ne_nestedSequence_of_length (by simp [Layout.indented]) name
  · exact line_ne_nestedSequence _ name

theorem freeValue_ne_nestedSequence (type : IdlType) (place : String) (name : ScopedName) :
    freeValue type place ≠ nestedSequence name := by
  unfold freeValue
  split
  · exact call_ne_nestedSequence _ name
  · exact call_ne_nestedSequence _ name
  · exact ne_nestedSequence_of_length (by simp [Layout.indented]) name
  · exact ne_nestedSequence_of_length (by simp) name

namespace Step

/-- The layout of a step is none that stops the compiler. -/
def Converts (result : Except Error (Layout × Nat)) : Prop :=
  ∀ name next, result ≠ .ok (nestedSequence name, next)

theorem Converts.ok {layout : Layout} (differs : ∀ name, layout ≠ nestedSequence name)
    (next : Nat) : Converts (.ok (layout, next)) := by
  intro name _ same
  cases same
  exact differs name rfl

/-- **No step on a flat type writes a line that stops the compiler.** -/
theorem layout_ne_nestedSequence {step : Step} (flat : ∀ type ∈ step.type?, type.isFlat = true)
    (root : ScopedName) (loops : Nat) : Converts (step.layout root loops) := by
  have inner : ∀ {name element}, step.type? = some (.sequence name element) →
      element.isSequence = false := by
    intro name element isType
    simpa [IdlType.isFlat] using flat _ isType
  unfold layout
  split
  · exact .ok (line_ne_nestedSequence _) _
  · exact .ok (line_ne_nestedSequence _) _
  · rename_i name element source target length? allocate
    cases length? with
    | none => exact fun _ _ failed => by cases failed
    | some length =>
      simp only [requireLength, inner rfl]
      exact .ok (ne_nestedSequence_of_loop ⟨_, [], List.append_nil _⟩) _
  · exact .ok (valueToLocal_ne_nestedSequence _ _ _ _) _
  · rename_i name element source target length?
    cases length? with
    | none => exact fun _ _ failed => by cases failed
    | some length =>
      simp only [requireLength, inner rfl]
      exact .ok (ne_nestedSequence_of_loop ⟨_, [], List.append_nil _⟩) _
  · exact .ok (valueToRemote_ne_nestedSequence _ _ _ _) _
  · rename_i name element place length?
    cases length? with
    | none => exact fun _ _ failed => by cases failed
    | some length =>
      simp only [requireLength, inner rfl]
      cases ownsLocal element with
      | true => exact .ok (ne_nestedSequence_of_loop ⟨[], _, rfl⟩) _
      | false => exact .ok (line_ne_nestedSequence _) _
  · exact .ok (freeValue_ne_nestedSequence _ _) _
  · exact .ok (ne_nestedSequence_of_length (by simp [releaseReference, Layout.indented])) _
  · exact .ok (ne_nestedSequence_of_loop (List.infix_refl _)) _
  · exact .ok (ne_nestedSequence_of_length (by simp)) _
  · exact .ok (call_ne_nestedSequence _) _
  · exact .ok (line_ne_nestedSequence _) _

end Step

/-! ## What a pass looks up -/

namespace Subject

variable {settings : Settings} {tree : DeclTree} {subject : Subject}

/-- The declarations that are looked up while the classes of an interface are written: itself, its
callables, its bases as they are written and resolved, and everything it derives from. -/
def lookups (subject : Subject) : List DeclId :=
  subject.id ::
    ((subject.decl.interface?.map fun parts => parts.callables ++ parts.bases).getD []) ++
    (subject.tree.edges subject.settings.root subject.id).map Prod.fst ++
    subject.tree.linearize subject.id

theorem of_mem_visited (visited : subject ∈ Subject.visited settings tree) :
    subject.tree = tree ∧ tree.decl? subject.id = some subject.decl := by
  obtain ⟨visit, -, own⟩ := List.mem_filterMap.mp visited
  cases visit with
  | interface id =>
    obtain ⟨decl, found, rfl⟩ := Option.map_eq_some_iff.mp own
    exact ⟨rfl, found⟩
  | _ => cases own

/-- Everything that is looked up for an interface has a declaration, if everything that the tree
mentions has one. -/
theorem lt_size_of_mem_lookups (below : tree.MentionsBelow tree.size)
    (visited : subject ∈ Subject.visited settings tree) {id : DeclId}
    (looked : id ∈ subject.lookups) : id < tree.size := by
  obtain ⟨rfl, found⟩ := of_mem_visited visited
  simp only [lookups, List.cons_append, List.mem_cons, List.mem_append, List.mem_map] at looked
  rcases looked with rfl | (part | ⟨edge, isEdge, rfl⟩) | ancestor
  · exact (Array.getElem?_eq_some_iff.mp found).1
  · cases kind : subject.decl.kind with
    | interface parts =>
      have here : subject.tree.kind? subject.id = some (.interface parts) := by
        rw [DeclTree.kind?, found, Option.map_some, kind]
      simp only [Decl.interface?, kind, Option.map_some, Option.getD_some, List.mem_append] at part
      refine below id (DeclTree.mem_mentions_of_kind? here ?_)
      simp only [DeclKind.mentions, List.mem_append]
      tauto
    | _ => simp [Decl.interface?, kind] at part
  · have isBase : edge.1 ∈ subject.tree.resolvedBases subject.id :=
      DeclTree.hasBase_iff.mp ⟨edge.2, isEdge⟩
    exact DeclTree.lt_size_of_isInterface (DeclTree.isInterface_of_mem_resolvedBases isBase)
  · exact DeclTree.lt_size_of_isInterface (DeclTree.isInterface_of_mem_linearize ancestor)

/-- A method of a visited interface belongs to a callable of the tree. -/
theorem exists_callable (visited : subject ∈ Subject.visited settings tree) {method : Method}
    (listed : method ∈ subject.methods) :
    ∃ id callable, tree.decl? id = some callable ∧
      method ∈ callableMethods subject.settings subject.name callable := by
  obtain ⟨rfl, -⟩ := of_mem_visited visited
  rw [methods] at listed
  split at listed
  · obtain ⟨callable, isCallable, listed⟩ := List.mem_flatMap.mp listed
    obtain ⟨id, -, found⟩ := List.mem_filterMap.mp isCallable
    exact ⟨id, callable, found, listed⟩
  · cases listed

end Subject

/-! ## Generation -/

/-- The text is what one of the two files was to be, with every margin in full. -/
def FullText (settings : Settings) (tree : DeclTree) (mode : Mode) (text : String) : Prop :=
  ∃ pass layout, Pass.run settings tree mode = .ok pass ∧
    pass.sheet = (Sheet.empty settings.indentWidth).writeAll layout ∧
    text = layout.fullText settings.indentWidth 0

theorem produce_eq {settings : Settings} {tree : DeclTree} {mode : Mode} {pass : Pass}
    {layout : Layout} (done : Pass.run settings tree mode = .ok pass)
    (sheet : pass.sheet = (Sheet.empty settings.indentWidth).writeAll layout) :
    produce settings tree mode =
      if (layout.fullText settings.indentWidth 0).utf8ByteSize ≤ capacity then
        .ok (layout.fullText settings.indentWidth 0)
      else .error .overflow := by
  rw [produce, done]
  simp only [sheet, Sheet.result?_writeAll]
  by_cases fits : (layout.fullText settings.indentWidth 0).utf8ByteSize ≤ capacity
  · rw [if_pos fits, if_pos fits]
  · rw [if_neg fits, if_neg fits]

/-- **A file is generated in full, unless it was to be larger than a text can be.** -/
theorem exists_produce {tree : DeclTree} (built : tree.Built) (settings : Settings) (mode : Mode) :
    ∃ text, FullText settings tree mode text ∧ produce settings tree mode =
      if text.utf8ByteSize ≤ capacity then .ok text else .error .overflow := by
  obtain ⟨segments, pass, done, emits, -⟩ := Pass.exists_run built settings mode
  obtain ⟨layouts, -, sheet⟩ := emits.written
  have sheet : pass.sheet = (Sheet.empty settings.indentWidth).writeAll layouts.flatten := sheet
  refine ⟨_, ⟨pass, layouts.flatten, done, sheet, rfl⟩, ?_⟩
  exact produce_eq done sheet

/-- What is generated is what the pass writes. -/
theorem generate_of_produce {settings : Settings} {tree : DeclTree} {mode : Mode} {text : String}
    (produced : produce settings tree mode = .ok text) :
    generate settings tree mode = .ok text := by
  rw [produce] at produced
  rw [generate]
  cases done : Pass.run settings tree mode with
  | error error =>
    rw [done] at produced
    cases produced
  | ok pass =>
    simp only [done, Sheet.result?] at produced
    split at produced
    · rename_i found
      split at found
      · cases found
        cases produced
        rfl
      · cases found
    · cases produced

/-- Among the members of an interface there is a line one level deeper than they begin. -/
theorem Subject.exists_members_indent (subject : Subject) :
    ∃ before text after, subject.members = .ok (before ++ .line text :: after) ∧
      '\n' ∉ text.toList ∧ text ≠ "" ∧ ∀ level, Layout.levelAfter level before = level + 1 := by
  obtain ⟨abstractClass, abstractDone, abstractKeeps, -⟩ := subject.exists_defineAbstract
  obtain ⟨final, finalDone, finalKeeps, -⟩ := subject.exists_defineFinal
  let full := "::" ++ subject.qualified (factoryClass subject.name.simple)
  refine ⟨abstractClass ++ final ++
      [.line (full ++ "::" ++ factoryClass subject.name.simple ++ "()"), .line "\x7b", .indent],
    "gWrapperRepository().RegisterCCIFactory(this);",
    [.dedent, .line "\x7d", .line (full ++ " " ++ factoryInstance subject.name ++ ";")], ?_,
    by decide, by decide, fun level => ?_⟩
  · rw [members, abstractDone, finalDone]
    simp [bind, Except.bind, defineFactory, Layout.braces, Layout.block, Layout.indented, full]
  · rw [Layout.levelAfter_append, abstractKeeps.append finalKeeps]
    rfl

/-- **No source with an interface is generated with margins that no text can hold.** -/
theorem produce_definition_of_wide {settings : Settings} {tree : DeclTree} (built : tree.Built)
    (wide : capacity < settings.indentWidth % UInt64.size)
    (nonempty : Subject.visited settings tree ≠ []) :
    produce settings tree .definition = .error .overflow := by
  obtain ⟨segments, last, pass, follows, -, done, emits, -, -⟩ :=
    Pass.exists_follows built settings .definition
  obtain ⟨subject, rest, visited⟩ := List.exists_cons_of_ne_nil nonempty
  obtain ⟨before, text, after, members, whole, shown, level⟩ := subject.exists_members_indent
  obtain ⟨layouts, written, sheet⟩ := emits.written
  have source : segments = (Subject.visited settings tree).flatMap Pass.sourceSegments :=
    follows.source rfl
  rw [source, visited, List.flatMap_cons, Pass.sourceSegments] at written
  -- The first parts of the file are the preamble and the members of the first interface.
  cases written with
  | cons preambleDone written =>
    cases written with
    | @cons _ _ _ others membersDone _ =>
      cases preambleDone
      cases members.symm.trans membersDone
      have split : (preamble settings tree .definition :: (before ++ .line text :: after) ::
            others).flatten =
          (preamble settings tree .definition ++ before) ++
            .line text :: (after ++ others.flatten) := by
        simp
      have deeper : Layout.levelAfter 0 (preamble settings tree .definition ++ before) = 1 := by
        rw [Layout.levelAfter_append, Pass.keepsLevel_preamble, level]
      rw [split] at sheet
      refine (produce_eq done sheet).trans (if_neg (Nat.not_le.mpr (wide.trans ?_)))
      refine lt_of_eq_of_lt ?_ (Layout.margin_lt_size whole shown settings.indentWidth 0)
      rw [deeper, Nat.one_mul]

/-- A file is generated or too large. -/
theorem produce_cases {tree : DeclTree} (built : tree.Built) (settings : Settings) (mode : Mode) :
    (∃ text, produce settings tree mode = .ok text) ∨
      produce settings tree mode = .error .overflow := by
  obtain ⟨text, -, produced⟩ := exists_produce built settings mode
  by_cases fits : text.utf8ByteSize ≤ capacity
  · exact .inl ⟨text, produced.trans (if_pos fits)⟩
  · exact .inr (produced.trans (if_neg fits))

/-- Both files are generated, or one of them is too large. -/
theorem producePair_cases {tree : DeclTree} (built : tree.Built) (settings : Settings) :
    (∃ pair, producePair settings tree = .ok pair ∧
        ∀ mode, ∃ text, produce settings tree mode = .ok text) ∨
      producePair settings tree = .error .overflow ∧
        ∃ mode, produce settings tree mode = .error .overflow := by
  rcases produce_cases built settings .definition with ⟨source, sourceDone⟩ | overflows
  · rcases produce_cases built settings .declaration with ⟨header, headerDone⟩ | overflows
    · refine .inl ⟨_, by rw [producePair, sourceDone, headerDone]; rfl, fun mode => ?_⟩
      cases mode with
      | declaration => exact ⟨header, headerDone⟩
      | definition => exact ⟨source, sourceDone⟩
    · exact .inr ⟨by rw [producePair, sourceDone, overflows]; rfl, .declaration, overflows⟩
  · exact .inr ⟨by rw [producePair, overflows]; rfl, .definition, overflows⟩

/-- Generating both files breaks off exactly if generating one of them does. -/
theorem producePair_eq_overflow_iff {tree : DeclTree} (built : tree.Built) (settings : Settings) :
    producePair settings tree = .error .overflow ↔
      ∃ mode, produce settings tree mode = .error .overflow := by
  rcases producePair_cases built settings with ⟨pair, done, each⟩ | ⟨overflows, one⟩
  · refine iff_of_false (fun overflows => by cases done.symm.trans overflows) ?_
    rintro ⟨mode, overflows⟩
    obtain ⟨text, produced⟩ := each mode
    cases produced.symm.trans overflows
  · exact iff_of_true overflows one

theorem built_of_ofDocument {document : String} {tree : DeclTree}
    (loaded : DeclTree.ofDocument document = .ok tree) : tree.Built := by
  obtain ⟨draft, nested, drafted⟩ := DeclTree.nested_ofDocument loaded
  exact ⟨draft, nested.built, drafted⟩

/-- Generating from a document meets an error exactly if loading it does, and reports that. -/
theorem produceFromDocument_eq_reported_iff {settings : Settings} {document : String}
    {error : Error} :
    produceFromDocument settings document = .error (.reported error) ↔
      ∃ cause, DeclTree.ofDocument document = .error cause ∧ error = .load cause := by
  rw [produceFromDocument]
  cases loaded : DeclTree.ofDocument document with
  | error cause => simp [eq_comm]
  | ok tree =>
    rcases producePair_cases (built_of_ofDocument loaded) settings with ⟨pair, done, -⟩ | ⟨done, -⟩
    · simp [done]
    · simp [done]

/-- Generating from a document breaks off exactly if it loads and one of its files is too large. -/
theorem produceFromDocument_eq_overflow_iff {settings : Settings} {document : String} :
    produceFromDocument settings document = .error .overflow ↔
      ∃ tree mode, DeclTree.ofDocument document = .ok tree ∧
        produce settings tree mode = .error .overflow := by
  rw [produceFromDocument]
  cases loaded : DeclTree.ofDocument document with
  | error cause => simp
  | ok tree => simp [producePair_eq_overflow_iff (built_of_ofDocument loaded) settings]

/-- The types that callables of a loaded tree exchange are flat. -/
theorem isFlat_of_exchanged {document : String} {tree : DeclTree}
    (loaded : DeclTree.ofDocument document = .ok tree) {id : DeclId} {kind : DeclKind}
    (found : tree.kind? id = some kind) {type : IdlType} (exchanged : type ∈ kind.exchanged) :
    type.isFlat = true := by
  simp only [DeclTree.ofDocument, bind_eq_ok_iff] at loaded
  obtain ⟨root, -, outline, read, resolved⟩ := loaded
  have registered := Outline.ofRoot_registers read
  have stores := registered.stores resolved
  obtain ⟨scope, text, means⟩ := stores.exists_means found exchanged
  have closed : tree.ClosesType type :=
    means.closes registered (Outline.nested_ofRoot read).built.indexed
      (Outline.unresolved_of_resolve resolved) stores fun _ isTypedef => by cases isTypedef
  cases type with
  | sequence name element => simpa [IdlType.isFlat] using closed.1
  | _ => rfl

/-- A draft with an interface that derives from itself and exchanges a sequence of sequences. -/
def matrixDraft : Draft :=
  let rows : IdlType := .sequence ⟨["Rows"]⟩ (.sequence ⟨["Row"]⟩ (.basic .double))
  (((Draft.empty "m.idl").addInterface none "Matrix").addOperation (some 0) "turn"
    ⟨rows, [⟨"rows", rows, .inout⟩]⟩).addBase 0 0

theorem matrixDraft_handed : matrixDraft.Handed := by
  refine .edit (.edit (.edit (.empty "m.idl") (.addInterface none "Matrix") ?_)
    (.addOperation 0 "turn" _) ?_) (.addBase 0 0) ?_
  all_goals decide +kernel

/-- A document with one interface. -/
def plainDocument : String :=
  "<tree file=\"a.idl\"><interface name=\"I\"/></tree>"

/-- Margins that no text can hold. -/
def wideSettings : Settings :=
  { Settings.default with indentWidth := 9223372036854775808 }

end IdlBridge.Adapter
