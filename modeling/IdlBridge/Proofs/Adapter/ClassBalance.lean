import IdlBridge.Proofs.Adapter.Concatenation
import IdlBridge.Proofs.Adapter.Signatures

/-!
# Classes with balanced braces

The braces of what is written for an interface come from fixed words. If no name, file name or
setting holds a brace, the classes in the header are balanced by themselves, and so are their
members and the hook in the source (`Subject.balanced_classes`, `Subject.balanced_members`,
`Subject.balanced_defineHook`). All texts that are not fixed are gathered in `Subject.Unbraced`,
which holds of every interface of a tree without braces in its names (`Subject.unbraced_inTree`).
-/

set_option autoImplicit false

namespace IdlBridge

open Text (isBrace Shaping)

/-! ## Names without braces -/

theorem Text.avoids_fileBase {chosen : Char → Bool} {file : String}
    (avoids : Text.Avoids chosen file) : Text.Avoids chosen (Text.fileBase file) := by
  have inside : ∀ c ∈ (Text.fileBase file).toList, c ∈ file.toList := by
    intro c listed
    rw [Text.fileBase] at listed
    have inName : ∀ d ∈ (file.toList.reverse.takeWhile fun d => d != '/' && d != '\\').reverse,
        d ∈ file.toList := by
      intro d isPart
      exact List.mem_reverse.mp ((List.takeWhile_sublist _).subset (List.mem_reverse.mp isPart))
    split at listed
    · exact inName c (by simpa using listed)
    · exact inName c (by simpa using listed)
    · rename_i dot stem _ found
      refine inName c (List.mem_reverse.mp ?_)
      refine (List.dropWhile_sublist _).subset (found ▸ List.mem_cons_of_mem dot ?_)
      simpa using listed
  exact fun c listed => avoids c (inside c listed)

/-- The names of a declaration and of its file avoid the characters. -/
structure Decl.NamesAvoid (chosen : Char → Bool) (decl : Decl) : Prop where
  name : Text.Avoids chosen decl.name
  scopedName : decl.scopedName.Avoids chosen
  file : Text.Avoids chosen decl.file
  callable : decl.Avoids chosen

instance (chosen : Char → Bool) (decl : Decl) : Decidable (decl.NamesAvoid chosen) :=
  decidable_of_iff
    (Text.Avoids chosen decl.name ∧ decl.scopedName.Avoids chosen ∧
      Text.Avoids chosen decl.file ∧ decl.Avoids chosen)
    ⟨fun ⟨name, scopedName, file, callable⟩ => ⟨name, scopedName, file, callable⟩,
     fun avoids => ⟨avoids.name, avoids.scopedName, avoids.file, avoids.callable⟩⟩

/-- The names of all declarations and files avoid the characters. -/
structure DeclTree.Avoids (chosen : Char → Bool) (tree : DeclTree) : Prop where
  file : Text.Avoids chosen tree.file
  filename : Text.Avoids chosen tree.filename
  decls : ∀ id decl, tree.decl? id = some decl → decl.NamesAvoid chosen

instance (chosen : Char → Bool) (tree : DeclTree) : Decidable (tree.Avoids chosen) :=
  decidable_of_iff
    (Text.Avoids chosen tree.file ∧ Text.Avoids chosen tree.filename ∧
      ∀ decl ∈ tree.decls.toList, decl.NamesAvoid chosen)
    ⟨fun ⟨file, filename, decls⟩ => ⟨file, filename, fun _ decl found =>
      decls decl (Array.mem_toList_iff.mpr (Array.mem_of_getElem? found))⟩,
     fun avoids => ⟨avoids.file, avoids.filename, fun decl listed =>
      have ⟨id, found⟩ := Array.mem_iff_getElem?.mp (Array.mem_toList_iff.mp listed)
      avoids.decls id decl found⟩⟩

theorem DeclTree.Avoids.scopedName {chosen : Char → Bool} {tree : DeclTree}
    (avoids : tree.Avoids chosen) (id : DeclId) : (tree.scopedName id).Avoids chosen := by
  rw [DeclTree.scopedName]
  cases found : tree.decl? id with
  | none => exact fun part isPart => by cases isPart
  | some decl => exact (avoids.decls id decl found).scopedName

namespace Adapter

/-- The texts among the settings avoid the characters. -/
structure Settings.Avoids (chosen : Char → Bool) (settings : Settings) : Prop where
  outer : Text.Avoids chosen settings.outer
  root : settings.root.Avoids chosen
  filePrefix : Text.Avoids chosen settings.filePrefix

instance (chosen : Char → Bool) (settings : Settings) : Decidable (settings.Avoids chosen) :=
  decidable_of_iff
    (Text.Avoids chosen settings.outer ∧ settings.root.Avoids chosen ∧
      Text.Avoids chosen settings.filePrefix)
    ⟨fun ⟨outer, root, filePrefix⟩ => ⟨outer, root, filePrefix⟩,
     fun avoids => ⟨avoids.outer, avoids.root, avoids.filePrefix⟩⟩

/-- Guards are made of letters. -/
theorem avoids_guardOf (fileBase : String) : Text.Avoids isBrace (guardOf fileBase) := by
  intro c listed
  rw [guardOf, String.toList_ofList, List.mem_filter] at listed
  rw [Bool.eq_false_iff]
  intro brace
  rw [isBrace, Bool.or_eq_true, beq_iff_eq, beq_iff_eq] at brace
  rcases brace with rfl | rfl
  · exact absurd listed.2 (by decide)
  · exact absurd listed.2 (by decide)

theorem avoids_specifier (inheritance : Inheritance) :
    Text.Avoids isBrace inheritance.specifier := by
  cases inheritance <;> exact .literal _ rfl

/-! ## The classes of an interface -/

namespace Subject

/-- No text from which the classes are written holds a brace. -/
structure Unbraced (subject : Subject) : Prop extends subject.Avoids isBrace where
  guard : Text.Avoids isBrace subject.guard
  heads : ∀ head ∈ subject.heads, Text.Avoids isBrace head

theorem unbraced_inTree {settings : Settings} {tree : DeclTree} {id : DeclId} {decl : Decl}
    (names : tree.Avoids isBrace) (chosen : settings.Avoids isBrace)
    (found : tree.decl? id = some decl) : (inTree settings tree id decl).Unbraced where
  outer := chosen.outer
  root := chosen.root
  simple := (names.decls id decl found).name
  name := (names.decls id decl found).scopedName
  callables := by
    intro callable isCallable
    rw [Subject.callables] at isCallable
    split at isCallable
    · obtain ⟨number, -, listed⟩ := List.mem_filterMap.mp isCallable
      exact (names.decls number callable listed).callable
    · cases isCallable
  bases base _ := names.scopedName base
  guard := avoids_guardOf _
  heads := by
    intro head listed
    obtain ⟨base, isBase, rfl⟩ := List.mem_map.mp listed
    rcases List.mem_cons.mp isBase with rfl | edge
    · exact .append (.append (avoids_specifier _) (.literal _ rfl))
        (avoids_localName (names.decls id decl found).scopedName)
    · obtain ⟨⟨base, inheritance⟩, -, rfl⟩ := List.mem_map.mp edge
      exact .append (.append (avoids_specifier inheritance) (.literal _ rfl))
        (.append (.append chosen.outer (.literal _ rfl)) (names.scopedName base).text)

variable {subject : Subject}

theorem avoids_simple {name : ScopedName} (avoids : name.Avoids isBrace) :
    Text.Avoids isBrace name.simple := by
  rw [ScopedName.simple]
  cases last : name.parts.getLast? with
  | none => exact .literal _ rfl
  | some part => exact avoids part (List.mem_of_getLast? last)

theorem avoids_remote (avoids : subject.Avoids isBrace) : Text.Avoids isBrace subject.remote :=
  .append (.literal _ rfl) avoids.name.text

theorem avoids_publicPre (unbraced : subject.Unbraced) :
    Text.Avoids isBrace (publicPre subject.guard) :=
  .append (.append (.literal _ rfl) unbraced.guard) (.literal _ rfl)

theorem avoids_publicPost (unbraced : subject.Unbraced) :
    Text.Avoids isBrace (publicPost subject.guard) :=
  .append (.append (.literal _ rfl) unbraced.guard) (.literal _ rfl)

/-- Signatures hold no brace, so the methods in the header have none. -/
theorem braceMarks_declared {methods : List Method}
    (avoids : ∀ signature ∈ methods.map Method.signed, signature.Avoids isBrace) :
    Layout.braceMarks ((methods.map fun method => method.signature "" ++ ";").map Piece.line) =
      [] := by
  induction methods with
  | nil => rfl
  | cons method methods ih =>
    rw [List.map_cons, List.forall_mem_cons] at avoids
    rw [List.map_cons, List.map_cons, Layout.braceMarks_line, ih avoids.2,
      method.signature_eq_declared, avoids.1.declared.braceMarks_eq]
    rfl

theorem balanced_declareAbstract (unbraced : subject.Unbraced) {layout : Layout}
    (done : subject.declareAbstract = .ok layout) : layout.Balanced := by
  have pre := avoids_publicPre unbraced
  have post := avoids_publicPost unbraced
  have simple := unbraced.simple
  have remote := avoids_remote unbraced.toAvoids
  have joined := unbraced.name.joined
  have heads : Text.Avoids isBrace (Text.join ", " subject.heads) :=
    .join (.literal _ rfl) unbraced.heads
  have destructor : Text.braceMarks "()\x7b\x7d" = ['\x7b', '\x7d'] := Text.braceMarks_ofChars _ rfl
  have methods := braceMarks_declared
    (subject.map_signed_methods.symm ▸ avoids_signatures unbraced.toAvoids)
  have front : ∀ exports : Bool, Layout.braceMarks
      (if exports then
        [.line (publicPre subject.guard ++ " "),
         .line ("class " ++ publicPost subject.guard ++ " " ++ subject.decl.name)]
      else [.line ("class " ++ subject.decl.name)]) = [] := by
    intro exports
    cases exports <;>
      simp (disch := first | assumption | exact .literal _ rfl) [Text.Avoids.braceMarks_eq]
  have root : Layout.braceMarks
      (if subject.settings.isRoot subject.name then subject.declareRootMembers else []) = [] := by
    split
    · simp (disch := first | assumption | exact .literal _ rfl) [declareRootMembers,
        Text.Avoids.braceMarks_eq]
    · rfl
  rw [declareAbstract, methodsLayout, Method.layoutAll_declaration] at done
  cases done
  rw [Layout.Balanced]
  simp (disch := first | assumption | exact .literal _ rfl) only [Layout.braceMarks_append,
    Layout.braceMarks_line, Layout.braceMarks_indented, Layout.braceMarks_nil, declareAccessors,
    exported, unwrapName, downcastName, Text.braceMarks_append, Text.Avoids.braceMarks_eq,
    Text.braceMarks_open, Text.braceMarks_close, front, root, methods, destructor]
  decide

theorem balanced_declareFinal (unbraced : subject.Unbraced) {layout : Layout}
    (done : subject.declareFinal = .ok layout) : layout.Balanced := by
  have pre := avoids_publicPre unbraced
  have post := avoids_publicPost unbraced
  have simple := unbraced.simple
  have remote := avoids_remote unbraced.toAvoids
  have accessors := braceMarks_declared
    (subject.map_signed_downcasts.symm ▸ avoids_accessorSignatures unbraced.toAvoids)
  rw [declareFinal, Method.layoutAll_declaration] at done
  cases done
  rw [Layout.Balanced]
  simp (disch := first | assumption | exact .literal _ rfl) [exported, finalClass,
    Text.Avoids.braceMarks_eq, accessors, -List.map_map]
  decide

theorem balanced_declareFactory (unbraced : subject.Unbraced) :
    subject.declareFactory.Balanced := by
  have pre := avoids_publicPre unbraced
  have post := avoids_publicPost unbraced
  have simple := avoids_simple unbraced.name
  have text := unbraced.name.text
  have remote := avoids_remote unbraced.toAvoids
  have root := unbraced.root.text
  have localText := avoids_localName unbraced.name
  have final : Text.Avoids isBrace (subject.qualified (finalClass subject.name.simple)) :=
    avoids_qualified unbraced.toAvoids (.append (.literal _ rfl) simple)
  have opening : Text.braceMarks "const char* Name() const \x7b return \"" = ['\x7b'] :=
    Text.braceMarks_ofChars _ rfl
  have closing : Text.braceMarks "\"; \x7d" = ['\x7d'] := Text.braceMarks_ofChars _ rfl
  rw [Layout.Balanced]
  simp (disch := first | assumption | exact .literal _ rfl) [declareFactory, factoryClass,
    exported, hookName, Text.Avoids.braceMarks_eq, opening, closing]
  decide

/-- **The classes in the header are balanced.** -/
theorem balanced_classes (unbraced : subject.Unbraced) {layout : Layout}
    (done : subject.classes = .ok layout) : layout.Balanced := by
  rw [classes, bind_eq_ok_iff] at done
  obtain ⟨abstractClass, abstractDone, done⟩ := done
  obtain ⟨final, finalDone, done⟩ := bind_eq_ok_iff.mp done
  cases done
  exact ((balanced_declareAbstract unbraced abstractDone).append
    (balanced_declareFinal unbraced finalDone)).append (balanced_declareFactory unbraced)

/-- Methods in the source are balanced if their bodies are. -/
theorem balanced_flatten_defined {qualifier : String} {names : Prop} (holds : names)
    (qualified : Text.Avoids isBrace qualifier) {methods : List Method} {inners : List Layout}
    (avoids : ∀ signature ∈ methods.map Method.signed, signature.Avoids isBrace)
    (closed : List.Forall₂ (fun _ inner => inner.Closed names) methods inners) :
    Layout.Balanced (List.zipWith (Method.defined qualifier) methods inners).flatten := by
  induction closed with
  | nil => exact .nil
  | @cons method inner methods inners own _ ih =>
    rw [List.map_cons, List.forall_mem_cons] at avoids
    refine .append (.line ?_ (own.balanced holds).braces) (ih avoids.2)
    rw [method.signature_eq_defined]
    exact avoids.1.defined qualified

theorem balanced_defineAbstract (unbraced : subject.Unbraced) {layout : Layout}
    (done : subject.defineAbstract = .ok layout) : layout.Balanced := by
  have own := avoids_adapterName unbraced.toAvoids
  have simple := avoids_simple unbraced.name
  have remote := avoids_remote unbraced.toAvoids
  have joined := unbraced.name.joined
  have accessor := avoids_downcastCall unbraced.name
  have root : Layout.Balanced
      (if subject.settings.isRoot subject.name then subject.defineRootMembers else []) := by
    split
    · have constructor : Text.braceMarks "() : _refcount(1) \x7b\x7d;" = ['\x7b', '\x7d'] :=
        Text.braceMarks_ofChars _ rfl
      rw [Layout.Balanced]
      simp (disch := first | assumption | exact .literal _ rfl) [defineRootMembers,
        Text.Avoids.braceMarks_eq, constructor]
      decide
    · exact .nil
  have unwrap : subject.defineUnwrap.Balanced := by
    rw [Layout.Balanced]
    simp (disch := first | assumption | exact .literal _ rfl) [defineUnwrap, unwrapName,
      Text.Avoids.braceMarks_eq]
    decide
  obtain ⟨inners, next, written, closed⟩ := Method.exists_layoutAll_definition
    subject.settings.root (qualifierIn .definition (subject.settings.adapterName subject.name)) 0
    subject.writable_methods
  rw [defineAbstract, methodsLayout, written] at done
  cases done
  exact (root.append unwrap).append (balanced_flatten_defined ⟨unbraced.root, unbraced.toAvoids⟩
    (.append own (.literal _ rfl))
    (subject.map_signed_methods.symm ▸ avoids_signatures unbraced.toAvoids) closed)

theorem balanced_defineFinal (unbraced : subject.Unbraced) {layout : Layout}
    (done : subject.defineFinal = .ok layout) : layout.Balanced := by
  have simple := unbraced.simple
  have final : Text.Avoids isBrace (finalClass subject.decl.name) :=
    .append (.literal _ rfl) simple
  have full := avoids_qualified unbraced.toAvoids final
  have remote := avoids_remote unbraced.toAvoids
  obtain ⟨inners, next, written, closed⟩ := Method.exists_layoutAll_definition
    subject.settings.root (subject.qualified (finalClass subject.decl.name) ++ "::") 0
    (subject.writable_downcasts True)
  rw [defineFinal, written] at done
  cases done
  refine .append ?_ (balanced_flatten_defined ⟨unbraced.root, trivial⟩
    (.append full (.literal _ rfl))
    (subject.map_signed_downcasts.symm ▸ avoids_accessorSignatures unbraced.toAvoids) closed)
  rw [Layout.Balanced]
  simp (disch := first | assumption | exact .literal _ rfl) [Text.Avoids.braceMarks_eq]
  decide

theorem balanced_defineFactory (unbraced : subject.Unbraced) :
    subject.defineFactory.Balanced := by
  have simple := avoids_simple unbraced.name
  have joined := unbraced.name.joined
  have own : Text.Avoids isBrace (factoryClass subject.name.simple) :=
    .append (.literal _ rfl) simple
  have full := avoids_qualified unbraced.toAvoids own
  rw [Layout.Balanced]
  simp (disch := first | assumption | exact .literal _ rfl) [defineFactory, factoryInstance,
    Text.Avoids.braceMarks_eq]
  decide

theorem balanced_defineHook (unbraced : subject.Unbraced) : subject.defineHook.Balanced := by
  have simple := avoids_simple unbraced.name
  have joined := unbraced.name.joined
  have opening : Text.braceMarks "() \x7b " = ['\x7b'] := Text.braceMarks_ofChars _ rfl
  have closing : Text.braceMarks ".Name(); \x7d" = ['\x7d'] := Text.braceMarks_ofChars _ rfl
  rw [Layout.Balanced]
  simp (disch := first | assumption | exact .literal _ rfl) [defineHook, factoryInstance,
    hookName, Text.Avoids.braceMarks_eq, opening, closing]
  decide

/-- **The members in the source are balanced.** -/
theorem balanced_members (unbraced : subject.Unbraced) {layout : Layout}
    (done : subject.members = .ok layout) : layout.Balanced := by
  rw [members, bind_eq_ok_iff] at done
  obtain ⟨abstractClass, abstractDone, done⟩ := done
  obtain ⟨final, finalDone, done⟩ := bind_eq_ok_iff.mp done
  cases done
  exact ((balanced_defineAbstract unbraced abstractDone).append
    (balanced_defineFinal unbraced finalDone)).append (balanced_defineFactory unbraced)

end Subject

end Adapter

end IdlBridge
