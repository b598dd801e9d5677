import IdlBridge.Proofs.Adapter.Methods

/-!
# The classes of an interface in the two files

The header holds the three classes of an interface, the source their members and, inside the
namespace of the interface, the hook. Both are always written, and both end at the level at which
they began (`Subject.exists_classes`, `Subject.exists_members`). What the header declares under its
simple name, the source names in full.
-/

set_option autoImplicit false

namespace IdlBridge.Adapter

namespace Layout

/-- The layout has the head of the class. A word on its visibility may precede the name. -/
def DeclaresClass (layout : Layout) (className : String) : Prop :=
  .line ("class " ++ className) ∈ layout ∨
    ∃ visibility, .line ("class " ++ visibility ++ " " ++ className) ∈ layout

/-- The layout has a line that names a member of the class. -/
def NamesMemberOf (layout : Layout) (className : String) : Prop :=
  ∃ before after, .line (before ++ className ++ "::" ++ after) ∈ layout

theorem DeclaresClass.mono {layout larger : Layout} {className : String}
    (declares : layout.DeclaresClass className) (subset : layout ⊆ larger) :
    larger.DeclaresClass className := by
  rcases declares with plain | ⟨visibility, exported⟩
  · exact .inl (subset plain)
  · exact .inr ⟨visibility, subset exported⟩

theorem NamesMemberOf.mono {layout larger : Layout} {className : String}
    (names : layout.NamesMemberOf className) (subset : layout ⊆ larger) :
    larger.NamesMemberOf className := by
  obtain ⟨before, after, listed⟩ := names
  exact ⟨before, after, subset listed⟩

theorem levelAfter_lines (level : Nat) (texts : List String) :
    levelAfter level (texts.map Piece.line) = level := by
  induction texts with
  | nil => rfl
  | cons text texts ih => exact ih

end Layout

/-- Methods in the source end at the level at which they began. -/
theorem Method.keepsLevel_flatten_defined {qualifier : String} {unbraced : Prop}
    {methods : List Method} {inners : List Layout}
    (closed : List.Forall₂ (fun _ inner => inner.Closed unbraced) methods inners) :
    Layout.KeepsLevel (List.zipWith (Method.defined qualifier) methods inners).flatten := by
  induction closed with
  | nil => exact fun _ => rfl
  | cons own _ ih => exact (keepsLevel_defined _ _ own.level).append ih

namespace Subject

variable (subject : Subject)

/-- The names of the three classes, as the header declares them. -/
def classNames : List String :=
  [subject.decl.name, finalClass subject.decl.name, factoryClass subject.name.simple]

/-- The names of the three classes, as the source writes them. -/
def qualifiedNames : List String :=
  [subject.settings.adapterName subject.name, subject.qualified (finalClass subject.decl.name),
    subject.qualified (factoryClass subject.name.simple)]

/-- The three classes in the header. -/
def classes : Except Error Layout := do
  let abstractClass ← subject.declareAbstract
  let finalClass ← subject.declareFinal
  .ok (abstractClass ++ finalClass ++ subject.declareFactory)

/-- The members of the three classes in the source, without the hook. -/
def members : Except Error Layout := do
  let abstractClass ← subject.defineAbstract
  let finalClass ← subject.defineFinal
  .ok (abstractClass ++ finalClass ++ subject.defineFactory)

/-! ## The header -/

theorem exists_declareAbstract :
    ∃ layout, subject.declareAbstract = .ok layout ∧ layout.KeepsLevel ∧
      layout.DeclaresClass subject.decl.name := by
  rw [declareAbstract, methodsLayout, Method.layoutAll_declaration]
  refine ⟨_, rfl, fun level => ?_, ?_⟩
  · split <;> split <;>
      simp [declareRootMembers, declareAccessors, exported, Layout.levelAfter_lines, -List.map_map]
  · cases subject.decl.interface?.any Interface.exports
    · exact .inl (by simp)
    · exact .inr ⟨publicPost subject.guard, by simp⟩

theorem exists_declareFinal :
    ∃ layout, subject.declareFinal = .ok layout ∧ layout.KeepsLevel ∧
      layout.DeclaresClass (finalClass subject.decl.name) := by
  rw [declareFinal, Method.layoutAll_declaration]
  refine ⟨_, rfl, fun level => ?_, .inl (by simp)⟩
  simp [exported, Layout.levelAfter_lines, -List.map_map]

theorem keepsLevel_declareFactory : subject.declareFactory.KeepsLevel := by
  intro level
  simp [declareFactory, exported]

/-- **The classes are always written into the header**, under their simple names. -/
theorem exists_classes :
    ∃ layout, subject.classes = .ok layout ∧ layout.KeepsLevel ∧
      ∀ className ∈ subject.classNames, layout.DeclaresClass className := by
  obtain ⟨abstractClass, abstractDone, abstractLevel, abstractDeclared⟩ :=
    subject.exists_declareAbstract
  obtain ⟨final, finalDone, finalLevel, finalDeclared⟩ := subject.exists_declareFinal
  have factoryDeclared :
      subject.declareFactory.DeclaresClass (factoryClass subject.name.simple) :=
    .inl (by simp [declareFactory])
  refine ⟨abstractClass ++ final ++ subject.declareFactory, ?_,
    (abstractLevel.append finalLevel).append subject.keepsLevel_declareFactory, ?_⟩
  · rw [classes, abstractDone, finalDone]
    rfl
  · simp only [classNames, List.forall_mem_cons]
    exact ⟨abstractDeclared.mono (by simp), finalDeclared.mono (by simp),
      factoryDeclared.mono (by simp), by simp⟩

/-! ## The source -/

theorem exists_defineAbstract :
    ∃ layout, subject.defineAbstract = .ok layout ∧ layout.KeepsLevel ∧
      layout.NamesMemberOf (subject.settings.adapterName subject.name) := by
  obtain ⟨inners, next, done, closed⟩ := Method.exists_layoutAll_definition subject.settings.root
    (qualifierIn .definition (subject.settings.adapterName subject.name)) 0
    subject.writable_methods
  rw [defineAbstract, methodsLayout, done]
  refine ⟨_, rfl, ?_, subject.remote ++ "_ptr ", unwrapName subject.name ++ "()", ?_⟩
  · refine Layout.KeepsLevel.append (fun level => ?_) (Method.keepsLevel_flatten_defined closed)
    split <;> simp [defineRootMembers, defineUnwrap]
  · simp [defineUnwrap, String.append_assoc]

theorem exists_defineFinal :
    ∃ layout, subject.defineFinal = .ok layout ∧ layout.KeepsLevel ∧
      layout.NamesMemberOf (subject.qualified (finalClass subject.decl.name)) := by
  obtain ⟨inners, next, done, closed⟩ := Method.exists_layoutAll_definition subject.settings.root
    (subject.qualified (finalClass subject.decl.name) ++ "::") 0
    (subject.writable_downcasts True)
  rw [defineFinal, done]
  refine ⟨_, rfl, ?_, "", finalClass subject.decl.name ++ "(" ++ subject.remote ++
    "_ptr _aobjref,::PortableServer::POA_ptr aPp)", ?_⟩
  · refine Layout.KeepsLevel.append (fun level => ?_) (Method.keepsLevel_flatten_defined closed)
    simp
  · simp [String.append_assoc]

theorem keepsLevel_defineFactory : subject.defineFactory.KeepsLevel := by
  intro level
  simp [defineFactory]

/-- **The members of the classes are always written into the source**, under the full names of
their classes. -/
theorem exists_members :
    ∃ layout, subject.members = .ok layout ∧ layout.KeepsLevel ∧
      ∀ className ∈ subject.qualifiedNames, layout.NamesMemberOf className := by
  obtain ⟨abstractClass, abstractDone, abstractLevel, abstractNamed⟩ :=
    subject.exists_defineAbstract
  obtain ⟨final, finalDone, finalLevel, finalNamed⟩ := subject.exists_defineFinal
  have factoryNamed : subject.defineFactory.NamesMemberOf
      (subject.qualified (factoryClass subject.name.simple)) :=
    ⟨"::", factoryClass subject.name.simple ++ "()", by simp [defineFactory, String.append_assoc]⟩
  refine ⟨abstractClass ++ final ++ subject.defineFactory, ?_,
    (abstractLevel.append finalLevel).append subject.keepsLevel_defineFactory, ?_⟩
  · rw [members, abstractDone, finalDone]
    rfl
  · simp only [qualifiedNames, List.forall_mem_cons]
    exact ⟨abstractNamed.mono (by simp), finalNamed.mono (by simp),
      factoryNamed.mono (by simp), by simp⟩

theorem keepsLevel_defineHook : subject.defineHook.KeepsLevel := by
  intro level
  simp [defineHook]

/-! ## Everything about one interface -/

theorem layout_declaration (scopes : Scopes) :
    subject.layout .declaration scopes = subject.classes.map fun classes => (scopes, classes) := by
  rw [layout, classes]
  cases subject.declareAbstract <;> cases subject.declareFinal <;> rfl

/-- In the source, the hook alone stands inside the blocks. -/
theorem layout_definition (scopes : Scopes) :
    subject.layout .definition scopes = subject.members.map fun members =>
      (scopes.materialize.1.escape.1,
        members ++ scopes.materialize.2 ++ subject.defineHook ++
          scopes.materialize.1.escape.2) := by
  rw [layout, members]
  cases subject.defineAbstract <;> cases subject.defineFinal <;> rfl

end Subject

end IdlBridge.Adapter
