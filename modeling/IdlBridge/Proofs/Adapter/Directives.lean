import IdlBridge.Adapter.Pass
import IdlBridge.Proofs.Adapter.ClassLayouts
import IdlBridge.Proofs.Success
import Mathlib.Data.List.Basic

/-!
# Include directives of a layout

A line of a layout is a directive if it includes a header by its name in quotes (`Piece.header?`).
No line of a class or of its members is one: each begins with something else than a directive, or
ends with something else than a quotation mark (`Layout.Undirected`). Names may hold any characters,
so both ends of a line are looked at.
-/

set_option autoImplicit false

namespace IdlBridge

/-! ## Ends of texts -/

namespace Text

/-- The text begins, but not as a directive does. -/
def opensPlain (text : String) : Bool :=
  text.toList.head?.any (· != '#')

/-- The text ends, but not as a directive does. -/
def closesPlain (text : String) : Bool :=
  text.toList.getLast?.any (· != '"')

@[simp]
theorem opensPlain_append {front : String} (plain : opensPlain front = true) (back : String) :
    opensPlain (front ++ back) = true := by
  rw [opensPlain, String.toList_append, List.head?_append]
  rw [opensPlain] at plain
  cases first : front.toList.head? with
  | none => simp [first] at plain
  | some c => rwa [first] at plain

@[simp]
theorem closesPlain_append (front : String) {back : String} (plain : closesPlain back = true) :
    closesPlain (front ++ back) = true := by
  rw [closesPlain, String.toList_append, List.getLast?_append]
  rw [closesPlain] at plain
  cases last : back.toList.getLast? with
  | none => simp [last] at plain
  | some c => rwa [last] at plain

end Text

namespace Adapter

/-- The header that a piece includes, if it is a directive. -/
def Piece.header? : Piece → Option String
  | .line text =>
    ((text.toList.dropPrefix? "#include \"".toList).bind (List.dropSuffix? · ['"'])).map
      String.ofList
  | _ => none

theorem Piece.header?_eq_some_iff {piece : Piece} {file : String} :
    piece.header? = some file ↔ piece = includeLine file := by
  cases piece with
  | line text =>
    rw [includeLine, Piece.line.injEq, ← String.toList_inj]
    simp only [header?, Option.map_eq_some_iff, Option.bind_eq_some_iff,
      List.dropPrefix?_eq_some_iff, List.dropSuffix?_eq_some_iff, beq_iff_eq]
    constructor
    · rintro ⟨chars, ⟨rest, ⟨front, cut, rfl⟩, back, rfl, rfl⟩, rfl⟩
      simp [cut]
    · intro spelled
      exact ⟨file.toList, ⟨_, ⟨_, by simpa using spelled, rfl⟩, _, rfl, rfl⟩, String.ofList_toList⟩
  | blank | indent | dedent => simp [header?, includeLine]

theorem Piece.header?_includeLine (file : String) : (includeLine file).header? = some file :=
  header?_eq_some_iff.mpr rfl

theorem Piece.header?_line {text : String}
    (plain : Text.closesPlain text = true ∨ Text.opensPlain text = true) :
    (line text).header? = none := by
  rw [Option.eq_none_iff_forall_ne_some]
  intro file included
  obtain rfl := Piece.line.inj (header?_eq_some_iff.mp included)
  rcases plain with back | front
  · rw [Text.closesPlain, String.toList_append, List.getLast?_append] at back
    simp at back
  · rw [Text.opensPlain, String.toList_append, String.toList_append, List.append_assoc,
      List.head?_append] at front
    simp at front

namespace Layout

/-- The headers that a layout includes, in order. -/
def headers (layout : Layout) : List String :=
  layout.filterMap Piece.header?

theorem headers_flatten (layouts : List Layout) :
    headers layouts.flatten = (layouts.map headers).flatten := by
  rw [headers, List.filterMap_flatten]
  rfl

@[simp]
theorem headers_nil : headers [] = [] :=
  rfl

@[simp]
theorem headers_append (first second : Layout) :
    headers (first ++ second) = first.headers ++ second.headers :=
  List.filterMap_append

@[simp]
theorem headers_includeLine (file : String) (rest : Layout) :
    headers (includeLine file :: rest) = file :: rest.headers :=
  List.filterMap_cons_some (Piece.header?_includeLine file)

@[simp]
theorem headers_blank (rest : Layout) : headers (.blank :: rest) = rest.headers :=
  List.filterMap_cons_none rfl

@[simp]
theorem headers_line {text : String}
    (plain : Text.closesPlain text = true ∨ Text.opensPlain text = true) (rest : Layout) :
    headers (.line text :: rest) = rest.headers :=
  List.filterMap_cons_none (Piece.header?_line plain)

/-- No line of the layout is a directive, as its first or its last character shows. -/
def Undirected (layout : Layout) : Prop :=
  ∀ text, .line text ∈ layout → Text.closesPlain text = true ∨ Text.opensPlain text = true

theorem Undirected.headers_eq {layout : Layout} (plain : layout.Undirected) :
    layout.headers = [] := by
  rw [headers, List.filterMap_eq_nil_iff]
  intro piece listed
  cases piece with
  | line text => exact Piece.header?_line (plain text listed)
  | blank | indent | dedent => rfl

@[simp]
theorem undirected_nil : Undirected [] := by
  simp [Undirected]

@[simp]
theorem undirected_append {first second : Layout} :
    Undirected (first ++ second) ↔ first.Undirected ∧ second.Undirected := by
  simp [Undirected, or_imp, forall_and]

@[simp]
theorem undirected_line {text : String} {rest : Layout} :
    Undirected (.line text :: rest) ↔
      (Text.closesPlain text = true ∨ Text.opensPlain text = true) ∧ rest.Undirected := by
  simp [Undirected, or_imp, forall_and]

@[simp]
theorem undirected_indented {inner : Layout} :
    (indented inner).Undirected ↔ inner.Undirected := by
  simp [Undirected, indented]

@[simp]
theorem undirected_braces {inner : Layout} : (braces inner).Undirected ↔ inner.Undirected := by
  rw [braces, block, List.cons_append, undirected_line, undirected_append, undirected_indented]
  simp +decide

end Layout

/-! ## Bodies -/

theorem undirected_valueToLocal (type : IdlType) (source target : String) (element : Bool) :
    (valueToLocal type source target element).Undirected := by
  simp only [valueToLocal]
  split <;> simp +decide

theorem undirected_valueToRemote (root : ScopedName) (type : IdlType) (source target : String) :
    (valueToRemote root type source target).Undirected := by
  rw [valueToRemote.eq_def]
  split <;> simp +decide

theorem undirected_freeValue (type : IdlType) (place : String) :
    (freeValue type place).Undirected := by
  rw [freeValue.eq_def]
  split <;> simp +decide

theorem undirected_releaseReference (place : String) : (releaseReference place).Undirected := by
  simp +decide [releaseReference]

theorem undirected_loop {body : Layout} (index bound : String) (plain : body.Undirected) :
    (loop index bound body).Undirected := by
  simp +decide [loop, plain]

theorem undirected_nestedSequence (name : ScopedName) : (nestedSequence name).Undirected := by
  simp +decide [nestedSequence]

namespace Step

variable {root : ScopedName} {loops next : Nat} {layout : Layout}

theorem undirected_layout_toLocal {name : ScopedName} {element : IdlType}
    {source target : String} {length? : Option String} {allocate : Bool}
    (done : (toLocal (.sequence name element) source target length? allocate).layout root loops =
      .ok (layout, next)) : layout.Undirected := by
  obtain ⟨length, -, done⟩ := bind_eq_ok_iff.mp done
  split at done
  · cases done
    exact undirected_nestedSequence name
  · cases done
    have copied := undirected_loop (loopVariable loops) length (undirected_valueToLocal element
      (elementOf source (loopVariable loops)) (elementOf target (loopVariable loops)) true)
    cases allocate <;> simp +decide [copied]

theorem undirected_layout_toRemote {name : ScopedName} {element : IdlType}
    {source target : String} {length? : Option String}
    (done : (toRemote (.sequence name element) source target length?).layout root loops =
      .ok (layout, next)) : layout.Undirected := by
  obtain ⟨length, -, done⟩ := bind_eq_ok_iff.mp done
  split at done
  · cases done
    exact undirected_nestedSequence name
  · cases done
    have copied := undirected_loop (loopVariable loops) length (undirected_valueToRemote root
      element (elementOf source (loopVariable loops)) (elementOf target (loopVariable loops)))
    simp +decide [copied]

theorem undirected_layout_freeLocal {name : ScopedName} {element : IdlType} {place : String}
    {length? : Option String}
    (done : (freeLocal (.sequence name element) place length?).layout root loops =
      .ok (layout, next)) : layout.Undirected := by
  obtain ⟨length, -, done⟩ := bind_eq_ok_iff.mp done
  split at done
  · cases done
    exact undirected_nestedSequence name
  · split at done
    · cases done
      have freed := undirected_loop (loopVariable loops) length
        (undirected_freeValue element (elementOf place (loopVariable loops)))
      simp +decide [freed]
    · cases done
      simp +decide

/-- No line of a step is a directive. -/
theorem undirected_layout {step : Step} (done : step.layout root loops = .ok (layout, next)) :
    layout.Undirected := by
  cases step with
  | declareRemote type name =>
    cases done
    simp +decide
  | declareLocal type name =>
    cases done
    simp +decide
  | toLocal type source target length? allocate =>
    cases type with
    | sequence name element => exact undirected_layout_toLocal done
    | basic | enum | interface =>
      cases done
      exact undirected_valueToLocal _ source target false
  | toRemote type source target length? =>
    cases type with
    | sequence name element => exact undirected_layout_toRemote done
    | basic | enum | interface =>
      cases done
      exact undirected_valueToRemote root _ source target
  | freeLocal type place length? =>
    cases type with
    | sequence name element => exact undirected_layout_freeLocal done
    | basic | enum | interface =>
      cases done
      exact undirected_freeValue _ place
  | releaseRemote type place =>
    cases type with
    | interface name =>
      cases done
      exact undirected_releaseReference place
    | sequence name element =>
      cases element with
      | interface =>
        cases done
        exact undirected_loop _ _ (undirected_releaseReference _)
      | basic | enum | sequence =>
        cases done
        exact Layout.undirected_nil
    | basic | enum =>
      cases done
      exact Layout.undirected_nil
  | call result? object method arguments =>
    cases done
    simp +decide
  | giveBack value =>
    cases done
    simp +decide

/-- Steps one after another hold no directive. -/
theorem undirected_layoutAll {steps : List Step}
    (done : layoutAll root loops steps = .ok (layout, next)) : layout.Undirected := by
  induction steps generalizing loops layout with
  | nil =>
    cases done
    exact Layout.undirected_nil
  | cons step steps ih =>
    obtain ⟨⟨first, middle⟩, here, done⟩ := bind_eq_ok_iff.mp done
    obtain ⟨⟨rest, last⟩, later, done⟩ := bind_eq_ok_iff.mp done
    cases done
    exact Layout.undirected_append.mpr ⟨undirected_layout here, ih later⟩

end Step

/-- The lines of a body that are written as they are hold no directive. -/
def Body.Undirected : Body → Prop
  | fixed inner => inner.Undirected
  | guarded _ _ _ _ => True

theorem Body.undirected_layout {root : ScopedName} {body : Body} {loops : Nat} {layout : Layout}
    (plain : body.Undirected) (done : body.layout root = .ok (layout, loops)) :
    layout.Undirected := by
  cases body with
  | fixed inner =>
    cases done
    exact Layout.undirected_braces.mpr plain
  | guarded before inside exception comment =>
    obtain ⟨⟨first, middle⟩, here, done⟩ := bind_eq_ok_iff.mp done
    obtain ⟨⟨rest, last⟩, later, done⟩ := bind_eq_ok_iff.mp done
    cases done
    have front := Step.undirected_layoutAll here
    have back := Step.undirected_layoutAll later
    simp +decide [front, back, handler]

/-! ## Methods -/

namespace Method

/-- Neither the signature of the method nor its body holds a directive. -/
structure Undirected (method : Method) : Prop where
  signed : ∀ qualifier, Text.closesPlain (method.signature qualifier) = true
  body : method.body.Undirected

theorem undirected_layoutAll {root : ScopedName} {qualifier : String} {loops next : Nat}
    {methods : List Method} {layout : Layout} (plain : ∀ method ∈ methods, method.Undirected)
    (done : layoutAll .definition root qualifier loops methods = .ok (layout, next)) :
    layout.Undirected := by
  induction methods generalizing loops layout with
  | nil =>
    cases done
    exact Layout.undirected_nil
  | cons method methods ih =>
    obtain ⟨⟨first, middle⟩, here, done⟩ := bind_eq_ok_iff.mp done
    obtain ⟨⟨rest, last⟩, later, done⟩ := bind_eq_ok_iff.mp done
    obtain ⟨⟨body, count⟩, written, here⟩ := bind_eq_ok_iff.mp here
    cases here
    cases done
    have own := plain method List.mem_cons_self
    have others := ih (fun other listed => plain other (List.mem_cons_of_mem _ listed)) later
    exact Layout.undirected_append.mpr ⟨Layout.undirected_line.mpr
      ⟨.inl (own.signed qualifier), Body.undirected_layout own.body written⟩, others⟩

theorem undirected_operationMethod (settings : Settings) (active : ScopedName) (name : String)
    (operation : Operation) : (operationMethod settings active name operation).Undirected where
  signed qualifier := by simp +decide [signature, operationMethod, throwsLocal]
  body := by
    simp only [operationMethod]
    split
    · simp +decide [addRefBody, Body.Undirected]
    · simp +decide [releaseRefBody, Body.Undirected]
    · simp +decide [queryInterfaceBody, Body.Undirected]
    · trivial

theorem undirected_getterMethod (active : ScopedName) (type : IdlType) (name : String) :
    (getterMethod active type name).Undirected where
  signed qualifier := by simp +decide [signature, getterMethod, throwsLocal]
  body := trivial

theorem undirected_setterMethod (active : ScopedName) (type : IdlType) (name : String) :
    (setterMethod active type name).Undirected where
  signed qualifier := by simp +decide [signature, setterMethod, throwsLocal]
  body := trivial

theorem undirected_of_mem_callableMethods {settings : Settings} {active : ScopedName}
    {callable : Decl} {method : Method}
    (listed : method ∈ callableMethods settings active callable) : method.Undirected := by
  rw [callableMethods] at listed
  split at listed
  · cases List.mem_singleton.mp listed
    exact undirected_operationMethod settings active _ _
  · obtain ⟨name, -, listed⟩ := List.mem_flatMap.mp listed
    rcases List.mem_cons.mp listed with rfl | setter
    · exact undirected_getterMethod active _ name
    · split at setter
      · cases setter
      · cases List.mem_singleton.mp setter
        exact undirected_setterMethod active _ name
  · cases listed

end Method

/-! ## Classes -/

namespace Subject

variable {subject : Subject} {layout : Layout}

theorem undirected_methods : ∀ method ∈ subject.methods, method.Undirected := by
  intro method listed
  rw [methods_eq] at listed
  obtain ⟨callable, -, listed⟩ := List.mem_flatMap.mp listed
  exact Method.undirected_of_mem_callableMethods listed

theorem undirected_downcasts : ∀ method ∈ subject.downcasts, method.Undirected := by
  intro method listed
  obtain ⟨base, -, rfl⟩ := List.mem_map.mp listed
  exact ⟨fun qualifier => by simp +decide [Method.signature], by simp +decide [Body.Undirected]⟩

theorem undirected_signatures (methods : List Method) :
    Layout.Undirected
      ((methods.map fun method => method.signature "" ++ ";").map Piece.line) := by
  intro text listed
  obtain ⟨method, -, rfl⟩ : ∃ method ∈ methods, method.signature "" ++ ";" = text := by
    simpa using listed
  exact .inl (by simp +decide)

/-- No line of the classes in the header is a directive. -/
theorem undirected_classes (done : subject.classes = .ok layout) : layout.Undirected := by
  obtain ⟨abstractClass, abstractDone, done⟩ := bind_eq_ok_iff.mp done
  obtain ⟨final, finalDone, done⟩ := bind_eq_ok_iff.mp done
  cases done
  rw [declareAbstract, methodsLayout, Method.layoutAll_declaration] at abstractDone
  cases abstractDone
  rw [declareFinal, Method.layoutAll_declaration] at finalDone
  cases finalDone
  have declared := undirected_signatures subject.methods
  have accessible := undirected_signatures subject.downcasts
  have visible : Text.opensPlain
      ("class " ++ publicPost subject.guard ++ " " ++ subject.decl.name) = true :=
    Text.opensPlain_append (Text.opensPlain_append (Text.opensPlain_append (by decide) _) _) _
  simp only [Layout.undirected_append]
  refine ⟨⟨?_, ?_⟩, ?_⟩
  · split <;> split <;>
      simp +decide [declared, visible, declareRootMembers, declareAccessors, exported, publicPre,
        -List.map_map]
  · simp +decide [accessible, exported, publicPre, -List.map_map]
  · simp +decide [declareFactory, exported, publicPre]

/-- No line of the members in the source is a directive. -/
theorem undirected_members (done : subject.members = .ok layout) : layout.Undirected := by
  obtain ⟨abstractClass, abstractDone, done⟩ := bind_eq_ok_iff.mp done
  obtain ⟨final, finalDone, done⟩ := bind_eq_ok_iff.mp done
  cases done
  obtain ⟨⟨methods, last⟩, methodsDone, abstractDone⟩ := bind_eq_ok_iff.mp abstractDone
  cases abstractDone
  obtain ⟨⟨accessors, next⟩, accessorsDone, finalDone⟩ := bind_eq_ok_iff.mp finalDone
  cases finalDone
  have defined := Method.undirected_layoutAll undirected_methods methodsDone
  have accessible := Method.undirected_layoutAll undirected_downcasts accessorsDone
  simp only [Layout.undirected_append]
  refine ⟨⟨⟨?_, ?_⟩, ?_⟩, ?_⟩
  · split <;> simp +decide [defineRootMembers, defineUnwrap]
  · simp +decide [defined]
  · simp +decide [accessible]
  · simp +decide [defineFactory]

theorem undirected_defineHook : subject.defineHook.Undirected := by
  simp +decide [defineHook]

end Subject

/-! ## Around the classes -/

theorem undirected_openBlock (name : String) : (Scopes.openBlock name).Undirected := by
  simp +decide [Scopes.openBlock, Layout.Undirected]

theorem undirected_closeBlock : Scopes.closeBlock.Undirected := by
  simp +decide [Scopes.closeBlock, Layout.Undirected]

theorem undirected_banner (filename : String) : (banner filename).Undirected := by
  simp +decide [banner]

/-- The headers that are included at the beginning of a header. -/
theorem headers_headerPreamble (settings : Settings) (fileBase : String) {guard : String}
    (plain : Text.closesPlain guard = true) :
    (headerPreamble settings fileBase guard).headers =
      ["cda_compiler_support.h", "Iface" ++ fileBase ++ ".hxx", fileBase ++ ".hh"] := by
  have guarded : Text.closesPlain (headerGuard settings guard) = true := by
    simp +decide [headerGuard]
  simp +decide [headerPreamble, guarded, plain]

theorem undirected_headerEpilogue (settings : Settings) (guard : String) :
    (headerEpilogue settings guard).Undirected := by
  simp +decide [headerEpilogue, headerGuard, publicPre, publicPost]

end Adapter

end IdlBridge
