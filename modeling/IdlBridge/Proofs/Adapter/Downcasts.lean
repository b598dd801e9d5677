import IdlBridge.DeclTree.Draft
import IdlBridge.Proofs.Adapter.Signatures
import IdlBridge.Proofs.DeclTree.Linearization

/-!
# Downcast accessors

The abstract class of an interface declares one pure virtual accessor, which gives the remote
object as that interface (`Subject.declaresPure_declareAbstract`). A class inherits the accessors
of every class that can be reached along the heads, and the final class has to provide them all.
It does, with one accessor for each interface that is reached, however many paths lead there: these
are the accessors that the final class declares and defines (`Subject.accessors_declareFinal`,
`Subject.accessors_defineFinal`), and it has no others.
-/

set_option autoImplicit false

namespace IdlBridge.Adapter

/-! ## Pure virtual methods -/

/-- A layout declares a pure virtual method with the given signature. -/
def Layout.DeclaresPure (layout : Layout) (signature : String) : Prop :=
  .line ("virtual " ++ signature ++ " = 0;") ∈ layout

namespace Layout

@[simp]
theorem declaresPure_append {first second : Layout} {signature : String} :
    DeclaresPure (first ++ second) signature ↔
      first.DeclaresPure signature ∨ second.DeclaresPure signature :=
  List.mem_append

@[simp]
theorem declaresPure_indented {inner : Layout} {signature : String} :
    (indented inner).DeclaresPure signature ↔ inner.DeclaresPure signature := by
  simp [DeclaresPure, indented]

/-- Lines that begin or end otherwise declare no pure virtual method. -/
theorem not_declaresPure {layout : Layout} {signature : String}
    (other : ∀ line, .line line ∈ layout → line.toList.take 2 ≠ ['v', 'i'] ∨
      line.toList.reverse.take 2 ≠ [';', '0']) :
    ¬ layout.DeclaresPure signature := by
  intro declared
  rcases other _ declared with front | back
  · exact front (by simp)
  · exact back (by simp)

end Layout

/-! ## Lines of accessors -/

/-- The text of a line that begins with a remote type and has the given end. -/
def Piece.accessor? (ending : String) : Piece → Option String
  | .line text =>
    if "::".toList <+: text.toList ∧ ending.toList <:+ text.toList then some text else none
  | _ => none

/-- The lines of a final class that declare or define accessors: those that begin with a remote type
and have the given end. -/
def Layout.accessors (ending : String) (layout : Layout) : List String :=
  layout.filterMap (Piece.accessor? ending)

namespace Layout

variable {ending : String}

theorem accessors_nil : accessors ending [] = [] := rfl

theorem accessors_cons (piece : Piece) (layout : Layout) :
    accessors ending (piece :: layout) =
      (piece.accessor? ending).toList ++ layout.accessors ending := by
  rw [accessors, List.filterMap_cons]
  cases piece.accessor? ending <;> rfl

theorem accessors_append (first second : Layout) :
    accessors ending (first ++ second) = first.accessors ending ++ second.accessors ending :=
  List.filterMap_append

/-- Lines that are all of that shape. -/
theorem accessors_lines {lines : List String}
    (shaped : ∀ line ∈ lines, "::".toList <+: line.toList ∧ ending.toList <:+ line.toList) :
    accessors ending (lines.map .line) = lines := by
  have own : ∀ line ∈ lines, (Piece.accessor? ending ∘ Piece.line) line = some line :=
    fun line listed => if_pos (shaped line listed)
  rw [accessors, List.filterMap_map, List.filterMap_congr own, List.filterMap_some]

end Layout

namespace Subject

variable (subject : Subject)

/-- The methods of callables may throw the local exception. -/
theorem throws_of_mem_methods {method : Method} (listed : method ∈ subject.methods) :
    method.throws = throwsLocal := by
  rw [methods] at listed
  split at listed
  · obtain ⟨callable, -, listed⟩ := List.mem_flatMap.mp listed
    rw [callableMethods] at listed
    split at listed
    · cases List.mem_singleton.mp listed
      rfl
    · obtain ⟨name, -, listed⟩ := List.mem_flatMap.mp listed
      rcases List.mem_cons.mp listed with rfl | setter
      · rfl
      · split at setter
        · cases setter
        · cases List.mem_singleton.mp setter
          rfl
    · cases listed
  · cases listed

/-- The signature of the accessor that gives the remote object as the interface. -/
def downcastSignature : String :=
  subject.remote ++ "_ptr " ++ downcastName subject.name ++ "()"

theorem declaresPure_declareAccessors {signature : String} :
    subject.declareAccessors.DeclaresPure signature ↔ signature = subject.downcastSignature := by
  have split : subject.declareAccessors =
      [subject.exported (subject.remote ++ "_ptr " ++ unwrapName subject.name ++ "()")] ++
        [.line ("virtual " ++ subject.downcastSignature ++ " = 0;")] := by
    simp [declareAccessors, downcastSignature, String.append_assoc]
  rw [split, Layout.declaresPure_append, or_iff_right]
  · simp [Layout.DeclaresPure, String.append_assoc]
  · exact Layout.not_declaresPure (by simp [exported, publicPre])

theorem not_declaresPure_declareRootMembers {signature : String} :
    ¬ subject.declareRootMembers.DeclaresPure signature :=
  Layout.not_declaresPure (by simp [declareRootMembers, Layout.indented])

/-- **An abstract class declares one pure virtual method, its downcast accessor.** Its bases stand
in its head. -/
theorem declaresPure_declareAbstract :
    ∃ layout, subject.declareAbstract = .ok layout ∧
      .line ("  : " ++ Text.join ", " subject.heads) ∈ layout ∧ ∀ signature,
      layout.DeclaresPure signature ↔ signature = subject.downcastSignature := by
  have inHeader := Method.layoutAll_declaration subject.settings.root
    (qualifierIn .declaration (subject.settings.adapterName subject.name)) 0 subject.methods
  rw [declareAbstract, methodsLayout, inHeader]
  refine ⟨_, rfl, by simp, fun signature => ?_⟩
  have noMethod : ¬ Layout.DeclaresPure
      ((subject.methods.map fun method => method.signature "" ++ ";").map Piece.line)
      signature := by
    refine Layout.not_declaresPure fun line listed => .inr ?_
    obtain ⟨method, isMethod, rfl⟩ : ∃ method ∈ subject.methods,
        method.signature "" ++ ";" = line := by simpa using listed
    simp [Method.signature, subject.throws_of_mem_methods isMethod, throwsLocal]
  have noRoot : ¬ Layout.DeclaresPure
      (if subject.settings.isRoot subject.name then subject.declareRootMembers else [])
      signature := by
    split
    · exact subject.not_declaresPure_declareRootMembers
    · exact Layout.not_declaresPure (by simp)
  have noHead : ∀ exports : Bool, ¬ Layout.DeclaresPure
      (if exports then
        [.line (publicPre subject.guard ++ " "),
         .line ("class " ++ publicPost subject.guard ++ " " ++ subject.decl.name)]
      else [.line ("class " ++ subject.decl.name)]) signature := by
    intro exports
    refine Layout.not_declaresPure ?_
    cases exports <;> simp [publicPre]
  have noBrace : ¬ Layout.DeclaresPure
      [.line ("  : " ++ Text.join ", " subject.heads), .line "\x7b"] signature :=
    Layout.not_declaresPure (by simp)
  have noPublic : ¬ Layout.DeclaresPure [.line "public:"] signature :=
    Layout.not_declaresPure (by simp)
  have noDestructor : ¬ Layout.DeclaresPure
      [.line ("virtual ~" ++ subject.decl.name ++ "()\x7b\x7d")] signature :=
    Layout.not_declaresPure (by simp)
  have noEnd : ¬ Layout.DeclaresPure [.line "\x7d;"] signature := Layout.not_declaresPure (by simp)
  simp only [Layout.declaresPure_append, Layout.declaresPure_indented,
    declaresPure_declareAccessors, noMethod, noRoot, noHead, noBrace, noPublic, noDestructor,
    noEnd, or_false, false_or]

/-! ## What the final class provides -/

/-- The subject of another interface of the same tree. -/
def other (id : DeclId) (decl : Decl) : Subject :=
  { subject with id, decl }

/-- The class of one interface has the class of the other among its bases. -/
def HeadNames (derived base : DeclId) : Prop :=
  ∃ decl inheritance, subject.tree.decl? derived = some decl ∧
    .adapter base inheritance ∈ (subject.other derived decl).bases

/-- The classes in the heads are those of the direct bases. -/
theorem headNames_iff {derived base : DeclId} :
    subject.HeadNames derived base ↔ subject.tree.HasBase subject.settings.root derived base := by
  have mem_bases : ∀ decl inheritance,
      .adapter base inheritance ∈ (subject.other derived decl).bases ↔
        (base, inheritance) ∈ subject.tree.edges subject.settings.root derived := by
    intro decl inheritance
    simp [bases, other]
  constructor
  · rintro ⟨decl, inheritance, -, isHead⟩
    exact ⟨inheritance, (mem_bases decl inheritance).mp isHead⟩
  · rintro ⟨inheritance, isEdge⟩
    have declared : ∃ decl, subject.tree.decl? derived = some decl := by
      cases found : subject.tree.decl? derived with
      | some decl => exact ⟨decl, rfl⟩
      | none => simp [DeclTree.edges, DeclTree.interface?, found] at isEdge
    obtain ⟨decl, found⟩ := declared
    exact ⟨decl, inheritance, found, (mem_bases decl inheritance).mpr isEdge⟩

/-- The accessors of the final class are those that the listed interfaces declare. -/
theorem forall₂_downcasts :
    List.Forall₂
      (fun base accessor => ∃ decl, subject.tree.decl? base = some decl ∧
        accessor.signature "" = (subject.other base decl).downcastSignature)
      (subject.tree.linearize subject.id) subject.downcasts := by
  rw [downcasts, List.forall₂_map_right_iff, List.forall₂_same]
  intro base listed
  have isInterface := DeclTree.isInterface_of_mem_linearize listed
  obtain ⟨decl, found⟩ : ∃ decl, subject.tree.decl? base = some decl :=
    ⟨_, Array.getElem?_eq_getElem (DeclTree.lt_size_of_isInterface isInterface)⟩
  refine ⟨decl, found, ?_⟩
  rw [← String.toList_inj]
  simp [Method.signature, downcastSignature, remote, name, other, DeclTree.scopedName, found]

/-! ## Accessors in the final class -/

/-- All accessors return the one object, and so their signatures begin and end alike. -/
theorem shape_of_mem_downcasts {accessor : Method} (listed : accessor ∈ subject.downcasts) :
    accessor.body = .fixed [.line "return _objref;"] ∧
      ∀ qualifier, ∃ inner, accessor.signature qualifier = "::" ++ inner ++ "()" := by
  obtain ⟨base, -, rfl⟩ := List.mem_map.mp listed
  refine ⟨rfl, fun qualifier => ⟨(subject.tree.scopedName base).text ++ "_ptr" ++ " " ++
    qualifier ++ downcastName (subject.tree.scopedName base), ?_⟩⟩
  rw [← String.toList_inj]
  simp [Method.signature]

/-- The lines of accessors in the header. -/
theorem accessors_declared :
    Layout.accessors "();" ((subject.downcasts.map
      fun accessor => accessor.signature "" ++ ";").map Piece.line) =
      subject.downcasts.map fun accessor => accessor.signature "" ++ ";" := by
  refine Layout.accessors_lines fun line listed => ?_
  obtain ⟨accessor, isAccessor, rfl⟩ := List.mem_map.mp listed
  obtain ⟨inner, signed⟩ := (subject.shape_of_mem_downcasts isAccessor).2 ""
  rw [signed]
  simp [← List.reverse_prefix]

/-- The lines of accessors in the source, where each has a body. -/
theorem accessors_defined (qualifier : String) :
    Layout.accessors "()" (subject.downcasts.flatMap
      fun accessor => accessor.defined qualifier [.line "return _objref;"]) =
      subject.downcasts.map (·.signature qualifier) := by
  have shapes := fun accessor => @shape_of_mem_downcasts subject accessor
  generalize subject.downcasts = accessors at shapes
  induction accessors with
  | nil => rfl
  | cons accessor accessors ih =>
    obtain ⟨inner, signed⟩ := (shapes accessor List.mem_cons_self).2 qualifier
    have isAccessor : "::".toList <+: (accessor.signature qualifier).toList ∧
        "()".toList <:+ (accessor.signature qualifier).toList := by
      rw [signed]
      simp [← List.reverse_prefix]
    have body : Layout.accessors "()" (Layout.braces [.line "return _objref;"]) = [] := by decide
    rw [List.flatMap_cons, Method.defined, List.cons_append, Layout.accessors_cons,
      Piece.accessor?, if_pos isAccessor, Layout.accessors_append, body,
      ih fun other listed => shapes other (List.mem_cons_of_mem _ listed)]
    rfl

/-- The accessors are written into the source, all with the same body. -/
theorem layoutAll_downcasts (qualifier : String) :
    ∃ loops, Method.layoutAll .definition subject.settings.root qualifier 0 subject.downcasts =
      .ok (subject.downcasts.flatMap
        fun accessor => accessor.defined qualifier [.line "return _objref;"], loops) := by
  have bodies : ∀ accessor ∈ subject.downcasts, accessor.body = .fixed [.line "return _objref;"] :=
    fun accessor listed => (subject.shape_of_mem_downcasts listed).1
  generalize subject.downcasts = accessors at bodies
  generalize 0 = loops
  induction accessors generalizing loops with
  | nil => exact ⟨loops, rfl⟩
  | cons accessor accessors ih =>
    rw [List.forall_mem_cons] at bodies
    obtain ⟨last, done⟩ := ih bodies.2 0
    refine ⟨last, ?_⟩
    simp only [Method.layoutAll, Method.layout, Method.definition, bodies.1, Body.layout, bind,
      Except.bind, done]
    rfl

/-- **The final class declares the accessors and no others.** -/
theorem accessors_declareFinal :
    ∃ layout, subject.declareFinal = .ok layout ∧ layout.accessors "();" =
      subject.downcasts.map fun accessor => accessor.signature "" ++ ";" := by
  rw [declareFinal, Method.layoutAll_declaration]
  refine ⟨_, rfl, ?_⟩
  have lines := subject.accessors_declared
  generalize List.map Piece.line _ = accessors at lines ⊢
  simp [Layout.accessors_append, Layout.accessors_cons, Layout.accessors_nil, Layout.indented,
    Layout.braces, Layout.block, Piece.accessor?, exported, publicPre, remote,
    ← List.reverse_prefix, lines]

/-- **And it defines them and no others**, to return its object. -/
theorem accessors_defineFinal :
    ∃ layout, subject.defineFinal = .ok layout ∧
      layout.accessors "()" = subject.downcasts.map
        (·.signature (subject.qualified (finalClass subject.decl.name) ++ "::")) ∧
      subject.downcasts.flatMap (fun accessor => accessor.defined
        (subject.qualified (finalClass subject.decl.name) ++ "::") [.line "return _objref;"]) <:+:
          layout := by
  obtain ⟨loops, done⟩ :=
    subject.layoutAll_downcasts (subject.qualified (finalClass subject.decl.name) ++ "::")
  obtain ⟨layout, written, inside⟩ := isInfix_defineFinal done
  refine ⟨layout, written, ?_, inside⟩
  rw [defineFinal, done] at written
  cases written
  rw [← accessors_defined]
  simp [Layout.accessors_cons, Layout.indented, Layout.braces, Layout.block, Piece.accessor?,
    ← List.reverse_prefix]

/-- A diamond of interfaces with a way back from its top to its bottom, in which one of the two
sides is written through a typedef. -/
def diamond : Subject :=
  let draft := ((((Draft.empty "d.idl").addInterface none "Top").addInterface none "Left")
    |>.addInterface none "Right").addInterface none "Bottom"
  let draft := draft.addTypedef none "Side" (.interface ⟨["Right"]⟩)
  let draft := ((draft.addBase 1 0).addBase 2 0).addBase 3 1
  { settings := .default
    tree := ((draft.addBase 3 5).addBase 0 3).tree
    guard := "d"
    id := 3
    decl := ⟨"Bottom", ⟨["Bottom"]⟩, "d.idl", .interface .empty⟩ }

end Subject

end IdlBridge.Adapter
