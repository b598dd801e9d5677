import IdlBridge.Adapter.Classes
import IdlBridge.Proofs.Adapter.Bodies
import Mathlib.Data.List.Forall2

/-!
# Methods in the two files

The header and the source of a class are written from one list of methods. In the header a method
is one line (`Method.layoutAll_declaration`). In the source it is one line and a body between
braces, and no method of a class fails to be written (`Method.exists_layoutAll_definition`,
`Subject.writable_methods`, `Subject.writable_downcasts`).
-/

set_option autoImplicit false

namespace IdlBridge.Adapter

open Text (isBrace)

namespace Method

/-- Methods are written into the header without fail, one line each. -/
theorem layoutAll_declaration (root : ScopedName) (qualifier : String) (loops : Nat)
    (methods : List Method) :
    layoutAll .declaration root qualifier loops methods =
      .ok ((methods.map fun method => method.signature "" ++ ";").map Piece.line, loops) := by
  induction methods generalizing loops with
  | nil => rfl
  | cons method methods ih =>
    simp only [layoutAll, layout, bind, Except.bind, ih]
    rfl

/-- A method in the source: its signature and its body. -/
def defined (qualifier : String) (method : Method) (inner : Layout) : Layout :=
  .line (method.signature qualifier) :: Layout.braces inner

theorem keepsLevel_defined (qualifier : String) (method : Method) {inner : Layout}
    (keeps : inner.KeepsLevel) : (method.defined qualifier inner).KeepsLevel :=
  keeps.braces

/-- **Methods with writable bodies are written into the source**, each with one body that is back
at its own level. -/
theorem exists_layoutAll_definition (root : ScopedName) (qualifier : String) (loops : Nat)
    {unbraced : Prop} {methods : List Method}
    (writable : ∀ method ∈ methods, method.body.Writable unbraced) :
    ∃ inners next, layoutAll .definition root qualifier loops methods =
        .ok ((List.zipWith (defined qualifier) methods inners).flatten, next) ∧
      List.Forall₂ (fun _ inner => inner.Closed (root.Avoids isBrace ∧ unbraced)) methods
        inners := by
  induction methods generalizing loops with
  | nil => exact ⟨[], loops, rfl, .nil⟩
  | cons method methods ih =>
    obtain ⟨inner, middle, done, closed⟩ :=
      Body.exists_layout root (writable method List.mem_cons_self)
    obtain ⟨inners, next, later, rest⟩ :=
      ih middle fun other listed => writable other (List.mem_cons_of_mem _ listed)
    refine ⟨inner :: inners, next, ?_, .cons closed rest⟩
    simp only [layoutAll, layout, definition, done, later, bind, Except.bind]
    rfl

end Method

namespace Subject

variable (subject : Subject)

/-- The declarations of the callables of the interface, in order. -/
def callables : List Decl :=
  match subject.decl.interface? with
  | some parts => parts.callables.filterMap subject.tree.decl?
  | none => []

theorem methods_eq :
    subject.methods =
      subject.callables.flatMap (callableMethods subject.settings subject.name) := by
  rw [methods, callables]
  cases subject.decl.interface? <;> rfl

/-- All names from which the classes are written avoid the characters. -/
structure Avoids (chosen : Char → Bool) : Prop where
  outer : Text.Avoids chosen subject.settings.outer
  root : subject.settings.root.Avoids chosen
  simple : Text.Avoids chosen subject.decl.name
  name : subject.name.Avoids chosen
  callables : ∀ callable ∈ subject.callables, callable.Avoids chosen
  bases : ∀ base ∈ subject.tree.linearize subject.id,
    (subject.tree.scopedName base).Avoids chosen

instance (chosen : Char → Bool) : Decidable (subject.Avoids chosen) :=
  decidable_of_iff
    (Text.Avoids chosen subject.settings.outer ∧ subject.settings.root.Avoids chosen ∧
      Text.Avoids chosen subject.decl.name ∧ subject.name.Avoids chosen ∧
      (∀ callable ∈ subject.callables, callable.Avoids chosen) ∧
      ∀ base ∈ subject.tree.linearize subject.id, (subject.tree.scopedName base).Avoids chosen)
    ⟨fun ⟨outer, root, simple, name, callables, bases⟩ =>
      ⟨outer, root, simple, name, callables, bases⟩,
     fun avoids =>
      ⟨avoids.outer, avoids.root, avoids.simple, avoids.name, avoids.callables, avoids.bases⟩⟩

theorem Avoids.mono {chosen other : Char → Bool} {subject : Subject}
    (fewer : ∀ c, other c = true → chosen c = true) (avoids : subject.Avoids chosen) :
    subject.Avoids other where
  outer := avoids.outer.mono fewer
  root := avoids.root.mono fewer
  simple := avoids.simple.mono fewer
  name := avoids.name.mono fewer
  callables callable isCallable := (avoids.callables callable isCallable).mono fewer
  bases base isBase := (avoids.bases base isBase).mono fewer

theorem writable_methods :
    ∀ method ∈ subject.methods, method.body.Writable (subject.Avoids isBrace) := by
  intro method listed
  rw [methods_eq] at listed
  obtain ⟨callable, isCallable, listed⟩ := List.mem_flatMap.mp listed
  exact (writable_of_mem_callableMethods listed).mono fun avoids =>
    ⟨avoids.name, avoids.callables callable isCallable⟩

theorem writable_downcasts (unbraced : Prop) :
    ∀ method ∈ subject.downcasts, method.body.Writable unbraced := by
  intro method listed
  obtain ⟨base, -, rfl⟩ := List.mem_map.mp listed
  exact .line (fun _ => .literal _ rfl) .nil

end Subject

end IdlBridge.Adapter
