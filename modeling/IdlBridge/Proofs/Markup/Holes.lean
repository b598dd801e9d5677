import IdlBridge.Proofs.Markup.Composition

/-!
# Documents that differ in one element

Reading hands a closed element on to the one around it and never looks inside it again. So documents
that differ in one element only are read in the same way, up to this element. A `Hole` is a family
of elements of this kind. What is read behind the element keeps the family (`Reading.Holed.run`),
until the root is closed (`Reading.Holed.readFrom`).
-/

set_option autoImplicit false

namespace IdlBridge.Markup

/-- The element without its text. -/
def Element.untexted (element : Element) : Element :=
  { element with text := "" }

/-- Elements that have any given one inside them and are the same otherwise. The chain lists the
elements around the hole, innermost first, with the children in front of it. -/
inductive Hole : List Element → (Element → Element) → Prop
  | child (element : Element) (after : List Element) :
      Hole [element] fun inner => { element with children := element.children ++ inner :: after }
  | around {chain : List Element} {fill : Element → Element} (hole : Hole chain fill)
      (element : Element) (after : List Element) :
      Hole (chain ++ [element]) fun inner =>
        { element with children := element.children ++ fill inner :: after }

namespace Hole

variable {chain : List Element} {fill : Element → Element}

theorem ne_nil (hole : Hole chain fill) : chain ≠ [] := by
  cases hole with
  | child => exact List.cons_ne_nil _ _
  | around => exact List.append_ne_nil_of_right_ne_nil _ (List.cons_ne_nil _ _)

theorem exists_name (hole : Hole chain fill) : ∃ name, ∀ inner, (fill inner).name = name := by
  cases hole <;> exact ⟨_, fun _ => rfl⟩

/-- Text can be added beside the hole. -/
theorem exists_text (hole : Hole chain fill) (piece : String) :
    ∃ others, others.map Element.untexted = chain.map Element.untexted ∧
      Hole others fun inner => { fill inner with text := (fill inner).text ++ piece } := by
  cases hole with
  | child element after =>
    exact ⟨[{ element with text := element.text ++ piece }], rfl, .child _ after⟩
  | @around chain fill hole element after =>
    refine ⟨chain ++ [{ element with text := element.text ++ piece }], ?_, .around hole _ after⟩
    rw [List.map_append, List.map_append]
    rfl

/-- Children can be added behind the hole. -/
theorem child_behind (hole : Hole chain fill) (child : Element) :
    Hole chain fun inner => { fill inner with children := (fill inner).children ++ [child] } := by
  cases hole with
  | child element after => simpa using Hole.child element (after ++ [child])
  | around hole element after => simpa using Hole.around hole element (after ++ [child])

end Hole

namespace Reading

/-- What has been read of documents that differ in one element, which is closed. -/
inductive Holed : List Element → (Element → Reading) → Prop
  /-- An element around it is still open. -/
  | opened {chain : List Element} {fill : Element → Element} (hole : Hole chain fill)
      (inner outer : List Element) (root? : Option Element) :
      Holed (chain ++ outer) fun element => ⟨inner ++ fill element :: outer, root?⟩
  /-- It is inside the root. -/
  | closed {chain : List Element} {fill : Element → Element} (hole : Hole chain fill)
      (opened : List Element) : Holed chain fun element => ⟨opened, some (fill element)⟩

namespace Holed

variable {chain : List Element} {state : Element → Reading}

/-- An outcome is the same for all documents, up to the element in which they differ. -/
def Uniform (chain : List Element) (outcome : Element → Except LoadError Reading) : Prop :=
  (∃ cause, ∀ element, outcome element = .error cause) ∨
    ∃ others next, others.map Element.untexted = chain.map Element.untexted ∧
      Holed others next ∧ ∀ element, outcome element = .ok (next element)

theorem place (holed : Holed chain state) (child : Element) :
    Uniform chain fun element => (state element).place child := by
  cases holed with
  | @opened chain fill hole inner outer root? =>
    cases inner with
    | nil =>
      exact .inr ⟨_, _, rfl, .opened (hole.child_behind child) [] outer root?, fun _ => rfl⟩
    | cons first inner =>
      exact .inr ⟨_, _, rfl, .opened hole (_ :: inner) outer root?, fun _ => rfl⟩
  | closed hole opened =>
    cases opened with
    | nil => exact .inl ⟨_, fun _ => rfl⟩
    | cons first opened => exact .inr ⟨_, _, rfl, .closed hole (_ :: opened), fun _ => rfl⟩

theorem start (holed : Holed chain state) (tag : Element) :
    Holed chain fun element => ⟨tag :: (state element).opened, (state element).root?⟩ := by
  cases holed with
  | opened hole inner outer root? => exact .opened hole (tag :: inner) outer root?
  | closed hole opened => exact .closed hole (tag :: opened)

theorem text (holed : Holed chain state) (piece : String) :
    Uniform chain fun element => (state element).step (.text piece) := by
  cases holed with
  | @opened chain fill hole inner outer root? =>
    cases inner with
    | nil =>
      obtain ⟨others, same, added⟩ := hole.exists_text piece
      refine .inr ⟨others ++ outer, _, ?_, .opened added [] outer root?, fun _ => rfl⟩
      rw [List.map_append, List.map_append, same]
    | cons first inner =>
      exact .inr ⟨_, _, rfl, .opened hole (_ :: inner) outer root?, fun _ => rfl⟩
  | closed hole opened =>
    cases opened with
    | nil => exact .inr ⟨_, _, rfl, .closed hole [], fun _ => rfl⟩
    | cons first opened => exact .inr ⟨_, _, rfl, .closed hole (_ :: opened), fun _ => rfl⟩

/-- Closing an element around the hole moves the hole into the next one. -/
theorem stop (holed : Holed chain state) (name : String) :
    Uniform chain fun element => (state element).step (.stop name) := by
  cases holed with
  | @opened chain fill hole inner outer root? =>
    cases inner with
    | nil =>
      obtain ⟨own, named⟩ := hole.exists_name
      by_cases same : own = name
      · have closes : ∀ element, Reading.step ⟨[] ++ fill element :: outer, root?⟩ (.stop name) =
            Reading.place ⟨outer, root?⟩ (fill element) := fun element =>
          if_pos ((named element).trans same)
        simp only [closes]
        cases outer with
        | cons parent outer =>
          exact .inr ⟨_, _, by simp, .opened (hole.around parent []) [] outer root?, fun _ => rfl⟩
        | nil =>
          cases root? with
          | some root => exact .inl ⟨_, fun _ => rfl⟩
          | none => exact .inr ⟨_, _, by simp, .closed hole [], fun _ => rfl⟩
      · refine .inl ⟨.fault (.mismatchedEnd own name), fun element => ?_⟩
        have other : (fill element).name ≠ name := fun alike =>
          same ((named element).symm.trans alike)
        rw [← named element]
        exact if_neg other
    | cons first inner =>
      by_cases same : first.name = name
      · have closes : ∀ element, Reading.step ⟨first :: inner ++ fill element :: outer, root?⟩
            (.stop name) = Reading.place ⟨inner ++ fill element :: outer, root?⟩ first :=
          fun _ => if_pos same
        simp only [closes]
        exact (Holed.opened hole inner outer root?).place first
      · exact .inl ⟨_, fun _ => if_neg same⟩
  | @closed chain fill hole opened =>
    cases opened with
    | nil => exact .inl ⟨_, fun _ => rfl⟩
    | cons first opened =>
      by_cases same : first.name = name
      · have closes : ∀ element, Reading.step ⟨first :: opened, some (fill element)⟩ (.stop name) =
            Reading.place ⟨opened, some (fill element)⟩ first := fun _ => if_pos same
        simp only [closes]
        exact (Holed.closed hole opened).place first
      · exact .inl ⟨_, fun _ => if_neg same⟩

theorem step (holed : Holed chain state) (token : Token) :
    Uniform chain fun element => (state element).step token := by
  cases token with
  | start content =>
    change Uniform chain fun element => Element.ofTag content >>= fun tag =>
      Except.ok ⟨tag :: (state element).opened, (state element).root?⟩
    cases Element.ofTag content with
    | error cause => exact .inl ⟨cause, fun _ => rfl⟩
    | ok tag => exact .inr ⟨_, _, rfl, holed.start tag, fun _ => rfl⟩
  | empty content =>
    change Uniform chain fun element => Element.ofTag content >>= fun tag =>
      (state element).place tag
    cases Element.ofTag content with
    | error cause => exact .inl ⟨cause, fun _ => rfl⟩
    | ok tag => exact holed.place tag
  | stop name => exact holed.stop name
  | text piece => exact holed.text piece

theorem Uniform.bind {outcome : Element → Except LoadError Reading}
    {next : Reading → Except LoadError Reading} (uniform : Uniform chain outcome)
    (continued : ∀ {others state}, Holed others state →
      Uniform others fun element => next (state element)) :
    Uniform chain fun element => outcome element >>= next := by
  rcases uniform with ⟨cause, failed⟩ | ⟨others, state, same, holed, reached⟩
  · exact .inl ⟨cause, fun element => congrArg (· >>= next) (failed element)⟩
  · have onward : ∀ element, outcome element >>= next = next (state element) := fun element =>
      congrArg (· >>= next) (reached element)
    simp only [onward]
    rcases continued holed with failed | ⟨last, final, alsoSame, reached⟩
    · exact .inl failed
    · exact .inr ⟨last, final, alsoSame.trans same, reached⟩

/-- **What is read behind the element keeps the family.** -/
theorem run (holed : Holed chain state) (tokens : List Token) :
    Uniform chain fun element => tokens.foldlM Reading.step (state element) := by
  induction tokens generalizing chain state with
  | nil => exact .inr ⟨chain, state, rfl, holed, fun _ => rfl⟩
  | cons token tokens ih =>
    simp only [List.foldlM_cons]
    exact (holed.step token).bind ih

theorem finish (holed : Holed chain state) {element root : Element}
    (finished : (state element).finish = .ok root) :
    ∃ fill, Hole chain fill ∧ ∀ element, (state element).finish = .ok (fill element) := by
  cases holed with
  | opened hole inner outer root? => simp [Reading.finish] at finished
  | @closed chain fill hole opened =>
    cases opened with
    | nil => exact ⟨fill, hole, fun _ => rfl⟩
    | cons first opened => cases finished

/-- **Documents that differ in one element are read as elements that differ in it.** -/
theorem readFrom (holed : Holed chain state) {text : List Char} {element root : Element}
    (read : (state element).readFrom text = .ok root) :
    ∃ others fill, others.map Element.untexted = chain.map Element.untexted ∧ Hole others fill ∧
      ∀ element, (state element).readFrom text = .ok (fill element) := by
  rcases holed.run (tokensFrom text).tokens with
    ⟨cause, failed⟩ | ⟨others, next, same, kept, reached⟩
  · beta_reduce at failed
    rw [Reading.readFrom, failed] at read
    cases read
  · beta_reduce at reached
    cases sound : (tokensFrom text).fault? with
    | some fault =>
      rw [Reading.readFrom, reached, sound] at read
      cases read
    | none =>
      have onward : ∀ element, (state element).readFrom text = (next element).finish := by
        intro element
        rw [Reading.readFrom, reached, sound]
        rfl
      obtain ⟨fill, hole, finished⟩ := kept.finish ((onward element).symm.trans read)
      exact ⟨others, fill, same, hole, fun element => (onward element).trans (finished element)⟩

end Holed

end Reading

end IdlBridge.Markup
