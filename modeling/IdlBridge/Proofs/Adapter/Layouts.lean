import IdlBridge.Adapter.Layout
import IdlBridge.Proofs.Text.Braces

/-!
# Layouts that end as they began

A layout keeps the level if it gives back every indentation it makes, on whatever sheet it is
written; then none of its dedents is lost (`KeepsLevel.supported`). It is balanced if its lines
open and close braces in pairs. Both hold of layouts that are put one after another, and of a
layout that is indented or put between braces, so they are read off the way in which a layout is
made.
-/

set_option autoImplicit false

namespace IdlBridge.Adapter

namespace Sheet

@[simp]
theorem writeAll_nil (sheet : Sheet) : sheet.writeAll [] = sheet := rfl

@[simp]
theorem writeAll_cons (sheet : Sheet) (piece : Piece) (layout : Layout) :
    sheet.writeAll (piece :: layout) = (sheet.write piece).writeAll layout := rfl

@[simp]
theorem writeAll_append (sheet : Sheet) (first second : Layout) :
    sheet.writeAll (first ++ second) = (sheet.writeAll first).writeAll second :=
  List.foldl_append

end Sheet

namespace Layout

/-! ## Levels -/

/-- The level at which a layout ends. -/
def levelAfter (level : Nat) (layout : Layout) : Nat :=
  layout.foldl
    (fun level piece =>
      match piece with
      | .indent => level + 1
      | .dedent => level - 1
      | _ => level)
    level

@[simp]
theorem levelAfter_nil (level : Nat) : levelAfter level [] = level := rfl

@[simp]
theorem levelAfter_line (level : Nat) (text : String) (rest : Layout) :
    levelAfter level (.line text :: rest) = levelAfter level rest := rfl

@[simp]
theorem levelAfter_blank (level : Nat) (rest : Layout) :
    levelAfter level (.blank :: rest) = levelAfter level rest := rfl

@[simp]
theorem levelAfter_append (level : Nat) (first second : Layout) :
    levelAfter level (first ++ second) = levelAfter (levelAfter level first) second :=
  List.foldl_append

@[simp]
theorem levelAfter_indented (level : Nat) (inner : Layout) :
    levelAfter level (indented inner) = levelAfter (level + 1) inner - 1 := by
  rw [indented, List.cons_append]
  exact levelAfter_append (level + 1) inner [.dedent]

@[simp]
theorem levelAfter_braces (level : Nat) (inner : Layout) :
    levelAfter level (braces inner) = levelAfter (level + 1) inner - 1 := by
  rw [braces, block, List.cons_append, levelAfter_line, levelAfter_append, levelAfter_indented]
  rfl

/-- The level of a sheet follows the layout that is written. -/
theorem level_writeAll (sheet : Sheet) (layout : Layout) :
    (sheet.writeAll layout).level = levelAfter sheet.level layout := by
  induction layout generalizing sheet with
  | nil => rfl
  | cons piece layout ih =>
    rw [Sheet.writeAll_cons, ih]
    cases piece <;> rfl

/-- The layout ends at the level at which it began. -/
def KeepsLevel (layout : Layout) : Prop :=
  ∀ level, levelAfter level layout = level

theorem KeepsLevel.append {first second : Layout} (before : first.KeepsLevel)
    (after : second.KeepsLevel) : KeepsLevel (first ++ second) := by
  intro level
  rw [levelAfter_append, before, after]

theorem KeepsLevel.braces {inner : Layout} (keeps : inner.KeepsLevel) :
    (braces inner).KeepsLevel := by
  intro level
  rw [levelAfter_braces, keeps]
  rfl

/-- No dedent of the layout stands at the outermost level, where it has no effect. -/
def Supported (level : Nat) (layout : Layout) : Prop :=
  ∀ before after, layout = before ++ .dedent :: after → 0 < levelAfter level before

theorem levelAfter_succ_le (level : Nat) (layout : Layout) :
    levelAfter (level + 1) layout ≤ levelAfter level layout + 1 := by
  induction layout using List.reverseRecOn with
  | nil => exact Nat.le_refl _
  | append_singleton layout piece ih =>
    rw [levelAfter_append, levelAfter_append]
    cases piece with
    | line | blank => exact ih
    | indent => exact Nat.succ_le_succ ih
    | dedent =>
      show levelAfter (level + 1) layout - 1 ≤ levelAfter level layout - 1 + 1
      omega

/-- **A layout that keeps every level has no dedent without effect.** Such a dedent would end the
layout at the same level from two different ones. -/
theorem KeepsLevel.supported {layout : Layout} (keeps : layout.KeepsLevel) (level : Nat) :
    layout.Supported level := by
  rintro before after rfl
  refine Nat.pos_of_ne_zero fun outermost => ?_
  have higher : levelAfter (level + 1) before - 1 = levelAfter level before - 1 := by
    have bound := levelAfter_succ_le level before
    omega
  have same : levelAfter (level + 1) (before ++ .dedent :: after) =
      levelAfter level (before ++ .dedent :: after) := by
    rw [levelAfter_append, levelAfter_append]
    exact congrArg (levelAfter · after) higher
  rw [keeps, keeps] at same
  exact absurd same (Nat.succ_ne_self level)

/-! ## Braces -/

/-- The braces that a layout writes, in order. -/
def braceMarks (layout : Layout) : List Char :=
  layout.flatMap fun
    | .line text => Text.braceMarks text
    | _ => []

@[simp]
theorem braceMarks_nil : braceMarks [] = [] := rfl

@[simp]
theorem braceMarks_append (first second : Layout) :
    braceMarks (first ++ second) = first.braceMarks ++ second.braceMarks :=
  List.flatMap_append

@[simp]
theorem braceMarks_line (text : String) (rest : Layout) :
    braceMarks (.line text :: rest) = Text.braceMarks text ++ rest.braceMarks := rfl

@[simp]
theorem braceMarks_blank (rest : Layout) : braceMarks (.blank :: rest) = rest.braceMarks := by
  simp [braceMarks]

@[simp]
theorem braceMarks_indented (inner : Layout) : (indented inner).braceMarks = inner.braceMarks := by
  simp [indented, braceMarks]

@[simp]
theorem braceMarks_braces (inner : Layout) :
    (braces inner).braceMarks = '\x7b' :: inner.braceMarks ++ ['\x7d'] := by
  rw [braces, block, List.cons_append, braceMarks_line, braceMarks_append, braceMarks_indented]
  rfl

/-- The lines of the layout open and close braces in pairs. -/
def Balanced (layout : Layout) : Prop :=
  Text.Balanced layout.braceMarks

instance (layout : Layout) : Decidable layout.Balanced :=
  inferInstanceAs (Decidable (Text.Balanced _))

theorem Balanced.nil : Balanced [] := Text.Balanced.nil

theorem Balanced.of_none {layout : Layout} (none : layout.braceMarks = []) : layout.Balanced := by
  rw [Balanced, none]
  exact .nil

/-- A line without braces does not matter. -/
theorem Balanced.line {text : String} {rest : Layout} (unbraced : Text.Avoids Text.isBrace text)
    (balanced : rest.Balanced) : Balanced (.line text :: rest) := by
  rwa [Balanced, braceMarks_line, unbraced.braceMarks_eq]

theorem Balanced.append {first second : Layout} (before : first.Balanced)
    (after : second.Balanced) : Balanced (first ++ second) := by
  rw [Balanced, braceMarks_append]
  exact Text.Balanced.append before after

theorem Balanced.braces {inner : Layout} (balanced : inner.Balanced) :
    (braces inner).Balanced := by
  rw [Balanced, braceMarks_braces]
  exact Text.Balanced.enclosed balanced

/-! ## Both together -/

/-- The layout ends at its own level, and under a condition on its names it is balanced. -/
structure Closed (unbraced : Prop) (layout : Layout) : Prop where
  level : layout.KeepsLevel
  balanced : unbraced → layout.Balanced

namespace Closed

variable {unbraced : Prop}

theorem nil : Closed unbraced [] := ⟨fun _ => rfl, fun _ => .nil⟩

theorem line {text : String} {rest : Layout} (avoids : unbraced → Text.Avoids Text.isBrace text)
    (closed : Closed unbraced rest) : Closed unbraced (.line text :: rest) :=
  ⟨closed.level, fun holds => .line (avoids holds) (closed.balanced holds)⟩

theorem append {first second : Layout} (before : Closed unbraced first)
    (after : Closed unbraced second) : Closed unbraced (first ++ second) :=
  ⟨before.level.append after.level, fun holds =>
    (before.balanced holds).append (after.balanced holds)⟩

theorem braces {inner : Layout} (closed : Closed unbraced inner) :
    Closed unbraced (braces inner) :=
  ⟨closed.level.braces, fun holds => (closed.balanced holds).braces⟩

theorem mono {weaker : Prop} {layout : Layout} (implied : unbraced → weaker)
    (closed : Closed weaker layout) : Closed unbraced layout :=
  ⟨closed.level, fun holds => closed.balanced (implied holds)⟩

end Closed

end Layout

end IdlBridge.Adapter
