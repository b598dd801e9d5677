import IdlBridge.Text.Cut
import Mathlib.Data.List.Infix

/-!
# Braces and line ends in texts

Generated text is made of fixed words and of names. The characters that matter to its shape are
braces and line ends. The fixed words avoid them, so a text avoids them if its names do
(`Avoids.literal`, `Avoids.append`, `Avoids.join`).

A text is balanced if none of its beginnings closes more braces than it opens and the whole text
closes as many as it opens. Only the braces of a text count (`balanced_filter`), so the indentation
and the line ends that are added to generated text do not matter. Balanced texts can be put one
after another and between braces. A text that is not balanced by itself leads from one number of
open braces to another (`Nests`).
-/

set_option autoImplicit false

namespace IdlBridge.Text

/-! ## Characters to avoid -/

/-- The two characters that open and close blocks. -/
def isBrace (c : Char) : Bool :=
  c == '\x7b' || c == '\x7d'

/-- Braces and line ends. -/
def isShaping (c : Char) : Bool :=
  isBrace c || c == '\n'

/-- A set of characters that are braces or line ends. -/
class Shaping (chosen : Char → Bool) : Prop where
  shaping : ∀ c, chosen c = true → isShaping c = true

instance : Shaping isBrace := ⟨fun _ brace => by rw [isShaping, brace, Bool.true_or]⟩

instance : Shaping isShaping := ⟨fun _ => id⟩

/-- None of the chosen characters occurs in the text. -/
def Avoids (chosen : Char → Bool) (text : String) : Prop :=
  ∀ c ∈ text.toList, chosen c = false

instance (chosen : Char → Bool) (text : String) : Decidable (Avoids chosen text) :=
  List.decidableBAll (fun c => chosen c = false) text.toList

namespace Avoids

variable {chosen : Char → Bool} {first second : String}

theorem mono {other : Char → Bool} (fewer : ∀ c, other c = true → chosen c = true)
    (avoids : Avoids chosen first) : Avoids other first := by
  intro c listed
  rw [Bool.eq_false_iff]
  intro isOther
  exact Bool.false_ne_true ((avoids c listed).symm.trans (fewer c isOther))

theorem append (before : Avoids chosen first) (after : Avoids chosen second) :
    Avoids chosen (first ++ second) := by
  intro c listed
  rw [String.toList_append, List.mem_append] at listed
  exact listed.elim (before c) (after c)

/-- A text is compared with its characters, which is how a fixed word is seen to avoid them. -/
theorem ofChars (chars : List Char) (plain : chars.filter chosen = []) :
    Avoids chosen (String.ofList chars) := by
  intro c listed
  rw [String.toList_ofList] at listed
  simpa using List.filter_eq_nil_iff.mp plain c listed

theorem join {glue : String} {texts : List String} (between : Avoids chosen glue)
    (each : ∀ text ∈ texts, Avoids chosen text) : Avoids chosen (Text.join glue texts) := by
  fun_induction Text.join glue texts with
  | case1 => exact ofChars [] rfl
  | case2 text => exact each text (List.mem_singleton.mpr rfl)
  | case3 text next texts ih =>
    exact ((each text List.mem_cons_self).append between).append
      (ih fun other listed => each other (List.mem_cons_of_mem _ listed))

variable [Shaping chosen]

/-- A fixed word without braces and line ends avoids each of them. -/
theorem literal (chars : List Char) (plain : chars.filter isShaping = []) :
    Avoids chosen (String.ofList chars) :=
  mono Shaping.shaping (ofChars chars plain)

/-- Numbers are written with digits. -/
theorem ofNat (number : Nat) : Avoids chosen (toString number) := by
  refine mono Shaping.shaping fun c listed => ?_
  have digit : c.isDigit = true :=
    Nat.isDigit_of_mem_toDigits (by decide) (Nat.le_refl 10) (by simpa using listed)
  have different : ∀ other : Char, other.isDigit = false → (c == other) = false := by
    intro other notDigit
    rw [beq_eq_false_iff_ne]
    rintro rfl
    exact Bool.false_ne_true (notDigit.symm.trans digit)
  rw [isShaping, isBrace, different _ rfl, different _ rfl, different _ rfl]
  rfl

end Avoids

/-! ## Balanced braces -/

/-- The braces of a text, in order. -/
def braceMarks (text : String) : List Char :=
  text.toList.filter isBrace

@[simp]
theorem braceMarks_append (first second : String) :
    braceMarks (first ++ second) = braceMarks first ++ braceMarks second := by
  simp [braceMarks]

/-- The braces of a fixed word are read off its characters. -/
theorem braceMarks_ofChars (chars : List Char) {marks : List Char}
    (found : chars.filter isBrace = marks) : braceMarks (String.ofList chars) = marks := by
  rw [braceMarks, String.toList_ofList, found]

@[simp]
theorem braceMarks_open : braceMarks "\x7b" = ['\x7b'] := braceMarks_ofChars _ rfl

@[simp]
theorem braceMarks_close : braceMarks "\x7d;" = ['\x7d'] := braceMarks_ofChars _ rfl

theorem braceMarks_eq_nil_iff {text : String} : braceMarks text = [] ↔ Avoids isBrace text := by
  rw [braceMarks, List.filter_eq_nil_iff, Avoids]
  simp only [Bool.not_eq_true]

theorem Avoids.braceMarks_eq {text : String} (unbraced : Avoids isBrace text) :
    braceMarks text = [] := braceMarks_eq_nil_iff.mpr unbraced

/-- Every beginning opens at least as many braces as it closes, and the whole as many. -/
def Balanced (text : List Char) : Prop :=
  (∀ front, front <+: text → front.count '\x7d' ≤ front.count '\x7b') ∧
    text.count '\x7b' = text.count '\x7d'

instance (text : List Char) : Decidable (Balanced text) :=
  decidable_of_iff
    ((∀ front ∈ text.inits, front.count '\x7d' ≤ front.count '\x7b') ∧
      text.count '\x7b' = text.count '\x7d')
    (by simp [Balanced, List.mem_inits])

theorem Balanced.nil : Balanced [] :=
  ⟨fun front isPrefix => by simp [List.prefix_nil.mp isPrefix], rfl⟩

/-- Read with some braces open, the text leaves others open and closes none that is not. -/
structure Nests (depth next : Nat) (text : List Char) : Prop where
  fronts : ∀ front, front <+: text → front.count '\x7d' ≤ front.count '\x7b' + depth
  whole : text.count '\x7b' + depth = text.count '\x7d' + next

theorem Nests.append {depth middle next : Nat} {first second : List Char}
    (before : Nests depth middle first) (after : Nests middle next second) :
    Nests depth next (first ++ second) := by
  have total := before.whole
  refine ⟨fun front isPrefix => ?_, ?_⟩
  · obtain ⟨back, split⟩ := isPrefix
    rcases List.append_eq_append_iff.mp split with ⟨rest, rfl, -⟩ | ⟨rest, rfl, rfl⟩
    · exact before.fronts front (List.prefix_append front rest)
    · have later := after.fronts rest (List.prefix_append rest back)
      simp only [List.count_append]
      omega
  · have later := after.whole
    simp only [List.count_append]
    omega

theorem balanced_iff_nests {text : List Char} : Balanced text ↔ Nests 0 0 text :=
  ⟨fun balanced => ⟨balanced.1, balanced.2⟩, fun nests => ⟨nests.fronts, nests.whole⟩⟩

/-- Braces that were open before do not matter to a balanced text. -/
theorem Balanced.nests {text : List Char} (balanced : Balanced text) (depth : Nat) :
    Nests depth depth text :=
  ⟨fun front isPrefix => Nat.le_add_right_of_le (balanced.1 front isPrefix),
    congrArg (· + depth) balanced.2⟩

theorem nests_opening (depth : Nat) : Nests depth (depth + 1) ['\x7b'] := by
  refine ⟨fun front isPrefix => ?_, by simp [Nat.add_comm]⟩
  rcases List.prefix_cons_iff.mp isPrefix with rfl | ⟨rest, rfl, inside⟩
  · simp
  · simp [List.prefix_nil.mp inside]

theorem nests_closing (depth : Nat) : Nests (depth + 1) depth ['\x7d'] := by
  refine ⟨fun front isPrefix => ?_, by simp [Nat.add_comm]⟩
  rcases List.prefix_cons_iff.mp isPrefix with rfl | ⟨rest, rfl, inside⟩
  · simp
  · simp [List.prefix_nil.mp inside]

theorem Balanced.append {first second : List Char} (before : Balanced first)
    (after : Balanced second) : Balanced (first ++ second) :=
  balanced_iff_nests.mpr ((balanced_iff_nests.mp before).append (balanced_iff_nests.mp after))

/-- A balanced text between braces is balanced. -/
theorem Balanced.enclosed {inner : List Char} (inside : Balanced inner) :
    Balanced ('\x7b' :: inner ++ ['\x7d']) :=
  balanced_iff_nests.mpr (((nests_opening 0).append (inside.nests 1)).append (nests_closing 0))

/-- Only braces count. -/
theorem balanced_filter {text : List Char} : Balanced (text.filter isBrace) ↔ Balanced text := by
  have closing : ∀ part : List Char, (part.filter isBrace).count '\x7d' = part.count '\x7d' :=
    fun part => List.count_filter (by decide)
  have opening : ∀ part : List Char, (part.filter isBrace).count '\x7b' = part.count '\x7b' :=
    fun part => List.count_filter (by decide)
  constructor
  · rintro ⟨fronts, whole⟩
    refine ⟨fun front isPrefix => ?_, by rwa [opening, closing] at whole⟩
    have := fronts (front.filter isBrace) (isPrefix.filter isBrace)
    rwa [opening, closing] at this
  · rintro ⟨fronts, whole⟩
    refine ⟨fun front isPrefix => ?_, by rwa [opening, closing]⟩
    obtain ⟨back, split⟩ := isPrefix
    obtain ⟨before, after, rfl, rfl, -⟩ := List.filter_eq_append_iff.mp split.symm
    rw [opening, closing]
    exact fronts before (List.prefix_append before after)

end IdlBridge.Text
