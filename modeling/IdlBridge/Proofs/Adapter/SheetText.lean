import IdlBridge.Proofs.Adapter.Layouts
import IdlBridge.Proofs.Text.Pieces

/-!
# The text on a sheet

Writing adds text at the end of a sheet, and what is added does not depend on what is there
(`Sheet.text_writeAll`). A line that holds no line end is added behind the
indentation of the sheet (`Sheet.text_write_line`). Of the braces in a layout none is lost and none
is added (`Sheet.exists_text_writeAll`), so a balanced layout between braces becomes a balanced text
between braces (`Sheet.exists_body`).
-/

set_option autoImplicit false

namespace IdlBridge

/-! ## Cutting at line ends -/

namespace Text

/-- Cutting loses nothing but separators. -/
theorem flatMap_filter_splitChar {keep : Char → Bool} {separator : Char}
    (dropped : keep separator = false) (text : List Char) :
    (splitChar separator text).flatMap (List.filter keep) = text.filter keep := by
  fun_induction splitChar separator text with
  | case1 => rfl
  | case2 text ih => simpa [dropped] using ih
  | case3 c text _ none ih => exact absurd none (splitChar_ne_nil separator text)
  | case4 c text _ piece pieces cut ih =>
    rw [cut, List.flatMap_cons] at ih
    rw [List.flatMap_cons, List.filter_cons, List.filter_cons, ← ih]
    split <;> simp

/-- The pieces of a text, with line ends behind them, make up the text. -/
theorem join_splitChar (text : List Char) :
    String.join ((splitChar '\n' text).map fun line => String.ofList line ++ "\n") =
      String.ofList text ++ "\n" := by
  fun_induction splitChar '\n' text with
  | case1 => rfl
  | case2 text ih =>
    rw [List.map_cons, String.join_cons, ih]
    rw [← String.toList_inj]
    simp
  | case3 c text _ none ih => exact absurd none (splitChar_ne_nil '\n' text)
  | case4 c text _ piece pieces cut ih =>
    rw [cut, List.map_cons, String.join_cons] at ih
    rw [List.map_cons, String.join_cons]
    rw [← String.toList_inj] at ih ⊢
    simpa using ih

theorem braceMarks_join (texts : List String) :
    braceMarks (String.join texts) = texts.flatMap braceMarks := by
  induction texts with
  | nil => rfl
  | cons text texts ih =>
    rw [String.join_cons, braceMarks_append, ih, List.flatMap_cons]

end Text

namespace Adapter

namespace Sheet

variable (sheet : Sheet)

/-- The margin depends on the level and the width alone. -/
theorem margin_congr {sheet other : Sheet} (level : sheet.level = other.level)
    (width : sheet.width = other.width) : sheet.margin = other.margin := by
  rw [margin, margin, fullMargin, fullMargin, level, width]

/-- The spaces in front of a line. -/
def indentation : String :=
  String.ofList (List.replicate sheet.margin ' ')

theorem width_writeAll (layout : Layout) : (sheet.writeAll layout).width = sheet.width := by
  induction layout generalizing sheet with
  | nil => rfl
  | cons piece layout ih =>
    rw [writeAll_cons, ih]
    cases piece <;> rfl

/-- A layout that is back at its own level leaves the indentation as it was. -/
theorem indentation_writeAll {layout : Layout} (keeps : layout.KeepsLevel) :
    (sheet.writeAll layout).indentation = sheet.indentation := by
  rw [indentation, indentation, margin_congr _ (sheet.width_writeAll layout)]
  rw [Layout.level_writeAll, keeps]

@[simp]
theorem indentation_write_line (text : String) :
    (sheet.write (.line text)).indentation = sheet.indentation := rfl

/-- A line is written behind the indentation. -/
theorem text_write_line {text : String} (whole : '\n' ∉ text.toList) (nonempty : text ≠ "") :
    (sheet.write (.line text)).text = sheet.text ++ (sheet.indentation ++ text ++ "\n") := by
  have spelled : lineText sheet.margin text.toList = sheet.indentation ++ text ++ "\n" := by
    cases chars : text.toList with
    | nil => exact absurd (String.toList_eq_nil_iff.mp chars) nonempty
    | cons c rest => rw [lineText, indentation, ← chars, String.ofList_toList]
  rw [write, writeLine, Text.splitChar_of_not_mem whole, ← spelled]
  rfl

theorem foldl_append_eq_join {α : Type} (spell : α → String) (members : List α) (start : String) :
    members.foldl (fun written member => written ++ spell member) start =
      start ++ String.join (members.map spell) := by
  induction members generalizing start with
  | nil => simp
  | cons member members ih =>
    rw [List.foldl_cons, ih, List.map_cons, String.join_cons, String.append_assoc]

/-- At the outermost level a text is written as it is. -/
theorem text_write_line_outermost (outermost : sheet.level = 0) (text : String) :
    (sheet.write (.line text)).text = sheet.text ++ text ++ "\n" := by
  have margin : sheet.margin = 0 := by simp [Sheet.margin, fullMargin, outermost]
  have plain : lineText 0 = fun line => String.ofList line ++ "\n" := by
    funext line
    cases line with
    | nil => rfl
    | cons c line => simp [lineText]
  rw [write, writeLine, margin, foldl_append_eq_join, plain, Text.join_splitChar,
    String.ofList_toList, String.append_assoc]

/-- The sheet without its text. -/
def cleared : Sheet :=
  { sheet with text := "", demand := 0 }

theorem text_write (piece : Piece) :
    (sheet.write piece).text = sheet.text ++ (sheet.cleared.write piece).text := by
  cases piece with
  | line text =>
    show List.foldl _ _ _ = _ ++ List.foldl _ _ _
    have same : sheet.cleared.margin = sheet.margin := margin_congr rfl rfl
    rw [foldl_append_eq_join, foldl_append_eq_join, same]
    simp [cleared]
  | blank => simp [write, cleared]
  | indent => simp [write, cleared]
  | dedent => simp [write, cleared]

theorem cleared_write (piece : Piece) :
    (sheet.cleared.write piece).cleared = (sheet.write piece).cleared := by
  cases piece <;> rfl

/-- **What is written stands behind the text that was there**, and does not depend on it. -/
theorem text_writeAll (layout : Layout) :
    (sheet.writeAll layout).text = sheet.text ++ (sheet.cleared.writeAll layout).text := by
  induction layout generalizing sheet with
  | nil => simp [cleared]
  | cons piece layout ih =>
    rw [writeAll_cons, ih, text_write, writeAll_cons, ih (sheet.cleared.write piece),
      cleared_write, String.append_assoc]

/-! ## Braces -/

theorem braceMarks_lineText (margin : Nat) (line : List Char) :
    Text.braceMarks (lineText margin line) = line.filter Text.isBrace := by
  have spaces : (List.replicate margin ' ').filter Text.isBrace = [] := by
    rw [List.filter_replicate, if_neg (by decide)]
  cases line with
  | nil =>
    rw [lineText]
    rfl
  | cons c line =>
    rw [lineText, Text.braceMarks_append, Text.braceMarks_append, Text.braceMarks,
      String.toList_ofList, spaces, Text.braceMarks, String.toList_ofList]
    exact List.append_nil _

theorem exists_text_write (piece : Piece) :
    ∃ added, (sheet.write piece).text = sheet.text ++ added ∧
      Text.braceMarks added = Layout.braceMarks [piece] := by
  cases piece with
  | line text =>
    refine ⟨_, foldl_append_eq_join _ _ _, ?_⟩
    rw [Text.braceMarks_join, List.flatMap_map, Layout.braceMarks_line, Layout.braceMarks_nil,
      List.append_nil]
    simp only [braceMarks_lineText]
    exact Text.flatMap_filter_splitChar rfl text.toList
  | blank => exact ⟨"\n", rfl, rfl⟩
  | indent => exact ⟨"", by simp [write], rfl⟩
  | dedent => exact ⟨"", by simp [write], rfl⟩

/-- **Writing adds text with the braces of the layout and no others.** -/
theorem exists_text_writeAll (layout : Layout) :
    ∃ added, (sheet.writeAll layout).text = sheet.text ++ added ∧
      Text.braceMarks added = layout.braceMarks := by
  induction layout generalizing sheet with
  | nil => exact ⟨"", by simp, rfl⟩
  | cons piece layout ih =>
    obtain ⟨first, written, marks⟩ := sheet.exists_text_write piece
    obtain ⟨rest, behind, others⟩ := ih (sheet.write piece)
    refine ⟨first ++ rest, ?_, ?_⟩
    · rw [writeAll_cons, behind, written, String.append_assoc]
    · rw [Text.braceMarks_append, marks, others, ← Layout.braceMarks_append]
      rfl

/-- A text between braces that stand at the indentation of the sheet. Inside, braces are opened
and closed in pairs. -/
def IsBody (text : String) : Prop :=
  ∃ inner, text = sheet.indentation ++ "\x7b\n" ++ inner ++ sheet.indentation ++ "\x7d\n" ∧
    Text.Balanced inner.toList

theorem writeAll_braces (inner : Layout) :
    sheet.writeAll (Layout.braces inner) =
      ((((sheet.write (.line "\x7b")).write .indent).writeAll inner).write .dedent).write
        (.line "\x7d") := by
  simp [Layout.braces, Layout.block, Layout.indented]

/-- **A closed layout between braces is written as a body.** -/
theorem exists_body {inner : Layout} (keeps : inner.KeepsLevel) (balanced : inner.Balanced) :
    ∃ body, (sheet.writeAll (Layout.braces inner)).text = sheet.text ++ body ∧
      sheet.IsBody body := by
  let opened := (sheet.write (.line "\x7b")).write .indent
  let closed := (opened.writeAll inner).write .dedent
  obtain ⟨text, inside, marks⟩ := opened.exists_text_writeAll inner
  have same : closed.indentation = sheet.indentation := by
    have level : closed.level = sheet.level := by
      show (opened.writeAll inner).level - 1 = sheet.level
      rw [Layout.level_writeAll, keeps]
      rfl
    have width : closed.width = sheet.width := opened.width_writeAll inner
    rw [indentation, indentation, margin_congr level width]
  have front : opened.text = sheet.text ++ (sheet.indentation ++ "\x7b" ++ "\n") :=
    sheet.text_write_line (by decide) (by decide)
  have back : (closed.write (.line "\x7d")).text =
      (opened.writeAll inner).text ++ (sheet.indentation ++ "\x7d" ++ "\n") :=
    same ▸ closed.text_write_line (by decide) (by decide)
  refine ⟨_, ?_, text, rfl, ?_⟩
  · rw [writeAll_braces, back, inside, front]
    simp [String.append_assoc]
  · rw [← Text.balanced_filter]
    show Text.Balanced (Text.braceMarks text)
    rwa [marks]

end Sheet

end Adapter

end IdlBridge
