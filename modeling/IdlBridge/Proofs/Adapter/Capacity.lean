import IdlBridge.Proofs.Adapter.SheetText

/-!
# The size of a text

What a layout asks for is its text with every margin in full (`Layout.fullText`). A sheet counts the
bytes of it (`Sheet.demand_writeAll`), and as long as a text can have so many bytes, it holds this
text and no other (`Sheet.text_writeAll_of_fits`). So a sheet has a result exactly if the full text
is not too large, and then the result is the full text (`Sheet.result?_writeAll`). One line with a
margin that no text can hold is enough to make it too large (`Layout.margin_lt_size`).
-/

set_option autoImplicit false

namespace IdlBridge

theorem Text.byteSize_eq (text : List Char) :
    byteSize text = (String.ofList text).utf8ByteSize := by
  induction text with
  | nil => rfl
  | cons c text ih =>
    have split : String.ofList (c :: text) = String.singleton c ++ String.ofList text := by
      rw [← String.toList_inj]
      simp
    rw [split, String.utf8ByteSize_append, String.utf8ByteSize_singleton, ← ih]
    rfl

namespace Adapter

/-- The text of a layout that starts at the given level, each line with its margin in full. -/
def Layout.fullText (width : Nat) : (level : Nat) → Layout → String
  | _, [] => ""
  | level, .line text :: layout =>
    String.join ((Text.splitChar '\n' text.toList).map
      (Sheet.lineText (level * width % UInt64.size))) ++ fullText width level layout
  | level, .blank :: layout => "\n" ++ fullText width level layout
  | level, .indent :: layout => fullText width (level + 1) layout
  | level, .dedent :: layout => fullText width (level - 1) layout

namespace Sheet

/-! ## Lines -/

theorem utf8ByteSize_lineText (margin : Nat) (line : List Char) :
    (lineText margin line).utf8ByteSize = lineSize margin line := by
  cases line with
  | nil => rfl
  | cons c line =>
    have spaces : (String.ofList (List.replicate margin ' ')).utf8ByteSize = margin := by
      rw [← Text.byteSize_eq]
      induction margin with
      | zero => rfl
      | succ margin ih =>
        rw [List.replicate_succ, Text.byteSize, List.foldr_cons, ← Text.byteSize, ih]
        exact Nat.add_comm 1 margin
    rw [lineText, lineSize, String.utf8ByteSize_append, String.utf8ByteSize_append, spaces,
      Text.byteSize_eq]
    rfl

/-- The bytes of lines are counted one after the other. -/
theorem foldl_lineSize (margin : Nat) (lines : List (List Char)) (demand : Nat) :
    lines.foldl (fun demand line => demand + lineSize margin line) demand =
      demand + (String.join (lines.map (lineText margin))).utf8ByteSize := by
  induction lines generalizing demand with
  | nil => rfl
  | cons line lines ih =>
    rw [List.foldl_cons, ih, List.map_cons, String.join_cons, String.utf8ByteSize_append,
      utf8ByteSize_lineText, Nat.add_assoc]

/-- A line that a text can hold has its margin in full. -/
theorem lineText_margin {sheet : Sheet} {line : List Char}
    (fits : lineSize sheet.fullMargin line ≤ capacity) :
    lineText sheet.margin line = lineText sheet.fullMargin line := by
  cases line with
  | nil => rfl
  | cons c line =>
    have narrow : sheet.fullMargin ≤ capacity := by
      rw [lineSize] at fits
      omega
    rw [margin, if_pos narrow]

/-! ## Layouts -/

/-- What a sheet is asked to hold is the full text. -/
theorem demand_writeAll (sheet : Sheet) (layout : Layout) :
    (sheet.writeAll layout).demand =
      sheet.demand + (layout.fullText sheet.width sheet.level).utf8ByteSize := by
  induction layout generalizing sheet with
  | nil => rfl
  | cons piece layout ih =>
    rw [writeAll_cons, ih]
    cases piece with
    | line text =>
      show List.foldl _ sheet.demand _ + _ = _
      rw [foldl_lineSize, Layout.fullText, String.utf8ByteSize_append, ← Nat.add_assoc]
      rfl
    | blank =>
      rw [Layout.fullText, String.utf8ByteSize_append, ← Nat.add_assoc]
      rfl
    | indent => rfl
    | dedent => rfl

theorem demand_le_writeAll (sheet : Sheet) (layout : Layout) :
    sheet.demand ≤ (sheet.writeAll layout).demand := by
  rw [demand_writeAll]
  exact Nat.le_add_right _ _

/-- A text that can hold what is asked for has every margin in full. -/
theorem text_write_line_of_fits {sheet : Sheet} {text : String}
    (fits : (sheet.write (.line text)).demand ≤ capacity) :
    (sheet.write (.line text)).text = sheet.text ++
      String.join ((Text.splitChar '\n' text.toList).map (lineText sheet.fullMargin)) := by
  have counted : (sheet.write (.line text)).demand = sheet.demand +
      (String.join ((Text.splitChar '\n' text.toList).map
        (lineText sheet.fullMargin))).utf8ByteSize := foldl_lineSize _ _ _
  show List.foldl _ sheet.text _ = _
  rw [foldl_append_eq_join]
  generalize Text.splitChar '\n' text.toList = lines at counted ⊢
  have same : ∀ line ∈ lines, lineText sheet.margin line = lineText sheet.fullMargin line := by
    intro line listed
    refine lineText_margin ?_
    obtain ⟨before, after, rfl⟩ := List.append_of_mem listed
    rw [List.map_append, List.map_cons, String.join_append, String.join_cons,
      String.utf8ByteSize_append, String.utf8ByteSize_append, utf8ByteSize_lineText] at counted
    omega
  rw [List.map_congr_left same]

/-- **A sheet holds the full text**, if a text can hold it. -/
theorem text_writeAll_of_fits {sheet : Sheet} {layout : Layout}
    (fits : (sheet.writeAll layout).demand ≤ capacity) :
    (sheet.writeAll layout).text = sheet.text ++ layout.fullText sheet.width sheet.level := by
  induction layout generalizing sheet with
  | nil => simp [Layout.fullText]
  | cons piece layout ih =>
    rw [writeAll_cons] at fits ⊢
    rw [ih fits]
    cases piece with
    | line text =>
      rw [text_write_line_of_fits (Nat.le_trans (demand_le_writeAll _ layout) fits),
        String.append_assoc]
      rfl
    | blank => exact String.append_assoc
    | indent => rfl
    | dedent => rfl

/-- **A sheet has a result exactly if the full text is not too large**, and this is the result. -/
theorem result?_writeAll (width : Nat) (layout : Layout) :
    ((empty width).writeAll layout).result? =
      if (layout.fullText width 0).utf8ByteSize ≤ capacity then some (layout.fullText width 0)
      else none := by
  have demand : ((empty width).writeAll layout).demand =
      (layout.fullText width 0).utf8ByteSize := by
    rw [demand_writeAll]
    exact Nat.zero_add _
  rw [result?, demand]
  split
  · rename_i fits
    rw [text_writeAll_of_fits (demand ▸ fits)]
    exact congrArg some String.empty_append
  · rfl

end Sheet

/-! ## Wide margins -/

namespace Layout

theorem fullText_append (width level : Nat) (first second : Layout) :
    fullText width level (first ++ second) =
      fullText width level first ++ fullText width (levelAfter level first) second := by
  induction first generalizing level with
  | nil => exact String.empty_append.symm
  | cons piece first ih =>
    cases piece with
    | line text =>
      rw [List.cons_append, fullText, ih, fullText, levelAfter_line, String.append_assoc]
    | blank =>
      rw [List.cons_append, fullText, ih, fullText, levelAfter_blank, String.append_assoc]
    | indent => exact ih (level + 1)
    | dedent => exact ih (level - 1)

/-- A layout takes more bytes than the margin of any of its lines. -/
theorem margin_lt_size {before after : Layout} {text : String} (whole : '\n' ∉ text.toList)
    (nonempty : text ≠ "") (width level : Nat) :
    levelAfter level before * width % UInt64.size <
      (fullText width level (before ++ .line text :: after)).utf8ByteSize := by
  rw [fullText_append, fullText, Text.splitChar_of_not_mem whole, List.map_singleton,
    String.join_cons, String.join_nil, String.append_empty, String.utf8ByteSize_append,
    String.utf8ByteSize_append, Sheet.utf8ByteSize_lineText]
  cases chars : text.toList with
  | nil => exact absurd (String.toList_eq_nil_iff.mp chars) nonempty
  | cons c rest =>
    rw [Sheet.lineSize]
    omega

end Layout

end Adapter

end IdlBridge
