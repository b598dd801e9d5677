import IdlBridge.Proofs.Adapter.Segments
import IdlBridge.Proofs.Adapter.SheetText

/-!
# Scopes and the blocks in the text

Scopes are entered and left, and their blocks are opened and closed, in any order and any number of
times; more scopes can be left than were entered. What is written this way can be read back: a
reader that sees nothing but lines keeps the names of the blocks that are open (`Blocks.read`).

The counters of the scopes, the level of the text and what the reader finds agree before and after
every move (`Pass.Tracks.move`), and so in every run (`scope_runs_agree`). The reader is given the
lines as they were written. If no name contains a line end, these are the lines of the text without
their indentation (`Sheet.unindentedLines_writeAll`), so the text alone tells which blocks are open.
-/

set_option autoImplicit false

namespace IdlBridge

/-! ## Lines of a text -/

namespace Text

/-- The lines of a text, each of which has a line end, without the spaces in front of them. -/
def unindentedLines (text : String) : List String :=
  (splitChar '\n' text.toList).dropLast.map fun line =>
    String.ofList (line.dropWhile (· == ' '))

theorem unindentedLines_cons {line : String} (whole : '\n' ∉ line.toList) (rest : String) :
    unindentedLines (line ++ "\n" ++ rest) =
      String.ofList (line.toList.dropWhile (· == ' ')) :: unindentedLines rest := by
  have chars : (line ++ "\n" ++ rest).toList = line.toList ++ '\n' :: rest.toList := by
    simp
  rw [unindentedLines, chars, splitChar_append_cons whole,
    List.dropLast_cons_of_ne_nil (splitChar_ne_nil _ _), List.map_cons]
  rfl

end Text

namespace Adapter

/-- The lines of a layout as they are written, each perhaps with line ends in it. -/
def Layout.lines (layout : Layout) : List String :=
  layout.filterMap fun
    | .line text => some text
    | .blank => some ""
    | _ => none

theorem Layout.lines_append (first second : Layout) :
    Layout.lines (first ++ second) = first.lines ++ second.lines :=
  List.filterMap_append

/-- The text is a single line that begins with something else than a space. -/
structure IsPlainLine (text : String) : Prop where
  whole : '\n' ∉ text.toList
  dark : ∃ c rest, text.toList = c :: rest ∧ c ≠ ' '

theorem IsPlainLine.dropWhile_spaces {text : String} (plain : IsPlainLine text) (margin : Nat) :
    (List.replicate margin ' ' ++ text.toList).dropWhile (· == ' ') = text.toList := by
  obtain ⟨c, rest, chars, dark⟩ := plain.dark
  rw [chars, List.dropWhile_append_of_pos (by simp +contextual), List.dropWhile_cons_of_neg]
  simpa using dark

/-- The lines that a layout writes on an empty sheet can be read off the text. -/
theorem Sheet.unindentedLines_writeAll (sheet : Sheet) {layout : Layout}
    (plain : ∀ text, .line text ∈ layout → IsPlainLine text) :
    Text.unindentedLines (sheet.cleared.writeAll layout).text = layout.lines := by
  induction layout generalizing sheet with
  | nil => rfl
  | cons piece layout ih =>
    have later := ih (sheet.write piece) fun text listed =>
      plain text (List.mem_cons_of_mem _ listed)
    have text : (sheet.cleared.writeAll (piece :: layout)).text =
        (sheet.cleared.write piece).text ++ ((sheet.write piece).cleared.writeAll layout).text := by
      rw [writeAll_cons, text_writeAll, cleared_write]
    rw [text]
    cases piece with
    | line line =>
      have own := plain line List.mem_cons_self
      have nonempty : line ≠ "" := by
        obtain ⟨c, rest, chars, -⟩ := own.dark
        rintro rfl
        cases chars
      have written :
          (sheet.cleared.write (.line line)).text = sheet.indentation ++ line ++ "\n" := by
        rw [text_write_line sheet.cleared own.whole nonempty]
        exact String.empty_append
      have chars : (sheet.indentation ++ line).toList =
          List.replicate sheet.margin ' ' ++ line.toList := by
        rw [String.toList_append, indentation, String.toList_ofList]
      have whole : '\n' ∉ (sheet.indentation ++ line).toList := by
        rw [chars, List.mem_append, List.mem_replicate]
        rintro (⟨-, isSpace⟩ | inside)
        · exact absurd isSpace (by decide)
        · exact own.whole inside
      rw [written, Text.unindentedLines_cons whole, later, chars, own.dropWhile_spaces,
        String.ofList_toList]
      rfl
    | blank =>
      have written : (sheet.cleared.write .blank).text = "" ++ "\n" := rfl
      rw [written, Text.unindentedLines_cons (by simp), later]
      rfl
    | indent | dedent =>
      rw [show (sheet.cleared.write _).text = "" from rfl, String.empty_append, later]
      rfl

/-! ## Reading blocks -/

/-- What a reader of lines knows: the open blocks, outermost first, and the name in the last line if
that announced a block. -/
structure Blocks where
  names : List String
  announced? : Option String
  deriving DecidableEq, Repr

namespace Blocks

/-- No block is open. -/
def empty : Blocks := ⟨[], none⟩

/-- The block that a line announces. -/
def name? (line : String) : Option String :=
  (Text.cutFront? "namespace ".toList line.toList).map String.ofList

/-- Reads a line. A block is announced by its name and opened by a brace, and the innermost one is
closed by a brace with a semicolon; there are no other lines. -/
def read (blocks : Blocks) (line : String) : Option Blocks :=
  match blocks.announced? with
  | some name => if line = "\x7b" then some ⟨blocks.names ++ [name], none⟩ else none
  | none =>
    match name? line with
    | some name => some ⟨blocks.names, some name⟩
    | none =>
      if line = "\x7d;" ∧ blocks.names ≠ [] then some ⟨blocks.names.dropLast, none⟩ else none

/-- Reads lines one after the other. -/
def readAll (blocks : Blocks) (lines : List String) : Option Blocks :=
  lines.foldlM read blocks

theorem readAll_append {blocks middle : Blocks} {first second : List String}
    (front : blocks.readAll first = some middle) :
    blocks.readAll (first ++ second) = middle.readAll second := by
  rw [readAll] at front
  rw [readAll, List.foldlM_append, front]
  rfl

theorem name?_announcement (name : String) : name? ("namespace " ++ name) = some name := by
  rw [name?, String.toList_append, Text.cutFront?_front, Option.map_some, String.ofList_toList]

theorem readAll_openBlock (names : List String) (name : String) :
    readAll ⟨names, none⟩ (Scopes.openBlock name).lines = some ⟨names ++ [name], none⟩ := by
  have lines : (Scopes.openBlock name).lines = ["namespace " ++ name, "\x7b"] := rfl
  rw [lines, readAll, List.foldlM_cons, read, name?_announcement]
  rfl

theorem readAll_closeBlock (names : List String) (name : String) :
    readAll ⟨names ++ [name], none⟩ Scopes.closeBlock.lines = some ⟨names, none⟩ := by
  have lines : Scopes.closeBlock.lines = ["\x7d;"] := rfl
  have unnamed : name? "\x7d;" = none := by decide
  rw [lines, readAll, List.foldlM_cons, read, unnamed]
  simp

theorem readAll_openBlocks (names more : List String) :
    readAll ⟨names, none⟩ (Layout.lines (more.flatMap Scopes.openBlock)) =
      some ⟨names ++ more, none⟩ := by
  induction more generalizing names with
  | nil => rw [List.append_nil]; rfl
  | cons name more ih =>
    rw [List.flatMap_cons, Layout.lines_append, readAll_append (readAll_openBlock names name), ih,
      List.append_assoc, List.singleton_append]

theorem readAll_closeBlocks (names : List String) :
    readAll ⟨names, none⟩
      (Layout.lines (List.replicate names.length Scopes.closeBlock).flatten) =
        some ⟨[], none⟩ := by
  induction names using List.reverseRecOn with
  | nil => rfl
  | append_singleton names name ih =>
    rw [List.length_append, List.length_singleton, List.replicate_succ, List.flatten_cons,
      Layout.lines_append, readAll_append (readAll_closeBlock names name), ih]

end Blocks

/-! ## Moves -/

namespace Scopes

/-- What can be done with scopes. -/
inductive Move
  | enter (name : String)
  | leave
  | materialize
  | escape
  deriving DecidableEq, Repr

/-- The scopes after a move, and what is to be written. -/
def move (scopes : Scopes) : Move → Scopes × Layout
  | .enter name => (scopes.enter name, [])
  | .leave => scopes.leave
  | .materialize => scopes.materialize
  | .escape => scopes.escape

/-- All that is written in a run. -/
def written (scopes : Scopes) : List Move → Layout
  | [] => []
  | move :: moves => (scopes.move move).2 ++ (scopes.move move).1.written moves

end Scopes

/-- Makes a move and writes what it asks for. -/
def Pass.move (pass : Pass) (move : Scopes.Move) : Pass :=
  pass.writeScoped (pass.scopes.move move)

/-- Makes moves one after the other. -/
def Pass.moveAll (pass : Pass) (moves : List Scopes.Move) : Pass :=
  moves.foldl Pass.move pass

namespace Pass

/-- The scopes agree with what was written on the sheet. -/
structure Tracks (width : Nat) (layout : Layout) (pass : Pass) : Prop where
  depth_le : pass.scopes.depth ≤ pass.scopes.stack.length
  counted : pass.scopes.opened = pass.scopes.closed + pass.scopes.depth
  level : pass.sheet.level = pass.scopes.depth
  sheet : pass.sheet = (Sheet.empty width).writeAll layout
  read : Blocks.empty.readAll layout.lines = some ⟨pass.scopes.blocks, none⟩

namespace Tracks

variable {width : Nat} {layout : Layout} {pass : Pass}

theorem start (settings : Settings) : Tracks settings.indentWidth [] (Pass.start settings) :=
  ⟨Nat.zero_le _, rfl, rfl, rfl, rfl⟩

/-- A change of the scopes that asks for the right text. -/
theorem writeScoped (tracks : Tracks width layout pass) {change : Scopes × Layout}
    (depth_le : change.1.depth ≤ change.1.stack.length)
    (counted : change.1.opened = change.1.closed + change.1.depth)
    (level : Layout.levelAfter pass.scopes.depth change.2 = change.1.depth)
    (read : Blocks.readAll ⟨pass.scopes.blocks, none⟩ change.2.lines =
      some ⟨change.1.blocks, none⟩) :
    Tracks width (layout ++ change.2) (pass.writeScoped change) where
  depth_le := depth_le
  counted := counted
  level := by rw [sheet_writeScoped, Layout.level_writeAll, tracks.level, level, scopes_writeScoped]
  sheet := by rw [sheet_writeScoped, Sheet.writeAll_append, tracks.sheet]
  read := by
    rw [Layout.lines_append, Blocks.readAll_append tracks.read, read, scopes_writeScoped]

theorem enter (tracks : Tracks width layout pass) (name : String) :
    Tracks width (layout ++ (pass.scopes.move (.enter name)).2) (pass.move (.enter name)) := by
  have blocks : (pass.scopes.enter name).blocks = pass.scopes.blocks :=
    List.take_append_of_le_length tracks.depth_le
  refine tracks.writeScoped ?_ ?_ ?_ ?_
  · rw [Scopes.move, Scopes.enter, List.length_append]
    exact Nat.le_add_right_of_le tracks.depth_le
  · exact tracks.counted
  · rfl
  · rw [Scopes.move, blocks]
    rfl

/-- At most the block of the scope that is left is closed. -/
theorem leave (tracks : Tracks width layout pass) :
    Tracks width (layout ++ pass.scopes.leave.2) (pass.writeScoped pass.scopes.leave) := by
  have bounded := tracks.depth_le
  have counted := tracks.counted
  have shorter : pass.scopes.stack.dropLast.length = pass.scopes.stack.length - 1 :=
    List.length_dropLast
  by_cases isOpen : pass.scopes.depth > pass.scopes.stack.dropLast.length
  · -- The blocks of all scopes are open, and there is a scope to leave.
    have deepest : pass.scopes.depth = pass.scopes.stack.dropLast.length + 1 := by omega
    have nonempty : pass.scopes.stack ≠ [] := by
      rintro empty
      simp [empty] at isOpen bounded
      omega
    have blocks : pass.scopes.blocks =
        pass.scopes.stack.dropLast ++ [pass.scopes.stack.getLast nonempty] := by
      rw [Scopes.blocks, List.take_of_length_le (by omega), List.dropLast_append_getLast]
    have left : pass.scopes.leave = (⟨pass.scopes.stack.dropLast, pass.scopes.stack.dropLast.length,
        pass.scopes.opened, pass.scopes.closed + 1⟩, Scopes.closeBlock) := by
      rw [Scopes.leave, if_pos isOpen]
    rw [left]
    refine tracks.writeScoped (Nat.le_refl _) ?_ ?_ ?_
    · show pass.scopes.opened = pass.scopes.closed + 1 + pass.scopes.stack.dropLast.length
      omega
    · rw [deepest]
      rfl
    · rw [blocks, Blocks.readAll_closeBlock, Scopes.blocks, List.take_length]
  · have blocks : pass.scopes.stack.dropLast.take pass.scopes.depth = pass.scopes.blocks := by
      rw [Scopes.blocks, List.dropLast_eq_take, List.take_take, Nat.min_eq_left (by omega)]
    have left : pass.scopes.leave = (⟨pass.scopes.stack.dropLast, pass.scopes.depth,
        pass.scopes.opened, pass.scopes.closed⟩, []) := by
      rw [Scopes.leave, if_neg isOpen]
    rw [left]
    refine tracks.writeScoped (Nat.le_of_not_gt isOpen) counted rfl ?_
    rw [← blocks]
    rfl

theorem materialize (tracks : Tracks width layout pass) :
    Tracks width (layout ++ pass.scopes.materialize.2)
      (pass.writeScoped pass.scopes.materialize) := by
  have bounded := tracks.depth_le
  have counted := tracks.counted
  have missing : (pass.scopes.stack.drop pass.scopes.depth).length =
      pass.scopes.stack.length - pass.scopes.depth := List.length_drop
  refine tracks.writeScoped (Nat.le_refl _) ?_ ?_ ?_
  · show pass.scopes.opened + (pass.scopes.stack.drop pass.scopes.depth).length =
      pass.scopes.closed + pass.scopes.stack.length
    omega
  · rw [Scopes.materialize, levelAfter_openBlocks, missing]
    exact Nat.add_sub_cancel' bounded
  · rw [Scopes.materialize, Blocks.readAll_openBlocks, Scopes.blocks, List.take_append_drop,
      Scopes.blocks, List.take_length]

theorem escape (tracks : Tracks width layout pass) :
    Tracks width (layout ++ pass.scopes.escape.2) (pass.writeScoped pass.scopes.escape) := by
  have depth : pass.scopes.blocks.length = pass.scopes.depth := by
    rw [Scopes.blocks, List.length_take, Nat.min_eq_left tracks.depth_le]
  refine tracks.writeScoped (Nat.zero_le _) tracks.counted ?_ ?_
  · rw [Scopes.escape, levelAfter_closeBlocks, Nat.sub_self]
  · rw [Scopes.escape, ← depth, Blocks.readAll_closeBlocks]
    rfl

/-- **Every move keeps the scopes and the text in agreement.** -/
theorem move (tracks : Tracks width layout pass) (move : Scopes.Move) :
    Tracks width (layout ++ (pass.scopes.move move).2) (pass.move move) := by
  cases move with
  | enter name => exact tracks.enter name
  | leave => exact tracks.leave
  | materialize => exact tracks.materialize
  | escape => exact tracks.escape

theorem moveAll (tracks : Tracks width layout pass) (moves : List Scopes.Move) :
    Tracks width (layout ++ pass.scopes.written moves) (pass.moveAll moves) := by
  induction moves generalizing pass layout with
  | nil => rwa [Scopes.written, List.append_nil]
  | cons move moves ih =>
    rw [Scopes.written, ← List.append_assoc]
    exact ih (tracks.move move)

end Tracks

/-! ## Plain names -/

theorem isPlainLine_of_mem_openBlocks {names : List String}
    (whole : ∀ name ∈ names, '\n' ∉ name.toList) {text : String}
    (listed : .line text ∈ names.flatMap Scopes.openBlock) : IsPlainLine text := by
  obtain ⟨name, isName, inBlock⟩ := List.mem_flatMap.mp listed
  simp only [Scopes.openBlock, List.mem_cons, Piece.line.injEq, reduceCtorEq, List.not_mem_nil,
    or_false] at inBlock
  rcases inBlock with rfl | rfl
  · refine ⟨?_, 'n', "amespace ".toList ++ name.toList, ?_, by decide⟩
    · rw [String.toList_append, List.mem_append, not_or]
      exact ⟨by decide, whole name isName⟩
    · rw [String.toList_append]
      rfl
  · exact ⟨by decide, '\x7b', [], rfl, by decide⟩

theorem isPlainLine_of_mem_closeBlocks {count : Nat} {text : String}
    (listed : .line text ∈ (List.replicate count Scopes.closeBlock).flatten) :
    IsPlainLine text := by
  obtain ⟨block, isBlock, inBlock⟩ := List.mem_flatten.mp listed
  cases List.eq_of_mem_replicate isBlock
  simp only [Scopes.closeBlock, List.mem_cons, Piece.line.injEq, reduceCtorEq, List.not_mem_nil,
    or_false, false_or] at inBlock
  subst inBlock
  exact ⟨by decide, '\x7d', [';'], rfl, by decide⟩

end Pass

/-- The name that a move brings in. -/
def Scopes.Move.name? : Scopes.Move → Option String
  | enter name => some name
  | _ => none

namespace Scopes

/-- A move writes plain lines, and brings in a plain name at most. -/
theorem isPlainLine_move {scopes : Scopes} (whole : ∀ name ∈ scopes.stack, '\n' ∉ name.toList)
    (move : Move) (named : ∀ name ∈ move.name?, '\n' ∉ name.toList) :
    (∀ name ∈ (scopes.move move).1.stack, '\n' ∉ name.toList) ∧
      ∀ text, .line text ∈ (scopes.move move).2 → IsPlainLine text := by
  cases move with
  | enter name =>
    refine ⟨fun other listed => ?_, fun _ listed => absurd listed List.not_mem_nil⟩
    rcases List.mem_append.mp listed with before | new
    · exact whole other before
    · cases List.mem_singleton.mp new
      exact named name rfl
  | leave =>
    have inner : ∀ name ∈ scopes.stack.dropLast, '\n' ∉ name.toList :=
      fun name listed => whole name (List.mem_of_mem_dropLast listed)
    rw [Scopes.move, Scopes.leave]
    split
    · refine ⟨inner, fun text listed => ?_⟩
      have closing : closeBlock = (List.replicate 1 closeBlock).flatten := rfl
      exact Pass.isPlainLine_of_mem_closeBlocks (closing ▸ listed)
    · exact ⟨inner, fun _ listed => absurd listed List.not_mem_nil⟩
  | materialize =>
    exact ⟨whole, fun text listed => Pass.isPlainLine_of_mem_openBlocks
      (fun name missing => whole name (List.mem_of_mem_drop missing)) listed⟩
  | escape => exact ⟨whole, fun text listed => Pass.isPlainLine_of_mem_closeBlocks listed⟩

theorem isPlainLine_written {scopes : Scopes}
    (whole : ∀ name ∈ scopes.stack, '\n' ∉ name.toList) (moves : List Move)
    (named : ∀ name ∈ moves.filterMap Move.name?, '\n' ∉ name.toList) :
    ∀ text, .line text ∈ scopes.written moves → IsPlainLine text := by
  induction moves generalizing scopes with
  | nil => exact fun _ listed => absurd listed List.not_mem_nil
  | cons move moves ih =>
    have own : ∀ name ∈ move.name?, '\n' ∉ name.toList := fun name isName =>
      named name (List.mem_filterMap.mpr ⟨move, List.mem_cons_self, isName⟩)
    have others : ∀ name ∈ moves.filterMap Move.name?, '\n' ∉ name.toList := by
      intro name listed
      obtain ⟨other, isMove, isName⟩ := List.mem_filterMap.mp listed
      exact named name (List.mem_filterMap.mpr ⟨other, List.mem_cons_of_mem _ isMove, isName⟩)
    obtain ⟨still, plain⟩ := isPlainLine_move whole move own
    intro text listed
    rcases List.mem_append.mp listed with first | later
    · exact plain text first
    · exact ih still others text later

end Scopes

/-- **Counters and text agree in every run.** Whatever moves are made, no more blocks are open than
there are scopes, every block that was opened has been closed or is open, and the level of the text
is the number of open blocks. Who reads the lines that were written finds that the open blocks are
those of the outermost scopes, in order. If no name contains a line end, the lines can be read off
the text. -/
theorem scope_runs_agree (settings : Settings) (moves : List Scopes.Move) :
    let pass := (Pass.start settings).moveAll moves
    let layout := (Scopes.start settings.outer).written moves
    pass.scopes.depth ≤ pass.scopes.stack.length ∧
      pass.scopes.opened = pass.scopes.closed + pass.scopes.depth ∧
      pass.sheet.level = pass.scopes.depth ∧
      pass.sheet = (Sheet.empty settings.indentWidth).writeAll layout ∧
      Blocks.empty.readAll layout.lines =
        some ⟨pass.scopes.stack.take pass.scopes.depth, none⟩ ∧
      ((∀ name ∈ settings.outer :: moves.filterMap Scopes.Move.name?, '\n' ∉ name.toList) →
        Blocks.empty.readAll (Text.unindentedLines pass.sheet.text) =
          some ⟨pass.scopes.stack.take pass.scopes.depth, none⟩) := by
  intro pass layout
  have tracks : Pass.Tracks settings.indentWidth layout pass :=
    (Pass.Tracks.start settings).moveAll moves
  refine ⟨tracks.depth_le, tracks.counted, tracks.level, tracks.sheet, tracks.read, fun whole => ?_⟩
  rw [List.forall_mem_cons] at whole
  have outer : ∀ name ∈ (Scopes.start settings.outer).stack, '\n' ∉ name.toList := by
    intro name listed
    cases List.mem_singleton.mp listed
    exact whole.1
  have plain := Scopes.isPlainLine_written outer moves whole.2
  have lines : Text.unindentedLines pass.sheet.text = layout.lines := by
    rw [tracks.sheet]
    exact (Sheet.empty settings.indentWidth).unindentedLines_writeAll plain
  rw [lines]
  exact tracks.read

/-- Blocks are closed and opened again, more scopes are left than were entered, and a block is
opened behind that. -/
def leavingMoves : List Scopes.Move :=
  [.enter "m", .materialize, .escape, .materialize, .leave, .leave, .leave, .enter "k",
    .materialize]

theorem leavingMoves_read :
    (∀ name ∈ Settings.default.outer :: leavingMoves.filterMap Scopes.Move.name?,
      '\n' ∉ name.toList) ∧
    Blocks.empty.readAll
        (Text.unindentedLines ((Pass.start .default).moveAll leavingMoves).sheet.text) =
      some ⟨["k"], none⟩ := by
  have whole : ∀ name ∈ Settings.default.outer :: leavingMoves.filterMap Scopes.Move.name?,
      '\n' ∉ name.toList := by
    decide
  obtain ⟨-, -, -, -, -, read⟩ := scope_runs_agree .default leavingMoves
  exact ⟨whole, read whole⟩

end Adapter

end IdlBridge
