import IdlBridge.Text.Cut

/-!
# Layouts

Generated text is first a list of pieces: lines without their indentation, blank lines, and
changes of the indentation level. A sheet turns pieces into text. Keeping the two apart lets
statements about the generated code speak of lines and levels instead of characters.

A text has a limited size, which wide margins exceed soon. A sheet counts the bytes that it is asked
to hold, and what it holds is a result only as long as they do not exceed the limit.
-/

set_option autoImplicit false

namespace IdlBridge.Adapter

/-- A piece of generated text. -/
inductive Piece
  | line (text : String)
  | blank
  | indent
  | dedent
  deriving DecidableEq, Repr, Inhabited

/-- Generated text before it is indented. -/
abbrev Layout := List Piece

namespace Layout

/-- Puts a layout one level deeper. -/
def indented (inner : Layout) : Layout :=
  .indent :: inner ++ [.dedent]

/-- Puts a layout into a block that ends with the given line. -/
def block (inner : Layout) (last : String) : Layout :=
  .line "\x7b" :: indented inner ++ [.line last]

/-- Puts a layout between braces. -/
def braces (inner : Layout) : Layout :=
  block inner "\x7d"

end Layout

/-- The most bytes that a text can have. -/
def capacity : Nat := 9223372036854775807

/-- Text that is being written. -/
structure Sheet where
  text : String
  level : Nat
  /-- The number of spaces for one level. -/
  width : Nat
  /-- The bytes of all that was to be written, with every margin in full. -/
  demand : Nat
  deriving DecidableEq, Repr, Inhabited

namespace Sheet

/-- A sheet without text. -/
def empty (width : Nat) : Sheet :=
  ⟨"", 0, width, 0⟩

/-- The number of spaces that belong in front of a line, in a word of 64 bits, which wraps
around. -/
def fullMargin (sheet : Sheet) : Nat :=
  sheet.level * sheet.width % UInt64.size

/-- The number of spaces that are put in front of a line. None are if no text could hold them: then
the demand exceeds the capacity by itself, and the text is no result. -/
def margin (sheet : Sheet) : Nat :=
  if sheet.fullMargin ≤ capacity then sheet.fullMargin else 0

/-- A line with its margin and its end. An empty line has no margin. -/
def lineText (margin : Nat) : (line : List Char) → String
  | [] => "\n"
  | c :: line => String.ofList (List.replicate margin ' ') ++ String.ofList (c :: line) ++ "\n"

/-- The bytes of a line with its margin and its end. -/
def lineSize (margin : Nat) : (line : List Char) → Nat
  | [] => 1
  | c :: line => margin + Text.byteSize (c :: line) + 1

/-- Writes text at the current level, each of its lines by itself. -/
def writeLine (sheet : Sheet) (text : String) : Sheet :=
  let margin := sheet.margin
  let fullMargin := sheet.fullMargin
  let lines := Text.splitChar '\n' text.toList
  { sheet with
    text := lines.foldl (fun written line => written ++ lineText margin line) sheet.text
    demand := lines.foldl (fun demand line => demand + lineSize fullMargin line) sheet.demand }

/-- Writes a piece. A dedent at level zero has no effect. -/
def write (sheet : Sheet) : Piece → Sheet
  | .line text => sheet.writeLine text
  | .blank => { sheet with text := sheet.text ++ "\n", demand := sheet.demand + 1 }
  | .indent => { sheet with level := sheet.level + 1 }
  | .dedent => { sheet with level := sheet.level - 1 }

/-- Writes all pieces of a layout. -/
def writeAll (sheet : Sheet) (layout : Layout) : Sheet :=
  layout.foldl write sheet

/-- The text on a sheet, unless it was to be larger than a text can be. -/
def result? (sheet : Sheet) : Option String :=
  if sheet.demand ≤ capacity then some sheet.text else none

end Sheet

end IdlBridge.Adapter
