/-!
# Blank characters

Names, type expressions and pragma texts are read up to surrounding blanks. A blank is a
character with the Unicode property White_Space, given here as a table of ranges. On top of
the table stand the two ways in which blanks are dropped: trimming the ends of a text, and
cutting a text into its blank-free words.
-/

set_option autoImplicit false

namespace IdlBridge.Text

/-- The code points with the property White_Space, as closed ranges in ascending order. -/
def blankRanges : List (Nat × Nat) :=
  [(0x09, 0x0D), (0x20, 0x20), (0x85, 0x85), (0xA0, 0xA0), (0x1680, 0x1680),
   (0x2000, 0x200A), (0x2028, 0x2029), (0x202F, 0x202F), (0x205F, 0x205F), (0x3000, 0x3000)]

/-- A blank lies in one of the ranges of the table. -/
def isBlank (c : Char) : Bool :=
  blankRanges.any fun range => range.1 ≤ c.toNat && c.toNat ≤ range.2

/-- Drops the blanks in front. -/
def trimFront (cs : List Char) : List Char :=
  cs.dropWhile isBlank

/-- Drops the blanks at the end. -/
def trimBack (cs : List Char) : List Char :=
  (cs.reverse.dropWhile isBlank).reverse

/-- Drops the blanks at both ends. -/
def trimChars (cs : List Char) : List Char :=
  trimBack (trimFront cs)

/-- `trimChars` on strings. -/
def trim (s : String) : String :=
  String.ofList (trimChars s.toList)

/-- The maximal blank-free runs, in order. A character joins the run of its successor unless
that successor is a blank. -/
def wordsOf : List Char → List (List Char)
  | [] => []
  | c :: cs =>
    if isBlank c then wordsOf cs
    else
      match cs, wordsOf cs with
      | d :: _, run :: runs => if isBlank d then [c] :: run :: runs else (c :: run) :: runs
      | _, runs => [c] :: runs

/-- `wordsOf` on strings. -/
def words (s : String) : List String :=
  (wordsOf s.toList).map String.ofList

end IdlBridge.Text
