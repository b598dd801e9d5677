/-!
# Cutting and joining text

Small operations on character lists that the readers and writers share: taking away a fixed
beginning or end, searching for a closing mark, cutting at separators and joining pieces
again. Each reader consumes a prefix of its input and returns the rest, so the lemmas here say
how the lengths of input and rest compare.
-/

set_option autoImplicit false

namespace IdlBridge.Text

/-- What follows `front`, if the text starts with it. -/
def cutFront? : (front text : List Char) → Option (List Char)
  | [], text => some text
  | _ :: _, [] => none
  | f :: front, c :: text => if f = c then cutFront? front text else none

/-- What precedes `back`, if the text ends with it. -/
def cutBack? (back text : List Char) : Option (List Char) :=
  (cutFront? back.reverse text.reverse).map List.reverse

/-- What follows the first occurrence of `mark`. -/
def after? (mark : List Char) : List Char → Option (List Char)
  | [] => cutFront? mark []
  | c :: text =>
    match cutFront? mark (c :: text) with
    | some rest => some rest
    | none => after? mark text

/-- The pieces between the occurrences of a separator character; one more than there are
separators. -/
def splitChar (separator : Char) : List Char → List (List Char)
  | [] => [[]]
  | c :: text =>
    if c = separator then [] :: splitChar separator text
    else
      match splitChar separator text with
      | [] => [[c]]
      | piece :: pieces => (c :: piece) :: pieces

/-- Joins texts with `glue` between each two neighbours. -/
def join (glue : String) : List String → String
  | [] => ""
  | [text] => text
  | text :: next :: texts => text ++ glue ++ join glue (next :: texts)

/-- The bytes that characters take. -/
def byteSize (text : List Char) : Nat :=
  text.foldr (fun c size => c.utf8Size + size) 0

/-- A file's name without its directories and its last extension. Both slashes divide
directories, and a dot in front of the whole name starts no extension. -/
def fileBase (file : String) : String :=
  let name := (file.toList.reverse.takeWhile fun c => c != '/' && c != '\\').reverse
  match name.reverse.dropWhile (· != '.') with
  | [] | [_] => String.ofList name
  | _ :: stem => String.ofList stem.reverse

theorem length_cutFront? {front text rest : List Char} (h : cutFront? front text = some rest) :
    rest.length + front.length = text.length := by
  fun_induction cutFront? front text with
  | case1 => simp_all
  | case2 => simp at h
  | case3 front c text ih => simpa [← Nat.add_assoc] using ih h
  | case4 => simp at h

theorem length_after? {mark text rest : List Char} (h : after? mark text = some rest) :
    rest.length + mark.length ≤ text.length := by
  fun_induction after? mark text with
  | case1 => exact Nat.le_of_eq (length_cutFront? h)
  | case2 c text rest' found =>
    cases h
    exact Nat.le_of_eq (length_cutFront? found)
  | case3 c text _ ih => exact Nat.le_succ_of_le (ih h)

theorem length_dropWhile_le (keep : Char → Bool) (text : List Char) :
    (text.dropWhile keep).length ≤ text.length :=
  (List.dropWhile_sublist keep).length_le

end IdlBridge.Text
