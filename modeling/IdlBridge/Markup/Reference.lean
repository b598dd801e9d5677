import IdlBridge.Text.Cut

/-!
# References in attribute values

Inside an attribute value `&name;` stands for one of five marks and `&#n;` or `&#xn;` for the
character with that number. Reading a value replaces each reference once and fails on
anything else that starts with `&`. Writing a value uses the five names.
-/

set_option autoImplicit false

namespace IdlBridge.Markup

/-- The value of a digit in the given base, `10` or `16`. -/
def digitValue? (base : Nat) (c : Char) : Option Nat :=
  let value :=
    if '0' ≤ c ∧ c ≤ '9' then some (c.toNat - '0'.toNat)
    else if 'a' ≤ c ∧ c ≤ 'f' then some (c.toNat - 'a'.toNat + 10)
    else if 'A' ≤ c ∧ c ≤ 'F' then some (c.toNat - 'A'.toNat + 10)
    else none
  value.filter (· < base)

/-- The number that a non-empty list of digits denotes. -/
def number? (base : Nat) : List Char → Option Nat
  | [] => none
  | digits => digits.foldlM (fun value c => (digitValue? base c).map (value * base + ·)) 0

/-- The character with the given number. Zero and the surrogates name none. -/
def charOf? (number : Nat) : Option Char :=
  if number ≠ 0 ∧ number.isValidChar then some (Char.ofNat number) else none

/-- The character that the text between `&` and `;` stands for. -/
def referent? : List Char → Option Char
  | ['l', 't'] => some '<'
  | ['g', 't'] => some '>'
  | ['a', 'm', 'p'] => some '&'
  | ['a', 'p', 'o', 's'] => some '\''
  | ['q', 'u', 'o', 't'] => some '"'
  | '#' :: 'x' :: digits => (number? 16 digits).bind charOf?
  | '#' :: digits => (number? 10 digits).bind charOf?
  | _ => none

/-- Replaces the references of a value. Inside a reference the characters since its `&` are kept,
the last one first; a second `&` before the `;` is a fault. -/
def unescapeFrom : Option (List Char) → List Char → Option (List Char)
  | none, [] => some []
  | some _, [] => none
  | none, c :: text =>
    if c = '&' then unescapeFrom (some []) text
    else (unescapeFrom none text).map (c :: ·)
  | some name, c :: text =>
    if c = ';' then
      match referent? name.reverse with
      | some character => (unescapeFrom none text).map (character :: ·)
      | none => none
    else if c = '&' then none
    else unescapeFrom (some (c :: name)) text

/-- Replaces the references of a value. -/
def unescape? (value : List Char) : Option (List Char) :=
  unescapeFrom none value

/-- Writes a character so that it can stand in a quoted value. -/
def escapeChar : Char → List Char
  | '&' => "&amp;".toList
  | '<' => "&lt;".toList
  | '>' => "&gt;".toList
  | '"' => "&quot;".toList
  | '\'' => "&apos;".toList
  | c => [c]

/-- Writes a value so that it can stand between quotes. -/
def escape (value : List Char) : List Char :=
  value.flatMap escapeChar

end IdlBridge.Markup
