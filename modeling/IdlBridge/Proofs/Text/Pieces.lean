import IdlBridge.Pragma
import Mathlib.Data.List.DropRight

/-!
# What is left of a text

A text is cut where a fixed beginning or a mark stands, whatever follows (`Text.cutFront?_append`,
`Text.after?_append`). Trimming drops blanks and nothing else (`Text.mem_trimChars`), and a name is
cut at its `::` marks without a loss (`ScopedName.mem_splitScopes`). So a pragma keeps every
character of its text that is neither blank nor part of a keyword (`Pragma.mem_chars_ofText_iff`).
-/

set_option autoImplicit false

namespace IdlBridge

namespace Text

/-! ## Cutting -/

/-- Whether a text starts with `front` is seen in as many characters as `front` has. -/
theorem cutFront?_append {front text : List Char} (fits : front.length ≤ text.length)
    (more : List Char) :
    cutFront? front (text ++ more) = (cutFront? front text).map (· ++ more) := by
  fun_induction cutFront? front text with
  | case1 => simp [cutFront?]
  | case2 => simp at fits
  | case3 front c text ih =>
    rw [List.cons_append, cutFront?, if_pos rfl]
    exact ih (by simpa using fits)
  | case4 f front c text other =>
    rw [List.cons_append, cutFront?, if_neg other]
    rfl

theorem eq_append_of_cutFront? {front text rest : List Char}
    (found : cutFront? front text = some rest) : text = front ++ rest := by
  fun_induction cutFront? front text with
  | case1 => exact Option.some.inj found
  | case2 | case4 => cases found
  | case3 front c text ih => rw [ih found, List.cons_append]

theorem cutFront?_append_of_eq_some {front text rest : List Char}
    (found : cutFront? front text = some rest) (more : List Char) :
    cutFront? front (text ++ more) = some (rest ++ more) := by
  have fits := length_cutFront? found
  rw [cutFront?_append (by omega), found, Option.map_some]

theorem cutFront?_front (front rest : List Char) : cutFront? front (front ++ rest) = some rest := by
  induction front with
  | nil => rfl
  | cons c front ih => rw [List.cons_append, cutFront?, if_pos rfl, ih]

/-- A first occurrence remains the first one. -/
theorem after?_append {mark text rest : List Char} (found : after? mark text = some rest)
    (more : List Char) : after? mark (text ++ more) = some (rest ++ more) := by
  fun_induction after? mark text with
  | case1 =>
    obtain ⟨rfl, rfl⟩ : rest = [] ∧ mark = [] := by simpa using length_cutFront? found
    cases more <;> simp [after?, cutFront?]
  | case2 c text rest' here =>
    cases found
    rw [List.cons_append, after?, ← List.cons_append, cutFront?_append_of_eq_some here]
  | case3 c text none ih =>
    have fits := length_after? found
    have absent : cutFront? mark (c :: text ++ more) = Option.none := by
      rw [cutFront?_append (by simp; omega), none]
      rfl
    rw [List.cons_append, after?, ← List.cons_append, absent]
    exact ih found

theorem eq_append_of_cutBack? {back text rest : List Char}
    (found : cutBack? back text = some rest) : text = rest ++ back := by
  obtain ⟨reversed, cut, rfl⟩ := Option.map_eq_some_iff.mp found
  rw [← List.reverse_inj, eq_append_of_cutFront? cut]
  simp

theorem cutBack?_back (rest back : List Char) : cutBack? back (rest ++ back) = some rest := by
  rw [cutBack?, List.reverse_append, cutFront?_front, Option.map_some, List.reverse_reverse]

/-! ## Splitting -/

theorem splitChar_ne_nil (separator : Char) (text : List Char) : splitChar separator text ≠ [] := by
  fun_induction splitChar separator text <;> simp

/-- A text without separators is one piece. -/
theorem splitChar_of_not_mem {separator : Char} {text : List Char} (absent : separator ∉ text) :
    splitChar separator text = [text] := by
  induction text with
  | nil => rfl
  | cons c text ih =>
    rw [List.mem_cons, not_or] at absent
    rw [splitChar, if_neg (Ne.symm absent.1), ih absent.2]

/-- What is cut off at a separator is one piece. -/
theorem splitChar_append_cons {separator : Char} {piece : List Char} (absent : separator ∉ piece)
    (rest : List Char) :
    splitChar separator (piece ++ separator :: rest) = piece :: splitChar separator rest := by
  induction piece with
  | nil => rw [List.nil_append, splitChar, if_pos rfl]
  | cons c piece ih =>
    rw [List.mem_cons, not_or] at absent
    rw [List.cons_append, splitChar, if_neg (Ne.symm absent.1), ih absent.2]

/-- A text splits into pieces, and what is added without a separator is added to the last one. -/
theorem exists_splitChar_append (separator : Char) (text : List Char) :
    ∃ pieces last, ∀ added, separator ∉ added →
      splitChar separator (text ++ added) = pieces ++ [last ++ added] := by
  induction text with
  | nil => exact ⟨[], [], fun added absent => splitChar_of_not_mem absent⟩
  | cons c text ih =>
    obtain ⟨pieces, last, split⟩ := ih
    by_cases isSeparator : c = separator
    · refine ⟨[] :: pieces, last, fun added absent => ?_⟩
      rw [List.cons_append, splitChar, if_pos isSeparator, split added absent]
      rfl
    · cases pieces with
      | nil =>
        refine ⟨[], c :: last, fun added absent => ?_⟩
        rw [List.cons_append, splitChar, if_neg isSeparator, split added absent]
        rfl
      | cons piece pieces =>
        refine ⟨(c :: piece) :: pieces, last, fun added absent => ?_⟩
        rw [List.cons_append, splitChar, if_neg isSeparator, split added absent]
        rfl

/-! ## Trimming -/

section Trimming

variable {text : List Char} {c : Char}

/-- A text without blanks in front begins with something else. -/
theorem isBlank_head_trimFront {rest : List Char} (front : trimFront text = c :: rest) :
    isBlank c = false := by
  have first := List.head?_dropWhile_not isBlank text
  rw [← trimFront, front] at first
  simpa using first

theorem isBlank_of_trimChars (empty : trimChars text = []) : ∀ c ∈ text, isBlank c = true := by
  rw [trimChars, trimBack, List.reverse_eq_nil_iff, List.dropWhile_eq_nil_iff] at empty
  cases front : trimFront text with
  | nil => exact List.dropWhile_eq_nil_iff.mp front
  | cons c rest =>
    rw [front] at empty
    exact absurd (empty c (by simp)) (by simp [isBlank_head_trimFront front])

theorem trimChars_of_isBlank (blank : ∀ c ∈ text, isBlank c = true) : trimChars text = [] := by
  have front : trimFront text = [] := List.dropWhile_eq_nil_iff.mpr blank
  rw [trimChars, front]
  rfl

theorem mem_trimFront (listed : c ∈ text) (dark : isBlank c = false) : c ∈ trimFront text := by
  rw [← List.takeWhile_append_dropWhile (p := isBlank) (l := text), List.mem_append] at listed
  rcases listed with dropped | kept
  · exact absurd (List.mem_takeWhile_imp dropped) (by simp [dark])
  · exact kept

/-- Trimming drops nothing but blanks. -/
theorem mem_trimChars (listed : c ∈ text) (dark : isBlank c = false) : c ∈ trimChars text :=
  List.mem_reverse.mpr (mem_trimFront (List.mem_reverse.mpr (mem_trimFront listed dark)) dark)

theorem isPrefix_trimBack (text : List Char) : trimBack text <+: text :=
  List.rdropWhile_prefix isBlank text

theorem mem_of_mem_trimChars (kept : c ∈ trimChars text) : c ∈ text :=
  (List.dropWhile_suffix isBlank).subset ((isPrefix_trimBack _).subset kept)

theorem trimChars_trimChars (text : List Char) : trimChars (trimChars text) = trimChars text := by
  have front : trimFront (trimChars text) = trimChars text := by
    cases kept : trimChars text with
    | nil => rfl
    | cons c rest =>
      obtain ⟨dropped, whole⟩ := isPrefix_trimBack (trimFront text)
      rw [← trimChars, kept, List.cons_append] at whole
      exact List.dropWhile_cons_of_neg (by simp [isBlank_head_trimFront whole.symm])
  rw [trimChars, front]
  exact List.rdropWhile_idempotent isBlank _

end Trimming

end Text

/-! ## Names -/

namespace ScopedName

theorem splitScopes_ne_nil (text : List Char) : splitScopes text ≠ [] := by
  fun_induction splitScopes text <;> simp

/-- What is not blank in a text stands in a piece of it or belongs to a mark. -/
theorem mem_splitScopes {text : List Char} {c : Char} (listed : c ∈ text) :
    c = ':' ∨ ∃ piece ∈ splitScopes text, c ∈ piece := by
  fun_induction splitScopes text with
  | case1 => cases listed
  | case2 text ih =>
    simp only [List.mem_cons] at listed
    rcases listed with rfl | rfl | later
    · exact .inl rfl
    · exact .inl rfl
    · exact (ih later).imp id fun ⟨piece, isPiece, inside⟩ =>
        ⟨piece, List.mem_cons_of_mem _ isPiece, inside⟩
  | case3 d text _ none ih => exact absurd none (splitScopes_ne_nil text)
  | case4 d text _ piece pieces cut ih =>
    rcases List.mem_cons.mp listed with rfl | later
    · exact .inr ⟨_, List.mem_cons_self, List.mem_cons_self⟩
    · rcases ih later with mark | ⟨other, isPiece, inside⟩
      · exact .inl mark
      · rw [cut] at isPiece
        rcases List.mem_cons.mp isPiece with rfl | isPiece
        · exact .inr ⟨_, List.mem_cons_self, List.mem_cons_of_mem _ inside⟩
        · exact .inr ⟨other, List.mem_cons_of_mem _ isPiece, inside⟩

theorem mem_of_mem_splitScopes {text piece : List Char} {c : Char}
    (isPiece : piece ∈ splitScopes text) (inside : c ∈ piece) : c ∈ text := by
  fun_induction splitScopes text generalizing piece with
  | case1 => simp_all
  | case2 text ih => grind
  | case3 d text _ none ih => exact absurd none (splitScopes_ne_nil text)
  | case4 d text _ first pieces cut ih => grind

/-- A name keeps every character of its text that is neither blank nor a colon. -/
theorem mem_parts_ofText_iff {text : List Char} {c : Char} (dark : Text.isBlank c = false)
    (other : c ≠ ':') :
    (∃ part ∈ (ofText (String.ofList text)).parts, c ∈ part.toList) ↔ c ∈ text := by
  rw [ofText, String.toList_ofList]
  constructor
  · rintro ⟨part, isPart, inside⟩
    obtain ⟨trimmed, kept, rfl⟩ := List.mem_map.mp isPart
    obtain ⟨piece, isPiece, rfl⟩ := List.mem_map.mp (List.mem_filter.mp kept).1
    rw [String.toList_ofList] at inside
    exact mem_of_mem_splitScopes isPiece (Text.mem_of_mem_trimChars inside)
  · intro listed
    obtain ⟨piece, isPiece, inside⟩ := (mem_splitScopes listed).resolve_left other
    have trimmed := Text.mem_trimChars inside dark
    refine ⟨String.ofList (Text.trimChars piece), List.mem_map_of_mem (List.mem_filter.mpr
      ⟨List.mem_map_of_mem isPiece, ?_⟩), by rwa [String.toList_ofList]⟩
    simpa using List.ne_nil_of_mem trimmed

end ScopedName

/-! ## Pragmas -/

namespace Pragma

/-- The characters that a pragma keeps. -/
def chars : Pragma → List Char
  | ambiguous base => base.parts.flatMap String.toList
  | other text => text.toList
  | _ => []

/-- A character that is neither blank nor part of a keyword. -/
def isForeign (c : Char) : Bool :=
  !(Text.isBlank c || c.isAlpha || "-():".toList.contains c)

theorem mem_chars_ofText_iff {text : String} {c : Char} (foreign : isForeign c = true) :
    c ∈ (ofText text).chars ↔ c ∈ text.toList := by
  have outside : ∀ word : List Char, (word.all fun d => !isForeign d) = true → c ∉ word := by
    intro word keyword listed
    simpa [foreign] using List.all_eq_true.mp keyword c listed
  obtain ⟨dark, other⟩ : Text.isBlank c = false ∧ c ≠ ':' := by
    rw [isForeign] at foreign
    refine ⟨by simp_all, ?_⟩
    rintro rfl
    cases foreign
  have kept : c ∈ (Text.trim text).toList ↔ c ∈ text.toList := by
    rw [Text.trim, String.toList_ofList]
    exact ⟨Text.mem_of_mem_trimChars, fun listed => Text.mem_trimChars listed dark⟩
  rw [← kept, ofText]
  generalize Text.trim text = trimmed
  split
  · exact iff_of_false List.not_mem_nil (outside _ (by decide +kernel))
  · exact iff_of_false List.not_mem_nil (outside _ (by decide +kernel))
  · exact iff_of_false List.not_mem_nil (outside _ (by decide +kernel))
  · split
    · rename_i base isBase
      obtain ⟨rest, front, back⟩ := Option.bind_eq_some_iff.mp isBase
      rw [Text.eq_append_of_cutFront? front, Text.eq_append_of_cutBack? back, chars,
        List.mem_flatMap, ScopedName.mem_parts_ofText_iff dark other]
      have opening := outside "ambiguous-inheritance(".toList (by decide +kernel)
      have closing := outside [')'] (by decide +kernel)
      rw [List.mem_append, List.mem_append]
      exact ⟨fun inside => .inr (.inl inside), fun inside =>
        (inside.resolve_left opening).resolve_right closing⟩
    · rfl

theorem ofText_trimChars (text : List Char) :
    ofText (String.ofList (Text.trimChars text)) = ofText (String.ofList text) := by
  have same : Text.trim (String.ofList (Text.trimChars text)) = Text.trim (String.ofList text) := by
    rw [Text.trim, Text.trim, String.toList_ofList, String.toList_ofList, Text.trimChars_trimChars]
  rw [ofText, ofText, same]

theorem ofText_eq_empty_iff {text : String} :
    ofText text = other "" ↔ ∀ c ∈ text.toList, Text.isBlank c = true := by
  constructor
  · intro empty
    have trimmed : Text.trim text = "" := by
      rw [ofText] at empty
      split at empty
      · cases empty
      · cases empty
      · cases empty
      · split at empty
        · cases empty
        · exact other.inj empty
    exact Text.isBlank_of_trimChars (String.ofList_inj.mp trimmed)
  · intro blank
    rw [ofText, Text.trim, Text.trimChars_of_isBlank blank]
    rfl

end Pragma

end IdlBridge
