import IdlBridge.Proofs.Text.Pieces

/-!
# Spellings of a name

A name can be spelled in many ways: blanks may stand around each component, and a `::` may stand in
front of the first (`ScopedName.Spelling`). Reading undoes this in three steps. Cutting at the marks
gives the components with their blanks, since no colon is in these (`ScopedName.splitScopes_join`).
Trimming leaves the components, since these have no blank ends (`Text.trimChars_pad`). What stands
before a leading mark is blank and is dropped (`ScopedName.ofText_lead`).

So every spelling is read as the name that it spells (`ScopedName.Spelling.ofText_text`), also
inside a pragma (`Pragma.ofText_ambiguous`). The text of a name is one of its spellings, and names
that are written alike are equal (`ScopedName.Proper.text_inj`).
-/

set_option autoImplicit false

namespace IdlBridge

/-! ## Blanks at the ends -/

namespace Text

/-- The text has no character but blanks. -/
def AllBlank (text : String) : Prop :=
  ∀ c ∈ text.toList, isBlank c = true

instance (text : String) : Decidable (AllBlank text) :=
  List.decidableBAll (fun c => isBlank c = true) text.toList

/-- A blank is no colon. -/
theorem AllBlank.colon_not_mem {text : String} (blank : AllBlank text) : ':' ∉ text.toList :=
  fun listed => absurd (blank ':' listed) (by decide)

section Ends

variable {blanks text : List Char}

/-- A text that starts with something else than a blank keeps its front. -/
theorem trimFront_of_head? (front : text.head?.any isBlank = false) : trimFront text = text := by
  cases text with
  | nil => rfl
  | cons c text => exact List.dropWhile_cons_of_neg (by simpa using front)

theorem trimBack_of_getLast? (back : text.getLast?.any isBlank = false) : trimBack text = text := by
  have reversed : trimFront text.reverse = text.reverse :=
    trimFront_of_head? (by rwa [List.head?_reverse])
  exact List.reverse_eq_iff.mpr reversed

theorem trimFront_append (blank : ∀ c ∈ blanks, isBlank c = true) (text : List Char) :
    trimFront (blanks ++ text) = trimFront text :=
  List.dropWhile_append_of_pos blank

theorem trimBack_append (blank : ∀ c ∈ blanks, isBlank c = true) (text : List Char) :
    trimBack (text ++ blanks) = trimBack text := by
  have reversed : ∀ c ∈ blanks.reverse, isBlank c = true :=
    fun c listed => blank c (List.mem_reverse.mp listed)
  rw [trimBack, List.reverse_append, List.dropWhile_append_of_pos reversed, trimBack]

/-- **Trimming takes away the blanks around a text** whose ends are not blank. -/
theorem trimChars_pad {before after : List Char} (blankBefore : ∀ c ∈ before, isBlank c = true)
    (blankAfter : ∀ c ∈ after, isBlank c = true) (nonempty : text ≠ [])
    (front : text.head?.any isBlank = false) (back : text.getLast?.any isBlank = false) :
    trimChars (before ++ text ++ after) = text := by
  have kept : (text ++ after).head?.any isBlank = false := by
    rwa [List.head?_append_of_ne_nil _ nonempty]
  calc trimChars (before ++ text ++ after)
      = trimBack (trimFront (text ++ after)) := by
        rw [trimChars, List.append_assoc, trimFront_append blankBefore]
    _ = trimBack text := by rw [trimFront_of_head? kept, trimBack_append blankAfter]
    _ = text := trimBack_of_getLast? back

end Ends

end Text

/-! ## Cutting at the marks -/

namespace ScopedName

/-- A character that is no colon goes to the first piece. -/
theorem splitScopes_cons_of_ne {c : Char} (other : c ≠ ':') {text first : List Char}
    {pieces : List (List Char)} (cut : splitScopes text = first :: pieces) :
    splitScopes (c :: text) = (c :: first) :: pieces := by
  rw [splitScopes, cut]
  exact fun _ isColon => absurd isColon other

theorem splitScopes_of_not_mem {piece : List Char} (absent : ':' ∉ piece) :
    splitScopes piece = [piece] := by
  induction piece with
  | nil => rfl
  | cons c piece ih =>
    rw [List.mem_cons, not_or] at absent
    exact splitScopes_cons_of_ne (Ne.symm absent.1) (ih absent.2)

/-- What is cut off at a mark is one piece. -/
theorem splitScopes_append_mark {piece : List Char} (absent : ':' ∉ piece) (rest : List Char) :
    splitScopes (piece ++ ':' :: ':' :: rest) = piece :: splitScopes rest := by
  induction piece with
  | nil => rfl
  | cons c piece ih =>
    rw [List.mem_cons, not_or] at absent
    exact splitScopes_cons_of_ne (Ne.symm absent.1) (ih absent.2)

/-- **Cutting undoes joining** if no colon is in the pieces. -/
theorem splitScopes_join {pieces : List String} (nonempty : pieces ≠ [])
    (absent : ∀ piece ∈ pieces, ':' ∉ piece.toList) :
    splitScopes (Text.join "::" pieces).toList = pieces.map String.toList := by
  induction pieces with
  | nil => exact absurd rfl nonempty
  | cons piece pieces ih =>
    rw [List.forall_mem_cons] at absent
    cases pieces with
    | nil => exact splitScopes_of_not_mem absent.1
    | cons next pieces =>
      have glued : (Text.join "::" (piece :: next :: pieces)).toList =
          piece.toList ++ ':' :: ':' :: (Text.join "::" (next :: pieces)).toList := by
        simp [Text.join]
      rw [glued, splitScopes_append_mark absent.1, ih (List.cons_ne_nil next pieces) absent.2]
      rfl

/-! ## Spellings -/

/-- The text survives as a component of a spelled name: it is not empty, has no colon, and neither
starts nor ends with a blank. -/
structure IsComponent (part : String) : Prop where
  nonempty : part ≠ ""
  colonless : ':' ∉ part.toList
  front : part.toList.head?.any Text.isBlank = false
  back : part.toList.getLast?.any Text.isBlank = false

instance (part : String) : Decidable (IsComponent part) :=
  decidable_of_iff (part ≠ "" ∧ ':' ∉ part.toList ∧ part.toList.head?.any Text.isBlank = false ∧
      part.toList.getLast?.any Text.isBlank = false)
    ⟨fun facts => ⟨facts.1, facts.2.1, facts.2.2.1, facts.2.2.2⟩, fun component =>
      ⟨component.nonempty, component.colonless, component.front, component.back⟩⟩

/-- All components of the name survive in a spelling. -/
def Proper (name : ScopedName) : Prop :=
  ∀ part ∈ name.parts, IsComponent part

instance (name : ScopedName) : Decidable name.Proper :=
  inferInstanceAs (Decidable (∀ part ∈ name.parts, IsComponent part))

/-- A component with blanks around it. -/
structure Padded where
  before : String
  part : String
  after : String
  blankBefore : Text.AllBlank before
  isComponent : IsComponent part
  blankAfter : Text.AllBlank after

namespace Padded

/-- The component as it is spelled. -/
def text (padded : Padded) : String :=
  padded.before ++ padded.part ++ padded.after

theorem colon_not_mem (padded : Padded) : ':' ∉ padded.text.toList := by
  simp only [text, String.toList_append, List.mem_append, not_or]
  exact ⟨⟨padded.blankBefore.colon_not_mem, padded.isComponent.colonless⟩,
    padded.blankAfter.colon_not_mem⟩

theorem trimChars_text (padded : Padded) :
    Text.trimChars padded.text.toList = padded.part.toList := by
  have component := padded.isComponent
  rw [text, String.toList_append, String.toList_append]
  exact Text.trimChars_pad padded.blankBefore padded.blankAfter
    (mt String.toList_eq_nil_iff.mp component.nonempty) component.front component.back

end Padded

/-- A way to spell a name. -/
structure Spelling where
  /-- The blanks before a leading mark, if there is one. -/
  lead? : Option { blanks : String // Text.AllBlank blanks }
  parts : List Padded

namespace Spelling

/-- The leading mark with the blanks before it. -/
def lead (spelling : Spelling) : String :=
  match spelling.lead? with
  | some blanks => blanks.val ++ "::"
  | none => ""

/-- What is spelled out. -/
def text (spelling : Spelling) : String :=
  spelling.lead ++ Text.join "::" (spelling.parts.map Padded.text)

/-- The name that is spelled. -/
def name (spelling : Spelling) : ScopedName :=
  ⟨spelling.parts.map Padded.part⟩

end Spelling

/-! ## Reading -/

/-- A leading mark and the blanks before it make no difference. -/
theorem ofText_lead {blanks : String} (blank : Text.AllBlank blanks) (text : String) :
    ofText (blanks ++ "::" ++ text) = ofText text := by
  have marked : (blanks ++ "::" ++ text).toList = blanks.toList ++ ':' :: ':' :: text.toList := by
    simp
  have dropped : Text.trimChars blanks.toList = [] := Text.trimChars_of_isBlank blank
  rw [ofText, marked, splitScopes_append_mark blank.colon_not_mem, List.map_cons, dropped]
  rfl

/-- The components of a joined text are read without their blanks. -/
theorem ofText_join (parts : List Padded) :
    ofText (Text.join "::" (parts.map Padded.text)) = ⟨parts.map Padded.part⟩ := by
  -- A text without any component is cut into one empty piece, so it is apart.
  rcases eq_or_ne parts [] with rfl | nonempty
  · rfl
  have pieces : splitScopes (Text.join "::" (parts.map Padded.text)).toList =
      (parts.map Padded.text).map String.toList := by
    refine splitScopes_join (by simpa using nonempty) fun piece listed => ?_
    obtain ⟨padded, -, rfl⟩ := List.mem_map.mp listed
    exact padded.colon_not_mem
  have trimmed : ((parts.map Padded.text).map String.toList).map Text.trimChars =
      parts.map fun padded => padded.part.toList := by
    rw [List.map_map, List.map_map]
    exact List.map_congr_left fun padded _ => padded.trimChars_text
  have kept : (parts.map fun padded => padded.part.toList).filter (!·.isEmpty) =
      parts.map fun padded => padded.part.toList := by
    rw [List.filter_eq_self]
    intro piece listed
    obtain ⟨padded, -, rfl⟩ := List.mem_map.mp listed
    simpa using padded.isComponent.nonempty
  rw [ofText, pieces, trimmed, kept, List.map_map]
  simp [Function.comp_def]

/-- **Every spelling is read as the name that it spells.** -/
theorem Spelling.ofText_text (spelling : Spelling) : ofText spelling.text = spelling.name := by
  rw [text, lead]
  cases spelling.lead? with
  | none => rw [String.empty_append, ofText_join, name]
  | some blanks => rw [ofText_lead blanks.property, ofText_join, name]

/-- The spelling without blanks and without a leading mark. -/
def Proper.spelling {name : ScopedName} (proper : name.Proper) : Spelling where
  lead? := none
  parts := name.parts.attach.map fun part =>
    ⟨"", part.val, "", List.forall_mem_nil _, proper part.val part.property, List.forall_mem_nil _⟩

namespace Proper

variable {name first second : ScopedName}

theorem spelling_text (proper : name.Proper) : proper.spelling.text = name.text := by
  simp [spelling, Spelling.text, Spelling.lead, Padded.text, ScopedName.text, Function.comp_def]

theorem spelling_name (proper : name.Proper) : proper.spelling.name = name := by
  simp [spelling, Spelling.name, Function.comp_def]

theorem ofText_text (proper : name.Proper) : ofText name.text = name := by
  rw [← proper.spelling_text, proper.spelling.ofText_text, proper.spelling_name]

/-- **Names that are written alike are equal.** -/
theorem text_inj (firstProper : first.Proper) (secondProper : second.Proper) :
    first.text = second.text ↔ first = second := by
  refine ⟨fun alike => ?_, fun same => same ▸ rfl⟩
  rw [← firstProper.ofText_text, alike, secondProper.ofText_text]

end Proper

-- A component with a mark in it is written like two components.
example : ScopedName.text ⟨["dom::Node"]⟩ = ScopedName.text ⟨["dom", "Node"]⟩ := rfl

end ScopedName

/-! ## Pragmas -/

namespace Pragma

/-- The base is what stands between the parentheses, whatever that is. -/
theorem ofText_of_trim {text base : String}
    (trimmed : Text.trim text = "ambiguous-inheritance(" ++ base ++ ")") :
    ofText text = .ambiguous (.ofText base) := by
  have chars : (Text.trim text).toList =
      "ambiguous-inheritance(".toList ++ (base.toList ++ [')']) := by
    simp [trimmed]
  -- No keyword has a parenthesis.
  have opened : '(' ∈ (Text.trim text).toList := by
    rw [chars]
    exact List.mem_append_left _ (by decide)
  have found : ambiguousBase? (Text.trim text).toList = some base.toList := by
    rw [ambiguousBase?, chars, Text.cutFront?_front, Option.bind_some, Text.cutBack?_back]
  rw [ofText]
  generalize Text.trim text = trimmed at opened found
  split
  · exact absurd opened (by decide)
  · exact absurd opened (by decide)
  · exact absurd opened (by decide)
  · simp only [found, String.ofList_toList]

/-- **A spelled name in a pragma** is read as the name that it spells. -/
theorem ofText_ambiguous {before after : String} (blankBefore : Text.AllBlank before)
    (blankAfter : Text.AllBlank after) (spelling : ScopedName.Spelling) :
    ofText (before ++ ("ambiguous-inheritance(" ++ spelling.text ++ ")") ++ after) =
      .ambiguous spelling.name := by
  rw [← spelling.ofText_text]
  apply ofText_of_trim
  have front : ("ambiguous-inheritance(" ++ spelling.text ++ ")").toList.head? = some 'a' := by
    simp
  have back : ("ambiguous-inheritance(" ++ spelling.text ++ ")").toList.getLast? = some ')' := by
    rw [String.toList_append]
    exact List.getLast?_concat
  have nonempty : ("ambiguous-inheritance(" ++ spelling.text ++ ")").toList ≠ [] := by
    simp
  rw [Text.trim, String.toList_append, String.toList_append, Text.trimChars_pad blankBefore
    blankAfter nonempty (by rw [front]; rfl) (by rw [back]; rfl), String.ofList_toList]

end Pragma

end IdlBridge
