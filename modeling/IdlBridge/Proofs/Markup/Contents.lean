import IdlBridge.Markup.Printer
import IdlBridge.Proofs.Markup.Composition

/-!
# Contents of elements

What stands between the tags of an element adds pieces of text to it. Each piece loses the blanks at
its ends, and references, character data sections and comments add nothing (`AddsText`). So a text
that is written with references in place of its marks is read without them
(`addsText_escapeContent`), and one that is written as a character data section is lost
(`addsText_characterData`).
-/

set_option autoImplicit false

namespace IdlBridge.Markup

open Text

/-! ## Contents without tags -/

/-- The content has no tags, and it adds the text to its element. -/
def AddsText (content : List Char) (text : String) : Prop :=
  ∃ pieces : List String, tokensFrom content = ⟨pieces.map .text, none⟩ ∧ String.join pieces = text

/-- What such a content does to the innermost element that is open. -/
theorem AddsText.readFrom_append {content rest : List Char} {text : String}
    (adds : AddsText content text) (marked : ∀ c ∈ rest.head?, isPlain c = false)
    (element : Element) (outer : List Element) (root? : Option Element) :
    Reading.readFrom ⟨element :: outer, root?⟩ (content ++ rest) =
      Reading.readFrom ⟨{ element with text := element.text ++ text } :: outer, root?⟩ rest := by
  obtain ⟨pieces, tokens, rfl⟩ := adds
  have run : ∀ element : Element, (pieces.map Token.text).foldlM Reading.step
      ⟨element :: outer, root?⟩ =
        .ok ⟨{ element with text := element.text ++ String.join pieces } :: outer, root?⟩ := by
    clear tokens
    induction pieces with
    | nil => intro element; cases element; simp [pure, Except.pure]
    | cons piece pieces ih =>
      intro element
      rw [List.map_cons, List.foldlM_cons, String.join_cons, ← String.append_assoc]
      exact ih { element with text := element.text ++ piece }
  rw [Markup.readFrom_append (by rw [tokens]) marked, tokens, run]
  rfl

theorem AddsText.nil : AddsText [] "" :=
  ⟨[], by rw [tokensFrom]; rfl, rfl⟩

/-- A reference adds nothing. -/
theorem AddsText.reference {content : List Char} {text : String} (adds : AddsText content text)
    {name : List Char} (closed : afterReference (name ++ content) = .ok content) :
    AddsText ('&' :: name ++ content) text := by
  obtain ⟨pieces, tokens, joined⟩ := adds
  exact ⟨pieces, by rw [List.cons_append, tokensFrom_reference closed, tokens], joined⟩

/-- A mark that is passed over adds nothing. -/
theorem AddsText.passed {content : List Char} {text : String} (adds : AddsText content text)
    {body : List Char} (closed : mark (body ++ content) = .ok (none, content)) :
    AddsText ('<' :: body ++ content) text := by
  obtain ⟨pieces, tokens, joined⟩ := adds
  refine ⟨pieces, ?_, joined⟩
  rw [List.cons_append, tokensFrom_mark closed, tokens]
  rfl

/-- A run of plain characters adds what is left of it without the blanks at its ends. -/
theorem AddsText.run {run content : List Char} {text : String} (adds : AddsText content text)
    (plain : ∀ c ∈ run, isPlain c = true) (marked : ∀ c ∈ content.head?, isPlain c = false) :
    AddsText (run ++ content) (String.ofList (trimChars run) ++ text) := by
  obtain ⟨pieces, tokens, joined⟩ := adds
  cases run with
  | nil => exact ⟨pieces, tokens, by rw [joined]; rfl⟩
  | cons c run =>
    obtain ⟨taken, dropped⟩ := span_append marked run
    have inside : ∀ d ∈ run, isPlain d = true := fun d listed =>
      plain d (List.mem_cons_of_mem _ listed)
    rw [List.takeWhile_eq_self_iff.mpr inside] at taken
    rw [List.dropWhile_eq_nil_iff.mpr inside, List.nil_append] at dropped
    refine ⟨String.ofList (trimChars (c :: run)) :: pieces, ?_, by rw [String.join_cons, joined]⟩
    rw [List.cons_append, tokensFrom_plain (plain c List.mem_cons_self), taken, dropped, tokens]
    rfl

/-! ## Written texts -/

/-- The marks that cannot stand in a text by themselves. -/
def isMarkup (c : Char) : Bool :=
  c == '&' || c == '<' || c == '>'

/-- Writes a text with references in place of its marks. -/
def escapeContent (text : List Char) : List Char :=
  text.flatMap fun c => if isMarkup c then escapeChar c else [c]

/-- Writes a text as one character data section. -/
def characterData (text : List Char) : List Char :=
  '<' :: '!' :: '[' :: ("CDATA[".toList ++ text ++ "]]>".toList)

/-- What is left of a text between its marks, without the blanks beside them. -/
def unmarked (text : List Char) : List Char :=
  (text.splitOnP isMarkup).flatMap trimChars

theorem unmarked_of_plain {text : List Char} (plain : ∀ c ∈ text, isMarkup c = false) :
    unmarked text = trimChars text := by
  rw [unmarked, List.splitOnP_eq_singleton plain, List.flatMap_singleton]

/-- No mark is left. -/
theorem isMarkup_of_mem_unmarked {text : List Char} {c : Char} (left : c ∈ unmarked text) :
    isMarkup c = false := by
  have pieces : ∀ piece ∈ text.splitOnP isMarkup, ∀ d ∈ piece, isMarkup d = false := by
    clear left
    induction text with
    | nil => simp
    | cons d text ih =>
      rw [List.splitOnP_cons_eq_if_modifyHead]
      split
      · exact List.forall_mem_cons.mpr ⟨nofun, ih⟩
      · rename_i plain
        cases cut : text.splitOnP isMarkup with
        | nil => exact absurd cut (List.splitOnP_ne_nil _ _)
        | cons piece pieces =>
          rw [cut, List.forall_mem_cons] at ih
          exact List.forall_mem_cons.mpr
            ⟨List.forall_mem_cons.mpr ⟨Bool.eq_false_iff.mpr plain, ih.1⟩, ih.2⟩
  obtain ⟨piece, isPiece, kept⟩ := List.mem_flatMap.mp left
  exact pieces piece isPiece c (mem_of_mem_trimChars kept)

theorem isPlain_of_not_isMarkup {c : Char} (text : isMarkup c = false) : isPlain c = true := by
  simp_all [isMarkup, isPlain]

/-- A mark is written as one reference. -/
theorem exists_escapeChar {c : Char} (marks : isMarkup c = true) :
    ∃ name, escapeChar c = '&' :: name ∧
      ∀ rest, afterReference (name ++ rest) = .ok rest := by
  have one : (c = '&' ∨ c = '<') ∨ c = '>' := by simpa [isMarkup] using marks
  rcases one with (rfl | rfl) | rfl
  · exact ⟨"amp;".toList, rfl, fun _ => rfl⟩
  · exact ⟨"lt;".toList, rfl, fun _ => rfl⟩
  · exact ⟨"gt;".toList, rfl, fun _ => rfl⟩

/-- **The references in a written text are lost**, and with them the blanks beside them. -/
theorem addsText_escapeContent (text : List Char) :
    AddsText (escapeContent text) (String.ofList (unmarked text)) := by
  -- The run is what stands in front of the text since the last mark.
  have behind : ∀ run : List Char, (∀ c ∈ run, isMarkup c = false) →
      AddsText (run ++ escapeContent text) (String.ofList (unmarked (run ++ text))) := by
    induction text with
    | nil =>
      intro run plain
      have adds :=
        AddsText.nil.run (fun c listed => isPlain_of_not_isMarkup (plain c listed)) nofun
      rw [String.append_empty] at adds
      rw [List.append_nil, unmarked_of_plain plain]
      exact adds
    | cons c text ih =>
      intro run plain
      cases marks : isMarkup c with
      | true =>
        obtain ⟨name, written, closed⟩ := exists_escapeChar marks
        have rest :
            AddsText (escapeChar c ++ escapeContent text) (String.ofList (unmarked text)) := by
          rw [written]
          exact (ih [] nofun).reference (closed _)
        have head : ∀ d ∈ (escapeChar c ++ escapeContent text).head?, isPlain d = false := by
          rw [written]
          rintro d ⟨⟩
          rfl
        have cut : unmarked (run ++ c :: text) = trimChars run ++ unmarked text := by
          rw [unmarked, List.splitOnP_append_cons_of_forall_mem plain c marks, List.flatMap_cons]
          rfl
        rw [escapeContent, List.flatMap_cons, if_pos marks, cut, String.ofList_append]
        exact rest.run (fun d listed => isPlain_of_not_isMarkup (plain d listed)) head
      | false =>
        have longer := ih (run ++ [c]) (by simpa [or_imp, forall_and, marks] using plain)
        rw [List.append_assoc, List.append_assoc] at longer
        rw [escapeContent, List.flatMap_cons, if_neg (by simp [marks])]
        exact longer
  exact behind [] nofun

/-- The end of a section is the first one, if there is none inside. -/
theorem after?_sectionEnd {text : List Char} (inner : ¬ "]]>".toList <:+: text) :
    after? "]]>".toList (text ++ "]]>".toList) = some [] := by
  induction text with
  | nil => rfl
  | cons c text ih =>
    have later : ¬ "]]>".toList <:+: text := fun inside => inner (inside.trans ⟨[c], [], by simp⟩)
    have absent : cutFront? "]]>".toList (c :: (text ++ "]]>".toList)) = none := by
      rcases text with _ | ⟨d, _ | ⟨e, text⟩⟩
      · simp [cutFront?]
      · simp [cutFront?]
      · rw [← List.cons_append, cutFront?_append (by simp), Option.map_eq_none_iff]
        cases found : cutFront? "]]>".toList (c :: d :: e :: text) with
        | none => rfl
        | some rest => exact absurd ⟨[], rest, (eq_append_of_cutFront? found).symm⟩ inner
    rw [List.cons_append, after?, absent]
    exact ih later

/-- **A character data section adds nothing.** -/
theorem addsText_characterData {text : List Char} (inner : ¬ "]]>".toList <:+: text) :
    AddsText (characterData text) "" := by
  have opened : cutFront? "CDATA[".toList ("CDATA[".toList ++ text ++ "]]>".toList) =
      some (text ++ "]]>".toList) := rfl
  have closed :
      mark ('!' :: '[' :: ("CDATA[".toList ++ text ++ "]]>".toList)) = .ok (none, []) := by
    rw [mark, passOver, opened, Option.bind_some, after?_sectionEnd inner]
  have adds := AddsText.nil.passed ((congrArg mark (List.append_nil _)).trans closed)
  rw [List.append_nil] at adds
  exact adds

end IdlBridge.Markup
