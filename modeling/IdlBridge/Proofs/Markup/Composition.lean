import IdlBridge.Markup.Element
import IdlBridge.Proofs.Text.Pieces
import Mathlib.Data.List.Basic
import Mathlib.Data.List.TakeWhile

/-!
# Texts one after the other

Reading goes from left to right, and nothing that follows a mark changes how the mark is read. So
the tokens of a text that ends outside of its marks stand in front of the tokens of what follows
(`tokensFrom_append`). Reading is a run over the tokens. `Reading.readFrom` continues such a run
from a state, and the beginning of a document leads to a state from which the rest is read
(`LeadsTo.ofDocument_append`).
-/

set_option autoImplicit false

namespace IdlBridge

namespace Markup

open Text

/-! ## Marks and what follows them -/

theorem tagBody_append {open? : Option Char} {text : List Char} {read : List Char × List Char}
    (found : tagBody open? text = .ok read) (more : List Char) :
    tagBody open? (text ++ more) = .ok (read.1, read.2 ++ more) := by
  fun_induction tagBody open? text generalizing read with
  | case1 | case2 => cases found
  | case3 text =>
    cases found
    rfl
  | case4 c text other ih =>
    obtain ⟨inner, here, rfl⟩ := ok_of_map_eq_ok found
    rw [List.cons_append, tagBody, if_neg other, ih here]
    rfl
  | case5 quote c text ih =>
    obtain ⟨inner, here, rfl⟩ := ok_of_map_eq_ok found
    rw [List.cons_append, tagBody, ih here]
    rfl

theorem afterReference_append {text rest : List Char} (found : afterReference text = .ok rest)
    (more : List Char) : afterReference (text ++ more) = .ok (rest ++ more) := by
  fun_induction afterReference text with
  | case1 | case3 => cases found
  | case2 text =>
    cases found
    rfl
  | case4 c text notEnd notMark ih =>
    rw [List.cons_append, afterReference, if_neg notEnd, if_neg notMark, ih found]

theorem passOver_append {front back : List Char} {fault : Fault} {text : List Char} {read : Mark}
    (found : passOver front back fault text = .ok read) (more : List Char) :
    passOver front back fault (text ++ more) = .ok (read.1, read.2 ++ more) := by
  rw [passOver] at found
  split at found
  · rename_i rest closed
    cases found
    obtain ⟨inner, cut, ends⟩ := Option.bind_eq_some_iff.mp closed
    rw [passOver, cutFront?_append_of_eq_some cut, Option.bind_some, after?_append ends]
  · cases found

theorem instruction_append {text : List Char} {read : Mark} (found : instruction text = .ok read)
    (more : List Char) : instruction (text ++ more) = .ok (read.1, read.2 ++ more) := by
  rw [instruction] at found
  split at found
  · cases found
  · rename_i notEnd
    split at found
    · rename_i rest closed
      cases found
      have head : (text ++ more).head? ≠ some '>' := by
        cases text with
        | nil => cases closed
        | cons c text => exact notEnd
      rw [instruction, if_neg head, after?_append closed]
    · cases found

/-- A text with a `>` starts with `front` no matter what follows it, unless the `>` stands in the
way. -/
theorem exists_of_append {front text more rest : List Char} (closed : '>' ∈ text)
    (inner : '>' ∉ front.dropLast) (starts : text ++ more = front ++ rest) :
    ∃ own, text = front ++ own := by
  rcases List.append_eq_append_iff.mp starts with ⟨between, whole, -⟩ | ⟨own, whole, -⟩
  · rcases List.eq_nil_or_concat' between with rfl | ⟨between, c, rfl⟩
    · exact ⟨[], by simp [whole]⟩
    · rw [whole, ← List.append_assoc, List.dropLast_concat] at inner
      exact absurd (List.mem_append_left between closed) inner
  · exact ⟨own, whole⟩

theorem isQuoting_append {text : List Char} (closed : '>' ∈ text) (more : List Char) :
    isQuoting (text ++ more) = isQuoting text := by
  have single : ∀ keyword : String, '>' ∉ keyword.toList.dropLast →
      keyword.toList.isPrefixOf (text ++ more) = keyword.toList.isPrefixOf text := by
    intro keyword inner
    rw [Bool.eq_iff_iff, List.isPrefixOf_iff_prefix, List.isPrefixOf_iff_prefix]
    constructor
    · rintro ⟨rest, starts⟩
      obtain ⟨own, whole⟩ := exists_of_append closed inner starts.symm
      exact ⟨own, whole.symm⟩
    · intro starts
      exact starts.trans (List.prefix_append text more)
  simp only [isQuoting, List.any_cons, List.any_nil]
  rw [single _ (by decide), single _ (by decide), single _ (by decide)]

theorem mem_of_afterDoctype? {state : DoctypeState} {text rest : List Char}
    (found : afterDoctype? state text = some rest) : '>' ∈ text := by
  fun_induction afterDoctype? state text with
  | case1 => cases found
  | case2 | case19 => exact List.mem_cons_self
  | case12 | case14 => simp
  | case16 => exact List.mem_cons_self
  | _ =>
    rename_i ih
    simp [ih found]

theorem afterDoctype?_append {state : DoctypeState} {text rest : List Char}
    (found : afterDoctype? state text = some rest) (more : List Char) :
    afterDoctype? state (text ++ more) = some (rest ++ more) := by
  fun_induction afterDoctype? state text with
  | case1 => cases found
  | case2 | case19 =>
    cases found
    rfl
  | case3 c text notEnd quotes ih =>
    rw [List.cons_append, afterDoctype?, if_neg notEnd, if_pos quotes]
    exact ih found
  | case5 c text notEnd unquoted notSubset ih =>
    rw [List.cons_append, afterDoctype?, if_neg notEnd, if_neg unquoted, if_neg notSubset]
    exact ih found
  | case4 | case6 | case7 | case8 | case12 | case14 | case16 | case18 =>
    rename_i ih
    exact ih found
  | case17 quoting c text notEnd ih =>
    rw [List.cons_append, afterDoctype?, if_neg notEnd]
    exact ih found
  | case20 c text notEnd ih =>
    rw [List.cons_append, afterDoctype?, if_neg notEnd]
    exact ih found
  -- The remaining patterns overlap. Which of them applies is decided before the `>`.
  | case9 text other ih =>
    have closed := mem_of_afterDoctype? found
    have plain : ∀ rest, text ++ more = ['-', '-'] ++ rest → False := fun rest starts =>
      (exists_of_append closed (by decide) starts).elim other
    rw [List.cons_append, List.cons_append, afterDoctype?, isQuoting_append closed, ih found]
    exact plain
  | case10 text _ notInstruction notDeclaration ih =>
    cases text with
    | nil => cases found
    | cons c text =>
      have notMark : c ≠ '!' := by
        rintro rfl
        exact notDeclaration text rfl
      have notQuery : c ≠ '?' := by
        rintro rfl
        exact notInstruction text rfl
      rw [List.cons_append, List.cons_append, afterDoctype?, ← List.cons_append, ih found]
      · exact fun _ starts => notMark (List.cons.inj starts).1
      · exact fun _ starts => notQuery (List.cons.inj starts).1
      · exact fun _ starts => notMark (List.cons.inj starts).1
  | case11 c text _ _ _ other ih =>
    rw [List.cons_append, afterDoctype?, ih found]
    · exact fun _ same _ => other same
    · exact fun _ same _ => other same
    · exact fun _ same _ => other same
    · exact other
  | case13 c text other ih =>
    have closed := mem_of_afterDoctype? found
    have plain : ∀ rest, c = '-' → text ++ more = ['-', '>'] ++ rest → False :=
      fun rest dash starts => (exists_of_append closed (by decide) starts).elim (other · dash)
    rw [List.cons_append, afterDoctype?, ih found]
    exact plain
  | case15 c text other ih =>
    have closed := mem_of_afterDoctype? found
    have plain : ∀ rest, c = '?' → text ++ more = ['>'] ++ rest → False :=
      fun rest asks starts => (exists_of_append closed (by decide) starts).elim (other · asks)
    rw [List.cons_append, afterDoctype?, ih found]
    exact plain

theorem doctype_append {text : List Char} {read : Mark} (found : doctype text = .ok read)
    (more : List Char) : doctype (text ++ more) = .ok (read.1, read.2 ++ more) := by
  rw [doctype] at found
  split at found
  · cases found
  · rename_i keyword
    have seven : 7 ≤ text.length := by
      have length : min 7 text.length = 7 := by
        simpa using congrArg List.length (not_not.mp keyword)
      omega
    split at found
    · cases found
    · rename_i rest closed
      split at found
      · cases found
      · rename_i named
        cases found
        -- The `>` stands behind the keyword, so what is not blank there stands before the end.
        have behind : '>' ∈ text.drop 7 := by
          have ends := mem_of_afterDoctype? closed
          rw [← List.take_append_drop 7 text, List.mem_append] at ends
          refine ends.resolve_left fun early => ?_
          have listed := List.mem_map_of_mem (f := Char.toUpper) early
          rw [not_not.mp keyword] at listed
          revert listed
          decide
        have head : (((text ++ more).drop 7).dropWhile isSpace).head? =
            ((text.drop 7).dropWhile isSpace).head? := by
          have kept : (text.drop 7).dropWhile isSpace ≠ [] := fun blank =>
            absurd (List.dropWhile_eq_nil_iff.mp blank '>' behind) (by decide)
          rw [List.drop_append_of_le_length seven, List.dropWhile_append,
            if_neg (by simpa using kept), List.head?_append_of_ne_nil _ kept]
        rw [doctype, List.take_append_of_le_length seven, if_neg keyword,
          afterDoctype?_append closed, head]
        exact if_neg named

theorem mark_of_ne {c : Char} (notMark : c ≠ '!') (notInstruction : c ≠ '?') (notStop : c ≠ '/')
    (text : List Char) :
    mark (c :: text) =
      (tagBody none (c :: text)).map fun read => (some (startToken read.1), read.2) := by
  rw [mark]
  all_goals simp_all

/-- What follows a mark does not change how it is read. -/
theorem mark_append {text : List Char} {read : Mark} (found : mark text = .ok read)
    (more : List Char) : mark (text ++ more) = .ok (read.1, read.2 ++ more) := by
  fun_cases mark text with
  | case1 => cases found
  | case2 text => exact passOver_append found more
  | case3 text => exact passOver_append found more
  | case4 text => exact doctype_append found more
  | case5 text => exact doctype_append found more
  | case6 => simp_all [mark]
  | case7 text => exact instruction_append found more
  | case8 text =>
    rw [mark] at found
    obtain ⟨inner, here, rfl⟩ := ok_of_map_eq_ok found
    rw [List.cons_append, mark, tagBody_append here]
    rfl
  | case9 text isText _ _ _ _ notMark notInstruction notStop =>
    cases text with
    | nil => exact absurd rfl isText
    | cons c text =>
      have opens : ∀ rest, mark (c :: rest) =
          (tagBody none (c :: rest)).map fun read => (some (startToken read.1), read.2) := by
        intro rest
        apply mark_of_ne
        · rintro rfl
          exact notMark text rfl
        · rintro rfl
          exact notInstruction text rfl
        · rintro rfl
          exact notStop text rfl
      rw [opens] at found
      obtain ⟨inner, here, rfl⟩ := ok_of_map_eq_ok found
      rw [List.cons_append, opens, ← List.cons_append, tagBody_append here]
      rfl

/-! ## Texts one after the other -/

theorem tokensFrom_mark {text : List Char} {read : Mark} (found : mark text = .ok read) :
    tokensFrom ('<' :: text) = (tokensFrom read.2).cons read.1 := by
  rw [tokensFrom, if_pos rfl]
  split
  · rename_i found'
    cases found.symm.trans found'
    rfl
  · rename_i found'
    cases found.symm.trans found'

theorem tokensFrom_reference {text rest : List Char} (found : afterReference text = .ok rest) :
    tokensFrom ('&' :: text) = tokensFrom rest := by
  rw [tokensFrom, if_neg (by decide), if_pos rfl]
  split
  · rename_i found'
    cases found.symm.trans found'
    rfl
  · rename_i found'
    cases found.symm.trans found'

theorem tokensFrom_plain {c : Char} (plain : isPlain c = true) (text : List Char) :
    tokensFrom (c :: text) = (tokensFrom (text.dropWhile isPlain)).cons
      (some (.text (String.ofList (trimChars (c :: text.takeWhile isPlain))))) := by
  obtain ⟨notMark, notReference⟩ : c ≠ '<' ∧ c ≠ '&' := by simpa [isPlain] using plain
  rw [tokensFrom, if_neg notMark, if_neg notReference]

/-- Puts tokens in front. -/
def Tokens.prepend (front : List Token) (rest : Tokens) : Tokens :=
  { rest with tokens := front ++ rest.tokens }

theorem Tokens.cons_prepend (token? : Option Token) (front : List Token) (rest : Tokens) :
    (rest.prepend front).cons token? = rest.prepend (token?.toList ++ front) := by
  rw [cons, prepend, prepend, List.append_assoc]

/-- A piece of text ends where the next mark begins. -/
theorem span_append {rest : List Char} (marked : ∀ c ∈ rest.head?, isPlain c = false)
    (text : List Char) :
    (text ++ rest).takeWhile isPlain = text.takeWhile isPlain ∧
      (text ++ rest).dropWhile isPlain = text.dropWhile isPlain ++ rest := by
  induction text with
  | nil =>
    cases rest with
    | nil => exact ⟨rfl, rfl⟩
    | cons c rest =>
      have mark : ¬ isPlain c = true := by simp [marked c rfl]
      exact ⟨List.takeWhile_cons_of_neg mark, List.dropWhile_cons_of_neg mark⟩
  | cons c text ih =>
    cases plain : isPlain c with
    | true => simp [plain, ih]
    | false => simp [plain]

/-- **Reading goes from left to right.** Where a text ends outside of its marks and another mark
follows, its tokens stand in front of those that follow. -/
theorem tokensFrom_append {front rest : List Char} (sound : (tokensFrom front).fault? = none)
    (marked : ∀ c ∈ rest.head?, isPlain c = false) :
    tokensFrom (front ++ rest) = (tokensFrom rest).prepend (tokensFrom front).tokens := by
  fun_induction tokensFrom front with
  | case1 => rfl
  | case2 text read found ih =>
    rw [List.cons_append, tokensFrom_mark (mark_append found rest), ih sound, Tokens.cons_prepend]
    rfl
  | case3 => cases sound
  | case4 text after found _ ih =>
    rw [List.cons_append, tokensFrom_reference (afterReference_append found rest), ih sound]
  | case5 => cases sound
  | case6 c text notMark notReference piece ih =>
    have plain : isPlain c = true := by simp [isPlain, notMark, notReference]
    obtain ⟨taken, dropped⟩ := span_append marked text
    rw [List.cons_append, tokensFrom_plain plain, taken, dropped, ih sound, Tokens.cons_prepend]
    rfl

/-! ## Runs -/

/-- Reads on from a state to the end of the text. -/
def Reading.readFrom (reading : Reading) (text : List Char) : Except LoadError Element := do
  let read := tokensFrom text
  let reading ← read.tokens.foldlM Reading.step reading
  match read.fault? with
  | some fault => .error (.fault fault)
  | none => reading.finish

theorem ofDocument_eq_readFrom (text : List Char) :
    Element.ofDocument (String.ofList ('<' :: text)) = Reading.start.readFrom ('<' :: text) := by
  rw [Element.ofDocument, tokens, String.toList_ofList]
  rfl

theorem toList_append_eq {first second : String} {front back : List Char}
    (isFront : first.toList = front) (isBack : second.toList = back) :
    (first ++ second).toList = front ++ back := by
  rw [String.toList_append, isFront, isBack]

/-- A document that begins with a mark is read from its characters. Given these, no text has to be
decoded. -/
theorem ofDocument_of_toList {document : String} {text : List Char}
    (chars : document.toList = text) (marked : text.head? = some '<') :
    Element.ofDocument document = Reading.start.readFrom text := by
  obtain ⟨rest, rfl⟩ := List.head?_eq_some_iff.mp marked
  rw [← ofDocument_eq_readFrom, ← chars, String.ofList_toList]

theorem readFrom_nil (reading : Reading) : reading.readFrom [] = reading.finish := by
  rw [Reading.readFrom, tokensFrom]
  rfl

theorem readFrom_cons {text rest : List Char} {token : Token} {reading next : Reading}
    (first : tokensFrom text = (tokensFrom rest).cons (some token))
    (stepped : reading.step token = .ok next) : reading.readFrom text = next.readFrom rest := by
  unfold Reading.readFrom
  rw [first]
  simp only [Tokens.cons, Option.toList_some, List.singleton_append, List.foldlM_cons, stepped]
  rfl

theorem readFrom_mark {text rest : List Char} {token : Token} {reading next : Reading}
    (marked : mark text = .ok (some token, rest)) (stepped : reading.step token = .ok next) :
    reading.readFrom ('<' :: text) = next.readFrom rest :=
  readFrom_cons (tokensFrom_mark marked) stepped

/-- Reading two texts one after the other. -/
theorem readFrom_append {front rest : List Char} (sound : (tokensFrom front).fault? = none)
    (marked : ∀ c ∈ rest.head?, isPlain c = false) (reading : Reading) :
    reading.readFrom (front ++ rest) =
      (tokensFrom front).tokens.foldlM Reading.step reading >>= fun next => next.readFrom rest := by
  unfold Reading.readFrom
  rw [tokensFrom_append sound marked]
  simp only [Tokens.prepend, List.foldlM_append, bind_assoc]

theorem tokens_of_ne {c : Char} (other : c ≠ '\uFEFF') (text : List Char) :
    tokens (String.ofList (c :: text)) = tokensFrom (c :: text) := by
  rw [tokens, String.toList_ofList]
  split
  · rename_i same
    exact absurd (List.cons.inj same).1 other
  · rfl

/-- The text ends outside of its marks, and reading it leads to the state. -/
structure LeadsTo (front : List Char) (reading : Reading) : Prop where
  sound : (tokens (String.ofList front)).fault? = none
  read : (tokens (String.ofList front)).tokens.foldlM Reading.step .start = .ok reading

/-- A document is read on from the state to which its beginning leads. -/
theorem LeadsTo.ofDocument_append {front rest : List Char} {reading : Reading}
    (leads : LeadsTo front reading) (marked : rest.head? = some '<') :
    Element.ofDocument (String.ofList (front ++ rest)) = reading.readFrom rest := by
  obtain ⟨sound, read⟩ := leads
  have stops : ∀ c ∈ rest.head?, isPlain c = false := by
    intro c isFirst
    rw [marked] at isFirst
    cases isFirst
    rfl
  have joined : tokens (String.ofList (front ++ rest)) =
      (tokensFrom rest).prepend (tokens (String.ofList front)).tokens := by
    cases front with
    | nil =>
      obtain ⟨text, rfl⟩ := List.head?_eq_some_iff.mp marked
      have empty : tokens (String.ofList []) = ⟨[], none⟩ := by
        rw [tokens, String.toList_ofList]
        change tokensFrom [] = _
        rw [tokensFrom]
      rw [List.nil_append, tokens_of_ne (by decide), empty]
      rfl
    | cons c front =>
      by_cases order : c = '\uFEFF'
      · subst order
        rw [tokens, String.toList_ofList] at sound
        rw [List.cons_append, tokens, tokens, String.toList_ofList, String.toList_ofList]
        exact tokensFrom_append sound stops
      · rw [tokens_of_ne order] at sound
        rw [List.cons_append, tokens_of_ne order, tokens_of_ne order, ← List.cons_append]
        exact tokensFrom_append sound stops
  rw [Element.ofDocument, joined]
  simp only [Tokens.prepend, List.foldlM_append, read]
  rfl

end Markup

end IdlBridge
