import IdlBridge.Markup.Fault
import IdlBridge.Text.Blank
import IdlBridge.Text.Cut

/-!
# Tokens of marked-up text

A document is a sequence of text pieces and marks. Tags and text pieces become tokens. All
other marks are passed over: comments, character data sections, processing instructions,
document type declarations, and references between tags.

`tokens` reads as far as the marks are sound. It returns the tokens up to the first fault
together with that fault, so that a reader of the tokens can report what it finds before.

A tag is kept as it stands. The scan of its attributes reports each of them: its key and its value
as written, or what is wrong with it. Behind an attribute that is wrong the scan goes on.
-/

set_option autoImplicit false

namespace IdlBridge.Markup

open Text

/-- The blanks that divide names and attributes inside a tag. -/
def isSpace (c : Char) : Bool :=
  c == ' ' || c == '\t' || c == '\r' || c == '\n'

/-- A character that opens and closes attribute values. -/
def isQuote (c : Char) : Bool :=
  c == '"' || c == '\''

/-- A tag or a piece of text. -/
inductive Token
  /-- A start tag, with what stands between its marks. -/
  | start (content : List Char)
  /-- A tag that starts and ends an element, without its slash. -/
  | empty (content : List Char)
  | stop (name : String)
  /-- Text without blanks at its ends. -/
  | text (piece : String)
  deriving DecidableEq, Repr, Inhabited

/-! ## Attributes -/

set_option linter.unusedVariables false in
/-- The reports on the attributes of a tag, given the keys that were already assigned. -/
def reportsFrom (assigned : List (List Char)) (text : List Char) :
    List (Except AttributeFault (List Char × List Char)) :=
  match hText : text.dropWhile isSpace with
  | [] => []
  | c :: more =>
    let key := c :: more.takeWhile fun d => !(d == '=' || isSpace d)
    match hKey : (more.dropWhile fun d => !(d == '=' || isSpace d)).dropWhile isSpace with
    | [] => [.error .missingEquals]
    | d :: rest =>
      if d ≠ '=' then .error .missingEquals :: reportsFrom assigned (d :: rest)
      else if key ∈ assigned then
        .error .repeatedKey :: reportsFrom assigned (rest.dropWhile (!isSpace ·))
      else
        match hRest : rest.dropWhile isSpace with
        | [] => [.error .missingValue]
        | quote :: value =>
          if isQuote quote then
            match hValue : value.dropWhile (· != quote) with
            | [] => [.error .unclosedValue]
            | _ :: after =>
              .ok (key, value.takeWhile (· != quote)) :: reportsFrom (key :: assigned) after
          else
            .error .unquotedValue ::
              reportsFrom (key :: assigned) ((quote :: value).dropWhile (!isSpace ·))
termination_by text.length
decreasing_by
  all_goals
    have shorter := length_dropWhile_le isSpace text
    have keyed := length_dropWhile_le isSpace
      (more.dropWhile fun d => !(d == '=' || isSpace d))
    have opened := length_dropWhile_le (fun d => !(d == '=' || isSpace d)) more
    rw [hText] at shorter
    rw [hKey] at keyed
    simp only [List.length_cons] at *
  · omega
  · have skipped := length_dropWhile_le (!isSpace ·) rest
    omega
  · have blanks := length_dropWhile_le isSpace rest
    have closed := length_dropWhile_le (· != quote) value
    rw [hRest] at blanks
    rw [hValue] at closed
    simp only [List.length_cons] at *
    omega
  · have blanks := length_dropWhile_le isSpace rest
    have skipped := length_dropWhile_le (!isSpace ·) (quote :: value)
    rw [hRest] at blanks
    simp only [List.length_cons] at *
    omega

/-- The name in a tag runs up to the first blank. -/
def tagName (content : List Char) : String :=
  String.ofList (content.takeWhile (!isSpace ·))

/-- The reports on the attributes of a tag, in order. -/
def tagReports (content : List Char) : List (Except AttributeFault (List Char × List Char)) :=
  reportsFrom [] (content.dropWhile (!isSpace ·))

/-! ## Marks -/

/-- A successfully read mark: its token, if it has one, and the text behind it. -/
abbrev Mark := Option Token × List Char

/-- Reads up to the first `>` outside quotes, given the quote that is open. -/
def tagBody : (open? : Option Char) → List Char → Except Fault (List Char × List Char)
  | none, [] => .error .tagNotClosed
  | some quote, [] => .error (.valueNotClosed quote)
  | none, c :: text =>
    if c = '>' then .ok ([], text)
    else (tagBody (if isQuote c then some c else none) text).map fun read => (c :: read.1, read.2)
  | some quote, c :: text =>
    (tagBody (if c = quote then none else some quote) text).map fun read => (c :: read.1, read.2)

/-- Drops the blanks at the end of an end tag's name, unless it has nothing else. -/
def stopName (body : List Char) : List Char :=
  match body.reverse.dropWhile isSpace with
  | [] => body
  | name => name.reverse

/-- The token of a start tag. A slash directly before the closing mark ends the element. -/
def startToken (body : List Char) : Token :=
  match cutBack? ['/'] body with
  | some content => .empty content
  | none => .start body

/-- Where a scan through a document type declaration stands. -/
inductive DoctypeState
  | outside
  | literal (quote : Char)
  /-- Between the brackets. -/
  | subset
  | comment
  | instruction
  /-- In a bracketed declaration or any other bracketed mark, with the quote that is open if
  quotes count. -/
  | declaration (quoting : Bool) (open? : Option Char)
  /-- Behind the brackets. -/
  | closing

/-- The bracketed declarations in which quoted text may hold a `>`. -/
def isQuoting (text : List Char) : Bool :=
  ["ENTITY", "ATTLIST", "NOTATION"].any fun keyword => keyword.toList.isPrefixOf text

/-- What follows the `>` that ends a document type declaration. A mark between the brackets ends
at its own `>`, also one that is no declaration, so a `]` inside it closes no bracket. -/
def afterDoctype? : DoctypeState → List Char → Option (List Char)
  | _, [] => none
  | .outside, c :: text =>
    if c = '>' then some text
    else if isQuote c then afterDoctype? (.literal c) text
    else if c = '[' then afterDoctype? .subset text
    else afterDoctype? .outside text
  | .literal quote, c :: text =>
    afterDoctype? (if c = quote then .outside else .literal quote) text
  | .subset, '<' :: '!' :: '-' :: '-' :: text => afterDoctype? .comment text
  | .subset, '<' :: '?' :: text => afterDoctype? .instruction text
  | .subset, '<' :: '!' :: text => afterDoctype? (.declaration (isQuoting text) none) text
  | .subset, '<' :: text => afterDoctype? (.declaration false none) text
  | .subset, c :: text => afterDoctype? (if c = ']' then .closing else .subset) text
  | .comment, '-' :: '-' :: '>' :: text => afterDoctype? .subset text
  | .comment, _ :: text => afterDoctype? .comment text
  | .instruction, '?' :: '>' :: text => afterDoctype? .subset text
  | .instruction, _ :: text => afterDoctype? .instruction text
  | .declaration quoting none, c :: text =>
    if c = '>' then afterDoctype? .subset text
    else afterDoctype? (.declaration quoting (if quoting && isQuote c then some c else none)) text
  | .declaration quoting (some quote), c :: text =>
    afterDoctype? (.declaration quoting (if c = quote then none else some quote)) text
  | .closing, c :: text => if c = '>' then some text else afterDoctype? .closing text

/-- Reads a document type declaration behind its `<!`. -/
def doctype (text : List Char) : Except Fault Mark :=
  if (text.take 7).map Char.toUpper ≠ "DOCTYPE".toList then .error .doctypeNotClosed
  else
    match afterDoctype? .outside text with
    | none => .error .doctypeNotClosed
    | some rest =>
      if ((text.drop 7).dropWhile isSpace).head? = some '>' then .error .doctypeWithoutName
      else .ok (none, rest)

/-- The text behind `<?` starts an XML declaration. -/
def startsDeclaration (text : List Char) : Bool :=
  match cutFront? ['x', 'm', 'l'] text with
  | some [] => true
  | some (c :: _) => isSpace c || c == '?'
  | none => false

/-- Reads a processing instruction behind its `<?`. -/
def instruction (text : List Char) : Except Fault Mark :=
  if text.head? = some '>' then .error .instructionNotClosed
  else
    match after? ['?', '>'] text with
    | some rest => .ok (none, rest)
    | none =>
      .error (if startsDeclaration text then .declarationNotClosed else .instructionNotClosed)

/-- Passes over a section that must start with `front` and ends at the first `back`. -/
def passOver (front back : List Char) (fault : Fault) (text : List Char) : Except Fault Mark :=
  match (cutFront? front text).bind (after? back) with
  | some rest => .ok (none, rest)
  | none => .error fault

/-- Reads the mark behind a `<`. -/
def mark : List Char → Except Fault Mark
  | [] => .error .tagNotClosed
  | '!' :: '[' :: text => passOver "CDATA[".toList "]]>".toList .cdataNotClosed text
  | '!' :: '-' :: text => passOver ['-'] "-->".toList .commentNotClosed text
  | '!' :: 'D' :: text => doctype ('D' :: text)
  | '!' :: 'd' :: text => doctype ('d' :: text)
  | '!' :: _ => .error .unknownMark
  | '?' :: text => instruction text
  | '/' :: text =>
    (tagBody none text).map fun read =>
      (some (.stop (String.ofList (stopName read.1))), read.2)
  | text => (tagBody none text).map fun read => (some (startToken read.1), read.2)

/-- Passes over the reference behind an `&`. It must end before the next mark begins. -/
def afterReference : List Char → Except Fault (List Char)
  | [] => .error .referenceNotClosed
  | c :: text =>
    if c = ';' then .ok text
    else if c = '&' ∨ c = '<' then .error .referenceNotClosed
    else afterReference text

/-! ## No mark reads beyond its text -/

theorem ok_of_map_eq_ok {α β : Type} {result : Except Fault α} {f : α → β} {b : β}
    (h : result.map f = .ok b) : ∃ a, result = .ok a ∧ f a = b := by
  cases result with
  | error fault => simp [Except.map] at h
  | ok a => exact ⟨a, rfl, by simpa [Except.map] using h⟩

theorem length_tagBody {open? : Option Char} {text : List Char} {read : List Char × List Char}
    (h : tagBody open? text = .ok read) : read.2.length < text.length := by
  fun_induction tagBody open? text generalizing read with
  | case1 => simp at h
  | case2 => simp at h
  | case3 =>
    cases h
    simp
  | case4 c text _ ih =>
    obtain ⟨inner, found, rfl⟩ := ok_of_map_eq_ok h
    have := ih found
    exact Nat.lt_succ_of_lt this
  | case5 quote c text ih =>
    obtain ⟨inner, found, rfl⟩ := ok_of_map_eq_ok h
    have := ih found
    exact Nat.lt_succ_of_lt this

theorem length_afterDoctype? {state : DoctypeState} {text rest : List Char}
    (h : afterDoctype? state text = some rest) : rest.length < text.length := by
  fun_induction afterDoctype? state text with
  | case1 => simp at h
  | case2 | case19 =>
    cases h
    simp
  | _ =>
    rename_i ih
    have := ih h
    simp only [List.length_cons]
    omega

theorem length_afterReference {text rest : List Char} (h : afterReference text = .ok rest) :
    rest.length < text.length := by
  fun_induction afterReference text with
  | case1 => simp at h
  | case2 => simp_all
  | case3 => simp at h
  | case4 c text _ _ ih => exact Nat.lt_succ_of_lt (ih h)

theorem length_passOver {front back : List Char} {fault : Fault} {text : List Char} {read : Mark}
    (h : passOver front back fault text = .ok read) : read.2.length ≤ text.length := by
  unfold passOver at h
  split at h
  · rename_i found
    cases h
    obtain ⟨inner, cut, closed⟩ := Option.bind_eq_some_iff.1 found
    have := length_cutFront? cut
    have := length_after? closed
    simp only
    omega
  · simp at h

theorem length_doctype {text : List Char} {read : Mark} (h : doctype text = .ok read) :
    read.2.length < text.length := by
  unfold doctype at h
  split at h
  · simp at h
  · split at h
    · simp at h
    · rename_i found
      split at h
      · simp at h
      · cases h
        exact length_afterDoctype? found

theorem length_instruction {text : List Char} {read : Mark} (h : instruction text = .ok read) :
    read.2.length ≤ text.length := by
  unfold instruction at h
  split at h
  · simp at h
  · split at h
    · rename_i found
      cases h
      have := length_after? found
      simp only
      omega
    · simp at h

theorem length_mark {text : List Char} {read : Mark} (h : mark text = .ok read) :
    read.2.length ≤ text.length := by
  fun_cases mark text with
  | case1 => simp [mark] at h
  | case2 text => have := length_passOver (by simpa only [mark] using h); grind
  | case3 text => have := length_passOver (by simpa only [mark] using h); grind
  | case4 text => have := length_doctype (by simpa only [mark] using h); grind
  | case5 text => have := length_doctype (by simpa only [mark] using h); grind
  | case6 => simp_all [mark]
  | case7 text => have := length_instruction (by simpa only [mark] using h); grind
  | case8 text =>
    rw [mark] at h
    obtain ⟨inner, found, rfl⟩ := ok_of_map_eq_ok h
    exact Nat.le_succ_of_le (Nat.le_of_lt (length_tagBody found))
  | case9 text =>
    rw [mark] at h
    · obtain ⟨inner, found, rfl⟩ := ok_of_map_eq_ok h
      exact Nat.le_of_lt (length_tagBody found)
    all_goals assumption

/-! ## The tokens of a text -/

/-- The tokens in front of the first fault, and that fault if there is one. -/
structure Tokens where
  tokens : List Token
  fault? : Option Fault
  deriving DecidableEq, Repr, Inhabited

/-- Puts a token in front. -/
def Tokens.cons (token? : Option Token) (rest : Tokens) : Tokens :=
  { rest with tokens := token?.toList ++ rest.tokens }

/-- Text runs up to the next mark or reference. -/
def isPlain (c : Char) : Bool :=
  !(c == '<' || c == '&')

set_option linter.unusedVariables false in
/-- Reads a document as far as its marks are sound. -/
def tokensFrom (text : List Char) : Tokens :=
  match text with
  | [] => ⟨[], none⟩
  | c :: text =>
    if c = '<' then
      match h : mark text with
      | .ok read => (tokensFrom read.2).cons read.1
      | .error fault => ⟨[], some fault⟩
    else if c = '&' then
      match h : afterReference text with
      | .ok rest => tokensFrom rest
      | .error fault => ⟨[], some fault⟩
    else
      let piece := trimChars (c :: text.takeWhile isPlain)
      (tokensFrom (text.dropWhile isPlain)).cons (some (.text (String.ofList piece)))
termination_by text.length
decreasing_by
  · exact Nat.lt_succ_of_le (length_mark h)
  · exact Nat.lt_succ_of_lt (length_afterReference h)
  · exact Nat.lt_succ_of_le (length_dropWhile_le isPlain text)

/-- The tokens of a document. A byte order mark in front is not part of it. -/
def tokens (document : String) : Tokens :=
  match document.toList with
  | '\uFEFF' :: text => tokensFrom text
  | text => tokensFrom text

end IdlBridge.Markup
