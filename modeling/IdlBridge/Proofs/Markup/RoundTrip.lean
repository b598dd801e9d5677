import IdlBridge.Markup.Printer
import IdlBridge.Proofs.Markup.Attributes
import IdlBridge.Proofs.Markup.Composition

/-!
# Reading what was written

An element whose names and keys are words, whose keys are different within each tag, and which holds
no text is read back from its written form: with the same names, attributes and children in the same
order. The values of its attributes are arbitrary.

Each lemma says how far the written form of a part takes a run over the text: a value, a tag, an
element, a list of elements.
-/

set_option autoImplicit false

namespace IdlBridge.Markup

open Text

/-! ## Values -/

/-- A written character is read back. -/
theorem unescapeFrom_escapeChar (c : Char) (text : List Char) :
    unescapeFrom none (escapeChar c ++ text) = (unescapeFrom none text).map (c :: ·) := by
  unfold escapeChar
  split
  case h_6 => simp_all [unescapeFrom]
  all_goals rfl

/-- A written value is read back. -/
theorem unescape?_escape (value : List Char) : unescape? (escape value) = some value := by
  induction value with
  | nil => rfl
  | cons c value ih =>
    unfold unescape? escape at ih ⊢
    rw [List.flatMap_cons, unescapeFrom_escapeChar, ih]
    rfl

/-- A written value holds no quote. -/
theorem quote_notMem_escape (value : List Char) : '"' ∉ escape value := by
  simp only [escape, List.mem_flatMap, not_exists, not_and]
  intro c _
  unfold escapeChar
  split
  case h_6 => simp_all [eq_comm]
  all_goals decide

/-! ## Words -/

/-- A word is one or more letters. -/
def IsWord (text : List Char) : Prop :=
  text ≠ [] ∧ ∀ c ∈ text, c.isAlpha = true

instance (text : List Char) : Decidable (IsWord text) :=
  @instDecidableAnd _ _ inferInstance (List.decidableBAll (fun c => c.isAlpha = true) text)

theorem ne_of_isAlpha {c d : Char} (letter : c.isAlpha = true) (other : d.isAlpha = false) :
    c ≠ d := by
  rintro rfl
  simp [letter] at other

theorem isSpace_of_isAlpha {c : Char} (letter : c.isAlpha = true) : isSpace c = false := by
  simp only [isSpace, Bool.or_eq_false_iff, beq_eq_false_iff_ne]
  exact ⟨⟨⟨ne_of_isAlpha letter (by decide), ne_of_isAlpha letter (by decide)⟩,
    ne_of_isAlpha letter (by decide)⟩, ne_of_isAlpha letter (by decide)⟩

theorem isQuote_of_isAlpha {c : Char} (letter : c.isAlpha = true) : isQuote c = false := by
  simp only [isQuote, Bool.or_eq_false_iff, beq_eq_false_iff_ne]
  exact ⟨ne_of_isAlpha letter (by decide), ne_of_isAlpha letter (by decide)⟩

theorem IsWord.isKey {text : List Char} (word : IsWord text) : IsKey text := by
  obtain ⟨nonempty, letters⟩ := word
  cases text with
  | nil => exact nonempty rfl
  | cons c rest =>
    refine ⟨isSpace_of_isAlpha (letters c List.mem_cons_self), ?_⟩
    intro d listed
    have letter := letters d (List.mem_cons_of_mem _ listed)
    exact ⟨isSpace_of_isAlpha letter, ne_of_isAlpha letter (by decide)⟩

/-! ## Tags -/

/-- The search for the end of a tag passes over `front`. -/
def Passes (front : List Char) : Prop :=
  ∀ text, tagBody none (front ++ text) =
    (tagBody none text).map fun read => (front ++ read.1, read.2)

theorem Passes.nil : Passes [] := by
  intro text
  rw [List.nil_append]
  cases tagBody none text <;> rfl

theorem Passes.append {first second : List Char} (passes : Passes first)
    (passes' : Passes second) : Passes (first ++ second) := by
  intro text
  rw [List.append_assoc, passes, passes']
  cases tagBody none text with
  | error => rfl
  | ok read => simp [Except.map]

theorem Passes.plain {text : List Char} (plain : ∀ c ∈ text, c ≠ '>' ∧ isQuote c = false) :
    Passes text := by
  intro rest
  induction text with
  | nil => exact Passes.nil rest
  | cons c text ih =>
    obtain ⟨inside, unquoted⟩ := plain c List.mem_cons_self
    have passes := ih fun d listed => plain d (List.mem_cons_of_mem _ listed)
    rw [List.cons_append, tagBody, if_neg inside, if_neg (by simp [unquoted]), passes]
    cases tagBody none rest <;> rfl

/-- Inside quotes nothing ends the tag. -/
theorem tagBody_some_append {value : List Char} {quote : Char} (unquoted : quote ∉ value)
    (text : List Char) :
    tagBody (some quote) (value ++ quote :: text) =
      (tagBody none text).map fun read => (value ++ quote :: read.1, read.2) := by
  induction value with
  | nil => simp [tagBody]
  | cons c value ih =>
    obtain ⟨other, unquoted⟩ := not_or.mp (mt List.mem_cons.mpr unquoted)
    rw [List.cons_append, tagBody, if_neg (Ne.symm other), ih unquoted]
    cases tagBody none text <;> rfl

theorem Passes.quoted {value : List Char} {quote : Char} (quotes : isQuote quote = true)
    (unquoted : quote ∉ value) : Passes (quote :: (value ++ [quote])) := by
  intro text
  have inside : quote ≠ '>' := by
    rintro rfl
    simp [isQuote] at quotes
  rw [List.cons_append, List.append_assoc, List.singleton_append, tagBody, if_neg inside,
    if_pos quotes, tagBody_some_append unquoted]
  cases tagBody none text with
  | error => rfl
  | ok read => simp [Except.map]

theorem Passes.word {text : List Char} (word : IsWord text) : Passes text := by
  apply Passes.plain
  intro c listed
  have letter := word.2 c listed
  exact ⟨ne_of_isAlpha letter (by decide), isQuote_of_isAlpha letter⟩

theorem eq_of_isSpace {c : Char} (space : isSpace c = true) :
    c = ' ' ∨ c = '\t' ∨ c = '\r' ∨ c = '\n' := by
  simpa [isSpace, or_assoc] using space

theorem Passes.blank {blanks : List Char} (blank : Blank blanks) : Passes blanks := by
  apply Passes.plain
  intro c listed
  have space := blank c listed
  rcases eq_of_isSpace space with rfl | rfl | rfl | rfl <;> decide

/-- A tag ends behind what the search passes over. -/
theorem Passes.tagBody_eq {body : List Char} (passes : Passes body) (rest : List Char) :
    tagBody none (body ++ '>' :: rest) = .ok (body, rest) := by
  rw [passes, tagBody, if_pos rfl]
  simp [Except.map]

/-- A mark that begins with a letter is a tag. -/
theorem mark_of_isAlpha {c : Char} (letter : c.isAlpha = true) (text : List Char) :
    mark (c :: text) =
      (tagBody none (c :: text)).map fun read => (some (startToken read.1), read.2) :=
  mark_of_ne (ne_of_isAlpha letter (by decide)) (ne_of_isAlpha letter (by decide))
    (ne_of_isAlpha letter (by decide)) text

/-- A start tag or an empty tag is read up to its end. -/
theorem mark_start {name attrs : List Char} (word : IsWord name) (passes : Passes attrs)
    (rest : List Char) :
    mark (name ++ attrs ++ '>' :: rest) = .ok (some (startToken (name ++ attrs)), rest) := by
  have body := ((Passes.word word).append passes).tagBody_eq rest
  obtain ⟨nonempty, letters⟩ := word
  cases name with
  | nil => exact absurd rfl nonempty
  | cons c name =>
    rw [List.cons_append, List.cons_append] at body ⊢
    rw [mark_of_isAlpha (letters c List.mem_cons_self), body]
    rfl

/-- A word has no blanks at its end. -/
theorem IsWord.stopName_eq {name : List Char} (word : IsWord name) : stopName name = name := by
  unfold stopName
  cases reversed : name.reverse with
  | nil => rfl
  | cons c front =>
    have listed : c ∈ name := List.mem_reverse.mp (by simp [reversed])
    rw [dropWhile_isSpace_cons (isSpace_of_isAlpha (word.2 c listed))]
    exact (congrArg List.reverse reversed).symm.trans (List.reverse_reverse name)

/-- An end tag is read up to its end. -/
theorem mark_stop {name : List Char} (word : IsWord name) (rest : List Char) :
    mark ('/' :: (name ++ '>' :: rest)) = .ok (some (.stop (String.ofList name)), rest) := by
  rw [mark, (Passes.word word).tagBody_eq]
  simp [Except.map, word.stopName_eq]

theorem startToken_slash (content : List Char) :
    startToken (content ++ ['/']) = .empty content := by
  simp [startToken, cutBack?, cutFront?]

theorem startToken_concat {c : Char} (other : c ≠ '/') (content : List Char) :
    startToken (content ++ [c]) = .start (content ++ [c]) := by
  simp [startToken, cutBack?, cutFront?, Ne.symm other]

/-! ## Attributes -/

/-- An attribute as it is written, without the quotes. -/
def escapedPair (attr : String × String) : List Char × List Char :=
  (attr.1.toList, escape attr.2.toList)

theorem renderAttrs_cons (attr : String × String) (attrs : List (String × String)) :
    renderAttrs (attr :: attrs) =
      ' ' :: attr.1.toList ++ ['='] ++ ('"' :: (escape attr.2.toList ++ ['"'])) ++
        renderAttrs attrs := by
  simp [renderAttrs]

theorem passes_renderAttrs {attrs : List (String × String)}
    (keys : ∀ attr ∈ attrs, IsWord attr.1.toList) : Passes (renderAttrs attrs) := by
  induction attrs with
  | nil => exact Passes.nil
  | cons attr attrs ih =>
    rw [renderAttrs_cons]
    have blank : Passes [' '] := Passes.blank (by simp [Blank, isSpace])
    have key := Passes.word (keys attr List.mem_cons_self)
    have equals : Passes ['='] := Passes.plain (by simp [isQuote])
    have value : Passes ('"' :: (escape attr.2.toList ++ ['"'])) :=
      Passes.quoted rfl (quote_notMem_escape _)
    have others := ih fun other listed => keys other (List.mem_cons_of_mem _ listed)
    exact (((blank.append key).append equals).append value).append others

theorem writesAttributes_renderAttrs {attrs : List (String × String)}
    (keys : ∀ attr ∈ attrs, IsWord attr.1.toList) {blanks : List Char} (blank : Blank blanks) :
    WritesAttributes (attrs.map escapedPair) (renderAttrs attrs ++ blanks) := by
  induction attrs with
  | nil => exact .nil blank
  | cons attr attrs ih =>
    have others := ih fun other listed => keys other (List.mem_cons_of_mem _ listed)
    have first : WritesAttribute attr.1.toList (escape attr.2.toList) _ :=
      .intro (keys attr List.mem_cons_self).isKey (List.forall_mem_nil _) (List.forall_mem_nil _)
        rfl (quote_notMem_escape _)
    have blank : Blank [' '] := by simp [Blank, isSpace]
    have written := WritesAttributes.cons blank first others
    rw [renderAttrs_cons]
    simpa [escapedPair] using written

/-- The name of a tag ends in front of its first blank. -/
theorem span_name {name rest : List Char} (word : IsWord name)
    (divided : rest.takeWhile (!isSpace ·) = []) :
    (name ++ rest).takeWhile (!isSpace ·) = name ∧
      (name ++ rest).dropWhile (!isSpace ·) = rest := by
  have inside : ∀ c ∈ name, (!isSpace c) = true := by
    intro c listed
    simp [isSpace_of_isAlpha (word.2 c listed)]
  have whole := List.takeWhile_append_dropWhile (p := (!isSpace ·)) (l := rest)
  rw [divided, List.nil_append] at whole
  constructor
  · rw [List.takeWhile_append_of_pos inside, divided, List.append_nil]
  · rw [List.dropWhile_append_of_pos inside, whole]

/-- The attributes of a tag are divided from its name by a blank. -/
theorem takeWhile_renderAttrs (attrs : List (String × String)) {blanks : List Char}
    (blank : Blank blanks) : (renderAttrs attrs ++ blanks).takeWhile (!isSpace ·) = [] := by
  cases attrs with
  | nil =>
    cases blanks with
    | nil => rfl
    | cons c blanks => exact List.takeWhile_cons_of_neg (by simp [blank c List.mem_cons_self])
  | cons attr attrs => exact List.takeWhile_cons_of_neg (by simp [isSpace])

theorem readAttrs_escapedPair (name : String) (attrs : List (String × String)) :
    Element.readAttrs name (attrs.map escapedPair) = .ok attrs := by
  rw [readAttrs_eq_ok_iff, List.forall₂_map_left_iff, List.forall₂_same]
  intro attr _
  exact ⟨String.ofList_toList.symm, unescape?_escape _⟩

/-- A name and attributes as they can stand in a tag: the name and the keys are words, and the keys
are different. -/
structure WritableTag (name : String) (attrs : List (String × String)) : Prop where
  word : IsWord name.toList
  keys : ∀ attr ∈ attrs, IsWord attr.1.toList
  distinct : (attrs.map Prod.fst).Nodup

instance (name : String) (attrs : List (String × String)) : Decidable (WritableTag name attrs) :=
  decidable_of_iff
    (IsWord name.toList ∧ (∀ attr ∈ attrs, IsWord attr.1.toList) ∧ (attrs.map Prod.fst).Nodup)
    ⟨fun ⟨word, keys, distinct⟩ => ⟨word, keys, distinct⟩, fun tag =>
      ⟨tag.word, tag.keys, tag.distinct⟩⟩

section Tag

variable {name : String} {attrs : List (String × String)} {blanks : List Char}

/-- **A written tag starts its element.** -/
theorem WritableTag.ofTag_eq (tag : WritableTag name attrs) (blank : Blank blanks) :
    Element.ofTag (name.toList ++ renderAttrs attrs ++ blanks) = .ok ⟨name, attrs, [], ""⟩ := by
  obtain ⟨word, keys, distinct⟩ := tag
  obtain ⟨nameRead, attrsRead⟩ := span_name word (takeWhile_renderAttrs attrs blank)
  have fresh : Fresh [] (attrs.map escapedPair) := by
    have keysWritten : (attrs.map escapedPair).map Prod.fst =
        (attrs.map Prod.fst).map String.toList := by simp [escapedPair]
    rw [fresh_nil_iff, keysWritten]
    exact List.pairwise_map.mpr
      (distinct.imp fun other same => other (String.toList_injective same))
  have reports := (writesAttributes_renderAttrs keys blank).reportsFrom_eq fresh
  rw [List.append_assoc, Element.ofTag, tagName, tagReports, nameRead, attrsRead, reports,
    filterMap_toOption_ok, readAttrs_escapedPair, String.ofList_toList]
  rfl

/-- With a slash at its end it is read as an empty tag. -/
theorem WritableTag.mark_empty (tag : WritableTag name attrs) (blank : Blank blanks)
    (rest : List Char) :
    mark (name.toList ++ renderAttrs attrs ++ blanks ++ '/' :: '>' :: rest) =
      .ok (some (.empty (name.toList ++ renderAttrs attrs ++ blanks)), rest) := by
  have slash : Passes ['/'] := Passes.plain (by simp [isQuote])
  have passes := ((passes_renderAttrs tag.keys).append (Passes.blank blank)).append slash
  have marked := mark_start tag.word passes rest
  rw [← List.append_assoc, ← List.append_assoc, startToken_slash] at marked
  simpa using marked

/-- Otherwise it is read as a start tag, because a word and a quoted value do not end in a slash. -/
theorem WritableTag.mark_start (tag : WritableTag name attrs) (rest : List Char) :
    mark (name.toList ++ renderAttrs attrs ++ '>' :: rest) =
      .ok (some (.start (name.toList ++ renderAttrs attrs)), rest) := by
  have starts : startToken (name.toList ++ renderAttrs attrs) =
      .start (name.toList ++ renderAttrs attrs) := by
    rcases List.eq_nil_or_concat' attrs with rfl | ⟨front, last, rfl⟩
    · obtain ⟨front, c, ends⟩ := (List.eq_nil_or_concat' name.toList).resolve_left tag.word.1
      have letter : c.isAlpha = true := tag.word.2 c (by simp [ends])
      rw [renderAttrs, List.flatMap_nil, List.append_nil, ends]
      exact startToken_concat (ne_of_isAlpha letter (by decide)) front
    · rw [renderAttrs, List.flatMap_append, List.flatMap_singleton, ← List.append_assoc,
        ← List.append_assoc]
      exact startToken_concat (by decide) _
  rw [Markup.mark_start tag.word (passes_renderAttrs tag.keys), starts]

end Tag

/-! ## Blanks between tags -/

theorem isPlain_of_isSpace {c : Char} (space : isSpace c = true) : isPlain c = true := by
  rcases eq_of_isSpace space with rfl | rfl | rfl | rfl <;> decide

theorem isBlank_of_isSpace {c : Char} (space : isSpace c = true) : isBlank c = true := by
  rcases eq_of_isSpace space with rfl | rfl | rfl | rfl <;> decide

theorem Blank.trimChars_eq {blanks : List Char} (blank : Blank blanks) : trimChars blanks = [] :=
  trimChars_of_isBlank fun c listed => isBlank_of_isSpace (blank c listed)

/-- Empty text changes nothing. -/
theorem Reading.step_text_empty (reading : Reading) : reading.step (.text "") = .ok reading := by
  obtain ⟨opened, root?⟩ := reading
  cases opened with
  | nil => rfl
  | cons element outer =>
    cases element
    simp only [Reading.step, String.append_empty]

/-- Blanks between tags change nothing. -/
theorem readFrom_blank {blanks : List Char} (blank : Blank blanks) (reading : Reading)
    (text : List Char) :
    reading.readFrom (blanks ++ '<' :: text) = reading.readFrom ('<' :: text) := by
  cases blanks with
  | nil => rfl
  | cons c more =>
    have plain : ∀ d ∈ c :: more, isPlain d = true := fun d listed =>
      isPlain_of_isSpace (blank d listed)
    apply readFrom_cons _ reading.step_text_empty
    rw [List.cons_append, tokensFrom_plain (plain c List.mem_cons_self)]
    have inside : ∀ d ∈ more, isPlain d = true := fun d listed =>
      plain d (List.mem_cons_of_mem _ listed)
    have stops : isPlain '<' ≠ true := by decide
    rw [List.takeWhile_append_of_pos inside, List.dropWhile_append_of_pos inside,
      List.takeWhile_cons_of_neg stops, List.dropWhile_cons_of_neg stops, List.append_nil,
      blank.trimChars_eq]

/-! ## Elements -/

/-- The tags of the element and of all inside it can be written, and there is no text. -/
inductive Element.AttributeOnly : Element → Prop
  | intro {name : String} {attrs : List (String × String)} {children : List Element}
      (tag : WritableTag name attrs) (inner : ∀ child ∈ children, child.AttributeOnly) :
      AttributeOnly ⟨name, attrs, children, ""⟩

/-- The blanks of a document are blanks. -/
structure Spacing.Blank (spacing : Spacing) : Prop where
  beforeSlash : Markup.Blank spacing.beforeSlash
  betweenTags : Markup.Blank spacing.betweenTags

/-- The written form of an element begins with its tag. -/
theorem Element.exists_render (spacing : Spacing) (element : Element) :
    ∃ text, element.render spacing = '<' :: text := by
  obtain ⟨name, attrs, children, text⟩ := element
  rw [Element.render]
  split
  · exact ⟨_, rfl⟩
  · exact ⟨_, rfl⟩

/-- An element is handed to the innermost open one. -/
theorem Reading.place_child (parent : Element) (outer : List Element) (root? : Option Element)
    (child : Element) :
    Reading.place ⟨parent :: outer, root?⟩ child =
      .ok ⟨{ parent with children := parent.children ++ [child] } :: outer, root?⟩ :=
  rfl

variable {spacing : Spacing}

/-- The children of an open element are read one after the other. -/
theorem readFrom_renderAll (blank : spacing.Blank) {children : List Element}
    (inner : ∀ child ∈ children, ∀ {reading next : Reading}, reading.place child = .ok next →
      ∀ rest, reading.readFrom (child.render spacing ++ rest) = next.readFrom rest)
    (parent : Element) (outer : List Element) (root? : Option Element) (rest : List Char) :
    Reading.readFrom ⟨parent :: outer, root?⟩ (renderAll spacing children ++ rest) =
      Reading.readFrom
        ⟨{ parent with children := parent.children ++ children } :: outer, root?⟩ rest := by
  induction children generalizing parent with
  | nil =>
    cases parent
    simp [renderAll]
  | cons child children ih =>
    obtain ⟨text, begins⟩ := child.exists_render spacing
    have read := inner child List.mem_cons_self (Reading.place_child parent outer root? child)
      (renderAll spacing children ++ rest)
    have others := ih (fun other listed => inner other (List.mem_cons_of_mem _ listed))
    rw [renderAll, List.append_assoc, List.append_assoc, begins, List.cons_append,
      readFrom_blank blank.betweenTags, ← List.cons_append, ← begins, read, others]
    simp

/-- **The written form of an element is read as this element.** -/
theorem Element.AttributeOnly.readFrom_render {element : Element}
    (attributeOnly : element.AttributeOnly) (blank : spacing.Blank) {reading next : Reading}
    (placed : reading.place element = .ok next) (rest : List Char) :
    reading.readFrom (element.render spacing ++ rest) = next.readFrom rest := by
  induction attributeOnly generalizing reading next rest with
  | @intro name attrs children tag _ ih =>
    rw [Element.render]
    split
    · rename_i childless
      obtain rfl : children = [] := by simpa using childless
      have marked := tag.mark_empty blank.beforeSlash rest
      have stepped : reading.step
          (.empty (name.toList ++ renderAttrs attrs ++ spacing.beforeSlash)) = .ok next := by
        rw [Reading.step, tag.ofTag_eq blank.beforeSlash]
        exact placed
      have read := readFrom_mark marked stepped
      simpa [renderTag] using read
    · -- The start tag opens the element, its children are handed to it, and its end tag places it.
      have stepped : reading.step (.start (name.toList ++ renderAttrs attrs)) =
          .ok ⟨⟨name, attrs, [], ""⟩ :: reading.opened, reading.root?⟩ := by
        have started := tag.ofTag_eq (List.forall_mem_nil _)
        rw [List.append_nil] at started
        rw [Reading.step, started]
        rfl
      have stopped : Reading.step ⟨⟨name, attrs, children, ""⟩ :: reading.opened, reading.root?⟩
          (.stop (String.ofList name.toList)) = .ok next := by
        rw [Reading.step, String.ofList_toList]
        simpa using placed
      have ended := readFrom_mark (mark_stop tag.word rest) stopped
      have between := readFrom_blank blank.betweenTags
        ⟨⟨name, attrs, children, ""⟩ :: reading.opened, reading.root?⟩
        ('/' :: (name.toList ++ '>' :: rest))
      have inside := readFrom_renderAll blank (fun child listed _ _ => ih child listed)
        ⟨name, attrs, [], ""⟩ reading.opened reading.root?
        (spacing.betweenTags ++ '<' :: '/' :: (name.toList ++ '>' :: rest))
      have started := readFrom_mark (tag.mark_start (renderAll spacing children ++
        (spacing.betweenTags ++ '<' :: '/' :: (name.toList ++ '>' :: rest)))) stepped
      have read := started.trans (inside.trans (between.trans ended))
      simpa [renderTag] using read

/-- **Every written document is read back**, whatever the values of its attributes and wherever it
has blanks. -/
theorem ofDocument_toDocument {element : Element} (attributeOnly : element.AttributeOnly)
    (blank : spacing.Blank) : Element.ofDocument (element.toDocument spacing) = .ok element := by
  obtain ⟨text, begins⟩ := element.exists_render spacing
  have placed : Reading.start.place element = .ok ⟨[], some element⟩ := rfl
  have read := attributeOnly.readFrom_render blank placed []
  rw [List.append_nil] at read
  rw [Element.toDocument, begins, ofDocument_eq_readFrom, ← begins, read, readFrom_nil]
  rfl

/-- A tree whose values hold quotes, marks, references and line breaks. -/
def quotedTree : Element :=
  ⟨"tree", [("file", "a\"b'.idl"), ("note", "<leaf name=\"&amp;\"/>\n")],
    [⟨"leaf", [], [], ""⟩, ⟨"node", [("name", ""), ("Name", "&")], [⟨"leaf", [], [], ""⟩], ""⟩], ""⟩

theorem attributeOnly_quotedTree : quotedTree.AttributeOnly := by
  have leaf : Element.AttributeOnly ⟨"leaf", [], [], ""⟩ := .intro (by decide) (by simp)
  have node : Element.AttributeOnly
      ⟨"node", [("name", ""), ("Name", "&")], [⟨"leaf", [], [], ""⟩], ""⟩ :=
    .intro (by decide) (by simpa using leaf)
  refine .intro (by decide) ?_
  simpa using ⟨leaf, node⟩

theorem quotedTree_read_back :
    quotedTree.toDocument ⟨[' '], ['\n', '\t']⟩ =
        "<tree file=\"a&quot;b&apos;.idl\" note=\"&lt;leaf name=&quot;&amp;amp;&quot;/&gt;\n\">" ++
        "\n\t<leaf />\n\t<node name=\"\" Name=\"&amp;\">\n\t<leaf />\n\t</node>\n\t</tree>" ∧
      Element.ofDocument (quotedTree.toDocument ⟨[' '], ['\n', '\t']⟩) = .ok quotedTree :=
  ⟨by decide +kernel,
    ofDocument_toDocument attributeOnly_quotedTree
      ⟨by simp [Blank, isSpace], by simp [Blank, isSpace]⟩⟩

end IdlBridge.Markup
