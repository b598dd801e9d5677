import IdlBridge.Proofs.Document.Notes
import IdlBridge.Proofs.Markup.Contents
import IdlBridge.Proofs.Markup.RoundTrip

/-!
# The contents of pragmas

A pragma is read from the text between its tags. References and character data sections add nothing
to this text, so the marks of a text that is written with references are lost
(`Pragma.ofText_unmarked_eq_iff`), and of one that is written as a character data section nothing is
left. All else in the document is loaded as it is beside an empty pragma (`exists_setPragma`).
-/

set_option autoImplicit false

namespace IdlBridge

open Markup

/-! ## Texts without their marks -/

/-- **Only a text without marks is the pragma that it is without them.** -/
theorem Pragma.ofText_unmarked_eq_iff {text : List Char} :
    Pragma.ofText (String.ofList (unmarked text)) = .ofText (String.ofList text) ↔
      ∀ c ∈ text, isMarkup c = false := by
  constructor
  · intro same c listed
    cases marks : isMarkup c with
    | false => rfl
    | true =>
      -- A mark is no part of a keyword, so it shows in the pragma.
      have foreign : Pragma.isForeign c = true := by
        have one : (c = '&' ∨ c = '<') ∨ c = '>' := by simpa [isMarkup] using marks
        rcases one with (rfl | rfl) | rfl <;> decide +kernel
      have kept : c ∈ (Pragma.ofText (String.ofList text)).chars := by
        rwa [Pragma.mem_chars_ofText_iff foreign, String.toList_ofList]
      rw [← same, Pragma.mem_chars_ofText_iff foreign, String.toList_ofList] at kept
      rw [isMarkup_of_mem_unmarked kept] at marks
      cases marks
  · intro plain
    rw [unmarked_of_plain plain, Pragma.ofText_trimChars]

/-! ## Documents with a pragma -/

/-- What stands between the brackets of a start tag, and the element that the tag opens. -/
structure Markup.StartTag (tag : List Char) (element : Element) : Prop where
  marked : ∀ rest, mark (tag ++ '>' :: rest) = .ok (some (.start tag), rest)
  read : Element.ofTag tag = .ok element

theorem Markup.WritableTag.startTag {name : String} {attrs : List (String × String)}
    (writable : WritableTag name attrs) :
    StartTag (name.toList ++ renderAttrs attrs) ⟨name, attrs, [], ""⟩ where
  marked := writable.mark_start
  read := by
    have read := writable.ofTag_eq (List.forall_mem_nil _)
    rwa [List.append_nil] at read

theorem Markup.StartTag.step {tag : List Char} {element : Element} (starts : StartTag tag element)
    (reading : Reading) :
    reading.step (.start tag) = .ok ⟨element :: reading.opened, reading.root?⟩ := by
  rw [Reading.step, starts.read]
  rfl

/-- A document with the given content in a pragma. -/
def withPragma (front tag content back : List Char) : String :=
  String.ofList (front ++ '<' :: (tag ++ '>' :: (content ++ ("</pragma>".toList ++ back))))

section Documents

variable {front tag back : List Char} {attrs : List (String × String)} {interface root : Element}
  {modules : List Element} {root? : Option Element}

/-- Behind the pragma, it is the last child of its element. -/
theorem ofDocument_withPragma {outer : List Element}
    (leads : LeadsTo front ⟨interface :: outer, root?⟩)
    (starts : StartTag tag (pragmaElement attrs "")) {content : List Char} {text : String}
    (adds : AddsText content text) (back : List Char) :
    Element.ofDocument (withPragma front tag content back) =
      Reading.readFrom ⟨{ interface with
        children := interface.children ++ [pragmaElement attrs text] } :: outer, root?⟩ back := by
  have filled : { pragmaElement attrs "" with text := (pragmaElement attrs "").text ++ text } =
      pragmaElement attrs text := congrArg (Element.mk _ _ _) (String.empty_append)
  have named : IsWord "pragma".toList := by decide
  have closed : Reading.step ⟨pragmaElement attrs text :: interface :: outer, root?⟩
      (.stop (String.ofList "pragma".toList)) = .ok ⟨{ interface with
        children := interface.children ++ [pragmaElement attrs text] } :: outer, root?⟩ := rfl
  calc Element.ofDocument (withPragma front tag content back)
    _ = Reading.readFrom ⟨interface :: outer, root?⟩
          ('<' :: (tag ++ '>' :: (content ++ ("</pragma>".toList ++ back)))) :=
        leads.ofDocument_append rfl
    _ = Reading.readFrom ⟨pragmaElement attrs "" :: interface :: outer, root?⟩
          (content ++ ("</pragma>".toList ++ back)) :=
        readFrom_mark (starts.marked _) (starts.step _)
    _ = Reading.readFrom ⟨pragmaElement attrs text :: interface :: outer, root?⟩
          ("</pragma>".toList ++ back) := by
        rw [adds.readFrom_append _ _ _ _, filled]
        rintro c ⟨⟩
        rfl
    _ = _ := readFrom_mark (mark_stop named back) closed

/-- The elements around a pragma, read to their ends, are the same up to their texts. -/
theorem IsNest.of_untexted (isInterface : interface.name = "interface")
    (areModules : ∀ element ∈ modules, element.name = "module") {others : List Element}
    (same : others.map Element.untexted = (interface :: (modules ++ [root])).map Element.untexted) :
    ∃ interface' chain root', others = chain ++ [root'] ∧ IsNest interface' chain ∧
      interface'.children = interface.children ∧
      chainScope others = chainScope (interface :: (modules ++ [root])) := by
  have tagged : ∀ chain : List Element,
      (chain.map Element.untexted).map Element.tag = chain.map Element.tag := by
    intro chain
    rw [List.map_map]
    rfl
  have scope := chainScope_of_tags
    ((tagged others).symm.trans ((congrArg (List.map Element.tag) same).trans (tagged _)))
  rw [← List.cons_append, List.map_append] at same
  obtain ⟨front, last, rfl, nested, ends⟩ := List.map_eq_append_iff.mp same
  obtain ⟨root', rfl, -⟩ := List.map_eq_singleton_iff.mp ends
  obtain ⟨interface', modules', rfl, own, others⟩ := List.map_eq_cons_iff.mp nested
  refine ⟨interface', interface' :: modules', root', rfl, ⟨?_, modules', rfl, ?_⟩,
    (Element.mk.inj own).2.2.1, scope⟩
  · exact (Element.mk.inj own).1.trans isInterface
  · intro element listed
    have untexted : element.untexted ∈ modules.map Element.untexted :=
      others ▸ List.mem_map_of_mem listed
    obtain ⟨original, isOriginal, alike⟩ := List.mem_map.mp untexted
    exact (Element.mk.inj alike).1.symm.trans (areModules original isOriginal)

/-- **A content without tags changes one pragma of the loaded tree**, to the one that is read from
the text it adds. -/
theorem exists_setPragma (leads : LeadsTo front ⟨interface :: (modules ++ [root]), root?⟩)
    (isInterface : interface.name = "interface")
    (areModules : ∀ element ∈ modules, element.name = "module")
    (starts : StartTag tag (pragmaElement attrs "")) {tree : DeclTree}
    (loaded : DeclTree.ofDocument (withPragma front tag [] back) = .ok tree) :
    ∃ id after, tree.scopedName id = chainScope (interface :: (modules ++ [root])) ∧
      tree.partOf DeclKind.pragmas id = pragmasOf interface.children ++ .ofText "" :: after ∧
      ∀ content text, AddsText content text →
        DeclTree.ofDocument (withPragma front tag content back) =
          .ok (tree.setPragma id (pragmasOf interface.children).length (.ofText text)) := by
  obtain ⟨whole, parsed, -⟩ := bind_eq_ok_iff.mp loaded
  have holed : Reading.Holed (interface :: (modules ++ [root])) fun element =>
      ⟨{ interface with children := interface.children ++ [element] } :: (modules ++ [root]),
        root?⟩ := .opened (.child interface []) [] (modules ++ [root]) root?
  obtain ⟨others, fill, same, hole, filled⟩ :=
    holed.readFrom ((ofDocument_withPragma leads starts .nil back).symm.trans parsed)
  obtain ⟨interface', chain, root', rfl, nest, children, scope⟩ :=
    IsNest.of_untexted isInterface areModules same
  have read : ∀ content text, AddsText content text →
      DeclTree.ofDocument (withPragma front tag content back) =
        Outline.ofRoot (fill (pragmaElement attrs text)) >>= Outline.resolve := fun _ _ adds =>
    DeclTree.ofDocument_eq ((ofDocument_withPragma leads starts adds back).trans (filled _))
  rw [read [] "" .nil] at loaded
  obtain ⟨id, after, named, pragmas, changed⟩ := hole.loads_setPragma nest attrs loaded
  rw [scope] at named
  rw [children] at pragmas changed
  exact ⟨id, after, named, pragmas, fun content text adds =>
    (read content text adds).trans (changed text)⟩

end Documents

/-- **What is loaded for the contents of a pragma.** A text with references in place of its marks is
loaded without them, which is the pragma of the text only if there are none. A character data
section is loaded as if the pragma was empty, which is the pragma of the text only if it is blank.
The tree is the same otherwise, and so are the other pragmas of the interface. -/
theorem pragma_contents_exact {front tag back : List Char} {attrs : List (String × String)}
    {interface root : Element} {modules : List Element} {root? : Option Element} {tree : DeclTree}
    (leads : LeadsTo front ⟨interface :: (modules ++ [root]), root?⟩)
    (isInterface : interface.name = "interface")
    (areModules : ∀ element ∈ modules, element.name = "module")
    (starts : StartTag tag (pragmaElement attrs ""))
    (loaded : DeclTree.ofDocument (withPragma front tag [] back) = .ok tree) :
    ∃ id after, tree.scopedName id = chainScope (interface :: (modules ++ [root])) ∧
      tree.partOf DeclKind.pragmas id = pragmasOf interface.children ++ .ofText "" :: after ∧
      (∀ text,
        DeclTree.ofDocument (withPragma front tag (escapeContent text) back) =
          .ok (tree.setPragma id (pragmasOf interface.children).length
            (.ofText (String.ofList (unmarked text)))) ∧
        (Pragma.ofText (String.ofList (unmarked text)) = .ofText (String.ofList text) ↔
          ∀ c ∈ text, isMarkup c = false)) ∧
      ∀ text, ¬ "]]>".toList <:+: text →
        DeclTree.ofDocument (withPragma front tag (characterData text) back) = .ok tree ∧
        (Pragma.ofText "" = .ofText (String.ofList text) ↔ ∀ c ∈ text, Text.isBlank c = true) := by
  obtain ⟨id, after, named, pragmas, changed⟩ :=
    exists_setPragma leads isInterface areModules starts loaded
  refine ⟨id, after, named, pragmas, fun text => ⟨?_, Pragma.ofText_unmarked_eq_iff⟩,
    fun text inner => ⟨?_, ?_⟩⟩
  · exact changed _ _ (addsText_escapeContent text)
  · rw [changed _ _ (addsText_characterData inner), ← changed _ _ .nil, loaded]
  · rw [← String.toList_ofList (l := text), ← Pragma.ofText_eq_empty_iff, String.toList_ofList]
    exact eq_comm

/-- The beginning of a document, up to the second pragma of an interface. -/
def annotatedFront : String :=
  "<tree file=\"a.idl\"><module name=\"M\"><interface name=\"I\"><pragma>user a</pragma>"

/-- The rest of the document, with one more pragma. -/
def annotatedBack : List Char :=
  "<pragma>user b</pragma></interface></module></tree>".toList

theorem leadsTo_annotatedFront :
    LeadsTo annotatedFront.toList
      ⟨⟨"interface", [("name", "I")], [pragmaElement [] "user a"], ""⟩ ::
        ([⟨"module", [("name", "M")], [], ""⟩] ++ [⟨"tree", [("file", "a.idl")], [], ""⟩]),
        none⟩ := by
  have chars : annotatedFront.toList = _ := String.toList_ofList
  have read : tokens (String.ofList annotatedFront.toList) =
      ⟨[.start ("tree".toList ++ renderAttrs [("file", "a.idl")]),
        .start ("module".toList ++ renderAttrs [("name", "M")]),
        .start ("interface".toList ++ renderAttrs [("name", "I")]),
        .start ("pragma".toList ++ renderAttrs []), .text "user a", .stop "pragma"], none⟩ := by
    rw [chars, tokens_of_ne (by decide)]
    decide +kernel
  have root : WritableTag "tree" [("file", "a.idl")] := by decide
  have scope : WritableTag "module" [("name", "M")] := by decide
  have interface : WritableTag "interface" [("name", "I")] := by decide
  have pragma : WritableTag "pragma" [] := by decide
  refine ⟨by rw [read], ?_⟩
  rw [read]
  simp only [List.foldlM_cons, List.foldlM_nil, root.startTag.step, scope.startTag.step,
    interface.startTag.step, pragma.startTag.step, bind, Except.bind]
  rfl

/-- In this document, a reference and a character data section are lost, and the pragmas beside them
are loaded. -/
theorem second_pragma_loaded :
    ∃ tree id after,
      DeclTree.ofDocument (withPragma annotatedFront.toList "pragma".toList [] annotatedBack) =
        .ok tree ∧
      tree.scopedName id = ⟨["M", "I"]⟩ ∧
      tree.partOf DeclKind.pragmas id = .other "user a" :: .ofText "" :: after ∧
      DeclTree.ofDocument (withPragma annotatedFront.toList "pragma".toList
        (escapeContent "a & b".toList) annotatedBack) = .ok (tree.setPragma id 1 (.other "ab")) ∧
      DeclTree.ofDocument (withPragma annotatedFront.toList "pragma".toList
        (characterData "terminal-interface".toList) annotatedBack) = .ok tree := by
  have writable : WritableTag "pragma" [] := by decide
  have starts : StartTag "pragma".toList (pragmaElement [] "") := writable.startTag
  have accepted : (DeclTree.ofDocument (withPragma annotatedFront.toList "pragma".toList []
      annotatedBack)).toOption.isSome = true := by
    rw [DeclTree.ofDocument, ofDocument_withPragma leadsTo_annotatedFront starts .nil]
    decide +kernel
  obtain ⟨tree, found⟩ := Option.isSome_iff_exists.mp accepted
  have loaded := eq_ok_of_toOption found
  have inner : ¬ "]]>".toList <:+: "terminal-interface".toList := by decide +kernel
  obtain ⟨id, after, named, pragmas, escaped, sections⟩ :=
    pragma_contents_exact leadsTo_annotatedFront rfl (by simp) starts loaded
  have front : pragmasOf [pragmaElement [] "user a"] = [.other "user a"] := by decide +kernel
  have left : Pragma.ofText (String.ofList (unmarked "a & b".toList)) = .other "ab" := by
    decide +kernel
  rw [front] at pragmas escaped
  refine ⟨tree, id, after, loaded, named, pragmas, ?_, (sections _ inner).1⟩
  rw [← left]
  exact (escaped _).1

/-- A document with a pragma that is written as a character data section. -/
def sectionPragmaDocument : String :=
  "<tree file=\"a.idl\"><interface name=\"I\">" ++
  "<pragma><![CDATA[terminal-interface]]></pragma></interface></tree>"

/-- The interface has an empty pragma in its place, and not the one that the text stands for. -/
theorem sectionPragmaDocument_loaded :
    (DeclTree.ofDocument sectionPragmaDocument).toOption.map (fun tree => tree.kind? 0) =
        some (some (.interface ⟨[], [], [], [.other ""]⟩)) ∧
      Pragma.ofText "terminal-interface" = .terminal := by
  have chars : sectionPragmaDocument.toList = _ :=
    toList_append_eq String.toList_ofList String.toList_ofList
  have read := ofDocument_of_toList chars rfl
  rw [DeclTree.ofDocument, read]
  decide +kernel

end IdlBridge
