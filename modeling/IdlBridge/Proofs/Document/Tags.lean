import IdlBridge.Proofs.Document.Arrangement
import IdlBridge.Proofs.Markup.Attributes

/-!
# Tags and elements

Every tag that starts an element is turned into an element with the name and the attributes of the
tag, and the elements of an accepted document are those of its tags, in order. While a document is
read, the elements so far are the ones inside the root and inside the elements that are still open
(`Reading.heads`). A tag adds one at the end, an end tag and a text add none.

An attribute that the scan of its tag reports as faulty is left out without a word. So an element
has the attributes that are written in its tag exactly if the scan finds no fault there
(`Element.Keeps`).
-/

set_option autoImplicit false

namespace IdlBridge.Markup

/-! ## What a tag gives -/

/-- What is in a token that starts an element. -/
def Token.tag? : Token → Option (List Char)
  | .start content => some content
  | .empty content => some content
  | .stop _ => none
  | .text _ => none

/-- The tags that start elements, in the order of the document. -/
def tags (document : String) : List (List Char) :=
  (tokens document).tokens.filterMap Token.tag?

/-- The attributes of an element are exactly those that are written in the tag. -/
def Element.Keeps (content : List Char) (element : Element) : Prop :=
  ∃ pairs, WritesAttributes pairs (content.dropWhile (!isSpace ·)) ∧
    (pairs.map Prod.fst).Nodup ∧ List.Forall₂ Decodes pairs element.attrs

/-- The element has the name in the tag and the attributes that are reported without a fault. -/
structure Element.Shows (content : List Char) (element : Element) : Prop where
  name : element.name = tagName content
  attrs : List.Forall₂ Decodes ((tagReports content).filterMap Except.toOption) element.attrs

theorem Element.shows_of_ofTag {content : List Char} {element : Element}
    (started : Element.ofTag content = .ok element) : element.Shows content := by
  simp only [Element.ofTag, bind_eq_ok_iff, Except.ok.injEq] at started
  obtain ⟨attrs, read, rfl⟩ := started
  exact ⟨rfl, readAttrs_eq_ok_iff.mp read⟩

/-- Reports without a fault are those of their attributes. -/
theorem eq_map_ok_of_sound {reports : List (Except AttributeFault (List Char × List Char))}
    (sound : ∀ fault, .error fault ∉ reports) :
    reports = (reports.filterMap Except.toOption).map .ok := by
  induction reports with
  | nil => rfl
  | cons report reports ih =>
    have others := ih fun fault listed => sound fault (List.mem_cons_of_mem _ listed)
    cases report with
    | error fault => exact absurd List.mem_cons_self (sound fault)
    | ok pair => exact congrArg (.ok pair :: ·) others

/-- **Nothing of a tag is lost exactly if the scan finds no fault in it.** -/
theorem Element.Shows.keeps_iff {content : List Char} {element : Element}
    (shown : element.Shows content) :
    element.Keeps content ↔ ∀ fault, .error fault ∉ tagReports content := by
  constructor
  · rintro ⟨pairs, written, distinct, -⟩ fault reported
    rw [tagReports, written.reportsFrom_eq (fresh_nil_iff.mpr distinct)] at reported
    simp at reported
  · intro sound
    obtain ⟨written, fresh⟩ := reportsFrom_eq_map_ok_iff.mp (eq_map_ok_of_sound sound)
    exact ⟨_, written, fresh_nil_iff.mp fresh, shown.attrs⟩

/-! ## The elements read so far -/

/-- The name and the attributes of an element. -/
def Element.head (element : Element) : String × List (String × String) :=
  (element.name, element.attrs)

/-- The names and attributes of an element and of all inside it, in the order of the document. -/
def Element.heads (element : Element) : List (String × List (String × String)) :=
  (element :: element.inside).map Element.head

/-- The names and attributes of all elements read so far, in the order of the document. -/
def Reading.heads (reading : Reading) : List (String × List (String × String)) :=
  reading.root?.toList.flatMap Element.heads ++ reading.opened.reverse.flatMap Element.heads

theorem Element.allInside_append (first second : List Element) :
    allInside (first ++ second) = allInside first ++ allInside second := by
  induction first with
  | nil => rfl
  | cons element first ih => rw [List.cons_append, allInside, allInside, ih, List.append_assoc]

/-- An element that is handed to another one stands behind all in it. -/
theorem Element.heads_child (parent child : Element) :
    Element.heads { parent with children := parent.children ++ [child] } =
      parent.heads ++ child.heads := by
  obtain ⟨name, attrs, children, text⟩ := parent
  simp [Element.heads, inside, allInside_append, allInside, Element.head]

/-- An element that is placed stands behind all that was read. -/
theorem Reading.heads_place {reading next : Reading} {element : Element}
    (placed : reading.place element = .ok next) : next.heads = reading.heads ++ element.heads := by
  obtain ⟨opened, root?⟩ := reading
  cases opened with
  | cons parent outer =>
    cases placed
    simp [Reading.heads, Element.heads_child]
  | nil =>
    cases root? with
    | none =>
      cases placed
      simp [Reading.heads]
    | some root => cases placed

/-- The tag starts an element with this name and these attributes. -/
def Begins (content : List Char) (head : String × List (String × String)) : Prop :=
  ∃ element, Element.ofTag content = .ok element ∧ element.head = head

theorem Element.heads_of_ofTag {content : List Char} {element : Element}
    (started : Element.ofTag content = .ok element) : element.heads = [element.head] := by
  simp only [Element.ofTag, bind_eq_ok_iff, Except.ok.injEq] at started
  obtain ⟨attrs, -, rfl⟩ := started
  rfl

/-- The innermost open element stands behind all else that was read. -/
theorem Reading.heads_cons (element : Element) (outer : List Element) (root? : Option Element) :
    Reading.heads ⟨element :: outer, root?⟩ = Reading.heads ⟨outer, root?⟩ ++ element.heads := by
  simp [Reading.heads]

/-- A tag adds its element behind all that was read, and no other token adds one. -/
theorem Reading.heads_step {reading next : Reading} {token : Token}
    (stepped : reading.step token = .ok next) :
    ∃ added, next.heads = reading.heads ++ added ∧ List.Forall₂ Begins token.tag?.toList added := by
  obtain ⟨opened, root?⟩ := reading
  cases token with
  | start content =>
    simp only [Reading.step, bind_eq_ok_iff, Except.ok.injEq] at stepped
    obtain ⟨element, started, rfl⟩ := stepped
    refine ⟨[element.head], ?_, .cons ⟨element, started, rfl⟩ .nil⟩
    rw [Reading.heads_cons, Element.heads_of_ofTag started]
  | empty content =>
    simp only [Reading.step, bind_eq_ok_iff] at stepped
    obtain ⟨element, started, placed⟩ := stepped
    refine ⟨[element.head], ?_, .cons ⟨element, started, rfl⟩ .nil⟩
    rw [Reading.heads_place placed, Element.heads_of_ofTag started]
  | stop name =>
    refine ⟨[], ?_, .nil⟩
    cases opened with
    | nil => cases stepped
    | cons element outer =>
      -- The element moves from the end of the open ones to the end of those it is handed to.
      simp only [Reading.step] at stepped
      split at stepped
      · rw [Reading.heads_place stepped, Reading.heads_cons, List.append_nil]
      · cases stepped
  | text piece =>
    refine ⟨[], ?_, .nil⟩
    rw [List.append_nil]
    cases opened with
    | nil =>
      cases stepped
      rfl
    | cons element outer =>
      cases stepped
      cases element
      rw [Reading.heads_cons, Reading.heads_cons]
      rfl

/-- **A run over tokens adds the elements of its tags**, in their order. -/
theorem Reading.heads_foldlM {reading final : Reading} {read : List Token}
    (ran : read.foldlM Reading.step reading = .ok final) :
    ∃ added, final.heads = reading.heads ++ added ∧
      List.Forall₂ Begins (read.filterMap Token.tag?) added := by
  rw [List.filterMap_eq_flatMap_toList]
  induction read generalizing reading with
  | nil =>
    cases ran
    exact ⟨[], by simp, .nil⟩
  | cons token read ih =>
    rw [List.foldlM_cons, bind_eq_ok_iff] at ran
    obtain ⟨next, stepped, ran⟩ := ran
    obtain ⟨first, firstHeads, firstBegins⟩ := Reading.heads_step stepped
    obtain ⟨others, otherHeads, otherBegins⟩ := ih ran
    refine ⟨first ++ others, by rw [otherHeads, firstHeads, List.append_assoc], ?_⟩
    rw [List.flatMap_cons]
    exact List.rel_append firstBegins otherBegins

theorem Reading.heads_finish {reading : Reading} {root : Element}
    (finished : reading.finish = .ok root) : reading.heads = root.heads := by
  obtain ⟨opened, root?⟩ := reading
  cases opened with
  | cons element outer => cases finished
  | nil =>
    cases root? with
    | none => cases finished
    | some root =>
      cases finished
      simp [Reading.heads]

/-- The elements of a document that can be read begin with its tags. -/
theorem forall₂_begins {document : String} {root : Element}
    (read : Element.ofDocument document = .ok root) :
    List.Forall₂ Begins (tags document) root.heads := by
  simp only [Element.ofDocument, bind_eq_ok_iff] at read
  obtain ⟨final, ran, finished⟩ := read
  obtain ⟨added, heads, begins⟩ := Reading.heads_foldlM ran
  split at finished
  · cases finished
  · rw [Reading.heads_finish finished] at heads
    rw [heads]
    exact begins

theorem Begins.shows {content : List Char} {element : Element}
    (begins : Begins content element.head) : element.Shows content := by
  obtain ⟨started, read, same⟩ := begins
  obtain ⟨sameName, sameAttrs⟩ := Prod.mk.inj same
  have shown := Element.shows_of_ofTag read
  exact ⟨sameName ▸ shown.name, sameAttrs ▸ shown.attrs⟩

end IdlBridge.Markup

namespace IdlBridge

open Markup

/-- **The elements of an accepted document are those of its tags.** Each has the name in its tag
and the attributes without a fault. It has the attributes that are written in the tag exactly if
none of them has a fault. -/
theorem loaded_attributes_sound {document : String} {tree : DeclTree}
    (loaded : DeclTree.ofDocument document = .ok tree) :
    ∃ root, Element.ofDocument document = .ok root ∧
      List.Forall₂ (fun content element => element.Shows content ∧
          (element.Keeps content ↔ ∀ fault, .error fault ∉ tagReports content))
        (tags document) (root :: root.inside) := by
  simp only [DeclTree.ofDocument, bind_eq_ok_iff] at loaded
  obtain ⟨root, read, -⟩ := loaded
  refine ⟨root, read, (List.forall₂_map_right_iff.mp (forall₂_begins read)).imp ?_⟩
  intro content element begins
  exact ⟨begins.shows, begins.shows.keeps_iff⟩

/-- A document whose first tag repeats a key. Its second tag has blanks around the equals sign and a
reference in the value. -/
def repeatedKeyDocument : String :=
  "<tree file='a.idl' file=\"b.idl\"><interface name = \"I&amp;J\" /></tree>"

theorem repeatedKeyDocument_kept :
    ∃ root declared, Element.ofDocument repeatedKeyDocument = .ok root ∧ root.inside = [declared] ∧
      ¬ root.Keeps "tree file='a.idl' file=\"b.idl\"".toList ∧ root.attrs = [("file", "a.idl")] ∧
      declared.Keeps "interface name = \"I&amp;J\" ".toList ∧
      declared.attrs = [("name", "I&J")] := by
  have facts : (Element.ofDocument repeatedKeyDocument).toOption.map (fun root =>
        (root.attrs, root.inside.map (·.attrs), (DeclTree.ofDocument repeatedKeyDocument).isOk)) =
      some ([("file", "a.idl")], [[("name", "I&J")]], true) ∧
      tags repeatedKeyDocument = ["tree file='a.idl' file=\"b.idl\"".toList,
        "interface name = \"I&amp;J\" ".toList] ∧
      tagReports "tree file='a.idl' file=\"b.idl\"".toList =
        [.ok ("file".toList, "a.idl".toList), .error .repeatedKey] ∧
      tagReports "interface name = \"I&amp;J\" ".toList =
        [.ok ("name".toList, "I&amp;J".toList)] := by
    decide +kernel
  obtain ⟨parsed, contents, faulty, sound⟩ := facts
  obtain ⟨root, isRoot, facts⟩ := Option.map_eq_some_iff.mp parsed
  obtain ⟨rootAttrs, insideAttrs, accepted⟩ := Prod.mk.inj facts |>.imp id Prod.mk.inj
  cases loaded : DeclTree.ofDocument repeatedKeyDocument with
  | error cause => cases loaded ▸ accepted
  | ok tree =>
    obtain ⟨again, read, shown⟩ := loaded_attributes_sound loaded
    cases (eq_ok_of_toOption isRoot).symm.trans read
    rw [contents, List.forall₂_cons, List.forall₂_cons_left_iff] at shown
    obtain ⟨⟨-, rootKeeps⟩, declared, none, ⟨-, keeps⟩, nothing, inside⟩ := shown
    cases nothing
    rw [inside] at insideAttrs
    refine ⟨root, declared, read, inside, ?_, rootAttrs, ?_, ?_⟩
    · rw [rootKeeps, faulty]
      simp
    · rw [keeps, sound]
      simp
    · simpa using insideAttrs

/-- A document with an attribute that lacks its quotes. -/
def unquotedDocument : String :=
  "<tree file=\"a.idl\"><interface name=\"I\">" ++
  "<attribute names=\"x\" type=\"long\" readonly=true/></interface></tree>"

/-- The scan of the last tag finds a fault, and the tree is loaded as if nothing stood there. -/
theorem unquotedDocument_loaded :
    (tags unquotedDocument).map tagReports =
        [[.ok ("file".toList, "a.idl".toList)], [.ok ("name".toList, "I".toList)],
          [.ok ("names".toList, "x".toList), .ok ("type".toList, "long".toList),
            .error .unquotedValue]] ∧
      (DeclTree.ofDocument unquotedDocument).toOption.map (fun tree => tree.kind? 1) =
        some (some (.attributes ⟨.basic .long, false, ["x"]⟩)) := by
  decide +kernel

end IdlBridge
