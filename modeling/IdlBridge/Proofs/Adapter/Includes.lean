import IdlBridge.Proofs.Adapter.Directives
import IdlBridge.Proofs.Adapter.Namespaces
import IdlBridge.Proofs.Adapter.SheetText
import IdlBridge.Proofs.DeclTree.Tour

/-!
# Included headers

Every other file to which going through a tree leads is included once, in the order in which the
files are first met. A file is noted when it is included, so the files that have been included are
read off the visits (`Pass.included_foldlM`), and from there off the tour through the tree
(`reverse_foldl_note_filesMet`).
At every point of a file the level is the number of open blocks (`Segment.Written.level_eq`), so a
header that is included outside all blocks is included at the outermost level. Apart from the
preamble nothing else that is written includes a header (`Segment.headers_layout`).
-/

set_option autoImplicit false

namespace IdlBridge

namespace Adapter

variable {settings : Settings} {tree : DeclTree} {mode : Mode}

namespace Segment

/-! ## What segments include -/

/-- The headers that a segment includes. -/
def headers (settings : Settings) (tree : DeclTree) (mode : Mode) : Segment → List String
  | preamble => (Adapter.preamble settings tree mode).headers
  | included file => [includeFor settings.filePrefix file]
  | _ => []

theorem headers_layout {segment : Segment} {layout : Layout}
    (done : segment.layout settings tree mode = .ok layout) :
    layout.headers = segment.headers settings tree mode := by
  cases segment with
  | preamble =>
    cases done
    rfl
  | included file =>
    cases done
    exact Layout.headers_includeLine _ []
  | opening name =>
    cases done
    exact (undirected_openBlock name).headers_eq
  | closing =>
    cases done
    exact undirected_closeBlock.headers_eq
  | classes subject => exact (Subject.undirected_classes done).headers_eq
  | members subject => exact (Subject.undirected_members done).headers_eq
  | hook subject =>
    cases done
    exact Subject.undirected_defineHook.headers_eq
  | epilogue =>
    cases done
    exact (undirected_headerEpilogue settings _).headers_eq

/-- Behind the preamble only segments for other files include headers. -/
theorem flatMap_headers {segments : List Segment} (begun : preamble ∉ segments) :
    segments.flatMap (headers settings tree mode) =
      (segments.filterMap file?).map (includeFor settings.filePrefix) := by
  induction segments with
  | nil => rfl
  | cons segment segments ih =>
    rw [List.mem_cons, not_or] at begun
    rw [List.flatMap_cons, ih begun.2, List.filterMap_cons]
    cases segment with
    | preamble => exact absurd rfl begun.1
    | _ => rfl

/-! ## Levels and blocks -/

/-- The level behind a segment exceeds the one in front of it as the open blocks do. -/
theorem levelAfter_layout {segment : Segment} {layout : Layout} {blocks next : List String}
    (done : segment.layout settings tree mode = .ok layout)
    (after : segment.blocks? blocks = some next) (level : Nat) :
    Layout.levelAfter (level + blocks.length) layout = level + next.length := by
  cases segment with
  | preamble =>
    cases done
    cases after
    exact Pass.keepsLevel_preamble settings tree mode _
  | included file =>
    cases done
    cases after
    rfl
  | opening name =>
    cases done
    cases after
    rw [List.length_append]
    rfl
  | closing =>
    cases done
    rw [blocks?] at after
    split at after
    · cases after
    · rename_i isOpen
      cases after
      have inside : 1 ≤ blocks.length := List.length_pos_iff.mpr (by simpa using isOpen)
      rw [List.length_dropLast, ← Nat.add_sub_assoc inside]
      rfl
  | classes subject =>
    cases after
    obtain ⟨classes, written, keeps, -⟩ := subject.exists_classes
    cases written.symm.trans done
    exact keeps _
  | members subject =>
    cases after
    obtain ⟨members, written, keeps, -⟩ := subject.exists_members
    cases written.symm.trans done
    exact keeps _
  | hook subject =>
    cases done
    cases after
    exact subject.keepsLevel_defineHook _
  | epilogue =>
    cases done
    cases after
    exact Pass.keepsLevel_headerEpilogue _ _

theorem levelAfter_layouts {segments : List Segment} {layouts : List Layout}
    (done : List.Forall₂ (fun segment layout => segment.layout settings tree mode = .ok layout)
      segments layouts)
    {blocks last : List String} (after : blocksAfter blocks segments = some last) (level : Nat) :
    Layout.levelAfter (level + blocks.length) layouts.flatten = level + last.length := by
  induction done generalizing blocks with
  | nil =>
    cases after
    rfl
  | cons own _ ih =>
    rw [blocksAfter_cons] at after
    obtain ⟨between, here, after⟩ := Option.bind_eq_some_iff.mp after
    rw [List.flatten_cons, Layout.levelAfter_append, levelAfter_layout own here, ih after]

/-- **The level of a file is the number of its open blocks.** -/
theorem Written.level_eq {segments : List Segment} {sheet next : Sheet}
    {blocks last : List String} (written : Written settings tree mode sheet segments next)
    (after : blocksAfter blocks segments = some last) (level : sheet.level = blocks.length) :
    next.level = last.length := by
  obtain ⟨layouts, done, rfl⟩ := written
  rw [Layout.level_writeAll, level]
  simpa using levelAfter_layouts done after 0

/-- A file is written up to one of its segments, then the segment, then the rest. -/
theorem Written.split {before after : List Segment} {segment : Segment} {sheet next : Sheet}
    (written : Written settings tree mode sheet (before ++ segment :: after) next) :
    ∃ middle layout, Written settings tree mode sheet before middle ∧
      segment.layout settings tree mode = .ok layout ∧
      Written settings tree mode (middle.writeAll layout) after next := by
  obtain ⟨layouts, done, rfl⟩ := written
  have front := (List.forall₂_take_append _ _ _ done.flip).flip
  have back := (List.forall₂_drop_append _ _ _ done.flip).flip
  rw [← List.take_append_drop before.length layouts]
  generalize layouts.take before.length = first at front
  generalize layouts.drop before.length = second at back
  obtain ⟨layout, rest, own, restDone, rfl⟩ := List.forall₂_cons_left_iff.mp back
  refine ⟨_, layout, ⟨first, front, rfl⟩, own, rest, restDone, ?_⟩
  rw [List.flatten_append, List.flatten_cons, Sheet.writeAll_append, Sheet.writeAll_append]

end Segment

namespace Pass

/-! ## Noted files -/

/-- Notes a file in front of the others unless it is among them. -/
def note (included : List String) (file : String) : List String :=
  if file ∈ included then included else file :: included

/-- The other files that matter for what is written: in the source none does. -/
def filesMet : Mode → List Visit → List String
  | .declaration, visits => visits.filterMap Visit.file?
  | .definition, _ => []

theorem included_step {pass next : Pass} {visit : Visit}
    (done : step settings tree mode pass visit = .ok next) :
    next.included = (filesMet mode [visit]).foldl note pass.included := by
  cases visit with
  | enter name =>
    cases done
    cases mode <;> rfl
  | leave =>
    cases done
    cases mode <;> rfl
  | interface id =>
    obtain ⟨change, -, done⟩ := bind_eq_ok_iff.mp done
    cases done
    cases mode <;> rfl
  | external file =>
    cases mode with
    | definition =>
      cases done
      rfl
    | declaration =>
      cases done
      show _ = note pass.included file
      by_cases known : file ∈ pass.included <;>
        simp [includeFile, noteFile, note, known, writeScoped, write]

theorem included_foldlM {visits : List Visit} {pass next : Pass}
    (done : visits.foldlM (step settings tree mode) pass = .ok next) :
    next.included = (filesMet mode visits).foldl note pass.included := by
  induction visits generalizing pass with
  | nil =>
    cases done
    cases mode <;> rfl
  | cons visit visits ih =>
    rw [List.foldlM_cons] at done
    obtain ⟨middle, here, later⟩ := bind_eq_ok_iff.mp done
    have first : filesMet mode (visit :: visits) =
        filesMet mode [visit] ++ filesMet mode visits := by
      cases mode with
      | declaration => exact List.filterMap_append (l := [visit])
      | definition => rfl
    rw [ih later, included_step here, first, List.foldl_append]

/-- Files are noted in the order in which they are first met. -/
theorem reverse_foldl_note (files : List String) :
    (files.foldl note []).reverse = files.eraseDups := by
  induction files using List.reverseRecOn with
  | nil => rfl
  | append_singleton files file ih =>
    have known : file ∈ files.foldl note [] ↔ file ∈ files := by
      rw [← List.mem_reverse, ih, List.mem_eraseDups]
    rw [List.foldl_append, List.eraseDups_append, ← ih, List.foldl_cons, List.foldl_nil, note,
      List.removeAll]
    by_cases met : file ∈ files
    · simp [known, met]
    · simp [known, met, List.eraseDups_cons]

end Pass

/-- The files that are included in making the stops. In the header each other file is included
once, in the order in which the files are first met. -/
def filesIncluded (tree : DeclTree) (stops : List Stop) : Mode → List String
  | .declaration => (stops.filterMap fun stop => tree.otherFile? stop.id).eraseDups
  | .definition => []

theorem reverse_foldl_note_filesMet {stops : List Stop}
    (meets : tree.visits.filter Visit.meets = stops.filterMap fun stop => tree.visitAt? stop.id) :
    ((Pass.filesMet mode tree.visits).foldl Pass.note []).reverse =
      filesIncluded tree stops mode := by
  cases mode with
  | definition => rfl
  | declaration =>
    have files : tree.visits.filterMap Visit.file? =
        stops.filterMap fun stop => tree.otherFile? stop.id := by
      rw [← Visit.filterMap_filter_meets tree.visits (fun _ => rfl) rfl, meets,
        List.filterMap_filterMap]
      simp only [DeclTree.bind_visitAt?_file?]
    rw [Pass.reverse_foldl_note, Pass.filesMet, filesIncluded, files]

/-- A tree in which a module of the main file holds an interface of another file between two of its
own. Behind it stands a module of that file, which holds a declaration of a third. -/
def interleavedTree : DeclTree :=
  let draft := ((Draft.empty "a.idl").addModule none "m").addInterface (some 0) "First"
  let draft := ((draft.setFile "b.idl").addInterface (some 0) "Foreign").addModule none "n"
  let draft := (draft.setFile "c.idl").addInterface (some 3) "Hidden"
  ((draft.setFile "a.idl").addInterface (some 0) "Last").tree

theorem built_interleavedTree : interleavedTree.Built := by
  refine ⟨_, .edit (.edit (.edit (.edit (.edit (.edit (.edit (.edit (.edit (.empty "a.idl")
    (.addModule none "m") ?_) (.addInterface (some 0) "First") ?_) (.setFile "b.idl") ?_)
    (.addInterface (some 0) "Foreign") ?_) (.addModule none "n") ?_) (.setFile "c.idl") ?_)
    (.addInterface (some 3) "Hidden") ?_) (.setFile "a.idl") ?_)
    (.addInterface (some 0) "Last") ?_, rfl⟩
  all_goals with_unfolding_all decide

/-- The tour through the tree does not look into the module of the other file. -/
theorem tour_interleavedTree :
    interleavedTree.Tour [] interleavedTree.declarations
      ([⟨[], 0⟩, ⟨["m"], 1⟩, ⟨["m"], 2⟩, ⟨["m"], 5⟩] ++ [⟨[], 3⟩]) := by
  have file : interleavedTree.file = "a.idl" := by with_unfolding_all decide
  have foreign : "b.idl" ≠ interleavedTree.file := by with_unfolding_all decide
  have lists : interleavedTree.declarations = [0, 3] ∧
      interleavedTree.membersOf (some 0) = [1, 2, 5] ∧
      interleavedTree.membersOf (some 1) = [] ∧ interleavedTree.membersOf (some 5) = [] := by
    with_unfolding_all decide
  have modules :
      interleavedTree.decl? 0 = some ⟨"m", ⟨["m"]⟩, "a.idl", .module [1, 2, 5]⟩ ∧
      interleavedTree.decl? 3 = some ⟨"n", ⟨["n"]⟩, "b.idl", .module [4]⟩ := by
    with_unfolding_all decide
  have interfaces :
      interleavedTree.decl? 1 =
        some ⟨"First", ⟨["m", "First"]⟩, "a.idl", .interface .empty⟩ ∧
      interleavedTree.decl? 2 =
        some ⟨"Foreign", ⟨["m", "Foreign"]⟩, "b.idl", .interface .empty⟩ ∧
      interleavedTree.decl? 5 =
        some ⟨"Last", ⟨["m", "Last"]⟩, "a.idl", .interface .empty⟩ := by
    with_unfolding_all decide
  obtain ⟨outermost, inner, first, last⟩ := lists
  have behind : interleavedTree.Tour ["m"] [5] (⟨["m"], 5⟩ :: [] ++ []) :=
    .main interfaces.2.2 file.symm (last ▸ .nil) .nil
  have within : interleavedTree.Tour ["m"] [1, 2, 5]
      (⟨["m"], 1⟩ :: [] ++ [⟨["m"], 2⟩, ⟨["m"], 5⟩]) :=
    .main interfaces.1 file.symm (first ▸ .nil) (.other interfaces.2.1 foreign behind)
  rw [outermost]
  exact .main modules.1 file.symm (inner ▸ within) (.other modules.2 foreign .nil)

end Adapter

end IdlBridge
