import IdlBridge.Command.Run
import IdlBridge.Proofs.Storage.Sights

/-!
# Where files are written

The files for a tree stand in one directory, and their names differ in the file base of the tree and
in the extension. So two of them have the same place exactly if they are the same one of the two
files, for trees with the same file base (`Options.destination_target_inj`).
-/

set_option autoImplicit false

namespace IdlBridge

open IdlBridge.Adapter

/-! ## Paths that differ at the end -/

namespace Storage

theorem isAbsolute_append {path tail : String} (plain : '/' ∉ tail.toList) :
    isAbsolute (path ++ tail) = isAbsolute path := by
  rw [Bool.eq_iff_iff, isAbsolute, isAbsolute, String.startsWith_string_iff,
    String.startsWith_string_iff, String.toList_append]
  cases path.toList with
  | nil =>
    refine iff_of_false (fun isPrefix => plain (isPrefix.subset ?_)) (by simp)
    simp
  | cons c path => simp

/-- A path in a directory keeps its end. -/
theorem exists_join_append (directory file : String) :
    ∃ stem, ∀ tail : String, '/' ∉ tail.toList → join directory (file ++ tail) = stem ++ tail := by
  by_cases absolute : isAbsolute file = true
  · refine ⟨file, fun tail plain => ?_⟩
    rw [join, isAbsolute_append plain, if_pos absolute]
  · by_cases closed : (directory == "" || directory.endsWith "/") = true
    · refine ⟨directory ++ file, fun tail plain => ?_⟩
      rw [join, isAbsolute_append plain, if_neg absolute, if_pos closed, String.append_assoc]
    · refine ⟨directory ++ "/" ++ file, fun tail plain => ?_⟩
      rw [join, isAbsolute_append plain, if_neg absolute, if_neg closed, ← String.append_assoc]

/-- A piece with more than two characters is a name to go down. -/
theorem enter_of_length {piece : String} (long : 2 < piece.length) (location : Location) :
    location.enter piece = location ++ [piece] := by
  have unlike : ∀ other : String, other.length ≤ 2 → (piece == other) = false := by
    intro other short
    rw [beq_eq_false_iff_ne]
    rintro rfl
    omega
  simp [Location.enter, isIdle, unlike "" (by decide), unlike "." (by decide),
    unlike ".." (by decide)]

/-- Paths that differ in the end of their names lead to places that differ there. -/
theorem Files.exists_destination_join (files : Files) (directory file : String) :
    ∃ above name, ∀ tail : String, '/' ∉ tail.toList → 2 < tail.length →
      files.destination (join directory (file ++ tail)) = above ++ [name ++ tail] := by
  obtain ⟨stem, joined⟩ := exists_join_append directory file
  obtain ⟨front, last, split⟩ := Text.exists_splitChar_append '/' stem.toList
  refine ⟨(front.map String.ofList).foldl Location.enter (files.origin stem), String.ofList last,
    fun tail plain long => ?_⟩
  have origin : files.origin (stem ++ tail) = files.origin stem := by
    rw [Files.origin, Files.origin, isAbsolute_append plain]
  have whole : String.ofList (last ++ tail.toList) = String.ofList last ++ tail := by
    rw [String.ofList_append, String.ofList_toList]
  rw [joined tail plain, destination, origin, pieces, String.toList_append, split _ plain,
    List.map_append, List.foldl_append, List.map_singleton, whole]
  exact enter_of_length (by rw [String.length_append]; omega) _

end Storage

/-! ## Names of files -/

theorem Text.slash_notMem_fileBase (file : String) : '/' ∉ (Text.fileBase file).toList := by
  have absent : '/' ∉ file.toList.reverse.takeWhile fun c => c != '/' && c != '\\' := by
    intro listed
    have kept := List.mem_takeWhile_imp listed
    simp at kept
  rw [Text.fileBase]
  split
  case h_3 _ stem rest =>
    rw [String.toList_ofList, List.mem_reverse]
    intro listed
    have dropped : '/' ∈ List.dropWhile (· != '.') _ := rest ▸ List.mem_cons_of_mem _ listed
    exact absent (by simpa using (List.dropWhile_suffix _).subset dropped)
  all_goals
    rw [String.toList_ofList, List.mem_reverse]
    exact absent

namespace Command

/-- The extension of one of the two files. -/
def extension : Mode → String
  | .declaration => ".hxx"
  | .definition => ".cxx"

theorem extension_inj : ∀ {mode other : Mode}, extension mode = extension other → mode = other
  | .declaration, .declaration, _ | .definition, .definition, _ => rfl
  | .declaration, .definition, same | .definition, .declaration, same =>
    absurd same (by decide)

theorem fileName_eq (settings : Settings) (tree : DeclTree) (mode : Mode) :
    fileName settings tree mode = settings.filePrefix ++ (tree.fileBase ++ extension mode) := by
  cases mode <;> exact String.append_assoc

/-- The path of one of the two files for a tree. -/
def Options.target (options : Options) (tree : DeclTree) (mode : Mode) : String :=
  Storage.join options.output (fileName options.settings tree mode)

/-- **Two files have the same place only if they are the same.** -/
theorem Options.destination_target_inj {options : Options} {files : Storage.Files}
    {tree other : DeclTree} {mode otherMode : Mode}
    (same : files.destination (options.target tree mode) =
      files.destination (options.target other otherMode)) :
    tree.fileBase = other.fileBase ∧ mode = otherMode := by
  obtain ⟨above, name, destination⟩ :=
    files.exists_destination_join options.output options.settings.filePrefix
  have plain : ∀ (tree : DeclTree) (mode : Mode),
      '/' ∉ (tree.fileBase ++ extension mode).toList := by
    intro tree mode
    rw [String.toList_append, List.mem_append, not_or]
    exact ⟨Text.slash_notMem_fileBase tree.file, by cases mode <;> decide⟩
  have long : ∀ mode, (extension mode).length = 4 := by
    intro mode
    cases mode <;> decide
  have placed : ∀ (tree : DeclTree) (mode : Mode),
      files.destination (options.target tree mode) =
        above ++ [name ++ (tree.fileBase ++ extension mode)] := by
    intro tree mode
    rw [Options.target, fileName_eq, destination _ (plain tree mode)]
    rw [String.length_append, long]
    omega
  rw [placed, placed] at same
  have names := congrArg String.toList (List.singleton_inj.mp (List.append_cancel_left same))
  simp only [String.toList_append] at names
  have ends : (extension mode).toList.length = (extension otherMode).toList.length := by
    rw [String.length_toList, String.length_toList, long, long]
  obtain ⟨bases, extensions⟩ := List.append_inj' (List.append_cancel_left names) ends
  exact ⟨String.toList_inj.mp bases, extension_inj (String.toList_inj.mp extensions)⟩

end Command

end IdlBridge
