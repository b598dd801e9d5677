import IdlBridge.Proofs.Success
import IdlBridge.Proofs.Text.Pieces
import IdlBridge.Storage.Files
import Mathlib.Logic.Function.Basic

/-!
# What is seen at a place

The entries of a directory are kept in some order, and two orders are the same to everyone who reads
and writes files. What matters is the sight at each place: a file with its content, a directory, or
nothing.

Writing a file changes the sight at one place (`Files.sights_of_write`), and creating directories
changes nothing but places at which there was nothing (`Files.Grows`). Whether a path can be
followed depends on the directories alone, and so a path that could be followed can be followed as
long as they stay (`Files.locate_of_directories`). A directory that has been created need not be
created again (`Files.createDirectories_again`).
-/

set_option autoImplicit false

namespace IdlBridge.Storage

/-! ## Sights -/

/-- What is seen at a place where something stands. -/
inductive Sight
  | file (content : ByteArray)
  | directory

namespace Entry

/-- What is seen of an entry. -/
def sight : Entry → Sight
  | file content => .file content
  | directory _ => .directory

/-- What is seen at a place below an entry. -/
def sight? (entry : Entry) (location : Location) : Option Sight :=
  (entry.find? location).map sight

@[simp]
theorem find?_nil (entry : Entry) : entry.find? [] = some entry := by
  cases entry <;> rfl

theorem sight_eq_directory_iff {entry : Entry} :
    entry.sight = .directory ↔ ∃ entries, entry = .directory entries := by
  cases entry <;> simp [sight]

theorem find?_append (entry : Entry) (location rest : Location) :
    entry.find? (location ++ rest) = (entry.find? location).bind (·.find? rest) := by
  induction location generalizing entry with
  | nil => simp
  | cons name location ih =>
    cases entry with
    | file content => rfl
    | directory entries =>
      rw [List.cons_append, find?, find?]
      cases entries.lookup name with
      | none => rfl
      | some entry => exact ih entry

/-- What stands above something is a directory. -/
theorem sight?_of_append {entry : Entry} {location : Location} {name : String} {sight : Sight}
    (there : entry.sight? (location ++ [name]) = some sight) :
    entry.sight? location = some .directory := by
  rw [sight?, find?_append] at there
  cases found : entry.find? location with
  | none => rw [found] at there; cases there
  | some above =>
    rw [found] at there
    cases above with
    | file content => cases there
    | directory entries => rw [sight?, found]; rfl

theorem lookup_filter_ne {entries : List (String × Entry)} {name other : String}
    (different : other ≠ name) :
    (entries.filter fun old => old.1 != name).lookup other = entries.lookup other := by
  induction entries with
  | nil => rfl
  | cons entry entries ih =>
    rw [List.filter_cons]
    split
    · rw [List.lookup_cons, List.lookup_cons, ih]
    case isFalse kept =>
      have same : entry.1 = name := by simpa using kept
      have unlike : (other == entry.1) = false := by simpa [same] using different
      rw [ih, List.lookup_cons, unlike]

/-- There is nothing below an entry. -/
def IsBare (entry : Entry) : Prop :=
  ∀ name location, entry.find? (name :: location) = none

theorem isBare_file (content : ByteArray) : (file content).IsBare :=
  fun _ _ => rfl

theorem isBare_empty : (directory []).IsBare :=
  fun _ _ => rfl

theorem sight?_replace (entries : List (String × Entry)) (name : String) (new : Entry)
    (piece : String) (rest : Location) :
    (directory ((name, new) :: entries.filter fun old => old.1 != name)).sight? (piece :: rest) =
      if piece = name then new.sight? rest else (directory entries).sight? (piece :: rest) := by
  simp only [sight?, find?, List.lookup_cons]
  by_cases same : piece = name
  · simp [same]
  · have unlike : (piece == name) = false := by simpa using same
    simp only [unlike, lookup_filter_ne same, if_neg same]

/-- A new entry with nothing below it, which stands in a directory and covers nothing else, is all
that is seen of the change. -/
theorem sight?_put {entry new : Entry} {location : Location} {name : String} (bare : new.IsBare)
    (above : entry.sight? location = some .directory)
    (covered : ∀ old, entry.find? (location ++ [name]) = some old → old.IsBare) :
    (entry.put (location ++ [name]) new).sight? =
      Function.update entry.sight? (location ++ [name]) (some new.sight) := by
  funext place
  induction location generalizing entry place with
  | nil =>
    cases entry with
    | file content => cases above
    | directory entries =>
      cases place with
      | nil => simp [sight?, put, sight]
      | cons piece rest =>
        rw [List.nil_append, put, sight?_replace]
        split
        case isTrue same =>
          subst same
          cases rest with
          | nil => simp [sight?, put]
          | cons next rest =>
            -- Nothing stands below the new entry, and nothing stood below the old one.
            rw [Function.update_of_ne (by simp)]
            cases found : entries.lookup piece with
            | none => simp [sight?, put, bare next rest, find?, found]
            | some old =>
              have bareOld : old.IsBare := covered old (by simp [find?, found])
              simp [sight?, put, bare next rest, find?, found, bareOld next rest]
        case isFalse other => rw [Function.update_of_ne (by simp [other])]
  | cons first location ih =>
    cases entry with
    | file content => cases above
    | directory entries =>
      cases found : entries.lookup first with
      | none => simp [sight?, find?, found] at above
      | some next =>
        have nextAbove : next.sight? location = some .directory := by
          simpa [sight?, find?, found] using above
        have inner := ih nextAbove fun old there =>
          covered old (by simpa [find?, found] using there)
        cases place with
        | nil => simp [sight?, put, sight]
        | cons piece rest =>
          rw [List.cons_append, put, sight?_replace, found, Option.getD_some, inner rest]
          split
          case isTrue same => simp [same, Function.update_apply, sight?, find?, found]
          case isFalse other => rw [Function.update_of_ne (by simp [other])]

end Entry

namespace Files

/-- What is seen at a place. -/
def sight? (files : Files) : Location → Option Sight :=
  files.top.sight?

/-- There is a directory at the place. -/
def IsDirectory (files : Files) (location : Location) : Prop :=
  files.sight? location = some .directory

variable {files other : Files} {location place : Location} {path : String}

theorem isDirectory_iff :
    files.IsDirectory location ↔ ∃ entries, files.entry? location = some (.directory entries) := by
  rw [IsDirectory, sight?, Entry.sight?, Option.map_eq_some_iff]
  simp only [Entry.sight_eq_directory_iff]
  constructor
  · rintro ⟨_, found, entries, rfl⟩
    exact ⟨entries, found⟩
  · rintro ⟨entries, found⟩
    exact ⟨_, found, entries, rfl⟩

theorem isDirectory_dropLast (isDirectory : files.IsDirectory location) :
    files.IsDirectory location.dropLast := by
  rcases List.eq_nil_or_concat' location with rfl | ⟨above, name, rfl⟩
  · exact isDirectory
  · rw [List.dropLast_concat]
    exact Entry.sight?_of_append isDirectory

/-! ## Paths -/

/-- The place to which a path leads, whatever stands on the way. -/
def destination (files : Files) (path : String) : Location :=
  (pieces path).foldl Location.enter (files.origin path)

theorem follow_cons {piece : String} {rest : List String} :
    files.follow location (piece :: rest) = .ok place ↔
      files.IsDirectory location ∧ piece.utf8ByteSize ≤ nameLimit ∧
        files.follow (location.enter piece) rest = .ok place := by
  rw [follow, isDirectory_iff]
  cases found : files.entry? location with
  | none => simp
  | some entry =>
    cases entry with
    | file content => simp
    | directory entries =>
      by_cases long : nameLimit < piece.utf8ByteSize
      · simp [long, Nat.not_le.mpr long]
      · simp [long, Nat.le_of_not_lt long]

/-- Pieces lead to the place that they name. -/
theorem eq_of_follow {rest : List String} (followed : files.follow location rest = .ok place) :
    place = rest.foldl Location.enter location := by
  induction rest generalizing location with
  | nil => cases followed; rfl
  | cons piece rest ih => exact ih (follow_cons.mp followed).2.2

/-- More directories do not keep anyone from following a path. -/
theorem follow_of_directories
    (directories : ∀ place, files.IsDirectory place → other.IsDirectory place)
    {rest : List String} (followed : files.follow location rest = .ok place) :
    other.follow location rest = .ok place := by
  induction rest generalizing location with
  | nil => exact followed
  | cons piece rest ih =>
    obtain ⟨isDirectory, short, followed⟩ := follow_cons.mp followed
    exact follow_cons.mpr ⟨directories _ isDirectory, short, ih followed⟩

/-- Pieces lead to a directory or to a name in one. -/
theorem above_of_follow {rest : List String} (followed : files.follow location rest = .ok place)
    (some : rest ≠ []) :
    files.IsDirectory place ∨ ∃ above name, place = above ++ [name] ∧ files.IsDirectory above := by
  induction rest generalizing location with
  | nil => exact absurd rfl some
  | cons piece rest ih =>
    obtain ⟨isDirectory, -, followed⟩ := follow_cons.mp followed
    cases rest with
    | cons next rest => exact ih followed (List.cons_ne_nil _ _)
    | nil =>
      cases followed
      rw [Location.enter]
      split
      · exact .inl isDirectory
      · split
        · exact .inl (isDirectory_dropLast isDirectory)
        · exact .inr ⟨location, piece, rfl, isDirectory⟩

theorem locate_eq_ok_iff :
    files.locate path = .ok place ↔
      checkPath path = .ok () ∧ files.follow (files.origin path) (pieces path) = .ok place := by
  rw [locate, bind_eq_ok_iff]
  exact ⟨fun ⟨_, checked, followed⟩ => ⟨checked, followed⟩,
    fun ⟨checked, followed⟩ => ⟨(), checked, followed⟩⟩

theorem eq_destination (located : files.locate path = .ok place) :
    place = files.destination path :=
  eq_of_follow (locate_eq_ok_iff.mp located).2

theorem origin_congr (start : other.start = files.start) (path : String) :
    other.origin path = files.origin path := by
  rw [origin, origin, start]

theorem destination_congr (start : other.start = files.start) (path : String) :
    other.destination path = files.destination path := by
  rw [destination, destination, origin_congr start]

/-- A path that could be followed can be followed as long as the directories stay. -/
theorem locate_of_directories (start : other.start = files.start)
    (directories : ∀ place, files.IsDirectory place → other.IsDirectory place)
    (located : files.locate path = .ok place) : other.locate path = .ok place := by
  obtain ⟨checked, followed⟩ := locate_eq_ok_iff.mp located
  rw [locate_eq_ok_iff, origin_congr start]
  exact ⟨checked, follow_of_directories directories followed⟩

/-! ## Reading and writing -/

theorem read_eq_ok_iff {content : ByteArray} :
    files.read path = .ok content ↔
      ∃ place, files.locate path = .ok place ∧ files.sight? place = some (.file content) := by
  rw [read, bind_eq_ok_iff]
  refine exists_congr fun place => and_congr_right fun _ => ?_
  rw [sight?, Entry.sight?, ← entry?]
  cases files.entry? place with
  | none => simp
  | some entry => cases entry <;> simp [Entry.sight]

/-- A file can be written to the path: the path can be followed, and not to a directory. -/
def CanWrite (files : Files) (path : String) : Prop :=
  ∃ place, files.locate path = .ok place ∧ ¬files.IsDirectory place

/-- Whether a file can be written depends on the directories alone. -/
theorem CanWrite.congr (start : other.start = files.start)
    (directories : ∀ place, files.IsDirectory place ↔ other.IsDirectory place)
    (can : files.CanWrite path) : other.CanWrite path := by
  obtain ⟨place, located, clear⟩ := can
  exact ⟨place, locate_of_directories start (fun _ => (directories _).mp) located,
    fun isDirectory => clear ((directories place).mpr isDirectory)⟩

theorem write_eq_ok_iff {text : String} :
    files.write path text = .ok other ↔
      ∃ place, (files.locate path = .ok place ∧ ¬files.IsDirectory place) ∧
        files.put place (.file text.toUTF8) = other := by
  rw [write, bind_eq_ok_iff]
  refine exists_congr fun place => ?_
  rw [and_assoc]
  refine and_congr_right fun _ => ?_
  rw [isDirectory_iff]
  cases files.entry? place with
  | none => simp
  | some entry => cases entry <;> simp

/-- What is seen after a file has been written. -/
theorem sights_of_write {text : String} (written : files.write path text = .ok other) :
    other.start = files.start ∧
      other.sight? =
        Function.update files.sight? (files.destination path) (some (.file text.toUTF8)) := by
  obtain ⟨place, ⟨located, clear⟩, rfl⟩ := write_eq_ok_iff.mp written
  obtain rfl := eq_destination located
  refine ⟨rfl, ?_⟩
  have divided : pieces path ≠ [] := by simp [pieces, Text.splitChar_ne_nil]
  rcases above_of_follow (locate_eq_ok_iff.mp located).2 divided with
    isDirectory | ⟨above, name, named, isDirectory⟩
  · exact absurd isDirectory clear
  · rw [named] at clear ⊢
    refine Entry.sight?_put (Entry.isBare_file _) isDirectory fun old found => ?_
    cases old with
    | file content => exact Entry.isBare_file content
    | directory entries => exact absurd (isDirectory_iff.mpr ⟨entries, found⟩) clear

theorem CanWrite.not_isDirectory (can : files.CanWrite path) :
    ¬files.IsDirectory (files.destination path) := by
  obtain ⟨place, located, clear⟩ := can
  rwa [← eq_destination located]

/-- Writing a file makes no directory, and removes none. -/
theorem isDirectory_of_write {text : String} (written : files.write path text = .ok other)
    (place : Location) : other.IsDirectory place ↔ files.IsDirectory place := by
  obtain ⟨spot, can, -⟩ := write_eq_ok_iff.mp written
  have clear := CanWrite.not_isDirectory ⟨spot, can⟩
  rw [IsDirectory, (sights_of_write written).2, Function.update_apply]
  split
  case isTrue here =>
    subst here
    exact iff_of_false (by simp) clear
  case isFalse => rfl

end Files

/-! ## Several files -/

/-- What is seen after texts have been written to places, one after the other. -/
def written (sights : Location → Option Sight) (texts : List (Location × String)) :
    Location → Option Sight :=
  texts.foldl (fun sights text => Function.update sights text.1 (some (.file text.2.toUTF8))) sights

section

variable {sights : Location → Option Sight} {texts : List (Location × String)} {place : Location}

theorem written_append (more : List (Location × String)) :
    written sights (texts ++ more) = written (written sights texts) more :=
  List.foldl_append

/-- What is seen elsewhere can change before or after texts are written. -/
theorem written_update (apart : ∀ text ∈ texts, text.1 ≠ place) (sight? : Option Sight) :
    written (Function.update sights place sight?) texts =
      Function.update (written sights texts) place sight? := by
  induction texts generalizing sights with
  | nil => rfl
  | cons text texts ih =>
    have first := apart text List.mem_cons_self
    have rest := fun other listed => apart other (List.mem_cons_of_mem text listed)
    rw [written, List.foldl_cons, Function.update_comm (Ne.symm first), ← written, ih rest]
    rfl

/-- Texts with different places can be written in any order. -/
theorem written_comm {more : List (Location × String)}
    (apart : ∀ first ∈ texts, ∀ second ∈ more, first.1 ≠ second.1) :
    written (written sights texts) more = written (written sights more) texts := by
  induction texts generalizing sights with
  | nil => rfl
  | cons text texts ih =>
    have here := apart text List.mem_cons_self
    have rest := fun first listed => apart first (List.mem_cons_of_mem text listed)
    have moved : written (Function.update sights text.1 _) more = _ :=
      written_update (fun second listed => (here second listed).symm) (some (.file text.2.toUTF8))
    exact (ih rest).trans (congrArg (written · texts) moved)

theorem written_apart (apart : ∀ text ∈ texts, text.1 ≠ place) :
    written sights texts place = sights place := by
  have changed : written (Function.update sights place (sights place)) texts place = _ :=
    congrFun (written_update apart (sights place)) place
  rwa [Function.update_eq_self, Function.update_self] at changed

/-- A text is seen where it is written, if there is no other text for the place. -/
theorem written_of_mem {text : String} (listed : (place, text) ∈ texts)
    (only : ∀ other ∈ texts, other.1 = place → other.2 = text) :
    written sights texts place = some (.file text.toUTF8) := by
  induction texts using List.reverseRecOn with
  | nil => cases listed
  | append_singleton texts last ih =>
    rw [written_append]
    change Function.update (written sights texts) last.1 _ place = _
    rw [Function.update_apply]
    split
    case isTrue here =>
      rw [only last (List.mem_append_right _ List.mem_cons_self) here.symm]
    case isFalse elsewhere =>
      refine ih ?_ fun other earlier => only other (List.mem_append_left _ earlier)
      rcases List.mem_append.mp listed with earlier | isLast
      · exact earlier
      · rw [← List.mem_singleton.mp isLast] at elsewhere
        exact absurd rfl elsewhere

/-- Texts that are not written over directories leave the directories as they are. -/
theorem written_eq_directory_iff (clear : ∀ text ∈ texts, sights text.1 ≠ some .directory) :
    written sights texts place = some .directory ↔ sights place = some .directory := by
  induction texts using List.reverseRecOn with
  | nil => rfl
  | append_singleton texts text ih =>
    have before := ih fun other listed => clear other (List.mem_append_left _ listed)
    rw [written_append]
    change Function.update (written sights texts) text.1 _ place = _ ↔ _
    rw [Function.update_apply]
    split
    case isTrue here =>
      subst here
      exact iff_of_false (by simp) (clear text (List.mem_append_right _ List.mem_cons_self))
    case isFalse => exact before

end

/-- The changes that write texts to paths. -/
def writes (texts : List (String × String)) : List Change :=
  texts.map fun text => .write text.1 text.2

namespace Files

variable {files other : Files} {location place : Location} {path : String}
  {texts : List (String × String)}

/-- Texts with the places to which their paths lead. -/
def placed (files : Files) (texts : List (String × String)) : List (Location × String) :=
  texts.map fun text => (files.destination text.1, text.2)

theorem placed_congr (start : other.start = files.start) (texts : List (String × String)) :
    other.placed texts = files.placed texts :=
  List.map_congr_left fun _ _ => by rw [destination_congr start]

theorem placed_append (files : Files) (texts more : List (String × String)) :
    files.placed (texts ++ more) = files.placed texts ++ files.placed more :=
  List.map_append

/-- **Writing files changes what is seen at their places, and nothing else.** -/
theorem sights_of_writes (done : (writes texts).foldlM apply files = .ok other) :
    other.start = files.start ∧ (∀ text ∈ texts, files.CanWrite text.1) ∧
      other.sight? = written files.sight? (files.placed texts) := by
  induction texts generalizing files with
  | nil =>
    cases done
    exact ⟨rfl, by simp, rfl⟩
  | cons text texts ih =>
    obtain ⟨next, first, rest⟩ := bind_eq_ok_iff.mp done
    obtain ⟨place, can, -⟩ := write_eq_ok_iff.mp first
    obtain ⟨start, sights⟩ := sights_of_write first
    obtain ⟨startRest, canRest, sightsRest⟩ := ih rest
    refine ⟨startRest.trans start, List.forall_mem_cons.mpr ⟨⟨place, can⟩, fun later listed => ?_⟩,
      ?_⟩
    · exact (canRest later listed).congr start.symm (isDirectory_of_write first)
    · rw [sightsRest, sights, placed_congr start]
      rfl

/-- Files that can be written one by one can be written together. -/
theorem exists_writes (can : ∀ text ∈ texts, files.CanWrite text.1) :
    ∃ last, (writes texts).foldlM apply files = .ok last := by
  induction texts generalizing files with
  | nil => exact ⟨files, rfl⟩
  | cons text texts ih =>
    obtain ⟨place, first⟩ := can text List.mem_cons_self
    have written : files.write text.1 text.2 = .ok _ := write_eq_ok_iff.mpr ⟨place, first, rfl⟩
    obtain ⟨last, rest⟩ := ih fun later listed =>
      (can later (List.mem_cons_of_mem _ listed)).congr (sights_of_write written).1
        fun place => (isDirectory_of_write written place).symm
    exact ⟨last, bind_eq_ok_iff.mpr ⟨_, written, rest⟩⟩

/-- Files after texts have been written. -/
structure Filled (files : Files) (texts : List (String × String)) (last : Files) : Prop where
  start : last.start = files.start
  can : ∀ text ∈ texts, files.CanWrite text.1
  sights : last.sight? = written files.sight? (files.placed texts)

namespace Filled

theorem refl (files : Files) : files.Filled [] files :=
  ⟨rfl, by simp, rfl⟩

variable {last : Files} (filled : files.Filled texts last)
include filled

theorem isDirectory (place : Location) : last.IsDirectory place ↔ files.IsDirectory place := by
  rw [IsDirectory, filled.sights]
  refine written_eq_directory_iff fun text listed => ?_
  obtain ⟨output, isOutput, rfl⟩ := List.mem_map.mp listed
  exact (filled.can output isOutput).not_isDirectory

theorem append {more : List (String × String)}
    (done : (writes more).foldlM apply last = .ok other) :
    files.Filled (texts ++ more) other := by
  obtain ⟨start, can, sights⟩ := sights_of_writes done
  refine ⟨start.trans filled.start, fun text listed => ?_, ?_⟩
  · rcases List.mem_append.mp listed with earlier | later
    · exact filled.can text earlier
    · exact (can text later).congr filled.start.symm filled.isDirectory
  · rw [sights, filled.sights, placed_congr filled.start, placed_append, written_append]

theorem exists_append {more : List (String × String)} (can : ∀ text ∈ more, files.CanWrite text.1) :
    ∃ next, (writes more).foldlM apply last = .ok next :=
  exists_writes fun text listed =>
    (can text listed).congr filled.start fun place => (filled.isDirectory place).symm

end Filled

/-! ## Directories -/

/-- Directories have been added, and nothing else has changed. -/
structure Grows (files other : Files) : Prop where
  start : other.start = files.start
  keeps : ∀ place sight, files.sight? place = some sight → other.sight? place = some sight
  adds : ∀ place content, other.sight? place = some (.file content) →
    files.sight? place = some (.file content)

theorem Grows.refl (files : Files) : files.Grows files :=
  ⟨rfl, fun _ _ there => there, fun _ _ there => there⟩

theorem Grows.trans {last : Files} (first : files.Grows other) (second : other.Grows last) :
    files.Grows last where
  start := second.start.trans first.start
  keeps place sight there := second.keeps place sight (first.keeps place sight there)
  adds place content there := first.adds place content (second.adds place content there)

/-- A file can be read as before, unless a text was written in its place. -/
theorem Filled.read {made last : Files} {content : ByteArray} (filled : made.Filled texts last)
    (grows : files.Grows made)
    (apart : ∀ text ∈ texts, files.destination text.1 ≠ files.destination path)
    (read : files.read path = .ok content) : last.read path = .ok content := by
  obtain ⟨place, located, there⟩ := read_eq_ok_iff.mp read
  refine read_eq_ok_iff.mpr ⟨place, ?_, ?_⟩
  · refine locate_of_directories (filled.start.trans grows.start) (fun other isDirectory => ?_)
      located
    exact (filled.isDirectory other).mpr (grows.keeps other _ isDirectory)
  · have elsewhere : ∀ text ∈ made.placed texts, text.1 ≠ place := by
      intro text listed
      obtain ⟨output, isOutput, rfl⟩ := List.mem_map.mp listed
      rw [eq_destination located, destination_congr grows.start]
      exact apart output isOutput
    rw [filled.sights, written_apart elsewhere]
    exact grows.keeps place _ there

/-- A new directory in another one. -/
theorem grows_put {name : String} (isDirectory : files.IsDirectory location)
    (missing : files.entry? (location ++ [name]) = none) :
    files.Grows (files.put (location ++ [name]) (.directory [])) ∧
      (files.put (location ++ [name]) (.directory [])).IsDirectory (location ++ [name]) := by
  have sights : (files.put (location ++ [name]) (.directory [])).sight? =
      Function.update files.sight? (location ++ [name]) (some .directory) := by
    refine Entry.sight?_put Entry.isBare_empty isDirectory fun old found => ?_
    rw [ entry?] at missing
    cases missing.symm.trans found
  have nothing : files.sight? (location ++ [name]) = none := by
    rw [sight?, Entry.sight?, ← entry?, missing]
    rfl
  refine ⟨⟨rfl, fun place sight there => ?_, fun place content there => ?_⟩, ?_⟩
  · have elsewhere : place ≠ location ++ [name] := by
      rintro rfl
      cases nothing.symm.trans there
    rw [sights, Function.update_of_ne elsewhere, there]
  · rw [sights, Function.update_apply] at there
    split at there
    · cases there
    · exact there
  · rw [IsDirectory, sights, Function.update_self]

/-- Creating a directory adds it, and then it need not be created again. -/
theorem ensureDirectory_again {rest : List String}
    (standing : rest = [] → files.entry? location ≠ none)
    (ensured : files.ensureDirectory location rest = .ok other) :
    files.Grows other ∧
      ∀ later : Files, (∀ place, other.IsDirectory place → later.IsDirectory place) →
        later.ensureDirectory location rest = .ok later := by
  rw [ensureDirectory, bind_eq_ok_iff] at ensured
  obtain ⟨place, followed, ensured⟩ := ensured
  have again : files.Grows other → other.IsDirectory place →
      ∀ later : Files, (∀ place, other.IsDirectory place → later.IsDirectory place) →
        later.ensureDirectory location rest = .ok later := by
    intro grows isDirectory later directories
    have stays := follow_of_directories
      (fun place there => directories place (grows.keeps place _ there)) followed
    obtain ⟨entries, found⟩ := isDirectory_iff.mp (directories place isDirectory)
    rw [ensureDirectory, stays]
    simp only [bind, Except.bind, found]
  cases found : files.entry? place with
  | some entry =>
    rw [found] at ensured
    cases entry with
    | file content => cases ensured
    | directory entries =>
      cases ensured
      exact ⟨.refl files, again (.refl files) (isDirectory_iff.mpr ⟨entries, found⟩)⟩
  | none =>
    rw [found] at ensured
    cases ensured
    have some : rest ≠ [] := by
      rintro rfl
      cases followed
      exact standing rfl found
    rcases above_of_follow followed some with isDirectory | ⟨above, name, rfl, isDirectory⟩
    · obtain ⟨entries, there⟩ := isDirectory_iff.mp isDirectory
      cases found.symm.trans there
    · obtain ⟨grows, there⟩ := grows_put isDirectory found
      exact ⟨grows, again grows there⟩

theorem grows_of_createAlong {rest : List String}
    (created : files.createAlong location rest = .ok other) : files.Grows other := by
  induction rest generalizing files location with
  | nil =>
    cases created
    exact .refl _
  | cons piece rest ih =>
    obtain ⟨next, ensured, created⟩ := bind_eq_ok_iff.mp created
    have first := (ensureDirectory_again (fun none => absurd none (List.cons_ne_nil _ _)) ensured).1
    exact first.trans (ih created)

theorem entry?_origin_ne_none (inDirectory : files.IsDirectory files.start) (path : String) :
    files.entry? (files.origin path) ≠ none := by
  rw [origin]
  split
  · rw [ entry?, Entry.find?_nil]
    exact Option.some_ne_none _
  · obtain ⟨entries, found⟩ := isDirectory_iff.mp inDirectory
    rw [found]
    exact Option.some_ne_none _

/-- **Creating directories adds directories and nothing else**, and then they need not be created
again as long as the directories stay. -/
theorem createDirectories_again (inDirectory : files.IsDirectory files.start)
    (created : files.createDirectories path = .ok other) :
    files.Grows other ∧
      ∀ later : Files, later.start = other.start →
        (∀ place, other.IsDirectory place → later.IsDirectory place) →
        later.createDirectories path = .ok later := by
  obtain ⟨_, checked, created⟩ := bind_eq_ok_iff.mp created
  -- Whether or not directories on the way had to be made, the last step is the same.
  have again : ∀ {middle : Files}, files.Grows middle →
      middle.ensureDirectory (files.origin path) (bodyPieces path) = .ok other →
      files.Grows other ∧
        ∀ later : Files, later.start = other.start →
          (∀ place, other.IsDirectory place → later.IsDirectory place) →
          later.createDirectories path = .ok later := by
    intro middle grows ensured
    have inMiddle : middle.IsDirectory middle.start := by
      rw [grows.start]
      exact grows.keeps _ _ inDirectory
    rw [← origin_congr grows.start] at ensured
    obtain ⟨last, stays⟩ :=
      ensureDirectory_again (fun _ => entry?_origin_ne_none inMiddle path) ensured
    refine ⟨grows.trans last, fun later start directories => ?_⟩
    have known := stays later directories
    rw [← origin_congr (start.trans last.start)] at known
    rw [createDirectories, checked]
    simp only [bind, Except.bind, known]
  dsimp only at created
  split at created
  case h_1 =>
    obtain ⟨middle, along, ensured⟩ := bind_eq_ok_iff.mp created
    exact again (grows_of_createAlong along) ensured
  case h_2 => exact again (.refl files) created

/-- A directory that has been created is there after texts have been written. -/
theorem Filled.createDirectories {made last : Files} (inDirectory : files.IsDirectory files.start)
    (created : files.createDirectories path = .ok made) (filled : made.Filled texts last) :
    last.createDirectories path = .ok last :=
  (createDirectories_again inDirectory created).2 last filled.start fun place =>
    (filled.isDirectory place).mpr

end Files

end IdlBridge.Storage
