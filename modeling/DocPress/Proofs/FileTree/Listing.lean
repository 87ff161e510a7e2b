import DocPress.Proofs.FileTree.Change

/-!
Trees as there are on a disk: what is there is in a directory, entries are at different places, and
names are such as files can have. In such a tree there is a way to every file. A listing of the files
below a place goes through the entries of a tree, whether or not there is a way to them, so a change is
seen in it as a change of the entries.
-/

namespace DocPress.FileTree

variable {tree : FileTree} {place start : Location} {path : List Char} {content : FileContent}
  {names : List (List Char)}

/-! ### What is above an entry -/

/-- What is there is in a directory. -/
def IsClosed (tree : FileTree) : Prop :=
  ∀ place name, tree.entry? (place ++ [name]) ≠ none → tree.entry? place = some .directory

/-- Where nothing is nothing is below. -/
theorem IsClosed.none_below (closed : tree.IsClosed) (free : tree.entry? place = none)
    (name : List Char) : tree.entry? (place ++ [name]) = none := by
  by_contra there
  rw [closed place name there] at free
  cases free

/-- All places above what is there are directories. -/
theorem IsClosed.directory_above (closed : tree.IsClosed) (some_name : names ≠ [])
    (there : tree.entry? (place ++ names) ≠ none) : tree.entry? place = some .directory := by
  induction names generalizing place with
  | nil => exact absurd rfl some_name
  | cons name names ih =>
      rw [List.append_cons] at there
      by_cases last : names = []
      · rw [last, List.append_nil] at there
        exact closed place name there
      · refine closed place name ?_
        rw [ih last there]
        exact nofun

/-! ### The tree without files -/

/-- Nothing is in an empty tree but the root. -/
theorem entry_empty (filled : place ≠ []) : FileTree.entry? .empty place = none := by
  have outside : place.isPrefixOf [] = false := by
    rw [Bool.eq_false_iff, Ne, List.isPrefixOf_iff_prefix, List.prefix_nil]
    exact filled
  unfold entry?
  rw [empty, if_neg (by simp [outside])]
  rfl

theorem file?_empty (place : Location) : FileTree.file? .empty place = none :=
  file?_eq_none fun _ here => nomatch mem_entries_of_file here

theorem isClosed_empty : IsClosed .empty := by
  intro place name there
  exact absurd (entry_empty (by simp)) there

/-! ### Sound trees -/

/-- A tree as there are on a disk. -/
structure IsSound (tree : FileTree) : Prop where
  closed : tree.IsClosed
  seen : ∀ found ∈ tree.entries, tree.entry? found.1 = some found.2
  proper : ∀ found ∈ tree.entries, ∀ name ∈ found.1, Path.IsFileName name
  null : ∀ found ∈ tree.entries, ∀ name ∈ found.1, '\x00' ∉ name
  short : ∀ found ∈ tree.entries, ∀ name ∈ found.1,
    (String.ofList name).utf8ByteSize ≤ longestName

/-- Whether a tree is sound is seen from its entries. -/
theorem isSound_iff :
    tree.IsSound ↔ ∀ found ∈ tree.entries, tree.entry? found.1.dropLast = some .directory ∧
      tree.entry? found.1 = some found.2 ∧ ∀ name ∈ found.1, Path.IsFileName name ∧
        '\x00' ∉ name ∧ (String.ofList name).utf8ByteSize ≤ longestName := by
  constructor
  · intro sound found member
    refine ⟨?_, sound.seen found member, fun name inside => ⟨sound.proper found member name inside,
      sound.null found member name inside, sound.short found member name inside⟩⟩
    rcases List.eq_nil_or_concat' found.1 with top | ⟨place, name, below⟩
    · rw [top]
      exact entry_workingDirectory List.nil_prefix
    · rw [below, List.dropLast_concat]
      refine sound.closed place name ?_
      rw [← below, sound.seen found member]
      exact nofun
  · intro each
    refine ⟨fun place name there => ?_, fun found member => (each found member).2.1,
      fun found member name inside => ((each found member).2.2 name inside).1,
      fun found member name inside => ((each found member).2.2 name inside).2.1,
      fun found member name inside => ((each found member).2.2 name inside).2.2⟩
    obtain ⟨entry, here⟩ := Option.ne_none_iff_exists'.1 there
    rcases mem_entries_of_entry here with around | member
    · exact entry_workingDirectory ((List.prefix_append place [name]).trans around)
    · have above := (each _ member).1
      rwa [List.dropLast_concat] at above

instance (tree : FileTree) : Decidable tree.IsSound :=
  decidable_of_iff _ isSound_iff.symm

/-- Short names are followed to what is there. -/
theorem IsClosed.follow_names (closed : tree.IsClosed)
    (short : ∀ name ∈ names, (String.ofList name).utf8ByteSize ≤ longestName)
    (there : tree.entry? (start ++ names) ≠ none) :
    tree.follow start (names.map .name) = .ok (start ++ names) := by
  induction names generalizing start with
  | nil => rw [List.append_nil]; rfl
  | cons name names ih =>
      have directory := closed.directory_above (List.cons_ne_nil name names) there
      rw [List.forall_mem_cons] at short
      rw [List.append_cons] at there ⊢
      refine follow_cons_eq_ok_iff.2 ⟨directory, ?_, ih short.2 there⟩
      rw [step, if_neg (Nat.not_lt.2 short.1)]
      rfl

/-- There is a way to every file below a directory. -/
theorem IsSound.reaches (sound : tree.IsSound) (known : tree.look path = .ok .directory)
    (file : tree.entry? (tree.target path ++ names) = some (.file content)) :
    tree.Reaches (Path.parts path ++ names.map .name) := by
  obtain ⟨place, found, -⟩ := look_eq_ok_iff.1 known
  obtain ⟨null, -, followed, -⟩ := locate_eq_ok_iff.1 found
  obtain rfl := target_of_locate found
  have entry := mem_entries_of_file file
  have inside : names ⊆ tree.target path ++ names := List.subset_append_right _ _
  have there : tree.entry? (tree.target path ++ names) ≠ none := by
    rw [file]
    exact nofun
  constructor
  · rw [destination_append, destination_names]
    exact follow_append_eq_ok_iff.2 ⟨followed, sound.closed.follow_names
      (fun name member => sound.short _ entry name (inside member)) there⟩
  · intro name part
    rcases List.mem_append.1 part with own | below
    · exact Path.null_not_mem_iff.1 null name own
    · obtain ⟨other, member, same⟩ := List.mem_map.1 below
      rw [← PathPart.name.inj same]
      exact sound.null _ entry other (inside member)

/-! ### Files below a place -/

variable {top : Location} {own : List (List Char)}

/-- The names below a place are those that lead from there. -/
theorem namesBelow?_eq_some_iff : namesBelow? top place = some names ↔ place = top ++ names := by
  rw [namesBelow?]
  constructor
  · intro found
    split at found
    · next inside =>
        obtain ⟨rest, rfl⟩ := List.isPrefixOf_iff_prefix.1 inside
        rw [List.drop_left] at found
        rw [Option.some.inj found]
    · cases found
  · rintro rfl
    rw [if_pos (List.isPrefixOf_iff_prefix.2 (List.prefix_append top names)), List.drop_left]

/-- The names on the way from a place to the file that an entry is, if it is one below the place. -/
def fileNames? (top : Location) : Location × FileEntry → Option (List (List Char))
  | (place, .file _) => namesBelow? top place
  | (_, .directory) => none

/-- The names on the ways from a place to the files below it. -/
def filesUnder (tree : FileTree) (top : Location) : List (List (List Char)) :=
  tree.entries.filterMap (fileNames? top)

/-- The names of a file are given for files only. -/
theorem fileNames?_eq_some_iff {found : Location × FileEntry} :
    fileNames? top found = some names ↔ ∃ content, found = (top ++ names, .file content) := by
  obtain ⟨place, entry⟩ := found
  cases entry with
  | directory => simp [fileNames?]
  | file content => simp [fileNames?, namesBelow?_eq_some_iff]

theorem mem_filesUnder_iff :
    names ∈ tree.filesUnder top ↔ ∃ content, (top ++ names, .file content) ∈ tree.entries := by
  rw [filesUnder, List.mem_filterMap]
  constructor
  · rintro ⟨found, member, below⟩
    obtain ⟨content, rfl⟩ := fileNames?_eq_some_iff.1 below
    exact ⟨content, member⟩
  · rintro ⟨content, member⟩
    exact ⟨_, member, fileNames?_eq_some_iff.2 ⟨content, rfl⟩⟩

/-- What is listed at a path: the files below a directory, under the path that leads to it, and a file
under its own. -/
theorem filesBelow_eq (tree : FileTree) (path : List Char) :
    tree.filesBelow path = (do
      match ← tree.look path with
      | .file _ => return [path]
      | .directory => return (tree.filesUnder (tree.target path)).map (pathBelow path)) := by
  rw [filesBelow, look]
  cases found : tree.locate path with
  | error fault => rfl
  | ok top =>
      obtain rfl := target_of_locate found
      simp only [bind, Except.bind]
      cases tree.entry? (tree.target path) with
      | none => rfl
      | some entry =>
          cases entry with
          | file content => rfl
          | directory =>
              simp only [pure, Except.pure, filesUnder, List.map_filterMap]
              refine congrArg _ (List.filterMap_congr fun found _ => ?_)
              obtain ⟨place, entry⟩ := found
              cases entry <;> rfl

/-- Files are listed below a directory, and a file lists itself. -/
theorem filesBelow_eq_ok_iff {paths : List (List Char)} :
    tree.filesBelow path = .ok paths ↔
      (tree.look path = .ok .directory ∧
          paths = (tree.filesUnder (tree.target path)).map (pathBelow path)) ∨
        ∃ content, tree.look path = .ok (.file content) ∧ paths = [path] := by
  rw [filesBelow_eq]
  cases tree.look path with
  | error fault => simp [bind, Except.bind]
  | ok entry => cases entry <;> simp [bind, Except.bind, pure, Except.pure, eq_comm]

/-! ### Changes -/

/-- New directories are not listed. -/
theorem filesUnder_withDirectories (tree : FileTree) (made : List Location) (top : Location) :
    (tree.withDirectories made).filesUnder top = tree.filesUnder top := by
  have none : (made.map fun place => (place, FileEntry.directory)).filterMap (fileNames? top) = [] := by
    rw [List.filterMap_eq_nil_iff]
    intro found member
    obtain ⟨place, -, rfl⟩ := List.mem_map.1 member
    rfl
  rw [filesUnder, withDirectories, List.filterMap_append, none, List.append_nil]
  rfl

/-- Where entries are dropped by their places, files are no longer listed by their names. -/
theorem filterMap_filter_fileNames (tree : FileTree) (keep : Location → Bool)
    (keepNames : List (List Char) → Bool) (same : ∀ names, keep (top ++ names) = keepNames names) :
    (tree.entries.filter fun found => keep found.1).filterMap (fileNames? top) =
      (tree.filesUnder top).filter keepNames := by
  rw [filesUnder, List.filter_filterMap, List.filterMap_filter]
  congr 1
  funext found
  cases below : fileNames? top found with
  | none => simp
  | some names =>
      obtain ⟨content, rfl⟩ := fileNames?_eq_some_iff.1 below
      simp [same names, Option.filter]

/-- A file that is set is listed last. -/
theorem filesUnder_set (tree : FileTree) (top : Location) (own : List (List Char))
    (content : FileContent) :
    (tree.set (top ++ own) (.file content)).filesUnder top =
      (tree.filesUnder top).filter (· ≠ own) ++ [own] := by
  have last : fileNames? top (top ++ own, .file content) = some own :=
    fileNames?_eq_some_iff.2 ⟨content, rfl⟩
  rw [filesUnder, set, List.filterMap_append, List.filterMap_cons_some last, List.filterMap_nil]
  have kept (names : List (List Char)) :
      decide (top ++ names ≠ top ++ own) = decide (names ≠ own) := by simp
  exact congrArg (· ++ [own]) (tree.filterMap_filter_fileNames (· ≠ top ++ own) (· ≠ own) kept)

/-- What is erased is listed no longer, and neither is what is below it. -/
theorem filesUnder_erase (tree : FileTree) (top : Location) (own : List (List Char)) :
    (tree.erase (top ++ own)).filesUnder top =
      (tree.filesUnder top).filter fun names => !own.isPrefixOf names := by
  have kept (names : List (List Char)) :
      (!(top ++ own).isPrefixOf (top ++ names)) = !own.isPrefixOf names := by
    rw [Bool.not_inj_iff, Bool.eq_iff_iff, List.isPrefixOf_iff_prefix, List.isPrefixOf_iff_prefix,
      List.prefix_append_right_inj]
  exact tree.filterMap_filter_fileNames (!(top ++ own).isPrefixOf ·) (!own.isPrefixOf ·) kept

/-! ### Listings that show what is there -/

/-- The files below a place are listed once each, and no other names are. -/
structure IsListed (tree : FileTree) (top : Location) : Prop where
  distinct : (tree.filesUnder top).Nodup
  present : ∀ names, names ∈ tree.filesUnder top ↔ (tree.file? (top ++ names)).isSome = true

namespace IsListed

theorem of_nil (none : tree.filesUnder top = []) : tree.IsListed top := by
  refine ⟨none ▸ List.nodup_nil, fun names => ?_⟩
  rw [none, Option.isSome_iff_exists]
  refine ⟨nofun, ?_⟩
  rintro ⟨content, here⟩
  rw [← none, mem_filesUnder_iff]
  exact ⟨content, mem_entries_of_file (file?_eq_some_iff.1 here)⟩

/-- New directories keep every file listed once. -/
theorem withDirectories {made : List Location} (listed : tree.IsListed top)
    (fresh : ∀ place ∈ made, tree.entry? place = none) :
    (tree.withDirectories made).IsListed top := by
  refine ⟨?_, fun names => ?_⟩
  · rw [filesUnder_withDirectories]
    exact listed.distinct
  · rw [filesUnder_withDirectories, file?_withDirectories fresh]
    exact listed.present names

/-- Setting a file keeps every file listed once. -/
theorem set (listed : tree.IsListed top) (file : tree.entry? (top ++ own) ≠ some .directory)
    (content : FileContent) : (tree.set (top ++ own) (.file content)).IsListed top := by
  refine ⟨?_, fun names => ?_⟩
  · rw [filesUnder_set, List.nodup_append]
    refine ⟨listed.distinct.sublist List.filter_sublist, by simp, ?_⟩
    rintro names member other single rfl
    rw [List.mem_singleton.1 single] at member
    simpa using (List.mem_filter.1 member).2
  · rw [filesUnder_set, List.mem_append, List.mem_filter, List.mem_singleton, listed.present]
    by_cases same : names = own
    · subst same
      rw [file?_eq_some_iff.2 (entry_set_of_file file)]
      simp
    · have apart : top ++ names ≠ top ++ own := by simpa using same
      rw [file?_congr (entry_set_of_ne apart)]
      simp [same]

/-- Removing a file keeps every file listed once. -/
theorem erase (listed : tree.IsListed top) (file : tree.entry? (top ++ own) = some (.file content)) :
    (tree.erase (top ++ own)).IsListed top := by
  refine ⟨?_, fun names => ?_⟩
  · rw [filesUnder_erase]
    exact listed.distinct.sublist List.filter_sublist
  · rw [filesUnder_erase, List.mem_filter, listed.present]
    by_cases inside : own <+: names
    · have gone : (tree.erase (top ++ own)).file? (top ++ names) = none :=
        file?_erase_below file ((List.prefix_append_right_inj top).2 inside)
      simp [gone, List.isPrefixOf_iff_prefix.2 inside]
    · have apart : ¬ top ++ own <+: top ++ names := by
        rwa [List.prefix_append_right_inj]
      have other : own.isPrefixOf names = false := by
        rwa [Bool.eq_false_iff, Ne, List.isPrefixOf_iff_prefix]
      rw [file?_congr (entry_erase apart), other]
      simp

end IsListed

end DocPress.FileTree
