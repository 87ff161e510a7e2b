import DocPress.Proofs.Cache.Layout

/-!
Filling a cache that starts empty. What comes of writing an artifact depends on the artifact alone, as
long as no entry is in the way of another, and so does what is in the directory of the cache then. All
files that were there before stay.
-/

namespace DocPress

namespace Cache

variable {cache : Cache} {files tree after : FileTree} {artifact : Artifact} {done : List Artifact}
  {identifier : String} {path : List Char} {place : Location}

/-! ### One more artifact -/

/-- The tree when the folders of an entry were made. -/
def withFolders (cache : Cache) (files : FileTree) (identifier : String) (tree : FileTree) : FileTree :=
  (tree.makeWay (cache.top files) ((Identifier.folders identifier.toList).map .name)).1

/-- The tree when an artifact was written, if a file can have the name of its entry. -/
def withEntry (cache : Cache) (files : FileTree) (artifact : Artifact) (tree : FileTree) : FileTree :=
  let made := cache.withFolders files artifact.identifier tree
  if IsShort artifact.identifier then
    made.set (cache.top files ++ entryNames artifact.identifier) (.file (fileOf artifact))
  else made

namespace Lays

/-- The folders of an entry are found. -/
theorem followed_folders (lays : Lays cache files done tree) (empty : cache.IsEmpty files)
    (fits : Fits artifact.identifier) (clear : IsClear done artifact) :
    (cache.withFolders files artifact.identifier tree).follow
        (cache.withFolders files artifact.identifier tree).workingDirectory
        (cache.parts ++ (Identifier.folders artifact.identifier.toList).map .name) =
      .ok (cache.top files ++ Identifier.folders artifact.identifier.toList) := by
  have first := lays.followed empty
  have reached := FileTree.destination_of_follow first
  have second := (lays.makesWay empty fits clear).followed
  rw [FileTree.destination_names] at second
  rw [withFolders, FileTree.makeWay_workingDirectory]
  refine FileTree.follow_append_eq_ok_iff.2 ⟨?_, reached ▸ second⟩
  rw [← reached]
  exact FileTree.follow_mono (fun place here => FileTree.entry_makeWay_of_some here _ _) first

/-- No directory is where the file of an entry comes. -/
theorem entry_withFolders_ne (lays : Lays cache files done tree) (clear : IsClear done artifact)
    (short : IsShort artifact.identifier) :
    FileTree.entry? (cache.withFolders files artifact.identifier tree)
      (cache.top files ++ entryNames artifact.identifier) ≠ some .directory := by
  rw [withFolders, entry_apart, lays.below _ entryNames_ne_nil]
  · exact layout_ne_directory clear short
  · intro names before same
    rw [List.append_cancel_left_eq] at same
    exact (prefix_folders_iff.1 before).2 same.symm

/-- What comes of placing the file of an entry. -/
theorem place_entry (lays : Lays cache files done tree) (empty : cache.IsEmpty files)
    (fits : Fits artifact.identifier) (clear : IsClear done artifact)
    (known : cache.entryPath artifact.identifier = .ok path) :
    (cache.withFolders files artifact.identifier tree).place path (fileOf artifact) =
      if IsShort artifact.identifier then .ok (cache.withEntry files artifact tree)
      else .error .nameTooLong := by
  have parts : Path.parts path =
      (cache.parts ++ (Identifier.folders artifact.identifier.toList).map .name) ++
        [.name (entryName artifact.identifier)] := by
    rw [parts_eq_entryNames known, entryNames, List.map_append, List.append_assoc, List.map_singleton]
  have null : '\x00' ∉ path := Path.null_not_mem_iff.2 (fits.null_entryPath empty.null known)
  have followed := lays.followed_folders empty fits clear
  have directory := lays.entry_folder empty fits clear List.prefix_rfl
  split
  · next short =>
      have reached := FileTree.destination_of_follow followed
      have found := FileTree.locate_of_follow parts null (asksForDirectory_entryPath known) short
        (reached ▸ followed) (reached ▸ directory)
      rw [← reached, List.append_assoc] at found
      rw [FileTree.place_of_locate found (lays.entry_withFolders_ne clear short), withEntry,
        if_pos short]
      rfl
  · next long =>
      rw [FileTree.place, if_neg (by rwa [List.contains_iff_mem]),
        FileTree.locate_of_long parts null (Nat.not_le.1 long) followed directory]
      rfl

/-- The layout has one more artifact. -/
theorem withEntry (lays : Lays cache files done tree) (empty : cache.IsEmpty files)
    (fits : Fits artifact.identifier) (clear : IsClear done artifact) :
    Lays cache files (artifact :: done) (cache.withEntry files artifact tree) := by
  -- Only at the place of the entry itself does more happen than that folders are made.
  have elsewhere {place : Location}
      (apart : IsShort artifact.identifier →
        place ≠ cache.top files ++ entryNames artifact.identifier) :
      FileTree.entry? (cache.withEntry files artifact tree) place =
        FileTree.entry? (cache.withFolders files artifact.identifier tree) place := by
    rw [Cache.withEntry]
    split
    · next short => exact FileTree.entry_set_of_ne (apart short)
    · rfl
  refine ⟨?workingDirectory, fun place outside => ?around, fun names some_name => ?below⟩
  case workingDirectory =>
    have made : (cache.withFolders files artifact.identifier tree).workingDirectory =
        files.workingDirectory :=
      (FileTree.makeWay_workingDirectory _ _ _).trans lays.workingDirectory
    rw [Cache.withEntry]
    split <;> exact made
  case around =>
    rw [elsewhere fun _ => outside _ entryNames_ne_nil, ← lays.around place outside]
    by_cases top : place = cache.top files
    · have directory := lays.directory empty
      rw [top, directory]
      exact FileTree.entry_makeWay_of_some directory _ _
    · refine entry_apart (fun names _ same => ?_) tree
      by_cases none : names = []
      · exact top (by rw [same, none, List.append_nil])
      · exact outside names none same
  case below =>
    rw [layout_cons clear]
    split
    · next own =>
        obtain ⟨rfl, short⟩ := own
        rw [Cache.withEntry, if_pos short]
        exact FileTree.entry_set_of_file (lays.entry_withFolders_ne clear short)
    · next other =>
        rw [elsewhere fun short same => other ⟨List.append_cancel_left same, short⟩]
        split
        · next before => exact lays.entry_folder empty fits clear before
        · next apart =>
            rw [← lays.below names some_name]
            refine entry_apart (fun front before same => apart ?_) tree
            rwa [List.append_cancel_left same]

end Lays

/-! ### Writing -/

/-- What there is once artifacts were written, the latest first. -/
inductive Shows (cache : Cache) (files : FileTree) : List Artifact → FileTree → Prop where
  | start : Shows cache files [] files
  | filled {done : List Artifact} {after : FileTree} (some_artifact : done ≠ [])
      (lays : Lays cache files done after) : Shows cache files done after

/-- What comes of writing an artifact, if no entry is in the way. -/
def outcome (cache : Cache) (identifier : String) : Except CacheError (List Char) := do
  let path ← cache.entryPath identifier
  if IsShort identifier then return path
  else throw (.files (String.ofList path) .nameTooLong)

/-- An artifact with a field of the name for the code is refused before anything is looked at. -/
theorem write_of_reserved (reserved : codeField ∈ artifact.metadata.keys) (files : FileTree) :
    cache.write artifact files = (files, .error .reservedField) := by
  rw [write, if_pos (Fields.contains_iff.2 reserved)]

namespace Shows

/-- The way to the folders of an entry is made as from the directory of the cache. -/
theorem exists_lays (shows : Shows cache files done after) (empty : cache.IsEmpty files) :
    ∃ middle, Lays cache files done middle ∧ ∀ parts,
      after.makeWay after.workingDirectory (cache.parts ++ parts) =
        middle.makeWay (cache.top files) parts := by
  cases shows with
  | start =>
      refine ⟨cache.opened files, empty.lays, fun parts => ?_⟩
      have made := empty.made
      rw [empty.opened_eq] at made
      rw [FileTree.makeWay_append made, opened, empty.opened_eq]
      rfl
  | filled _ lays =>
      refine ⟨after, lays, fun parts => ?_⟩
      have followed := lays.followed empty
      have made := FileTree.makeWay_of_follow followed (lays.directory empty)
      rw [FileTree.makeWay_append (by rw [made]), made, ← FileTree.destination_of_follow followed]

/-- Writing one more artifact, with no entry in the way of another. -/
theorem write (shows : Shows cache files done after) (empty : cache.IsEmpty files)
    (free : codeField ∉ artifact.metadata.keys) (fits : Fits artifact.identifier)
    (clear : IsClear done artifact) :
    (cache.write artifact after).2 = cache.outcome artifact.identifier ∧
      Shows cache files (artifact :: done) (cache.write artifact after).1 := by
  obtain ⟨middle, lays, way⟩ := shows.exists_lays empty
  have known : cache.entryPath artifact.identifier = .ok _ := entryPath_of_isAcceptable fits.acceptable
  generalize Path.within cache.directory.toList
    (Identifier.fileOf artifact.identifier.toList extension.toList) = path at known
  have null : '\x00' ∉ Path.parent path := by
    rw [Path.null_not_mem_iff, Path.parts_parent path (parts_ne_root known)]
    intro name member
    exact fits.null_entryPath empty.null known name (List.dropLast_subset _ member)
  have made : after.makeDirectories (Path.parent path) =
      (cache.withFolders files artifact.identifier middle, .ok ()) := by
    rw [FileTree.makeDirectories, if_neg (by rwa [List.contains_iff_mem]),
      parts_parent_entryPath known, way]
    exact Prod.ext rfl (lays.makesWay empty fits clear).done
  have placed : (cache.withFolders files artifact.identifier middle).place path
      (.text (record artifact).write) =
        if IsShort artifact.identifier then .ok (cache.withEntry files artifact middle)
        else .error .nameTooLong :=
    lays.place_entry empty fits clear known
  have lays' := lays.withEntry empty fits clear
  have reserved : artifact.metadata.contains codeField = false :=
    Fields.contains_eq_false_iff.2 free
  rw [Cache.write, if_neg (by simp [reserved]), outcome, known]
  by_cases short : IsShort artifact.identifier
  · rw [if_pos short] at placed
    simp only [made, placed, bind, Except.bind, if_pos short]
    exact ⟨rfl, .filled (List.cons_ne_nil artifact done) lays'⟩
  · rw [if_neg short] at placed
    rw [Cache.withEntry, if_neg short] at lays'
    simp only [made, placed, bind, Except.bind, if_neg short]
    exact ⟨rfl, .filled (List.cons_ne_nil artifact done) lays'⟩

end Shows

/-! ### What was there before -/

/-- More directories, and more files that are entries below a place where nothing was. -/
structure Gains (top : Location) (files after : FileTree) : Prop where
  workingDirectory : after.workingDirectory = files.workingDirectory
  vacant : ∀ names, names ≠ [] → files.entry? (top ++ names) = none
  kept : ∀ place entry, files.entry? place = some entry → after.entry? place = some entry
  came : ∀ place content, after.entry? place = some (.file content) →
    files.entry? place = some (.file content) ∨ ∃ identifier, place = top ++ entryNames identifier

/-- What is there at a path is there still. -/
theorem Gains.look {top : Location} {entry : FileEntry} (gains : Gains top files after)
    (looked : files.look path = .ok entry) : after.look path = .ok entry := by
  obtain ⟨place, found, here⟩ := FileTree.look_eq_ok_iff.1 looked
  obtain ⟨null, some_char, followed, asked⟩ := FileTree.locate_eq_ok_iff.1 found
  refine FileTree.look_eq_ok_iff.2 ⟨place, ?_, gains.kept place entry here⟩
  refine FileTree.locate_eq_ok_iff.2 ⟨null, some_char, ?_, fun asks => ?_⟩
  · rw [gains.workingDirectory]
    exact FileTree.follow_mono (fun place directory => gains.kept place _ directory) followed
  · exact gains.kept place _ (asked asks)

theorem IsEmpty.vacant_before (empty : cache.IsEmpty files) {names : List (List Char)}
    (some_name : names ≠ []) : files.entry? (cache.top files ++ names) = none := by
  rcases cache.entry_opened files (cache.top files ++ names) with same | ⟨free, -⟩
  · rw [← same, empty.vacant names some_name]
  · exact free

/-- Filling a cache changes nothing that was there. -/
theorem Shows.gains (shows : Shows cache files done after) (empty : cache.IsEmpty files) :
    Gains (cache.top files) files after := by
  have vacant : ∀ names, names ≠ [] → files.entry? (cache.top files ++ names) = none :=
    fun _ some_name => empty.vacant_before some_name
  cases shows with
  | start => exact ⟨rfl, vacant, fun _ _ here => here, fun _ _ file => .inl file⟩
  | filled _ lays =>
      refine ⟨lays.workingDirectory, vacant, fun place entry here => ?kept,
        fun place content file => ?came⟩
      case kept =>
        refine lays.entry_of_opened empty ?_
        rcases cache.entry_opened files place with same | ⟨free, -⟩
        · rw [same, here]
        · rw [here] at free
          cases free
      case came =>
        by_cases inside : ∃ names, names ≠ [] ∧ place = cache.top files ++ names
        · obtain ⟨names, some_name, rfl⟩ := inside
          rw [lays.below names some_name] at file
          obtain ⟨artifact, -, rfl, -, -⟩ := exists_of_layout_file file
          exact .inr ⟨artifact.identifier, rfl⟩
        · rw [lays.around place fun names some_name same => inside ⟨names, some_name, same⟩] at file
          rcases cache.entry_opened files place with same | ⟨-, directory⟩
          · exact .inl (same ▸ file)
          · rw [directory] at file
            cases file

end Cache

end DocPress
