import DocPress.Proofs.Cache.Entry
import DocPress.Proofs.Store.Names

/-!
What the directory of a cache looks like once artifacts were written. It was empty, so the artifacts
alone decide what is there: the file of each entry, and the directories on the way to it. Writing one
more artifact succeeds wherever no entry is in the way of another.
-/

namespace DocPress

namespace Cache

variable {cache : Cache} {files tree after : FileTree} {artifact : Artifact} {done : List Artifact}
  {identifier : String} {path : List Char} {names : List (List Char)}

/-! ### The names of entries -/

theorem isExtension_json : Path.IsExtension extension.toList := by
  constructor <;> decide

/-- The file name of the entry of an artifact. -/
def entryName (identifier : String) : List Char :=
  Identifier.fileOf (Identifier.ending identifier.toList) extension.toList

/-- The names of an entry below the directory of its cache. -/
def entryNames (identifier : String) : List (List Char) :=
  Identifier.folders identifier.toList ++ [entryName identifier]

/-- Whether a file can have the name of the entry. -/
def IsShort (identifier : String) : Prop :=
  (String.ofList (entryName identifier)).utf8ByteSize ≤ FileTree.longestName

/-- The file of the first entry is where the second needs a directory. -/
def Blocks (first second : String) : Prop :=
  IsShort first ∧ entryNames first <+: entryNames second ∧ entryNames first ≠ entryNames second

instance (identifier : String) : Decidable (IsShort identifier) :=
  inferInstanceAs (Decidable (_ ≤ _))

instance (first second : String) : Decidable (Blocks first second) :=
  inferInstanceAs (Decidable (_ ∧ _))

theorem entryNames_ne_nil : entryNames identifier ≠ [] := by
  simp [entryNames]

/-- An identifier with the same names is as short. -/
theorem IsShort.congr {other : String} (short : IsShort identifier)
    (same : entryNames identifier = entryNames other) : IsShort other := by
  have last := List.singleton_inj.1 (List.append_inj' same rfl).2
  rwa [IsShort, ← last]

/-- The names in front of the file name of an entry are its folders. -/
theorem prefix_folders_iff :
    names <+: Identifier.folders identifier.toList ↔
      names <+: entryNames identifier ∧ names ≠ entryNames identifier := by
  rw [entryNames, List.prefix_concat_iff]
  constructor
  · intro before
    refine ⟨.inr before, ?_⟩
    rintro rfl
    exact absurd before.length_le (by simp)
  · rintro ⟨same | before, other⟩
    · exact absurd same other
    · exact before

example : entryNames "a" <+: Identifier.folders "a.json/b".toList := by decide +kernel

/-- An identifier that has an entry, in folders whose names are not too long. -/
structure Fits (identifier : String) : Prop where
  acceptable : Identifier.IsAcceptable identifier.toList extension.toList
  null : '\x00' ∉ identifier.toList
  short : ∀ name ∈ Identifier.folders identifier.toList,
    (String.ofList name).utf8ByteSize ≤ FileTree.longestName

/-- The parts of an entry's path are those of the cache and the names of the entry. -/
theorem parts_eq_entryNames (known : cache.entryPath identifier = .ok path) :
    Path.parts path = cache.parts ++ (entryNames identifier).map .name := by
  have acceptable := (entryPath_eq_ok_iff.1 known).1
  rw [parts_entryPath known, acceptable.parts_fileOf isExtension_json]
  rfl

/-- The directory of an entry is reached through its folders. -/
theorem parts_parent_entryPath (known : cache.entryPath identifier = .ok path) :
    Path.parts (Path.parent path) =
      cache.parts ++ (Identifier.folders identifier.toList).map .name := by
  rw [Path.parts_parent path (parts_ne_root known), parts_eq_entryNames known, entryNames,
    List.map_append, ← List.append_assoc, List.map_singleton, List.dropLast_concat]

/-- The path of an entry that fits holds no null. -/
theorem Fits.null_entryPath (fits : Fits identifier) (null : '\x00' ∉ cache.directory.toList)
    (known : cache.entryPath identifier = .ok path) :
    ∀ name, PathPart.name name ∈ Path.parts path → '\x00' ∉ name := by
  have own : '\x00' ∉ Identifier.fileOf identifier.toList extension.toList := by
    intro inside
    rcases List.mem_append.1 inside with front | behind
    · exact fits.null front
    · exact absurd behind (by decide)
  rw [parts_entryPath known]
  intro name member
  rcases List.mem_append.1 member with around | below
  · exact Path.null_not_mem_iff.1 null name around
  · exact Path.null_not_mem_iff.1 own name below

/-! ### Caches that start empty -/

/-- The files when the directory of a cache was made. -/
def opened (cache : Cache) (files : FileTree) : FileTree :=
  (files.makeDirectories cache.directory.toList).1

/-- The directory of a cache can be made, and nothing is in it then. -/
structure IsEmpty (cache : Cache) (files : FileTree) : Prop where
  made : (files.makeDirectories cache.directory.toList).2 = .ok ()
  vacant : ∀ names, names ≠ [] →
    FileTree.entry? (cache.opened files) (cache.top files ++ names) = none

namespace IsEmpty

/-- The directory of a cache that is empty holds no null. -/
theorem null (empty : cache.IsEmpty files) : '\x00' ∉ cache.directory.toList := by
  have made := empty.made
  rw [FileTree.makeDirectories] at made
  split at made
  · cases made
  · next clear => rwa [List.contains_iff_mem] at clear

/-- Opening a cache makes the way to its directory. -/
theorem opened_eq (empty : cache.IsEmpty files) :
    files.makeDirectories cache.directory.toList =
      files.makeWay files.workingDirectory cache.parts := by
  rw [FileTree.makeDirectories, if_neg (by rw [List.contains_iff_mem]; exact empty.null)]
  rfl

/-- The way to the directory of the cache is made. -/
theorem makesWay (empty : cache.IsEmpty files) :
    files.MakesWay files.workingDirectory cache.parts := by
  refine FileTree.makesWay_of_done (FileTree.entry_workingDirectory List.prefix_rfl) ?_
  rw [← empty.opened_eq]
  exact empty.made

/-- Whether a cache starts empty is seen from the entries of the tree. -/
theorem of_entries (made : (files.makeDirectories cache.directory.toList).2 = .ok ())
    (around : ¬ (cache.top files <+: (cache.opened files).workingDirectory ∧
      cache.top files ≠ (cache.opened files).workingDirectory))
    (each : ∀ found ∈ (cache.opened files).entries,
      ¬ (cache.top files <+: found.1 ∧ cache.top files ≠ found.1)) : cache.IsEmpty files := by
  refine ⟨made, fun names some_name => ?_⟩
  by_contra there
  obtain ⟨entry, here⟩ := Option.ne_none_iff_exists'.1 there
  have apart : cache.top files ≠ cache.top files ++ names := by simpa using some_name
  have below : cache.top files <+: cache.top files ++ names := List.prefix_append _ _
  rcases FileTree.mem_entries_of_entry here with ⟨rest, same⟩ | member
  · refine around ⟨below.trans ⟨rest, same⟩, fun same' => ?_⟩
    have length := congrArg List.length (same.trans same'.symm)
    have some_length := List.length_pos_iff.2 some_name
    simp only [List.length_append] at length
    omega
  · exact each _ member ⟨below, apart⟩

end IsEmpty

/-- Making the directory of a cache keeps what is there, and brings no file. -/
theorem entry_opened (cache : Cache) (files : FileTree) (place : Location) :
    FileTree.entry? (cache.opened files) place = files.entry? place ∨
      files.entry? place = none ∧ FileTree.entry? (cache.opened files) place = some .directory := by
  obtain ⟨made, same, fresh⟩ := files.makeDirectories_fst cache.directory.toList
  rw [opened, same]
  rcases FileTree.entry_withDirectories (fun place member => (fresh place member).1) place with
    old | ⟨-, free, directory⟩
  · exact .inl old
  · exact .inr ⟨free, directory⟩

/-! ### The layout of artifacts -/

/-- The latest artifact whose entry has the names, if a file can have them. -/
def holder? (done : List Artifact) (names : List (List Char)) : Option Artifact :=
  done.find? fun artifact => entryNames artifact.identifier = names ∧ IsShort artifact.identifier

/-- What there is below the directory of a cache, once artifacts were written, the latest first. -/
def layout (done : List Artifact) (names : List (List Char)) : Option FileEntry :=
  match holder? done names with
  | some artifact => some (.file (fileOf artifact))
  | none =>
    if ∃ artifact ∈ done, names <+: Identifier.folders artifact.identifier.toList then
      some .directory
    else none

theorem of_holder?_eq_some (found : holder? done names = some artifact) :
    artifact ∈ done ∧ entryNames artifact.identifier = names ∧ IsShort artifact.identifier :=
  ⟨List.mem_of_find?_eq_some found, by simpa using List.find?_some found⟩

/-- Names are held by nothing when no artifact that was stored has them. -/
theorem holder?_eq_none_iff :
    holder? done names = none ↔
      ∀ artifact ∈ done, ¬ (entryNames artifact.identifier = names ∧ IsShort artifact.identifier) := by
  simp [holder?]

theorem layout_of_holder? (found : holder? done names = some artifact) :
    layout done names = some (.file (fileOf artifact)) := by
  rw [layout, found]

/-- A file in a layout is the entry of an artifact. -/
theorem exists_of_layout_file {content : FileContent}
    (file : layout done names = some (.file content)) :
    ∃ artifact ∈ done, entryNames artifact.identifier = names ∧ IsShort artifact.identifier ∧
      content = fileOf artifact := by
  rw [layout] at file
  split at file
  · next artifact found =>
      obtain ⟨member, own, short⟩ := of_holder?_eq_some found
      cases file
      exact ⟨artifact, member, own, short, rfl⟩
  · split at file <;> cases file

/-- No entry is in the way of one more. -/
def IsClear (done : List Artifact) (artifact : Artifact) : Prop :=
  ∀ other ∈ done, ¬ Blocks other.identifier artifact.identifier ∧
    ¬ Blocks artifact.identifier other.identifier

/-- One more artifact puts its file and its folders in place. -/
theorem layout_cons (clear : IsClear done artifact) (names : List (List Char)) :
    layout (artifact :: done) names =
      if names = entryNames artifact.identifier ∧ IsShort artifact.identifier then
        some (.file (fileOf artifact))
      else if names <+: Identifier.folders artifact.identifier.toList then some .directory
      else layout done names := by
  by_cases own : names = entryNames artifact.identifier ∧ IsShort artifact.identifier
  · rw [if_pos own]
    exact layout_of_holder? (List.find?_cons_of_pos (by simpa using ⟨own.1.symm, own.2⟩))
  have passed : holder? (artifact :: done) names = holder? done names := by
    refine List.find?_cons_of_neg ?_
    rw [decide_eq_true_iff]
    exact fun same => own ⟨same.1.symm, same.2⟩
  rw [if_neg own, layout, passed]
  by_cases around : names <+: Identifier.folders artifact.identifier.toList
  · have none : holder? done names = none := by
      rw [holder?_eq_none_iff]
      rintro other member ⟨rfl, short⟩
      obtain ⟨before, apart⟩ := prefix_folders_iff.1 around
      exact (clear other member).1 ⟨short, before, apart⟩
    rw [if_pos around, none]
    exact if_pos ⟨artifact, List.mem_cons_self, around⟩
  · rw [if_neg around, layout]
    simp only [List.exists_mem_cons_iff, around, false_or]

/-- What is in a layout is no directory where one more artifact puts its file. -/
theorem layout_ne_directory (clear : IsClear done artifact) (short : IsShort artifact.identifier) :
    layout done (entryNames artifact.identifier) ≠ some .directory := by
  rw [layout]
  split
  · exact nofun
  · rw [if_neg]
    · exact nofun
    · rintro ⟨other, member, around⟩
      obtain ⟨before, apart⟩ := prefix_folders_iff.1 around
      exact (clear other member).2 ⟨short, before, apart⟩

/-! ### Directories with a layout -/

/-- Below the directory of the cache is what artifacts have brought, and elsewhere all is as when that
directory was made. -/
structure Lays (cache : Cache) (files : FileTree) (done : List Artifact) (tree : FileTree) : Prop where
  workingDirectory : tree.workingDirectory = files.workingDirectory
  around : ∀ place, (∀ names, names ≠ [] → place ≠ cache.top files ++ names) →
    tree.entry? place = FileTree.entry? (cache.opened files) place
  below : ∀ names, names ≠ [] → tree.entry? (cache.top files ++ names) = layout done names

/-- A cache that was opened lays nothing. -/
theorem IsEmpty.lays (empty : cache.IsEmpty files) : Lays cache files [] (cache.opened files) where
  workingDirectory := files.makeDirectories_workingDirectory _
  around _ _ := rfl
  below names some_name := empty.vacant names some_name

namespace Lays

/-- What was there when the cache was opened stays. -/
theorem entry_of_opened (lays : Lays cache files done tree) (empty : cache.IsEmpty files)
    {place : Location} {entry : FileEntry}
    (here : FileTree.entry? (cache.opened files) place = some entry) :
    tree.entry? place = some entry := by
  rw [lays.around, here]
  rintro names some_name rfl
  rw [empty.vacant names some_name] at here
  cases here

/-- The directory of the cache is there. -/
theorem directory (lays : Lays cache files done tree) (empty : cache.IsEmpty files) :
    tree.entry? (cache.top files) = some .directory := by
  refine lays.entry_of_opened empty ?_
  rw [opened, empty.opened_eq]
  exact empty.makesWay.directory

/-- The directory of the cache is found. -/
theorem followed (lays : Lays cache files done tree) (empty : cache.IsEmpty files) :
    tree.follow tree.workingDirectory cache.parts = .ok (cache.top files) := by
  have before := empty.makesWay.followed
  rw [← empty.opened_eq] at before
  rw [lays.workingDirectory]
  exact FileTree.follow_mono (fun place here => lays.entry_of_opened empty here) before

/-- The way to the folders of one more artifact can be made. -/
theorem makesWay (lays : Lays cache files done tree) (empty : cache.IsEmpty files)
    (fits : Fits artifact.identifier) (clear : IsClear done artifact) :
    tree.MakesWay (cache.top files)
      ((Identifier.folders artifact.identifier.toList).map .name) := by
  refine FileTree.makesWay_of_clear (fun front before some_part => ?_) (fun name member => ?_)
    (lays.directory empty)
  · obtain ⟨own, first, rfl⟩ := List.prefix_map_iff.1 before
    have some_name : own ≠ [] := fun none => some_part (by rw [none]; rfl)
    rw [FileTree.destination_names]
    refine FileTree.file?_eq_none fun content file => ?_
    rw [lays.below own some_name] at file
    obtain ⟨other, inside, rfl, short, -⟩ := exists_of_layout_file file
    obtain ⟨within, apart⟩ := prefix_folders_iff.1 first
    exact (clear other inside).1 ⟨short, within, apart⟩
  · obtain ⟨own, inside, same⟩ := List.mem_map.1 member
    exact PathPart.name.inj same ▸ fits.short own inside

/-- The folders of one more artifact are there when the way to them was made. -/
theorem entry_folder (lays : Lays cache files done tree) (empty : cache.IsEmpty files)
    (fits : Fits artifact.identifier) (clear : IsClear done artifact)
    (before : names <+: Identifier.folders artifact.identifier.toList) :
    FileTree.entry? (tree.makeWay (cache.top files)
      ((Identifier.folders artifact.identifier.toList).map .name)).1 (cache.top files ++ names) =
        some .directory := by
  have made := (lays.makesWay empty fits clear).entry_front (before.map PathPart.name)
  rwa [FileTree.destination_names] at made

/-- All other places are as they were. -/
theorem entry_apart {place : Location}
    (apart : ∀ names, names <+: Identifier.folders identifier.toList →
      place ≠ cache.top files ++ names) (tree : FileTree) :
    FileTree.entry? (tree.makeWay (cache.top files)
      ((Identifier.folders identifier.toList).map .name)).1 place = tree.entry? place := by
  refine FileTree.entry_makeWay_of_apart fun front before same => ?_
  obtain ⟨names, first, rfl⟩ := FileTree.exists_prefix_map_iff.1 ⟨front, before, same⟩
  exact apart names first rfl

end Lays

end Cache

end DocPress
