import DocPress.Proofs.Cache
import DocPress.Proofs.FileTree.Change
import DocPress.Proofs.Store

/-!
The entries of a cache. An entry is the file at a path of names below the directory of the cache. What
a call does to the files is told in terms of the place of that file, whether the call succeeds or fails.
-/

namespace DocPress

namespace Cache

variable {cache : Cache} {identifier : String} {path : List Char} {files : FileTree}
  {artifact : Artifact} {names : List (List Char)}

/-! ### The paths of entries -/

theorem entryPath_eq_ok_iff :
    cache.entryPath identifier = .ok path ↔
      Identifier.IsAcceptable identifier.toList extension.toList ∧
        path = Path.within cache.directory.toList
          (Identifier.fileOf identifier.toList extension.toList) := by
  by_cases acceptable : Identifier.IsAcceptable identifier.toList extension.toList
  · rw [entryPath_of_isAcceptable acceptable]
    simp [acceptable, eq_comm]
  · rw [entryPath_of_not_isAcceptable acceptable]
    simp [acceptable]

/-- The parts of the directory of a cache. -/
def parts (cache : Cache) : List PathPart :=
  Path.parts cache.directory.toList

/-- The place of the directory of a cache. -/
def top (cache : Cache) (files : FileTree) : Location :=
  files.target cache.directory.toList

/-- The path of an entry has the parts of the directory and those of the file. -/
theorem parts_entryPath (known : cache.entryPath identifier = .ok path) :
    Path.parts path = cache.parts ++
      Path.parts (Identifier.fileOf identifier.toList extension.toList) := by
  obtain ⟨acceptable, rfl⟩ := entryPath_eq_ok_iff.1 known
  rw [Path.parts_within acceptable.file_relative, Path.partsOf_of_isName acceptable.isName,
    Path.parts_eq_partsOf acceptable.file_relative]
  rfl

/-- An entry has a name below the directory of its cache. -/
theorem parts_of_entryPath (known : cache.entryPath identifier = .ok path) :
    ∃ names, names ≠ [] ∧ Path.parts path = cache.parts ++ names.map .name := by
  have acceptable := (entryPath_eq_ok_iff.1 known).1
  obtain ⟨names, below⟩ := acceptable.below
  refine ⟨names, ?_, (parts_entryPath known).trans (congrArg _ below)⟩
  rintro rfl
  obtain ⟨c, rest, shape⟩ := List.exists_cons_of_ne_nil acceptable.nonempty
  have relative := acceptable.relative
  rw [Path.parts_eq_partsOf acceptable.file_relative] at below
  rw [shape] at below relative
  refine Path.partsOf_ne_nil (c := c) ?_ below
  rintro rfl
  exact relative rfl

theorem parts_ne_root (known : cache.entryPath identifier = .ok path) :
    Path.parts path ≠ [.root] := by
  obtain ⟨names, some_name, below⟩ := parts_of_entryPath known
  rw [below]
  intro same
  obtain ⟨front, last, rfl⟩ := (List.eq_nil_or_concat' names).resolve_left some_name
  have ends := congrArg List.getLast? same
  simp at ends

theorem asksForDirectory_entryPath (known : cache.entryPath identifier = .ok path) :
    FileTree.asksForDirectory path = false := by
  obtain ⟨acceptable, rfl⟩ := entryPath_eq_ok_iff.1 known
  obtain ⟨front, last, segments⟩ :=
    Text.exists_splitOn_concat Path.isSeparator identifier.toList
  have dotted : Text.splitOn Path.isSeparator ('.' :: extension.toList) =
      ('.' :: extension.toList) :: [] := by decide
  rw [FileTree.asksForDirectory_within acceptable.file_relative, Identifier.fileOf,
    FileTree.asksForDirectory_eq (Text.splitOn_append segments dotted)]
  cases last <;> simp [extension]

theorem parts_injective {others : List (List Char)} :
    cache.parts ++ names.map .name = cache.parts ++ others.map .name ↔ names = others := by
  rw [List.append_cancel_left_eq]
  exact List.map_inj_right fun _ _ same => PathPart.name.inj same

theorem destination_parts (files : FileTree) (names : List (List Char)) :
    FileTree.destination files.workingDirectory (cache.parts ++ names.map .name) =
      cache.top files ++ names := by
  rw [FileTree.destination_append, FileTree.destination_names]
  rfl

/-- The path of an entry leads to its place, if it can be followed. -/
theorem locate_entryPath_iff {place : Location} (known : cache.entryPath identifier = .ok path)
    (below : Path.parts path = cache.parts ++ names.map .name) (some_name : names ≠ []) :
    files.locate path = .ok place ↔
      files.Reaches (cache.parts ++ names.map .name) ∧ place = cache.top files ++ names := by
  rw [FileTree.locate_eq_ok_iff_reaches (by simp [below, some_name])
    (asksForDirectory_entryPath known), FileTree.target, below, destination_parts]

/-! ### Entries -/

/-- The parts of the path of an entry. -/
def entryParts? (cache : Cache) (identifier : String) : Option (List PathPart) :=
  (cache.entryPath identifier).toOption.map Path.parts

/-- The file of an artifact. -/
def fileOf (artifact : Artifact) : FileContent :=
  .text (record artifact).write

/-- The content of the file of an entry. -/
def entry? (cache : Cache) (files : FileTree) (identifier : String) : Option FileContent :=
  (cache.entryPath identifier).toOption.bind fun path => (files.read path).toOption

/-- What reading gives where an artifact was written: its code, and what the schema of the cache makes
of its metadata. -/
def decoded (cache : Cache) (identifier : String) (artifact : Artifact) :
    Except CacheError Artifact :=
  match Metadata.ofJsonFields cache.schema [codeField] (recordFields artifact) with
  | .ok metadata => .ok ⟨identifier, metadata, cache.strategy, artifact.code⟩
  | .error fault => .error (.corrupt identifier (.metadata fault))

theorem entryParts?_of_entryPath (known : cache.entryPath identifier = .ok path) :
    cache.entryParts? identifier = some (Path.parts path) := by
  rw [entryParts?, known]
  rfl

theorem entryParts?_of_names (known : cache.entryPath identifier = .ok path)
    (below : Path.parts path = cache.parts ++ names.map .name) :
    cache.entryParts? identifier = some (cache.parts ++ names.map .name) := by
  rw [entryParts?_of_entryPath known, below]

/-- The file of an entry is at its place, if the way to it can be followed. -/
theorem read_entryPath_iff {content : FileContent} (known : cache.entryPath identifier = .ok path)
    (below : Path.parts path = cache.parts ++ names.map .name) (some_name : names ≠ []) :
    files.read path = .ok content ↔
      files.Reaches (cache.parts ++ names.map .name) ∧
        files.file? (cache.top files ++ names) = some content := by
  rw [FileTree.read_eq_ok_iff, FileTree.look_eq_ok_iff, FileTree.file?_eq_some_iff]
  simp only [locate_entryPath_iff known below some_name, and_assoc, exists_and_left, exists_eq_left]

/-! ### What a call does -/

/-- What writing does: it fails and at most leaves directories behind, or a file with the record of the
artifact is set at the place of the entry. The directories come on the way to the entry. -/
theorem write_cases (cache : Cache) (artifact : Artifact) (files : FileTree) :
    ∃ made : List Location,
      (∀ place ∈ made, files.entry? place = none ∧
        ∃ path front, cache.entryPath artifact.identifier = .ok path ∧
          front <+: Path.parts path ∧
          place = FileTree.destination files.workingDirectory front) ∧
      (((∃ error, (cache.write artifact files).2 = .error error) ∧
          (cache.write artifact files).1 = files.withDirectories made) ∨
        ∃ path place, (cache.write artifact files).2 = .ok path ∧
          codeField ∉ artifact.metadata.keys ∧ cache.entryPath artifact.identifier = .ok path ∧
          (files.withDirectories made).locate path = .ok place ∧
          FileTree.entry? (files.withDirectories made) place ≠ some .directory ∧
          (cache.write artifact files).1 =
            (files.withDirectories made).set place (.file (fileOf artifact))) := by
  have unchanged : files = files.withDirectories [] := by simp [FileTree.withDirectories]
  rw [write]
  split
  · exact ⟨[], by simp, .inl ⟨⟨_, rfl⟩, unchanged⟩⟩
  next free =>
  cases known : cache.entryPath artifact.identifier with
  | error error => exact ⟨[], by simp, .inl ⟨⟨error, rfl⟩, unchanged⟩⟩
  | ok path =>
      obtain ⟨made, way, fresh⟩ := files.makeDirectories_fst (Path.parent path)
      have on_way : ∀ place ∈ made, files.entry? place = none ∧
          ∃ path' front, Except.ok path = Except.ok (ε := CacheError) path' ∧
            front <+: Path.parts path' ∧
            place = FileTree.destination files.workingDirectory front := by
        intro place member
        obtain ⟨free, front, before, same⟩ := fresh place member
        rw [Path.parts_parent path (parts_ne_root known)] at before
        have above := List.dropLast_prefix (Path.parts path)
        exact ⟨free, path, front, rfl, before.trans above, same⟩
      refine ⟨made, on_way, ?_⟩
      rcases outcome : files.makeDirectories (Path.parent path) with ⟨tree, result⟩
      rw [outcome] at way
      obtain rfl : tree = files.withDirectories made := way
      simp only [outcome]
      -- Directories that were made stay, also where the entry cannot be written.
      cases result with
      | error fault => exact .inl ⟨⟨_, rfl⟩, rfl⟩
      | ok _ =>
          cases placed : (files.withDirectories made).place path
              (.text (record artifact).write) with
          | error fault =>
              simp only [placed]
              exact .inl ⟨⟨_, rfl⟩, trivial⟩
          | ok tree =>
              obtain ⟨place, found, file, rfl⟩ := FileTree.place_eq_ok placed
              simp only [placed]
              exact .inr ⟨path, place, rfl, Fields.contains_eq_false_iff.1 (Bool.eq_false_iff.2 free),
                rfl, found, file, rfl⟩

/-- What removing does: it fails, or finds nothing, or the file is erased. -/
theorem remove_cases (cache : Cache) (identifier : String) (files : FileTree) :
    ((∃ error, (cache.remove identifier files).2 = .error error) ∧
        (cache.remove identifier files).1 = files) ∨
      ∃ path, cache.entryPath identifier = .ok path ∧
        (((cache.remove identifier files).2 = .ok false ∧
            (cache.remove identifier files).1 = files ∧ files.removeFile path = .error .noEntry) ∨
          ∃ place content, (cache.remove identifier files).2 = .ok true ∧
            files.locate path = .ok place ∧ files.entry? place = some (.file content) ∧
            (cache.remove identifier files).1 = files.erase place) := by
  rw [remove]
  cases known : cache.entryPath identifier with
  | error error => exact .inl ⟨⟨error, rfl⟩, rfl⟩
  | ok path =>
      cases removed : files.removeFile path with
      | ok tree =>
          obtain ⟨place, content, found, file, rfl⟩ := FileTree.removeFile_eq_ok_iff.1 removed
          refine .inr ⟨path, rfl, .inr ⟨place, content, ?_, found, file, ?_⟩⟩ <;> simp only [removed]
      | error fault =>
          simp only [removed]
          split
          · next same => cases same
          · next same =>
              cases same
              exact .inr ⟨path, rfl, .inl ⟨rfl, rfl, removed⟩⟩
          · exact .inl ⟨⟨_, rfl⟩, rfl⟩

/-! ### What is read -/

theorem contains_iff (cache : Cache) (files : FileTree) (identifier : String) :
    cache.contains files identifier = true ↔ (cache.entry? files identifier).isSome = true := by
  rw [contains, entry?]
  cases cache.entryPath identifier with
  | error error => simp [Except.toOption]
  | ok path =>
      change files.isFile path = true ↔ (files.read path).toOption.isSome = true
      rw [FileTree.isFile_iff]
      simp only [← FileTree.read_eq_ok_iff]
      cases files.read path <;> simp [Except.toOption]

/-- What is removed was there. -/
theorem remove_eq_true_iff (cache : Cache) (files : FileTree) (identifier : String) :
    (cache.remove identifier files).2 = .ok true ↔ cache.contains files identifier = true := by
  rw [contains, remove]
  cases cache.entryPath identifier with
  | error error => simp
  | ok path =>
      simp only [FileTree.isFile_iff_removeFile]
      cases files.removeFile path with
      | ok after => simp
      | error fault =>
          simp only [reduceCtorEq, exists_false, iff_false]
          split <;> simp_all

/-- What is read where an artifact is in the file of an identifier. -/
theorem read_of_entry (free : codeField ∉ artifact.metadata.keys)
    (stored : cache.entry? files identifier = some (fileOf artifact)) :
    cache.read files identifier = cache.decoded identifier artifact := by
  obtain ⟨path, known, content⟩ := Option.bind_eq_some_iff.1 stored
  rw [toOption_eq_some_iff] at known content
  rw [read, known, decoded]
  simp only [bind, Except.bind, content, fileOf, readRecord_record cache.schema free]
  cases Metadata.ofJsonFields cache.schema [codeField] (recordFields artifact) <;> rfl

/-- Nothing is read where no file is. -/
theorem read_of_entry_none (nothing : cache.entry? files identifier = none) :
    ∃ error, cache.read files identifier = .error error := by
  rw [read]
  cases known : cache.entryPath identifier with
  | error error => exact ⟨error, rfl⟩
  | ok path =>
      unfold entry? at nothing
      rw [known] at nothing
      change (files.read path).toOption = none at nothing
      cases stored : files.read path with
      | ok content =>
          rw [stored] at nothing
          cases nothing
      | error fault =>
          simp only [bind, Except.bind, stored]
          cases fault <;> exact ⟨_, rfl⟩

end Cache

end DocPress
