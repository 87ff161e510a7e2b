import DocPress.Cache
import DocPress.Proofs.Path
import DocPress.Store

/-!
Which files stores of documents and caches look at. The check of an identifier is made on it with an
extension behind it, which makes a name of whatever it ends with. So the check covers the file that
is named as the document, but not the directory of that name with its index.
-/

namespace DocPress

namespace Identifier

variable {identifier extension : List Char}

/-! ### Accepted identifiers -/

/-- An identifier that has a file below any directory that it is taken from. -/
structure IsAcceptable (identifier extension : List Char) : Prop where
  nonempty : identifier ≠ []
  relative : identifier.head? ≠ some '/'
  slashes : '\\' ∉ identifier
  below : Path.IsBelow [] (fileOf identifier extension)

/-- The check of identifiers accepts those that are acceptable, and no others. -/
theorem toPath_eq_ok_iff {path : List Char} :
    toPath identifier extension = .ok path ↔
      IsAcceptable identifier extension ∧ path = fileOf identifier extension := by
  rw [toPath]
  split
  · rename_i refused
    constructor
    · intro same
      cases same
    · rintro ⟨acceptable, rfl⟩
      simp [acceptable.nonempty, acceptable.relative, acceptable.slashes,
        Path.isBelow_nil_iff.mp acceptable.below] at refused
  · rename_i passed
    simp only [Bool.or_eq_true, not_or, Bool.not_eq_true', Bool.not_eq_false, List.isEmpty_iff,
      decide_eq_true_eq, List.contains_iff_mem] at passed
    obtain ⟨⟨⟨nonempty, relative⟩, slashes⟩, names⟩ := passed
    have acceptable : IsAcceptable identifier extension :=
      ⟨nonempty, relative, slashes, Path.isBelow_nil_iff.mpr names⟩
    constructor
    · intro same
      exact ⟨acceptable, (Except.ok.inj same).symm⟩
    · rintro ⟨-, rfl⟩
      rfl

theorem toPath_of_isAcceptable (acceptable : IsAcceptable identifier extension) :
    toPath identifier extension = .ok (fileOf identifier extension) :=
  toPath_eq_ok_iff.mpr ⟨acceptable, rfl⟩

theorem toPath_of_not_isAcceptable (other : ¬ IsAcceptable identifier extension) :
    ∃ fault, toPath identifier extension = .error fault := by
  cases checked : toPath identifier extension with
  | ok path => exact absurd (toPath_eq_ok_iff.mp checked).1 other
  | error fault => exact ⟨fault, rfl⟩

theorem head?_fileOf_ne (extension : List Char) (nonempty : identifier ≠ [])
    (relative : identifier.head? ≠ some '/') :
    (fileOf identifier extension).head? ≠ some '/' := by
  cases identifier with
  | nil => exact absurd rfl nonempty
  | cons c text => exact relative

theorem IsAcceptable.file_relative (acceptable : IsAcceptable identifier extension) :
    (fileOf identifier extension).head? ≠ some '/' :=
  head?_fileOf_ne extension acceptable.nonempty acceptable.relative

/-- The file of an acceptable identifier has names only. -/
theorem IsAcceptable.isName (acceptable : IsAcceptable identifier extension) :
    (Path.partsOf true (Text.splitOn Path.isSeparator
      (fileOf identifier extension))).all Path.isName = true := by
  rw [← Path.parts_eq_partsOf acceptable.file_relative]
  exact Path.isBelow_nil_iff.mp acceptable.below

/-- The dot in front of an extension does not separate parts. -/
theorem splitOn_dot (extension : List Char) :
    ∃ first rest, Text.splitOn Path.isSeparator ('.' :: extension) = ('.' :: first) :: rest := by
  rw [Text.splitOn, if_neg (by decide)]
  cases parts : Text.splitOn Path.isSeparator extension with
  | nil => exact absurd parts (Text.splitOn_ne_nil extension)
  | cons first rest => exact ⟨first, rest, rfl⟩

/-- All parts of an acceptable identifier but the last are names, and so are the parts of an
extension that has slashes. -/
theorem IsAcceptable.front_isName (acceptable : IsAcceptable identifier extension)
    {front : List (List Char)} {last first : List Char} {rest : List (List Char)}
    (segments : Text.splitOn Path.isSeparator identifier = front ++ [last])
    (dotted : Text.splitOn Path.isSeparator ('.' :: extension) = ('.' :: first) :: rest) :
    (Path.partsOf true front).all Path.isName = true ∧
      (Path.partsOf false rest).all Path.isName = true := by
  have names := acceptable.isName
  rw [fileOf, Text.splitOn_append segments dotted, Path.partsOf_append, List.all_append,
    Path.partsOf, List.all_append] at names
  simp only [Bool.and_eq_true] at names
  exact ⟨names.1, names.2.2⟩

/-- The index of a directory has a name. -/
theorem index_isName {first : List Char} {rest : List (List Char)}
    (dotted : Text.splitOn Path.isSeparator ('.' :: extension) = ('.' :: first) :: rest)
    (plain : (Path.partsOf false rest).all Path.isName = true) (anywhere : Bool) :
    (Path.partsOf anywhere (Text.splitOn Path.isSeparator
      (fileOf "index".toList extension))).all Path.isName = true := by
  have index : Text.splitOn Path.isSeparator "index".toList = [] ++ ["index".toList] := by decide
  rw [fileOf, Text.splitOn_append index dotted, List.nil_append, Path.partsOf, List.all_append,
    plain, Bool.and_true, Path.part?_isName_iff]
  constructor <;> simp

end Identifier

/-! ### Where stores and caches look -/

/-- The paths at which a store looks for a document, in this order. -/
def Store.paths (store : Store) (identifier : String) : Except StoreError (List (List Char)) :=
  (store.directPath identifier).map fun direct => [direct, store.indexPath identifier]

/-- A path adds nothing but names to a directory and leads to no place outside of it. -/
structure Path.StaysIn (directory path : List Char) : Prop where
  below : Path.IsBelow directory path
  inside : ∀ (files : FileTree) (place : Location), files.locate path = .ok place →
    ∃ top, files.follow files.workingDirectory (Path.parts directory) = .ok top ∧ top <+: place

/-- A path stays in a directory when it is below it. -/
theorem Path.staysIn_iff {directory path : List Char} :
    Path.StaysIn directory path ↔ Path.IsBelow directory path :=
  ⟨fun stays => stays.below, fun below =>
    ⟨below, fun files _ found => files.isPrefix_of_locate below found⟩⟩

/-- The file of an acceptable identifier stays in the directory that it is taken from. -/
theorem Identifier.IsAcceptable.staysIn {identifier extension : List Char}
    (acceptable : IsAcceptable identifier extension) (directory : List Char) :
    Path.StaysIn directory (Path.within directory (fileOf identifier extension)) := by
  rw [Path.staysIn_iff, Path.isBelow_iff (Path.parts_within acceptable.file_relative directory),
    Path.partsOf_of_isName acceptable.isName]
  exact acceptable.isName

namespace Store

variable {store : Store} {identifier : String}

/-- A store looks for files at its paths, and takes the first that is there. -/
theorem locate_eq (store : Store) (identifier : String) (files : FileTree) :
    store.locate files identifier = (store.paths identifier).map (·.find? files.isFile) := by
  rw [locate, paths]
  cases store.directPath identifier with
  | error fault => rfl
  | ok direct =>
      show (if files.isFile direct then _ else _) =
        Except.ok (List.find? files.isFile [direct, store.indexPath identifier])
      rw [List.find?_cons, List.find?_cons, List.find?_nil]
      cases files.isFile direct with
      | true => rfl
      | false => cases files.isFile (store.indexPath identifier) <;> rfl

/-- What a store reads is the file at one of its paths. -/
theorem resolve_reads {files : FileTree} {document : Document}
    (resolved : store.resolve files identifier = .ok document) :
    ∃ paths path, store.paths identifier = .ok paths ∧ path ∈ paths ∧
      files.readText path = .ok document.source := by
  rw [resolve, locate_eq] at resolved
  cases known : store.paths identifier with
  | error fault => rw [known] at resolved; cases resolved
  | ok paths =>
      rw [known] at resolved
      cases present : paths.find? files.isFile with
      | none => simp only [Except.map, bind, Except.bind, present] at resolved; cases resolved
      | some path =>
          simp only [Except.map, bind, Except.bind, present] at resolved
          cases content : files.readText path with
          | error fault => rw [content] at resolved; cases resolved
          | ok source =>
              rw [content] at resolved
              cases resolved
              exact ⟨paths, path, rfl, List.mem_of_find?_eq_some present, content⟩

/-- The identifier ends with two dots, or it is a dot and the store has no directory of its own. -/
def LeadsOut (store : Store) (identifier : String) : Prop :=
  (Text.splitOn Path.isSeparator identifier.toList).getLast? = some ['.', '.'] ∨
    (store.root = "" ∧ identifier = ".")

/-- An identifier leads out when its last segment does. -/
theorem leadsOut_iff {front : List (List Char)} {last : List Char}
    (segments : Text.splitOn Path.isSeparator identifier.toList = front ++ [last]) :
    store.LeadsOut identifier ↔
      last = ['.', '.'] ∨
        (store.root.toList.isEmpty && front.isEmpty) = true ∧ last = ['.'] := by
  rw [LeadsOut, segments, List.getLast?_concat, Option.some.injEq]
  refine or_congr Iff.rfl ?_
  constructor
  · rintro ⟨blank, rfl⟩
    have single : [['.']] = front ++ [last] := segments
    cases front with
    | nil =>
        rw [blank]
        exact ⟨rfl, (List.cons.inj single).1.symm⟩
    | cons part more => exact absurd (List.cons.inj single).2.symm (by simp)
  · rintro ⟨blank, rfl⟩
    rw [Bool.and_eq_true, List.isEmpty_iff, List.isEmpty_iff] at blank
    obtain ⟨no_root, rfl⟩ := blank
    exact ⟨String.toList_inj.mp no_root,
      String.toList_inj.mp (Text.splitOn_eq_singleton segments)⟩

/-- Next to the file that is named as an acceptable document, the index in the directory of that
name stays in the directory of the store unless the identifier leads out of it. -/
theorem indexPath_staysIn_iff
    (acceptable : Identifier.IsAcceptable identifier.toList store.extension.toList) :
    Path.StaysIn store.root.toList (store.indexPath identifier) ↔
      ¬ store.LeadsOut identifier := by
  obtain ⟨front, last, segments⟩ :=
    Text.exists_splitOn_concat Path.isSeparator identifier.toList
  obtain ⟨first, rest, dotted⟩ := Identifier.splitOn_dot store.extension.toList
  obtain ⟨front_names, rest_names⟩ := acceptable.front_isName segments dotted
  have index_relative :
      (Identifier.fileOf "index".toList store.extension.toList).head? ≠ some '/' :=
    Identifier.head?_fileOf_ne _ (by decide) (by decide)
  have split := Path.parts_within index_relative
    (Path.within store.root.toList identifier.toList)
  rw [Path.parts_within acceptable.relative, segments, List.append_assoc] at split
  rw [Path.staysIn_iff, indexPath, Path.isBelow_iff split, List.all_append,
    Identifier.index_isName dotted rest_names, Bool.and_true, Path.partsOf_append, List.all_append,
    Path.partsOf_of_isName front_names, front_names, Bool.true_and, Path.partsOf, Path.partsOf,
    List.append_nil, Path.part?_isName_iff, leadsOut_iff segments, not_or]

/-- An acceptable identifier has two paths it may be read from. -/
theorem paths_of_isAcceptable
    (acceptable : Identifier.IsAcceptable identifier.toList store.extension.toList) :
    store.paths identifier =
      .ok [Path.within store.root.toList
        (Identifier.fileOf identifier.toList store.extension.toList),
        store.indexPath identifier] := by
  rw [paths, directPath, Identifier.toPath_of_isAcceptable acceptable]
  rfl

theorem paths_of_not_isAcceptable
    (other : ¬ Identifier.IsAcceptable identifier.toList store.extension.toList) :
    store.paths identifier = .error (.invalidIdentifier identifier) := by
  obtain ⟨fault, refused⟩ := Identifier.toPath_of_not_isAcceptable other
  rw [paths, directPath, refused]
  rfl

end Store

namespace Cache

variable {cache : Cache} {identifier : String}

/-- An acceptable identifier has the path of its entry. -/
theorem entryPath_of_isAcceptable
    (acceptable : Identifier.IsAcceptable identifier.toList extension.toList) :
    cache.entryPath identifier =
      .ok (Path.within cache.directory.toList
        (Identifier.fileOf identifier.toList extension.toList)) := by
  rw [entryPath, Identifier.toPath_of_isAcceptable acceptable]

theorem entryPath_of_not_isAcceptable
    (other : ¬ Identifier.IsAcceptable identifier.toList extension.toList) :
    cache.entryPath identifier = .error (.invalidIdentifier identifier) := by
  obtain ⟨fault, refused⟩ := Identifier.toPath_of_not_isAcceptable other
  rw [entryPath, refused]

end Cache

/-! ### The bounds of stores and caches -/

namespace Store

/-- Stores and caches reject the identifiers that are not acceptable, and look in their own
directories for the others: a cache always, and a store unless the identifier leads out of its
directory. -/
theorem paths_staysIn_iff (store : Store) (cache : Cache) (identifier : String) :
    (∀ files, store.locate files identifier =
      (store.paths identifier).map (·.find? files.isFile)) ∧
    (∀ files document, store.resolve files identifier = .ok document →
      ∃ paths path, store.paths identifier = .ok paths ∧ path ∈ paths ∧
        files.readText path = .ok document.source) ∧
    ((Identifier.IsAcceptable identifier.toList store.extension.toList ∧
        ∃ paths, store.paths identifier = .ok paths ∧
          ((∀ path ∈ paths, Path.StaysIn store.root.toList path) ↔
            ¬ store.LeadsOut identifier)) ∨
      (¬ Identifier.IsAcceptable identifier.toList store.extension.toList ∧
        store.paths identifier = .error (.invalidIdentifier identifier))) ∧
    ((Identifier.IsAcceptable identifier.toList Cache.extension.toList ∧
        ∃ path, cache.entryPath identifier = .ok path ∧
          Path.StaysIn cache.directory.toList path) ∨
      (¬ Identifier.IsAcceptable identifier.toList Cache.extension.toList ∧
        cache.entryPath identifier = .error (.invalidIdentifier identifier))) := by
  refine ⟨store.locate_eq identifier, fun _ _ => resolve_reads, ?stored, ?cached⟩
  case stored =>
    by_cases acceptable : Identifier.IsAcceptable identifier.toList store.extension.toList
    · refine .inl ⟨acceptable, _, paths_of_isAcceptable acceptable, ?_⟩
      rw [List.forall_mem_cons, List.forall_mem_singleton, indexPath_staysIn_iff acceptable]
      exact and_iff_right (acceptable.staysIn _)
    · exact .inr ⟨acceptable, paths_of_not_isAcceptable acceptable⟩
  case cached =>
    by_cases acceptable : Identifier.IsAcceptable identifier.toList Cache.extension.toList
    · exact .inl ⟨acceptable, _, Cache.entryPath_of_isAcceptable acceptable,
        acceptable.staysIn _⟩
    · exact .inr ⟨acceptable, Cache.entryPath_of_not_isAcceptable acceptable⟩

/-- The document of the two dots is the index next to the directory of the store. -/
theorem resolve_up_outside :
    Store.resolve ⟨"content", "mdx"⟩
      { entries := [(["content".toList], .directory),
          (["index.mdx".toList], .file (.text "outside"))] } ".." = .ok ⟨"..", "outside"⟩ ∧
    ∃ paths path, Store.paths ⟨"content", "mdx"⟩ ".." = .ok paths ∧ path ∈ paths ∧
      ¬ Path.StaysIn "content".toList path := by
  refine ⟨by rfl, _, Store.indexPath ⟨"content", "mdx"⟩ "..", rfl, by simp, ?_⟩
  have added : Path.parts (Store.indexPath ⟨"content", "mdx"⟩ "..") =
      Path.parts "content".toList ++ [.up, .name "index.mdx".toList] := by decide
  rw [Path.staysIn_iff, Path.isBelow_iff added]
  decide

end Store

end DocPress
