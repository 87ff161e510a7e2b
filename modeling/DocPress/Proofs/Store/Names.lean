import DocPress.Proofs.FileTree.Change
import DocPress.Proofs.Store.Listing

/-!
The names on the paths of identifiers. The file of a document and that of its entry in a cache are below
folders of the same names and differ in the extension, and the index of a document is one folder deeper.
So a document that is found has an entry whose folders can have their names.
-/

namespace DocPress

/-- The text of a part that is a name. -/
def PathPart.text? : PathPart → Option (List Char)
  | .name text => some text
  | _ => none

/-- An extension that is one name by itself. -/
structure Path.IsExtension (extension : List Char) : Prop where
  nonempty : extension ≠ []
  slash : '/' ∉ extension
  dot : '.' ∉ extension

namespace Identifier

variable {identifier extension other : List Char}

/-! ### Folders and the last name -/

/-- The names in front of the last slash of an identifier. -/
def folders (identifier : List Char) : List (List Char) :=
  (Path.partsOf true (Text.splitOn Path.isSeparator identifier).dropLast).filterMap PathPart.text?

/-- What is behind the last slash of an identifier. -/
def ending (identifier : List Char) : List Char :=
  (Text.splitOn Path.isSeparator identifier).getLast (Text.splitOn_ne_nil identifier)

theorem splitOn_eq (identifier : List Char) :
    Text.splitOn Path.isSeparator identifier =
      (Text.splitOn Path.isSeparator identifier).dropLast ++ [ending identifier] :=
  (List.dropLast_concat_getLast _).symm

theorem slash_ending (identifier : List Char) : '/' ∉ ending identifier :=
  Path.not_mem_of_mem_splitOn (List.getLast_mem (Text.splitOn_ne_nil identifier))

theorem filterMap_text? (names : List (List Char)) :
    (names.map PathPart.name).filterMap PathPart.text? = names := by
  rw [List.filterMap_map]
  exact List.filterMap_some

theorem splitOn_fileOf (slash : '/' ∉ extension) (identifier : List Char) :
    Text.splitOn Path.isSeparator (fileOf identifier extension) =
      (Text.splitOn Path.isSeparator identifier).dropLast ++ [fileOf (ending identifier) extension] := by
  have dotted : Text.splitOn Path.isSeparator ('.' :: extension) = ['.' :: extension] := by
    refine Text.splitOn_eq_self (Path.isSeparator_of_not_mem ?_)
    simp [slash]
  exact Text.splitOn_append (splitOn_eq identifier) dotted

theorem isFileName_ending (plain : Path.IsExtension extension) (identifier : List Char) :
    Path.IsFileName (fileOf (ending identifier) extension) :=
  isFileName_fileOf (slash_ending identifier) plain.slash plain.nonempty plain.dot

/-- What is in front of the last slash of an acceptable identifier are names. -/
theorem IsAcceptable.partsOf_folders (acceptable : IsAcceptable identifier extension) (first : Bool) :
    Path.partsOf first (Text.splitOn Path.isSeparator identifier).dropLast =
      (folders identifier).map .name := by
  obtain ⟨leading, more, dotted⟩ := splitOn_dot extension
  have plain := (acceptable.front_isName (splitOn_eq identifier) dotted).1
  rw [Path.partsOf_of_isName plain, folders]
  obtain ⟨names, same⟩ := Path.isName_all_iff.1 plain
  rw [same, filterMap_text?]

/-- The file of an acceptable identifier is in its folders, and so is the file with another extension. -/
theorem IsAcceptable.parts_fileOf (acceptable : IsAcceptable identifier extension)
    (plain : Path.IsExtension other) :
    Path.parts (fileOf identifier other) =
      (folders identifier ++ [fileOf (ending identifier) other]).map .name := by
  have relative := head?_fileOf_ne other acceptable.nonempty acceptable.relative
  rw [Path.parts_eq_partsOf relative, splitOn_fileOf plain.slash, Path.partsOf_append,
    acceptable.partsOf_folders, List.map_append]
  congr 1
  exact Path.partsOf_names (List.forall_mem_singleton.2 (isFileName_ending plain identifier)) _

/-- Whether an identifier is acceptable does not depend on the extension. -/
theorem IsAcceptable.of_extension (acceptable : IsAcceptable identifier extension)
    (plain : Path.IsExtension other) : IsAcceptable identifier other :=
  ⟨acceptable.nonempty, acceptable.relative, acceptable.slashes, _, acceptable.parts_fileOf plain⟩

/-- Files with different extensions have different names. -/
theorem extension_eq_of_fileOf_eq {stem stem' : List Char} (dot : '.' ∉ extension) (dot' : '.' ∉ other)
    (same : fileOf stem extension = fileOf stem' other) : extension = other := by
  have behind (text : List Char) {extension : List Char} (dot : '.' ∉ extension) :
      (fileOf text extension).reverse.takeWhile (· ≠ '.') = extension.reverse := by
    have clear : ∀ c ∈ extension.reverse, decide (c ≠ '.') = true := by
      intro c member
      refine decide_eq_true ?_
      rintro rfl
      exact dot (List.mem_reverse.1 member)
    rw [fileOf, List.reverse_append, List.reverse_cons, List.append_assoc,
      List.takeWhile_append_of_pos clear]
    simp
  rw [← List.reverse_inj, ← behind stem dot, same, behind stem' dot']

end Identifier

/-- A path that is taken from a directory holds its characters. -/
theorem Path.subset_within (directory path : List Char) : path ⊆ within directory path := by
  intro c member
  rw [within]
  split
  · exact member
  · split
    · exact List.mem_append_right _ member
    · exact List.mem_append_right _ (List.mem_cons_of_mem _ member)

theorem Path.directory_subset_within {path : List Char} (relative : path.head? ≠ some '/')
    (directory : List Char) : directory ⊆ within directory path := by
  rw [within]
  split
  · next absolute =>
      have blank : directory = [] := by simpa [relative] using absolute
      rw [blank]
      exact List.nil_subset path
  · split <;> exact List.subset_append_left _ _

namespace Store

variable {store : Store} {files : FileTree} {identifier : String} {path : List Char}

/-! ### The paths of documents -/

/-- A document is in its folders below the directory of the store. -/
theorem parts_directPath (plain : Path.IsExtension store.extension.toList)
    (named : store.directPath identifier = .ok path) :
    Path.parts path = Path.parts store.root.toList ++
        (Identifier.folders identifier.toList ++
          [store.fileName (Identifier.ending identifier.toList)]).map .name ∧
      FileTree.asksForDirectory path = false := by
  obtain ⟨acceptable, rfl⟩ := directPath_eq_ok_iff.1 named
  constructor
  · rw [Path.parts_within acceptable.file_relative, Path.partsOf_of_isName acceptable.isName,
      ← Path.parts_eq_partsOf acceptable.file_relative, acceptable.parts_fileOf plain]
    rfl
  · have proper := Identifier.isFileName_ending plain identifier.toList
    rw [FileTree.asksForDirectory_within acceptable.file_relative,
      FileTree.asksForDirectory_eq (Identifier.splitOn_fileOf plain.slash identifier.toList)]
    simp [proper.nonempty, proper.ne_here]

/-- The index of a document is below its folders and where the last name leads from there. -/
theorem parts_indexPath (filled : store.root ≠ "") (plain : Path.IsExtension store.extension.toList)
    (acceptable : Identifier.IsAcceptable identifier.toList store.extension.toList) :
    Path.parts (store.indexPath identifier) = Path.parts store.root.toList ++
        ((Identifier.folders identifier.toList).map .name ++
          (Path.part? false (Identifier.ending identifier.toList)).toList ++
          [.name (store.fileName "index".toList)]) ∧
      FileTree.asksForDirectory (store.indexPath identifier) = false := by
  have index : Path.IsFileName (store.fileName "index".toList) :=
    Identifier.isFileName_fileOf (by decide) plain.slash plain.nonempty plain.dot
  have nonempty : store.root.toList ≠ [] := fun none => filled (String.toList_inj.1 none)
  have whole : store.indexPath identifier =
      Path.within (Path.within store.root.toList identifier.toList) (store.fileName "index".toList) :=
    rfl
  have alone : Text.splitOn Path.isSeparator (store.fileName "index".toList) =
      [] ++ [store.fileName "index".toList] :=
    Text.splitOn_eq_self (Path.isSeparator_of_not_mem index.slash)
  rw [whole]
  constructor
  · have inner : (store.root.toList.isEmpty &&
        (Text.splitOn Path.isSeparator identifier.toList).dropLast.isEmpty) = false := by
      simp [nonempty]
    rw [Path.parts_within index.head?_ne, Path.parts_within acceptable.relative, alone,
      Identifier.splitOn_eq, Path.partsOf_append, acceptable.partsOf_folders, inner, List.nil_append,
      Path.partsOf_names (List.forall_mem_singleton.2 index)]
    simp [Path.partsOf]
  · rw [FileTree.asksForDirectory_within index.head?_ne, FileTree.asksForDirectory_eq alone,
      Bool.or_eq_false_iff, List.isEmpty_eq_false_iff, decide_eq_false_iff_not]
    exact ⟨index.nonempty, index.ne_here⟩

/-- The index of an identifier that does not lead out is below folders too. -/
theorem parts_indexPath_of_level (filled : store.root ≠ "")
    (plain : Path.IsExtension store.extension.toList)
    (acceptable : Identifier.IsAcceptable identifier.toList store.extension.toList)
    (level : ¬ store.LeadsOut identifier) :
    ∃ more, Path.parts (store.indexPath identifier) = Path.parts store.root.toList ++
      (Identifier.folders identifier.toList ++ more ++ [store.fileName "index".toList]).map .name := by
  rw [(parts_indexPath filled plain acceptable).1]
  have not_up : Identifier.ending identifier.toList ≠ ['.', '.'] := fun up =>
    level ((leadsOut_iff (Identifier.splitOn_eq identifier.toList)).2 (.inl up))
  have names := (Path.part?_isName_iff false (Identifier.ending identifier.toList)).2
    ⟨not_up, fun both => absurd both.1 (by decide)⟩
  obtain ⟨more, same⟩ := Path.isName_all_iff.1 names
  exact ⟨more, by rw [same, List.map_append, List.map_append]; rfl⟩

end Store

end DocPress
