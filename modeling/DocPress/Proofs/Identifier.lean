import DocPress.Proofs.Path.Below
import DocPress.Proofs.Store

/-!
Identifiers that are made of names. Where names are joined to an identifier, its file has the same
names with the extension behind the last, and from such a file the names are taken again, but for an
index, which stands for the directory around it.
-/

namespace DocPress.Identifier

variable {front dirs : List (List Char)} {last stem extension root : List Char}

/-! ### Files of identifiers -/

/-- A text with an extension is a file name. -/
theorem isFileName_fileOf (slash : '/' ∉ stem) (slash' : '/' ∉ extension)
    (some_extension : extension ≠ []) (undotted : '.' ∉ extension) :
    Path.IsFileName (fileOf stem extension) := by
  have some_char := List.length_pos_iff.2 some_extension
  refine ⟨by simp [fileOf], ?here, ?up, ?slash⟩
  case here =>
    intro same
    have length := congrArg List.length same
    simp only [fileOf, List.length_append, List.length_cons, List.length_nil] at length
    omega
  case up =>
    intro same
    have length := congrArg List.length same
    simp only [fileOf, List.length_append, List.length_cons, List.length_nil] at length
    have alone : stem = [] := List.length_eq_zero_iff.1 (by omega)
    rw [alone] at same
    exact undotted ((List.cons.inj same).2 ▸ List.mem_cons_self)
  case slash =>
    intro inside
    rcases List.mem_append.1 inside with own | behind
    · exact slash own
    · exact slash' ((List.mem_cons.1 behind).resolve_left (by decide))

/-- Names that are joined are an identifier whose file has these names. -/
theorem isAcceptable_join (some_last : last ≠ [])
    (proper : ∀ name ∈ front ++ [fileOf last extension], Path.IsFileName name)
    (backslash : ∀ name ∈ front ++ [last], '\\' ∉ name) :
    IsAcceptable (Path.join (front ++ [last])) extension ∧
      Path.parts (fileOf (Path.join (front ++ [last])) extension) =
        (front ++ [fileOf last extension]).map .name := by
  have file : fileOf (Path.join (front ++ [last])) extension =
      Path.join (front ++ [fileOf last extension]) :=
    Path.join_concat_append front last _
  have filled : ∀ name ∈ front ++ [last], name ≠ [] ∧ '/' ∉ name := by
    rw [List.forall_mem_append, List.forall_mem_singleton] at proper ⊢
    refine ⟨fun name member => ⟨(proper.1 name member).nonempty, (proper.1 name member).slash⟩,
      some_last, fun slash => ?_⟩
    exact proper.2.slash (List.mem_append_left _ slash)
  rw [file, Path.parts_join proper]
  refine ⟨⟨Path.join_ne_nil_of_filled (by simp) filled, Path.head?_join_ne_of_filled filled,
    Path.not_mem_join (by decide) backslash, front ++ [fileOf last extension], ?_⟩, rfl⟩
  rw [file, Path.parts_join proper]
  rfl

/-! ### Identifiers of files -/

/-- A text that neither starts nor ends with a slash has none to trim. -/
theorem trimSlashes_eq_self {text : List Char} (starts : text.head? ≠ some '/')
    (ends : text.getLast? ≠ some '/') : trimSlashes text = text := by
  have front : text.dropWhile (· = '/') = text := by
    cases text with
    | nil => rfl
    | cons c rest =>
        refine List.dropWhile_cons_of_neg ?_
        simpa using starts
  rw [trimSlashes, front]
  rcases List.eq_nil_or_concat' text with rfl | ⟨before, last, rfl⟩
  · rfl
  · refine Text.dropEndWhile_concat_of_neg ?_ before
    simpa using ends

/-- The names that the identifier of a file is made of: an index that is not at the top stands for the
directory around it. -/
def spelling (dirs : List (List Char)) (stem : List Char) : List (List Char) :=
  if stem = "index".toList ∧ dirs ≠ [] then dirs else dirs ++ [stem]

theorem spelling_subset : spelling dirs stem ⊆ dirs ++ [stem] := by
  rw [spelling]
  split
  · exact List.subset_append_left _ _
  · exact List.Subset.refl _

theorem spelling_ne_nil : spelling dirs stem ≠ [] := by
  rw [spelling]
  split
  · next index => exact index.2
  · simp

/-- The text that names spell, with slashes for backslashes and none at its ends. -/
def ofNames? (names : List (List Char)) : Option (List Char) :=
  let text := trimSlashes ((Path.join names).map fun c => if c = '\\' then '/' else c)
  if text.isEmpty then none else some text

/-- Names without backslashes spell what they are joined to. -/
theorem ofNames?_eq_join {names : List (List Char)} (some_name : names ≠ [])
    (filled : ∀ name ∈ names, name ≠ [] ∧ '/' ∉ name) (backslash : ∀ name ∈ names, '\\' ∉ name) :
    ofNames? names = some (Path.join names) := by
  have nonempty := Path.join_ne_nil_of_filled some_name filled
  rw [ofNames?, Path.map_join_eq_self backslash,
    trimSlashes_eq_self (Path.head?_join_ne_of_filled filled)
      (Path.getLast?_join_ne_of_filled filled)]
  simp [nonempty]

/-- The identifier of a file below the root is what its names spell. -/
theorem ofPath?_pathBelow {file : List Char} (filled : root ≠ [])
    (proper : ∀ name ∈ dirs ++ [file], Path.IsFileName name) :
    ofPath? root (FileTree.pathBelow root (dirs ++ [file])) =
      ofNames? (spelling dirs (Path.splitExtension file).1) := by
  have parts : Path.parts (Path.join (dirs ++ [file])) = dirs.map .name ++ [.name file] := by
    rw [Path.parts_join proper, List.map_append]
    rfl
  rw [ofPath?, Path.stripRoot?_pathBelow proper (by simp) filled, Option.getD_some,
    Path.stem?_of_parts parts, Path.parent_join proper]
  have text : (if (Path.join dirs).isEmpty then (Path.splitExtension file).1
      else if (Path.splitExtension file).1 = "index".toList then Path.join dirs
      else Path.join dirs ++ '/' :: (Path.splitExtension file).1) =
        Path.join (spelling dirs (Path.splitExtension file).1) := by
    by_cases top : dirs = []
    · subst top
      simp [spelling, Path.join]
    · have nonempty : Path.join dirs ≠ [] :=
        Path.join_ne_nil top fun name member => proper name (List.mem_append_left _ member)
      rw [if_neg (by simp [nonempty]), spelling]
      by_cases index : (Path.splitExtension file).1 = "index".toList
      · rw [if_pos index, if_pos ⟨index, top⟩]
      · rw [if_neg index, if_neg fun both => index both.1, Path.join_append top (by simp),
          Path.join_singleton]
  rw [ofNames?, ← text]
  rfl

end DocPress.Identifier
