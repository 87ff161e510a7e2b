import DocPress.Proofs.FileTree.Listing
import DocPress.Proofs.Identifier

/-!
Listing a store of documents. Every document is listed that a file has, and a listed identifier leads
back to a file of its own unless the names of the file hold backslashes, or another file is where the
identifier leads first: the index of a directory, when the identifier ends in the name of an index.
-/

namespace DocPress

namespace Store

variable {store : Store} {files : FileTree} {identifier : String} {dirs names : List (List Char)}
  {stem : List Char} {content : FileContent}

/-! ### The documents of files -/

/-- The name of the file that has a stem and the extension of documents. -/
def fileName (store : Store) (stem : List Char) : List Char :=
  Identifier.fileOf stem store.extension.toList

/-- The identifier of a file below the directory of a store. -/
theorem identifierOf?_eq_some_iff (filled : store.root ≠ "") (some_name : names ≠ [])
    (proper : ∀ name ∈ names, Path.IsFileName name) :
    store.identifierOf? (FileTree.pathBelow store.root.toList names) = some identifier ↔
      ∃ dirs stem, names = dirs ++ [store.fileName stem] ∧ stem ≠ [] ∧
        '.' ∉ store.extension.toList ∧
        Identifier.ofNames? (Identifier.spelling dirs stem) = some identifier.toList := by
  obtain ⟨dirs, file, rfl⟩ := (List.eq_nil_or_concat' names).resolve_left some_name
  have nonempty : store.root.toList ≠ [] := fun none => filled (String.toList_inj.1 none)
  rw [identifierOf?, Path.extension?_pathBelow proper, Identifier.ofPath?_pathBelow nonempty proper,
    Option.ite_none_right_eq_some]
  constructor
  · rintro ⟨same, spelled⟩
    obtain ⟨stem, cut⟩ : ∃ stem, Path.splitExtension file = (stem, some store.extension.toList) :=
      ⟨_, Prod.ext rfl same⟩
    obtain ⟨rfl, some_stem, undotted⟩ := Path.splitExtension_eq_iff.1 cut
    refine ⟨dirs, stem, rfl, some_stem, undotted, ?_⟩
    rw [cut] at spelled
    obtain ⟨text, found, rfl⟩ := Option.map_eq_some_iff.1 spelled
    rw [found, String.toList_ofList]
  · rintro ⟨dirs', stem, whole, some_stem, undotted, spelled⟩
    obtain ⟨rfl, single⟩ := List.append_inj' whole rfl
    obtain rfl : file = store.fileName stem := List.singleton_inj.1 single
    have cut : Path.splitExtension (store.fileName stem) = (stem, some store.extension.toList) :=
      Path.splitExtension_eq_iff.2 ⟨rfl, some_stem, undotted⟩
    refine ⟨congrArg Prod.snd cut, ?_⟩
    rw [cut, spelled, Option.map_some, String.ofList_toList]

/-- Removing repetitions loses nothing. -/
theorem mem_eraseReps {texts : List String} {text : String} : text ∈ texts.eraseReps ↔ text ∈ texts := by
  have onward (first : String) (rest done : List String) :
      text ∈ List.eraseRepsBy.loop (· == ·) first rest done ↔
        text = first ∨ text ∈ rest ∨ text ∈ done := by
    induction rest generalizing first done with
    | nil => simp [List.eraseRepsBy.loop, or_comm]
    | cons next rest ih =>
        rw [List.eraseRepsBy.loop]
        split
        · next same =>
            rw [ih, eq_of_beq same]
            grind
        · rw [ih]
          grind
  cases texts with
  | nil => rfl
  | cons first rest =>
      rw [List.eraseReps, List.eraseRepsBy, onward]
      simp

/-- A file below the directory of a store. -/
def Holds (store : Store) (files : FileTree) (names : List (List Char)) (content : FileContent) : Prop :=
  files.entry? (files.target store.root.toList ++ names) = some (.file content)

instance (store : Store) (files : FileTree) (names : List (List Char)) (content : FileContent) :
    Decidable (store.Holds files names content) :=
  inferInstanceAs (Decidable (_ = _))

/-- The files below a directory are those of its listing. -/
theorem mem_filesUnder_iff_holds (sound : files.IsSound) :
    names ∈ files.filesUnder (files.target store.root.toList) ↔
      ∃ content, store.Holds files names content := by
  rw [FileTree.mem_filesUnder_iff]
  constructor
  · rintro ⟨content, member⟩
    exact ⟨content, sound.seen _ member⟩
  · rintro ⟨content, here⟩
    exact ⟨content, FileTree.mem_entries_of_file here⟩

/-- The listing of a store shows the identifiers of its files. -/
theorem exists_identifiers (sound : files.IsSound)
    (known : files.look store.root.toList = .ok .directory) :
    ∃ identifiers, store.identifiers files = .ok identifiers ∧ ∀ identifier,
      identifier ∈ identifiers ↔ ∃ names content, store.Holds files names content ∧
        store.identifierOf? (FileTree.pathBelow store.root.toList names) = some identifier := by
  have listed := FileTree.filesBelow_eq_ok_iff.2 (.inl ⟨known, rfl⟩)
  refine ⟨_, by rw [identifiers, listed], fun identifier => ?_⟩
  rw [mem_eraseReps, List.mem_mergeSort, List.mem_filterMap]
  constructor
  · rintro ⟨path, member, same⟩
    obtain ⟨names, below, rfl⟩ := List.mem_map.1 member
    obtain ⟨content, holds⟩ := (mem_filesUnder_iff_holds sound).1 below
    exact ⟨names, content, holds, same⟩
  · rintro ⟨names, content, holds, same⟩
    exact ⟨_, List.mem_map_of_mem ((mem_filesUnder_iff_holds sound).2 ⟨content, holds⟩), same⟩

/-! ### Where identifiers lead -/

/-- The file that is taken for a document has the identifier of the document. -/
def LeadsBack (store : Store) (files : FileTree) (identifier : String) : Prop :=
  ∃ path names content, store.locate files identifier = .ok (some path) ∧
    files.locate path = .ok (files.target store.root.toList ++ names) ∧
    store.Holds files names content ∧
    store.identifierOf? (FileTree.pathBelow store.root.toList names) = some identifier

/-- A file whose names without the extension hold no backslash has the identifier. -/
def IsSpelled (store : Store) (files : FileTree) (identifier : String) : Prop :=
  ∃ dirs stem content, store.Holds files (dirs ++ [store.fileName stem]) content ∧
    store.identifierOf? (FileTree.pathBelow store.root.toList (dirs ++ [store.fileName stem])) =
      some identifier ∧
    ∀ name ∈ dirs ++ [stem], '\\' ∉ name

/-- The index of a directory is where the identifier leads first, since the identifier ends in the name
of an index. -/
def IsShadowed (store : Store) (files : FileTree) (identifier : String) : Prop :=
  ∃ dirs content, dirs ≠ [] ∧ identifier.toList = Path.join (dirs ++ ["index".toList]) ∧
    store.Holds files (dirs ++ [store.fileName "index".toList]) content

theorem target_of_parts {path : List Char}
    (parts : Path.parts path = Path.parts store.root.toList ++ names.map .name) :
    files.target path = files.target store.root.toList ++ names := by
  rw [FileTree.target, parts, FileTree.destination_append, FileTree.destination_names]
  rfl

/-- A path of names below the directory of a store leads to the files of these names. -/
theorem look_eq_ok_iff_holds {path : List Char} (sound : files.IsSound)
    (known : files.look store.root.toList = .ok .directory)
    (parts : Path.parts path = Path.parts store.root.toList ++ names.map .name)
    (some_name : names ≠ []) (plain : FileTree.asksForDirectory path = false) :
    files.look path = .ok (.file content) ↔ store.Holds files names content := by
  have filled : Path.parts path ≠ [] := by simp [parts, some_name]
  simp only [FileTree.look_eq_ok_iff, FileTree.locate_eq_ok_iff_reaches filled plain,
    target_of_parts parts, parts]
  constructor
  · rintro ⟨place, ⟨-, rfl⟩, here⟩
    exact here
  · intro holds
    exact ⟨_, ⟨sound.reaches known holds, rfl⟩, holds⟩

/-- The names of a file below the directory of a store are proper. -/
theorem Holds.proper (sound : files.IsSound) (holds : store.Holds files names content) :
    ∀ name ∈ names, Path.IsFileName name := fun name member =>
  sound.proper _ (FileTree.mem_entries_of_file holds) name (List.mem_append_right _ member)

/-- What comes behind the dot of a file name holds no slash. -/
theorem slash_extension (proper : Path.IsFileName (store.fileName stem)) :
    '/' ∉ store.extension.toList := fun inside =>
  proper.slash (List.mem_append_right _ (List.mem_cons_of_mem _ inside))

theorem isFileName_fileName (slash : '/' ∉ stem) (slash' : '/' ∉ store.extension.toList)
    (some_extension : store.extension ≠ "") (undotted : '.' ∉ store.extension.toList) :
    Path.IsFileName (store.fileName stem) :=
  Identifier.isFileName_fileOf slash slash' (by simpa using some_extension) undotted

theorem Holds.some_name (known : files.look store.root.toList = .ok .directory)
    (holds : store.Holds files names content) : names ≠ [] := by
  rintro rfl
  obtain ⟨place, found, directory⟩ := FileTree.look_eq_ok_iff.1 known
  rw [Holds, List.append_nil, ← FileTree.target_of_locate found, directory] at holds
  cases holds

theorem directPath_eq_ok_iff {path : List Char} :
    store.directPath identifier = .ok path ↔
      Identifier.IsAcceptable identifier.toList store.extension.toList ∧
        path = Path.within store.root.toList
          (Identifier.fileOf identifier.toList store.extension.toList) := by
  rw [directPath]
  by_cases acceptable : Identifier.IsAcceptable identifier.toList store.extension.toList
  · rw [Identifier.toPath_of_isAcceptable acceptable]
    simp [acceptable, eq_comm]
  · obtain ⟨fault, refused⟩ := Identifier.toPath_of_not_isAcceptable acceptable
    simp [refused, acceptable]

/-- The file that is named as the document, where the names are between the slashes of the identifier. -/
theorem directPath_join {front : List (List Char)} {last : List Char}
    (text : identifier.toList = Path.join (front ++ [last])) (some_last : last ≠ [])
    (proper : ∀ name ∈ front ++ [store.fileName last], Path.IsFileName name)
    (backslash : ∀ name ∈ front ++ [last], '\\' ∉ name) :
    ∃ path, store.directPath identifier = .ok path ∧
      Path.parts path = Path.parts store.root.toList ++
        (front ++ [store.fileName last]).map .name ∧
      FileTree.asksForDirectory path = false := by
  obtain ⟨acceptable, parts⟩ := Identifier.isAcceptable_join some_last proper backslash
  have file : Identifier.fileOf identifier.toList store.extension.toList =
      Path.join (front ++ [store.fileName last]) := by
    rw [text]
    exact Path.join_concat_append front last _
  rw [← text] at acceptable
  refine ⟨_, directPath_eq_ok_iff.2 ⟨acceptable, rfl⟩, ?_, ?_⟩
  · rw [file, Path.parts_within_names proper]
  · rw [FileTree.asksForDirectory_within acceptable.file_relative, file]
    exact FileTree.asksForDirectory_join (by simp) proper

/-- The index of a directory, where the names are between the slashes of the identifier. -/
theorem indexPath_join (text : identifier.toList = Path.join dirs)
    (proper : ∀ name ∈ dirs ++ [store.fileName "index".toList], Path.IsFileName name) :
    Path.parts (store.indexPath identifier) = Path.parts store.root.toList ++
        (dirs ++ [store.fileName "index".toList]).map .name ∧
      FileTree.asksForDirectory (store.indexPath identifier) = false := by
  rw [List.forall_mem_append] at proper
  have index : store.indexPath identifier =
      Path.within (Path.within store.root.toList (Path.join dirs))
        (Path.join [store.fileName "index".toList]) := by
    rw [indexPath, text, Path.join_singleton]
    rfl
  rw [index]
  constructor
  · rw [Path.parts_within_names proper.2, Path.parts_within_names proper.1, List.append_assoc,
      List.map_append]
  · rw [FileTree.asksForDirectory_within (Path.head?_join_ne proper.2)]
    exact FileTree.asksForDirectory_join (by simp) proper.2

/-- A document is at its own path, or else at that of the index of its directory. -/
theorem locate_eq_some_iff {path : List Char} :
    store.locate files identifier = .ok (some path) ↔
      ∃ direct, store.directPath identifier = .ok direct ∧
        (files.isFile direct = true ∧ path = direct ∨
          files.isFile direct = false ∧ files.isFile (store.indexPath identifier) = true ∧
            path = store.indexPath identifier) := by
  rw [locate]
  cases store.directPath identifier with
  | error fault => simp [bind, Except.bind]
  | ok direct =>
      cases here : files.isFile direct with
      | true =>
          simp only [bind, Except.bind, here, if_true, pure, Except.pure, Except.ok.injEq,
            Option.some.injEq, exists_eq_left', Bool.true_eq_false, true_and, false_and, or_false]
          exact eq_comm
      | false =>
          cases there : files.isFile (store.indexPath identifier) with
          | true =>
              simp only [bind, Except.bind, here, there, pure, Except.pure, Except.ok.injEq, if_true,
                Option.some.injEq, exists_eq_left', Bool.false_eq_true, if_false, true_and, false_and,
                false_or]
              exact eq_comm
          | false => simp [bind, Except.bind, pure, Except.pure, here, there]

theorem isFile_of_locate {path : List Char} (located : store.locate files identifier = .ok (some path)) :
    files.isFile path = true := by
  obtain ⟨direct, -, ⟨file, rfl⟩ | ⟨-, file, rfl⟩⟩ := locate_eq_some_iff.1 located
  · exact file
  · exact file

/-- A path of names that leads to a file is what a document is taken from. -/
theorem leadsBack_of_locate {path : List Char}
    (located : store.locate files identifier = .ok (some path))
    (parts : Path.parts path = Path.parts store.root.toList ++ names.map .name)
    (looked : files.look path = .ok (.file content)) (holds : store.Holds files names content)
    (own : store.identifierOf? (FileTree.pathBelow store.root.toList names) = some identifier) :
    store.LeadsBack files identifier := by
  obtain ⟨place, found, -⟩ := FileTree.look_eq_ok_iff.1 looked
  have target := (FileTree.target_of_locate found).trans (target_of_parts parts)
  exact ⟨path, names, content, located, target ▸ found, holds, own⟩

/-- The identifier of a file without backslashes in its names. -/
theorem identifierOf?_fileName (filled : store.root ≠ "")
    (proper : ∀ name ∈ dirs ++ [store.fileName stem], Path.IsFileName name)
    (backslash : ∀ name ∈ dirs ++ [stem], '\\' ∉ name) :
    store.identifierOf? (FileTree.pathBelow store.root.toList (dirs ++ [store.fileName stem])) =
        some identifier ↔
      stem ≠ [] ∧ '.' ∉ store.extension.toList ∧
        identifier.toList = Path.join (Identifier.spelling dirs stem) := by
  have slash : ∀ name ∈ dirs ++ [stem], '/' ∉ name := by
    rw [List.forall_mem_append, List.forall_mem_singleton] at proper ⊢
    exact ⟨fun name member => (proper.1 name member).slash,
      fun inside => proper.2.slash (List.mem_append_left _ inside)⟩
  have spelled (some_stem : stem ≠ []) :
      Identifier.ofNames? (Identifier.spelling dirs stem) =
        some (Path.join (Identifier.spelling dirs stem)) := by
    refine Identifier.ofNames?_eq_join Identifier.spelling_ne_nil (fun name member => ?_)
      fun name member => backslash name (Identifier.spelling_subset member)
    refine ⟨?_, slash name (Identifier.spelling_subset member)⟩
    rcases List.mem_append.1 (Identifier.spelling_subset member) with front | last
    · exact (proper name (List.mem_append_left _ front)).nonempty
    · rwa [List.mem_singleton.1 last]
  rw [identifierOf?_eq_some_iff filled (by simp) proper]
  constructor
  · rintro ⟨dirs', stem', whole, some_stem, undotted, text⟩
    obtain ⟨rfl, single⟩ := List.append_inj' whole rfl
    obtain rfl : stem = stem' := List.append_cancel_right (List.singleton_inj.1 single)
    rw [spelled some_stem, Option.some.injEq] at text
    exact ⟨some_stem, undotted, text.symm⟩
  · rintro ⟨some_stem, undotted, text⟩
    exact ⟨dirs, stem, rfl, some_stem, undotted, by rw [spelled some_stem, text]⟩

/-- An identifier that a file spells leads back unless it is shadowed. -/
theorem leadsBack_of_isSpelled (filled : store.root ≠ "") (some_extension : store.extension ≠ "")
    (sound : files.IsSound) (known : files.look store.root.toList = .ok .directory)
    (spelled : store.IsSpelled files identifier) (clear : ¬ store.IsShadowed files identifier) :
    store.LeadsBack files identifier := by
  obtain ⟨dirs, stem, content, holds, own, backslash⟩ := spelled
  have proper := holds.proper sound
  obtain ⟨some_stem, undotted, text⟩ := (identifierOf?_fileName filled proper backslash).1 own
  rw [Identifier.spelling] at text
  by_cases index : stem = "index".toList ∧ dirs ≠ []
  case neg =>
    -- the file is named as the document
    rw [if_neg index] at text
    obtain ⟨direct, path, parts, asks⟩ := directPath_join text some_stem proper backslash
    have looked := (look_eq_ok_iff_holds sound known parts (by simp) asks).2 holds
    have located := locate_eq_some_iff.2
      ⟨direct, path, .inl ⟨FileTree.isFile_iff.2 ⟨content, looked⟩, rfl⟩⟩
    exact leadsBack_of_locate located parts looked holds own
  case pos =>
    -- the file is the index of a directory, unless another is named as the document
    rw [if_pos index] at text
    obtain ⟨rfl, some_name⟩ := index
    obtain ⟨front, last, rfl⟩ := (List.eq_nil_or_concat' dirs).resolve_left some_name
    have last_proper := proper last (by simp)
    have proper' : ∀ name ∈ front ++ [store.fileName last], Path.IsFileName name := by
      rw [List.forall_mem_append, List.forall_mem_singleton] at proper ⊢
      exact ⟨fun name member => proper.1 name (List.mem_append_left _ member),
        isFileName_fileName last_proper.slash (slash_extension proper.2) some_extension undotted⟩
    have backslash' : ∀ name ∈ front ++ [last], '\\' ∉ name := fun name member =>
      backslash name (List.mem_append_left _ member)
    obtain ⟨direct, path, parts, asks⟩ :=
      directPath_join text last_proper.nonempty proper' backslash'
    obtain ⟨index_parts, index_asks⟩ := indexPath_join text proper
    have looked := (look_eq_ok_iff_holds sound known index_parts (by simp) index_asks).2 holds
    cases other : files.isFile direct with
    | true =>
        obtain ⟨first, first_looked⟩ := FileTree.isFile_iff.1 other
        have first_holds := (look_eq_ok_iff_holds sound known parts (by simp) asks).1 first_looked
        have located := locate_eq_some_iff.2 ⟨direct, path, .inl ⟨other, rfl⟩⟩
        refine leadsBack_of_locate located parts first_looked first_holds ?_
        refine (identifierOf?_fileName filled proper' backslash').2
          ⟨last_proper.nonempty, undotted, ?_⟩
        rw [Identifier.spelling, if_neg, text]
        rintro ⟨rfl, some_front⟩
        exact clear ⟨front, first, some_front, text, first_holds⟩
    | false =>
        have located := locate_eq_some_iff.2
          ⟨direct, path, .inr ⟨other, FileTree.isFile_iff.2 ⟨content, looked⟩, rfl⟩⟩
        exact leadsBack_of_locate located index_parts looked holds own

/-- What is looked at as a document has a name with the extension of documents. It is below the directory
of the store where its identifier leads, which holds no backslash. -/
theorem exists_parts_of_locate {path : List Char} (some_extension : store.extension ≠ "")
    (slash : '/' ∉ store.extension.toList) (undotted : '.' ∉ store.extension.toList)
    (located : store.locate files identifier = .ok (some path)) :
    ∃ front stem, Path.parts path =
        (Path.parts store.root.toList ++ front) ++ [.name (store.fileName stem)] ∧
      (∀ name, PathPart.name name ∈ front → '\\' ∉ name) ∧ '\\' ∉ stem := by
  obtain ⟨direct, named, choice⟩ := locate_eq_some_iff.1 located
  obtain ⟨acceptable, rfl⟩ := directPath_eq_ok_iff.1 named
  obtain ⟨front, last, segments⟩ :=
    Text.exists_splitOn_concat Path.isSeparator identifier.toList
  have dotted : Text.splitOn Path.isSeparator ('.' :: store.extension.toList) =
      ['.' :: store.extension.toList] := by
    refine Text.splitOn_eq_self (Path.isSeparator_of_not_mem ?_)
    simp [slash]
  have backslash : ∀ segment ∈ front ++ [last], '\\' ∉ segment := fun segment member inside =>
    acceptable.slashes (Path.join_splitOn identifier.toList ▸
      Path.mem_join_of_mem (segments ▸ member) inside)
  have clean (first : Bool) {some_segments : List (List Char)}
      (own : some_segments ⊆ front ++ [last]) (name : List Char)
      (part : PathPart.name name ∈ Path.partsOf first some_segments) : '\\' ∉ name := by
    intro inside
    obtain ⟨segment, member, found⟩ :=
      (Path.exists_name_of_mem_segments (by decide) first).2 ⟨name, part, inside⟩
    exact backslash segment (own member) found
  have alone {stem : List Char} (own : '/' ∉ stem) (first : Bool) :
      Path.partsOf first [store.fileName stem] = [.name (store.fileName stem)] :=
    Path.partsOf_names (List.forall_mem_singleton.2
      (isFileName_fileName own slash some_extension undotted)) first
  rcases choice with ⟨-, rfl⟩ | ⟨-, -, rfl⟩
  · -- the path of the identifier itself
    refine ⟨_, last, ?_, clean store.root.toList.isEmpty (List.subset_append_left front [last]),
      backslash last (by simp)⟩
    have last_slash : '/' ∉ last := by
      refine Path.not_mem_of_mem_splitOn (?_ : last ∈ Text.splitOn _ identifier.toList)
      simp [segments]
    have split : Text.splitOn Path.isSeparator
        (Identifier.fileOf identifier.toList store.extension.toList) =
          front ++ [store.fileName last] :=
      Text.splitOn_append segments dotted
    rw [Path.parts_within acceptable.file_relative, split, Path.partsOf_append, alone last_slash,
      List.append_assoc]
  · -- the index of the directory that the identifier leads to
    refine ⟨_, "index".toList, ?_, clean store.root.toList.isEmpty (List.Subset.refl _), by decide⟩
    have index : Path.IsFileName (store.fileName "index".toList) :=
      isFileName_fileName (by decide) slash some_extension undotted
    have split : Text.splitOn Path.isSeparator (store.fileName "index".toList) =
        [store.fileName "index".toList] :=
      Text.splitOn_eq_self (Path.isSeparator_of_not_mem index.slash)
    change Path.parts (Path.within (Path.within store.root.toList identifier.toList)
      (store.fileName "index".toList)) = _
    rw [Path.parts_within index.head?_ne, split, alone (by decide),
      Path.parts_within acceptable.relative, segments]

/-- An identifier that leads back is one that a file spells. -/
theorem isSpelled_of_leadsBack (filled : store.root ≠ "") (some_extension : store.extension ≠ "")
    (sound : files.IsSound) (known : files.look store.root.toList = .ok .directory)
    (leads : store.LeadsBack files identifier) : store.IsSpelled files identifier := by
  obtain ⟨path, names, content, located, found, holds, own⟩ := leads
  have proper := holds.proper sound
  have some_name := holds.some_name known
  obtain ⟨dirs, stem, rfl, -, undotted, -⟩ :=
    (identifierOf?_eq_some_iff filled some_name proper).1 own
  have slash := slash_extension (proper (store.fileName stem) (by simp))
  obtain ⟨front, last, parts, backslash, stem_plain⟩ :=
    exists_parts_of_locate some_extension slash undotted located
  have target : files.target path =
      FileTree.destination (files.target store.root.toList) front ++ [store.fileName last] := by
    rw [FileTree.target, parts, FileTree.destination_append, FileTree.destination_append]
    rfl
  have reached := FileTree.target_of_locate found
  rw [target, ← List.append_assoc] at reached
  obtain ⟨around, single⟩ := List.append_inj' reached rfl
  obtain rfl : stem = last := List.append_cancel_right (List.singleton_inj.1 single)
  refine ⟨dirs, stem, content, holds, own, ?_⟩
  rw [List.forall_mem_append, List.forall_mem_singleton]
  exact ⟨fun name member => backslash name (FileTree.mem_of_destination_eq around.symm name member),
    stem_plain⟩

/-- What is read is the file named as the document before any other, and an index in its place has the
identifier of its directory. -/
theorem not_isShadowed_of_leadsBack (filled : store.root ≠ "") (sound : files.IsSound)
    (known : files.look store.root.toList = .ok .directory)
    (leads : store.LeadsBack files identifier) : ¬ store.IsShadowed files identifier := by
  rintro ⟨dirs, first, some_dir, text, first_holds⟩
  obtain ⟨path, names, content, located, found, -, own⟩ := leads
  obtain ⟨direct, named, choice⟩ := locate_eq_some_iff.1 located
  have plain := (directPath_eq_ok_iff.1 named).1.slashes
  have proper := first_holds.proper sound
  have backslash : ∀ name ∈ dirs ++ ["index".toList], '\\' ∉ name := fun name member inside =>
    plain (text ▸ Path.mem_join_of_mem member inside)
  obtain ⟨direct', named', parts, asks⟩ := directPath_join text (by decide) proper backslash
  obtain rfl := Except.ok.inj (named.symm.trans named')
  have looked := (look_eq_ok_iff_holds sound known parts (by simp) asks).2 first_holds
  have first_file := FileTree.isFile_iff.2 ⟨first, looked⟩
  obtain rfl : path = direct := by
    rcases choice with ⟨-, same⟩ | ⟨other, -, -⟩
    · exact same
    · rw [first_file] at other
      cases other
  have reached := FileTree.target_of_locate found
  rw [target_of_parts parts, List.append_cancel_left_eq] at reached
  subst reached
  obtain ⟨-, -, own_text⟩ := (identifierOf?_fileName filled proper backslash).1 own
  rw [Identifier.spelling, if_pos ⟨rfl, some_dir⟩, text, Path.join_append some_dir (by simp)] at own_text
  exact absurd (congrArg List.length own_text) (by simp)

/-! ### What a listing leads to -/

/-- The document is read, from a file with the identifier of the document. -/
def Resolves (store : Store) (files : FileTree) (identifier : String) : Prop :=
  ∃ path names source, store.locate files identifier = .ok (some path) ∧
    files.locate path = .ok (files.target store.root.toList ++ names) ∧
    store.Holds files names (.text source) ∧
    store.identifierOf? (FileTree.pathBelow store.root.toList names) = some identifier ∧
    store.resolve files identifier = .ok ⟨identifier, source⟩

/-- The file that is taken for a document is no text. -/
def FindsBinary (store : Store) (files : FileTree) (identifier : String) : Prop :=
  ∃ path bytes, store.locate files identifier = .ok (some path) ∧
    files.read path = .ok (.binary bytes)

/-- A document that leads back is read unless its file is no text. -/
theorem resolves_iff :
    store.Resolves files identifier ↔
      store.LeadsBack files identifier ∧ ¬ store.FindsBinary files identifier := by
  constructor
  · rintro ⟨path, names, source, located, found, holds, own, -⟩
    refine ⟨⟨path, names, .text source, located, found, holds, own⟩, ?_⟩
    rintro ⟨path', bytes, located', read⟩
    cases located.symm.trans located'
    have looked := FileTree.read_eq_ok_iff.2 (FileTree.look_eq_ok_iff.2 ⟨_, found, holds⟩)
    cases looked.symm.trans read
  · rintro ⟨⟨path, names, content, located, found, holds, own⟩, text⟩
    have read := FileTree.read_eq_ok_iff.2 (FileTree.look_eq_ok_iff.2 ⟨_, found, holds⟩)
    cases content with
    | binary bytes => exact absurd ⟨path, bytes, located, read⟩ text
    | text source =>
        refine ⟨path, names, source, located, found, holds, own, ?_⟩
        rw [resolve, located]
        simp only [bind, Except.bind, FileTree.readText, read]
        rfl

/-- In a directory of documents as there are on a disk, the listing shows the identifiers of all files
with the extension of documents. A listed identifier resolves exactly when a file without backslashes
in its names has the identifier, no index is found in its place, and what is found is a text. -/
theorem listed_resolves_iff (some_extension : store.extension ≠ "") (sound : files.IsSound)
    (known : files.look store.root.toList = .ok .directory) :
    ∃ identifiers, store.identifiers files = .ok identifiers ∧
      (∀ identifier, identifier ∈ identifiers ↔ ∃ names content,
        store.Holds files names content ∧
          store.identifierOf? (FileTree.pathBelow store.root.toList names) = some identifier) ∧
      ∀ identifier ∈ identifiers, store.Resolves files identifier ↔
        store.IsSpelled files identifier ∧ ¬ store.IsShadowed files identifier ∧
          ¬ store.FindsBinary files identifier := by
  have filled : store.root ≠ "" := by
    intro blank
    obtain ⟨place, found, -⟩ := FileTree.look_eq_ok_iff.1 known
    exact (FileTree.locate_eq_ok_iff.1 found).2.1 (by rw [blank]; rfl)
  obtain ⟨identifiers, listed, each⟩ := exists_identifiers sound known
  refine ⟨identifiers, listed, each, fun identifier _ => ?_⟩
  rw [resolves_iff, ← and_assoc]
  refine and_congr_left fun _ => ⟨fun leads => ?_, fun spelled => ?_⟩
  · exact ⟨isSpelled_of_leadsBack filled some_extension sound known leads,
      not_isShadowed_of_leadsBack filled sound known leads⟩
  · exact leadsBack_of_isSpelled filled some_extension sound known spelled.1 spelled.2

/-! ### A shelf -/

/-- A store of documents. -/
def library : Store := ⟨"content", "mdx"⟩

/-- Documents of which one is the index in a directory that is called as an index, and one has a
backslash in its name. -/
def shelf : FileTree where
  entries :=
    [(["content".toList], .directory),
      (["content".toList, "notes".toList], .directory),
      (["content".toList, "notes".toList, "index.mdx".toList], .file (.text "Notes")),
      (["content".toList, "notes".toList, "index".toList], .directory),
      (["content".toList, "notes".toList, "index".toList, "index.mdx".toList], .file (.text "Register")),
      (["content".toList, "tea\\cup.mdx".toList], .file (.text "Tea"))]

theorem isSound_shelf : shelf.IsSound := by
  decide +kernel

theorem look_shelf : shelf.look library.root.toList = .ok .directory := by
  decide +kernel

/-- The index of a directory is listed, and it is what the identifier leads to. -/
theorem listed_resolves_shelf :
    ∃ identifiers, library.identifiers shelf = .ok identifiers ∧ "notes" ∈ identifiers ∧
      library.Resolves shelf "notes" := by
  obtain ⟨identifiers, listed, each, resolves⟩ :=
    @listed_resolves_iff library shelf (by decide) isSound_shelf look_shelf
  have holds : library.Holds shelf (["notes".toList] ++ [library.fileName "index".toList])
      (.text "Notes") := by decide +kernel
  have own : library.identifierOf? (FileTree.pathBelow library.root.toList
      (["notes".toList] ++ [library.fileName "index".toList])) = some "notes" := by decide +kernel
  have member := (each "notes").2 ⟨_, _, holds, own⟩
  refine ⟨identifiers, listed, member, (resolves _ member).2 ⟨?spelled, ?clear, ?text⟩⟩
  case spelled => exact ⟨_, _, _, holds, own, by decide⟩
  case clear =>
    rintro ⟨dirs, content, some_dir, text, -⟩
    rw [Path.join_append some_dir (by simp)] at text
    have slash : '/' ∈ "notes".toList := by simp [text]
    exact absurd slash (by decide)
  case text =>
    rintro ⟨path, bytes, located, read⟩
    have known : library.locate shelf "notes" = .ok (some "content/notes/index.mdx".toList) := by
      decide +kernel
    cases known.symm.trans located
    have text : shelf.read "content/notes/index.mdx".toList = .ok (.text "Notes") := by
      decide +kernel
    cases text.symm.trans read

/-- A listed document is read from the file of another, and another listed document is not found. -/
theorem resolve_shelf_ne :
    (∃ identifiers, library.identifiers shelf = .ok identifiers ∧ "notes/index" ∈ identifiers ∧
      "tea/cup" ∈ identifiers) ∧
    library.resolve shelf "notes/index" = .ok ⟨"notes/index", "Notes"⟩ ∧
    (∀ names, library.Holds shelf names (.text "Notes") →
      library.identifierOf? (FileTree.pathBelow library.root.toList names) = some "notes") ∧
    library.resolve shelf "tea/cup" = .error (.notFound "tea/cup") := by
  refine ⟨?listed, by decide +kernel, ?other, by decide +kernel⟩
  case listed =>
    obtain ⟨identifiers, listed, each⟩ := exists_identifiers isSound_shelf look_shelf
    refine ⟨identifiers, listed, (each _).2 ?_, (each _).2 ?_⟩
    · exact ⟨["notes".toList, "index".toList, "index.mdx".toList], .text "Register",
        by decide +kernel, by decide +kernel⟩
    · exact ⟨["tea\\cup.mdx".toList], .text "Tea", by decide +kernel, by decide +kernel⟩
  case other =>
    intro names holds
    have single : ∀ found ∈ shelf.entries, found.2 = .file (.text "Notes") →
        found.1 = shelf.target library.root.toList ++ ["notes".toList, "index.mdx".toList] := by
      decide +kernel
    have same := single _ (FileTree.mem_entries_of_file holds) rfl
    rw [List.append_cancel_left_eq] at same
    subst same
    decide +kernel

end Store

end DocPress
