import Mathlib.Data.List.Nodup
import DocPress.Proofs.Cache.Run
import DocPress.Proofs.FileTree.Listing
import DocPress.Proofs.Identifier

/-!
Listing a cache. A listing takes the identifiers from the paths of files, and several identifiers can
have the same file; besides, the file of a single dot is listed as two dots. So the identifiers that
were written are listed exactly when each of them is written as the names of its file.
-/

namespace DocPress

namespace Identifier

/-- An identifier that is written as the names of its file: what is between its slashes is always
there, and it is no single dot. -/
def IsPlain (identifier : List Char) : Prop :=
  ∀ segment ∈ Text.splitOn Path.isSeparator identifier, segment ≠ [] ∧ segment ≠ ['.']

instance (identifier : List Char) : Decidable (IsPlain identifier) :=
  inferInstanceAs (Decidable (∀ segment ∈ _, _))

end Identifier

namespace Cache

variable {cache : Cache} {identifier : String} {path : List Char} {files : FileTree}
  {artifact : Artifact} {names : List (List Char)} {log : List (Call × Bool)}

/-! ### The names of files -/

/-- The file name with the extension of artifacts. -/
def withExtension (stem : List Char) : List Char :=
  stem ++ '.' :: extension.toList

/-- A stem without a slash becomes a file's name with the extension. -/
theorem isFileName_withExtension {stem : List Char} (slash : '/' ∉ stem) :
    Path.IsFileName (withExtension stem) :=
  Identifier.isFileName_fileOf slash (by decide) (by decide) (by decide)

theorem withExtension_inj {stem other : List Char} (same : withExtension stem = withExtension other) :
    stem = other :=
  List.append_cancel_right same

/-- What a file is listed as has the names in front and the cut stem between its slashes. -/
theorem splitOn_join_stem {front : List (List Char)} {stem : List Char}
    (proper : ∀ name ∈ front ++ [withExtension stem], Path.IsFileName name) :
    Text.splitOn Path.isSeparator (Path.join (front ++ [Path.cutStem stem])) =
      front ++ [Path.cutStem stem] := by
  refine Path.splitOn_join (by simp) ?_
  rw [List.forall_mem_append, List.forall_mem_singleton] at proper ⊢
  refine ⟨fun name member => (proper.1 name member).slash, Path.not_mem_cutStem (by decide) ?_⟩
  exact fun slash => proper.2.slash (List.mem_append_left _ slash)

/-- What a file is listed as is plain. -/
theorem isPlain_join {front : List (List Char)} {stem : List Char}
    (proper : ∀ name ∈ front ++ [withExtension stem], Path.IsFileName name) (some_stem : stem ≠ []) :
    Identifier.IsPlain (Path.join (front ++ [Path.cutStem stem])) := by
  rw [Identifier.IsPlain, splitOn_join_stem proper, List.forall_mem_append, List.forall_mem_singleton]
  refine ⟨fun name member => ?_, Path.cutStem_plain some_stem⟩
  have own := proper name (List.mem_append_left _ member)
  exact ⟨own.nonempty, own.ne_here⟩

/-- The file of a plain identifier has its names. -/
theorem parts_of_isPlain (known : cache.entryPath identifier = .ok path)
    (plain : Identifier.IsPlain identifier.toList) :
    ∃ front stem, (stem ≠ [] ∧ stem ≠ ['.']) ∧ identifier.toList = Path.join (front ++ [stem]) ∧
      Path.parts path = cache.parts ++ (front ++ [withExtension stem]).map .name := by
  have acceptable := (entryPath_eq_ok_iff.1 known).1
  obtain ⟨front, last, segments⟩ :=
    Text.exists_splitOn_concat Path.isSeparator identifier.toList
  rw [Identifier.IsPlain, segments, List.forall_mem_append, List.forall_mem_singleton] at plain
  obtain ⟨filled, some_last⟩ := plain
  have dotted : Text.splitOn Path.isSeparator ('.' :: extension.toList) =
      ('.' :: extension.toList) :: [] := by decide
  have slash {segment : List Char} (member : segment ∈ front ++ [last]) : '/' ∉ segment :=
    Path.not_mem_of_mem_splitOn (segments ▸ member)
  have in_front {segment : List Char} (member : segment ∈ front) : '/' ∉ segment :=
    slash (List.mem_append_left _ member)
  have names := (acceptable.front_isName segments dotted).1
  have proper : ∀ name ∈ front ++ [withExtension last], Path.IsFileName name := by
    rw [List.forall_mem_append, List.forall_mem_singleton]
    refine ⟨fun name member => ?_, isFileName_withExtension (slash (by simp))⟩
    exact Path.isFileName_of_isName (fun _ => in_front) names member (filled name member).1
      (filled name member).2
  refine ⟨front, last, some_last, ?_, ?_⟩
  · rw [← segments, Path.join_splitOn]
  · rw [parts_entryPath known, Path.parts_eq_partsOf acceptable.file_relative, Identifier.fileOf,
      Text.splitOn_append segments dotted]
    exact congrArg _ (Path.partsOf_names proper true)

/-- The names of the file of an entry are proper and hold no backslash. -/
theorem names_of_entryParts? (known : cache.entryParts? identifier =
    some (cache.parts ++ names.map .name)) :
    ∀ name ∈ names, Path.IsFileName name ∧ '\\' ∉ name := by
  obtain ⟨path, found, below⟩ := Option.map_eq_some_iff.1 known
  rw [toOption_eq_some_iff] at found
  rw [parts_entryPath found, List.append_cancel_left_eq] at below
  intro name member
  have part : PathPart.name name ∈ Path.parts (Identifier.fileOf identifier.toList extension.toList) := by
    rw [below]
    exact List.mem_map_of_mem member
  refine ⟨Path.isFileName_of_mem_parts part, fun backslash => ?_⟩
  have inside := (Path.mem_iff_of_ne (by decide) (by decide)).2 ⟨name, part, backslash⟩
  rw [Identifier.fileOf, List.mem_append] at inside
  rcases inside with own | behind
  · exact (entryPath_eq_ok_iff.1 found).1.slashes own
  · exact absurd behind (by decide)

/-- The extension is taken off a path, and backslashes would have been replaced. -/
theorem cut_withExtension {front : List (List Char)} {stem : List Char} (some_stem : stem ≠ [])
    (proper : ∀ name ∈ front ++ [withExtension stem], Path.IsFileName name ∧ '\\' ∉ name) :
    ((Path.withoutExtension (Path.join (front ++ [withExtension stem]))).map fun c =>
      if c = '\\' then '/' else c) = Path.join (front ++ [Path.cutStem stem]) := by
  have names : ∀ name ∈ front ++ [withExtension stem], Path.IsFileName name :=
    fun name member => (proper name member).1
  rw [withExtension] at names ⊢
  rw [Path.withoutExtension_join names some_stem (by decide)]
  refine Path.map_join_eq_self ?_
  rw [List.forall_mem_append, List.forall_mem_singleton] at proper ⊢
  refine ⟨fun name member => (proper.1 name member).2, Path.not_mem_cutStem (by decide) ?_⟩
  exact fun inside => proper.2.2 (List.mem_append_left _ inside)

/-- What a file below the directory of a cache is listed as. -/
theorem identifierOf?_eq_some_iff (filled : cache.directory ≠ "") (some_name : names ≠ [])
    (proper : ∀ name ∈ names, Path.IsFileName name ∧ '\\' ∉ name) :
    cache.identifierOf? (FileTree.pathBelow cache.directory.toList names) = some identifier ↔
      ∃ front stem, stem ≠ [] ∧ identifier.toList = Path.join (front ++ [Path.cutStem stem]) ∧
        names = front ++ [withExtension stem] := by
  obtain ⟨front, name, rfl⟩ := (List.eq_nil_or_concat' names).resolve_left some_name
  have names : ∀ other ∈ front ++ [name], Path.IsFileName other :=
    fun other member => (proper other member).1
  have nonempty : cache.directory.toList ≠ [] := by
    intro none
    exact filled (String.toList_inj.1 none)
  rw [identifierOf?, Path.extension?_pathBelow names,
    Path.stripRoot?_pathBelow names some_name nonempty, Option.ite_none_right_eq_some,
    Option.map_some, Option.some.injEq]
  constructor
  · rintro ⟨same, listed⟩
    obtain ⟨stem, cut⟩ : ∃ stem, Path.splitExtension name = (stem, some extension.toList) :=
      ⟨_, Prod.ext rfl same⟩
    obtain ⟨rfl, some_stem, -⟩ := Path.splitExtension_eq_iff.1 cut
    refine ⟨front, stem, some_stem, ?_, rfl⟩
    rw [← listed, String.toList_ofList]
    exact cut_withExtension some_stem proper
  · rintro ⟨front', stem, some_stem, same, whole⟩
    obtain ⟨rfl, single⟩ := List.append_inj' whole rfl
    obtain rfl : name = withExtension stem := List.singleton_inj.1 single
    have cut : Path.splitExtension (withExtension stem) = (stem, some extension.toList) :=
      Path.splitExtension_eq_iff.2 ⟨rfl, some_stem, by decide⟩
    refine ⟨congrArg Prod.snd cut, String.toList_inj.1 ?_⟩
    rw [same, String.toList_ofList]
    exact cut_withExtension some_stem proper

/-! ### What was written and not removed -/

/-- The identifiers of which something is kept after a call. -/
def Call.keep (identifiers : List String) : Call → List String
  | .write artifact => identifiers.insert artifact.identifier
  | .remove identifier => identifiers.erase identifier

/-- The identifiers that were written and not removed since. -/
def stored (calls : List Call) : List String :=
  calls.foldl Call.keep []

/-- Whether an entry was found, if only one that cannot be understood. -/
def findsEntry : Except CacheError Artifact → Bool
  | .ok _ => true
  | .error (.corrupt _ _) => true
  | .error _ => false

/-- Reading finds an entry exactly when there is one. -/
theorem findsEntry_read (cache : Cache) (files : FileTree) (identifier : String) :
    findsEntry (cache.read files identifier) = (cache.entry? files identifier).isSome := by
  rw [read, entry?]
  cases known : cache.entryPath identifier with
  | error error =>
      obtain rfl : CacheError.invalidIdentifier identifier = error := by
        rw [entryPath] at known
        split at known
        · cases known
        · exact Except.error.inj known
      rfl
  | ok path =>
      change _ = (files.read path).toOption.isSome
      simp only [bind, Except.bind]
      cases files.read path with
      | error fault => cases fault <;> rfl
      | ok content =>
          simp only
          cases readRecord cache.schema content <;> rfl

/-- The files of a cache are listed, and each was written under an identifier that is kept. -/
structure Lists (cache : Cache) (files : FileTree) (log : List (Call × Bool))
    (identifiers : List String) : Prop where
  keeps : Keeps cache files log
  listed : files.IsListed (cache.top files)
  below : [] ∉ files.filesUnder (cache.top files)
  distinct : identifiers.Nodup
  writer : ∀ parts artifact, cache.artifactAt? parts log = some artifact →
    artifact.identifier ∈ identifiers ∧ cache.entryParts? artifact.identifier = some parts

namespace Lists

variable {identifiers : List String} {call : Call}

/-- A writer of what is there after a call is kept. -/
theorem writer_keep (lists : Lists cache files log identifiers)
    {parts : List PathPart}
    (written : cache.artifactAt? parts ((call, true) :: log) = some artifact) :
    artifact.identifier ∈ call.keep identifiers ∧
      cache.entryParts? artifact.identifier = some parts := by
  by_cases own : cache.entryParts? call.identifier = some parts
  · rw [artifactAt?_self own] at written
    cases call with
    | write other =>
        cases written
        exact ⟨List.mem_insert_self, own⟩
    | remove identifier => cases written
  · rw [artifactAt?_of_ne own] at written
    obtain ⟨member, known⟩ := lists.writer parts artifact written
    refine ⟨?_, known⟩
    cases call with
    | write other => exact List.mem_insert_of_mem member
    | remove identifier =>
        refine (List.mem_erase_of_ne ?_).2 member
        rintro rfl
        exact own known

/-- Storing, reading and removing keep the identifiers distinct. -/
theorem distinct_keep (lists : Lists cache files log identifiers) : (call.keep identifiers).Nodup := by
  cases call with
  | write artifact => exact lists.distinct.insert
  | remove identifier => exact lists.distinct.erase identifier

/-- A call that succeeds keeps the listing in step. -/
theorem perform (lists : Lists cache files log identifiers)
    (succeeded : (call.perform cache files).2 = true) :
    Lists cache (call.perform cache files).1 ((call, true) :: log) (call.keep identifiers) := by
  have keeps := lists.keeps.perform call
  rw [succeeded] at keeps
  have entries : (call.perform cache files).1.IsListed (cache.top (call.perform cache files).1) ∧
      [] ∉ (call.perform cache files).1.filesUnder (cache.top (call.perform cache files).1) := by
    cases call with
    | write artifact =>
        obtain ⟨made, fresh, ⟨⟨error, result⟩, -⟩ |
          ⟨path, place, -, -, known, found, file, same⟩⟩ := write_cases cache artifact files
        · rw [Call.perform, result] at succeeded
          cases succeeded
        · obtain ⟨own, some_name, below⟩ := parts_of_entryPath known
          obtain ⟨-, rfl⟩ := (locate_entryPath_iff known below some_name).1 found
          have made := lists.listed.withDirectories fun place member => (fresh place member).1
          rw [Call.perform, same]
          refine ⟨made.set file (fileOf artifact), ?_⟩
          change [] ∉ FileTree.filesUnder (FileTree.set _ (cache.top files ++ own) _) (cache.top files)
          rw [FileTree.filesUnder_set, FileTree.filesUnder_withDirectories, List.mem_append]
          rintro (old | new)
          · exact lists.below (List.mem_filter.1 old).1
          · exact some_name (List.mem_singleton.1 new).symm
    | remove identifier =>
        obtain ⟨⟨error, result⟩, -⟩ | ⟨path, known, ⟨-, same, -⟩ |
          ⟨place, content, -, found, file, same⟩⟩ := remove_cases cache identifier files
        · rw [Call.perform, result] at succeeded
          cases succeeded
        · rw [Call.perform, same]
          exact ⟨lists.listed, lists.below⟩
        · obtain ⟨own, some_name, below⟩ := parts_of_entryPath known
          obtain ⟨-, rfl⟩ := (locate_entryPath_iff known below some_name).1 found
          rw [Call.perform, same]
          refine ⟨lists.listed.erase file, ?_⟩
          change [] ∉ FileTree.filesUnder (FileTree.erase _ (cache.top files ++ own)) (cache.top files)
          rw [FileTree.filesUnder_erase]
          exact fun old => lists.below (List.mem_filter.1 old).1
  exact ⟨keeps, entries.1, entries.2, lists.distinct_keep, fun _ _ => lists.writer_keep⟩

/-- A file that is listed was written under an identifier that is kept. -/
theorem written_of_mem (lists : Lists cache files log identifiers)
    (member : names ∈ files.filesUnder (cache.top files)) :
    names ≠ [] ∧ ∃ artifact, cache.artifactAt? (cache.parts ++ names.map .name) log = some artifact := by
  have some_name : names ≠ [] := by
    rintro rfl
    exact lists.below member
  refine ⟨some_name, ?_⟩
  rw [lists.listed.present, lists.keeps.held names some_name, Option.isSome_map,
    Option.isSome_iff_exists] at member
  exact member

/-- What was written is listed. -/
theorem mem_of_written (lists : Lists cache files log identifiers) (some_name : names ≠ [])
    (written : cache.artifactAt? (cache.parts ++ names.map .name) log = some artifact) :
    names ∈ files.filesUnder (cache.top files) := by
  rw [lists.listed.present, lists.keeps.held names some_name, written]
  rfl

/-- The names of listed files are proper. -/
theorem proper_of_mem (lists : Lists cache files log identifiers)
    (member : names ∈ files.filesUnder (cache.top files)) :
    ∀ name ∈ names, Path.IsFileName name ∧ '\\' ∉ name := by
  obtain ⟨-, artifact, written⟩ := lists.written_of_mem member
  exact names_of_entryParts? (lists.writer _ artifact written).2

/-- The directory of a cache in which something was written can be listed. -/
theorem filesBelow_eq (lists : Lists cache files log identifiers) (filled : cache.directory ≠ "")
    (member : names ∈ files.filesUnder (cache.top files)) :
    files.filesBelow cache.directory.toList =
      .ok ((files.filesUnder (cache.top files)).map
        (FileTree.pathBelow cache.directory.toList)) := by
  obtain ⟨some_name, artifact, written⟩ := lists.written_of_mem member
  obtain ⟨name, rest, rfl⟩ := List.exists_cons_of_ne_nil some_name
  have reaches := lists.keeps.reached _ artifact written
  have directory : files.entry? (cache.top files) = some .directory :=
    FileTree.directory_of_follow reaches.followed
  have looked : files.look cache.directory.toList = .ok .directory := by
    refine FileTree.look_eq_ok_iff.2
      ⟨_, FileTree.locate_eq_ok_iff.2 ⟨?null, ?nonempty, ?way, ?there⟩, directory⟩
    case null =>
      exact Path.null_not_mem_iff.2 fun other part => reaches.null other (List.mem_append_left _ part)
    case nonempty =>
      intro none
      exact filled (String.toList_inj.1 none)
    case way => exact (FileTree.follow_append_eq_ok_iff.1 reaches.followed).1
    case there => exact fun _ => directory
  exact FileTree.filesBelow_eq_ok_iff.2 (.inl ⟨looked, rfl⟩)

/-- What is listed are the identifiers of the files. -/
theorem identifiers_eq (lists : Lists cache files log identifiers) (filled : cache.directory ≠ "") :
    cache.identifiers files =
      ((files.filesUnder (cache.top files)).filterMap fun names =>
        cache.identifierOf? (FileTree.pathBelow cache.directory.toList names)).mergeSort
          fun a b => decide (a ≤ b) := by
  cases none : files.filesUnder (cache.top files) with
  | cons names more =>
      have some_member : names ∈ files.filesUnder (cache.top files) := by simp [none]
      rw [Cache.identifiers, lists.filesBelow_eq filled some_member, none]
      simp only [List.filterMap_map]
      rfl
  | nil =>
      rw [List.filterMap_nil, List.mergeSort_nil, Cache.identifiers]
      cases found : files.filesBelow cache.directory.toList with
      | error fault => rfl
      | ok paths =>
          obtain ⟨-, rfl⟩ | ⟨content, looked, -⟩ := FileTree.filesBelow_eq_ok_iff.1 found
          · change (((files.filesUnder (cache.top files)).map _).filterMap _).mergeSort _ = _
            rw [none, List.map_nil, List.filterMap_nil, List.mergeSort_nil]
          · -- a file in place of the directory would be listed
            obtain ⟨place, located, file⟩ := FileTree.look_eq_ok_iff.1 looked
            obtain rfl := FileTree.target_of_locate located
            refine absurd ((lists.listed.present []).2 ?_) lists.below
            rw [List.append_nil]
            exact Option.isSome_iff_exists.2 ⟨content, FileTree.file?_eq_some_iff.2 file⟩

/-- The identifiers in a listing. -/
theorem mem_identifiers_iff (lists : Lists cache files log identifiers)
    (filled : cache.directory ≠ "") :
    identifier ∈ cache.identifiers files ↔
      ∃ front stem, stem ≠ [] ∧ identifier.toList = Path.join (front ++ [Path.cutStem stem]) ∧
        front ++ [withExtension stem] ∈ files.filesUnder (cache.top files) := by
  rw [lists.identifiers_eq filled, List.mem_mergeSort, List.mem_filterMap]
  constructor
  · rintro ⟨names, member, listed⟩
    rw [identifierOf?_eq_some_iff filled (lists.written_of_mem member).1
      (lists.proper_of_mem member)] at listed
    obtain ⟨front, stem, some_stem, same, rfl⟩ := listed
    exact ⟨front, stem, some_stem, same, member⟩
  · rintro ⟨front, stem, some_stem, same, member⟩
    exact ⟨_, member, (identifierOf?_eq_some_iff filled (by simp) (lists.proper_of_mem member)).2
      ⟨front, stem, some_stem, same, rfl⟩⟩

/-- Where all identifiers that are kept are plain, a file in the listing is that of the identifier with
its names. -/
theorem mem_of_isPlain (lists : Lists cache files log identifiers)
    (plain : ∀ identifier ∈ identifiers, Identifier.IsPlain identifier.toList)
    {front : List (List Char)} {stem : List Char}
    (member : front ++ [withExtension stem] ∈ files.filesUnder (cache.top files)) :
    stem ≠ ['.'] ∧ String.ofList (Path.join (front ++ [stem])) ∈ identifiers := by
  obtain ⟨-, artifact, written⟩ := lists.written_of_mem member
  obtain ⟨kept, known⟩ := lists.writer _ artifact written
  obtain ⟨path, found, below⟩ := Option.map_eq_some_iff.1 known
  obtain ⟨front', stem', shown, text, below'⟩ :=
    parts_of_isPlain (toOption_eq_some_iff.1 found) (plain _ kept)
  obtain ⟨rfl, single⟩ := List.append_inj' (parts_injective.1 (below.symm.trans below')) rfl
  obtain rfl := withExtension_inj (List.singleton_inj.1 single)
  refine ⟨shown.2, ?_⟩
  rwa [← text, String.ofList_toList]

/-- A listing has no identifier twice where all that are kept are plain. -/
theorem nodup_identifiers (lists : Lists cache files log identifiers)
    (filled : cache.directory ≠ "")
    (plain : ∀ identifier ∈ identifiers, Identifier.IsPlain identifier.toList) :
    (cache.identifiers files).Nodup := by
  rw [lists.identifiers_eq filled, (List.mergeSort_perm _ _).nodup_iff, List.Nodup,
    List.pairwise_filterMap]
  refine lists.listed.distinct.imp_of_mem fun {names others} member other apart => ?_
  rintro found listed _ listed' rfl
  rw [identifierOf?_eq_some_iff filled (lists.written_of_mem member).1
    (lists.proper_of_mem member)] at listed
  rw [identifierOf?_eq_some_iff filled (lists.written_of_mem other).1
    (lists.proper_of_mem other)] at listed'
  obtain ⟨front, stem, -, same, rfl⟩ := listed
  obtain ⟨front', stem', -, same', rfl⟩ := listed'
  have together : front ++ [Path.cutStem stem] = front' ++ [Path.cutStem stem'] := by
    rw [← splitOn_join_stem fun name inside => (lists.proper_of_mem member name inside).1, ← same,
      same', splitOn_join_stem fun name inside => (lists.proper_of_mem other name inside).1]
  -- two dots may come from one dot, but there is no file of a single dot
  rw [Path.cutStem_of_ne (lists.mem_of_isPlain plain member).1,
    Path.cutStem_of_ne (lists.mem_of_isPlain plain other).1] at together
  obtain ⟨rfl, single⟩ := List.append_inj' together rfl
  exact apart (by rw [List.singleton_inj.1 single])

/-- Where all identifiers that are kept are plain and have a file, they are what is listed. -/
theorem mem_identifiers_iff_mem (lists : Lists cache files log identifiers)
    (filled : cache.directory ≠ "")
    (plain : ∀ identifier ∈ identifiers, Identifier.IsPlain identifier.toList)
    (there : ∀ identifier ∈ identifiers, (cache.artifact? log identifier).isSome = true) :
    identifier ∈ cache.identifiers files ↔ identifier ∈ identifiers := by
  rw [lists.mem_identifiers_iff filled]
  constructor
  · rintro ⟨front, stem, -, same, member⟩
    obtain ⟨other, kept⟩ := lists.mem_of_isPlain plain member
    rw [Path.cutStem_of_ne other] at same
    rwa [← same, String.ofList_toList] at kept
  · intro member
    obtain ⟨artifact, written⟩ := Option.isSome_iff_exists.1 (there identifier member)
    obtain ⟨parts, known, written⟩ := Option.bind_eq_some_iff.1 written
    obtain ⟨path, found, rfl⟩ := Option.map_eq_some_iff.1 known
    rw [toOption_eq_some_iff] at found
    obtain ⟨front, stem, shown, same, below⟩ := parts_of_isPlain found (plain identifier member)
    rw [below] at written
    rw [← Path.cutStem_of_ne shown.2] at same
    exact ⟨front, stem, shown.1, same, lists.mem_of_written (by simp) written⟩

end Lists

/-! ### Runs of calls that succeed -/

variable {start : FileTree}

/-- Sorted texts are the same when they are the same before sorting. -/
theorem mergeSort_eq_of_perm {texts others : List String}
    (same : (texts.mergeSort fun a b => decide (a ≤ b)).Perm others) :
    (texts.mergeSort fun a b => decide (a ≤ b)) = others.mergeSort fun a b => decide (a ≤ b) := by
  have sorted (texts : List String) :
      (texts.mergeSort fun a b => decide (a ≤ b)).Pairwise fun a b => decide (a ≤ b) = true := by
    refine List.pairwise_mergeSort (fun a b c first second => ?_) (fun a b => ?_) texts
    · rw [decide_eq_true_iff] at first second ⊢
      exact String.le_trans first second
    · rw [Bool.or_eq_true, decide_eq_true_iff, decide_eq_true_iff]
      exact String.le_total a b
  refine List.Perm.eq_of_pairwise (fun a b _ _ first second => ?_) (sorted texts) (sorted others)
    (same.trans (List.mergeSort_perm _ _).symm)
  exact String.le_antisymm (of_decide_eq_true first) (of_decide_eq_true second)

/-- Nothing is listed of a cache that has no directory of its own. -/
theorem identifiers_of_blank (blank : cache.directory = "") : cache.identifiers files = [] := by
  rw [Cache.identifiers, blank]
  rfl

/-- At the start, with no files in the directory, nothing is stored. -/
theorem lists_start (clear : start.filesUnder (cache.top start) = []) : Lists cache start [] [] where
  keeps := by
    refine IsFresh.keeps fun names content _ member => ?_
    have listed := FileTree.mem_filesUnder_iff.2 ⟨content, member⟩
    rw [clear] at listed
    cases listed
  listed := .of_nil clear
  below := clear ▸ List.not_mem_nil
  distinct := List.nodup_nil
  writer _ _ written := nomatch written

/-- A run goes on from the calls before it. -/
theorem log_subset (calls : List Call) (history : History) :
    history.log ⊆ (calls.foldl (History.next cache) history).log := by
  induction calls generalizing history with
  | nil => exact List.Subset.refl _
  | cons call calls ih =>
      exact List.Subset.trans (List.subset_cons_self _ _) (ih (history.next cache call))

/-- Calls that all succeed keep the listing in step. -/
theorem lists_run (clear : start.filesUnder (cache.top start) = []) (calls : List Call)
    (succeeded : ∀ entry ∈ (cache.run start calls).log, entry.2 = true) :
    Lists cache (cache.run start calls).files (cache.run start calls).log (stored calls) := by
  have onward : ∀ (history : History) (identifiers : List String),
      Lists cache history.files history.log identifiers →
      (∀ entry ∈ (calls.foldl (History.next cache) history).log, entry.2 = true) →
      Lists cache (calls.foldl (History.next cache) history).files
        (calls.foldl (History.next cache) history).log (calls.foldl Call.keep identifiers) := by
    clear succeeded
    induction calls with
    | nil => exact fun _ _ lists _ => lists
    | cons call calls ih =>
        intro history identifiers lists succeeded
        have done : (call.perform cache history.files).2 = true :=
          succeeded _ (log_subset calls _ List.mem_cons_self)
        refine ih (history.next cache call) _ ?_ succeeded
        rw [History.next, done]
        exact lists.perform done
  exact onward _ _ (lists_start clear) succeeded

/-- After calls that all succeed, on a directory that had no files, the identifiers that were written
and not removed since are listed, sorted, and an entry is found for each, exactly when each of them
is plain, has not been removed under another spelling and the cache has a directory of its own. -/
theorem identifiers_run_iff (clear : start.filesUnder (cache.top start) = []) (calls : List Call)
    (succeeded : ∀ entry ∈ (cache.run start calls).log, entry.2 = true) :
    let history := cache.run start calls
    (cache.identifiers history.files = (stored calls).mergeSort (fun a b => decide (a ≤ b)) ∧
        ∀ identifier ∈ stored calls, findsEntry (cache.read history.files identifier) = true) ↔
      ∀ identifier ∈ stored calls, cache.directory ≠ "" ∧
        Identifier.IsPlain identifier.toList ∧
          (cache.artifact? history.log identifier).isSome = true := by
  intro history
  have lists : Lists cache history.files history.log (stored calls) :=
    lists_run clear calls succeeded
  have finds (identifier : String) : findsEntry (cache.read history.files identifier) =
      (cache.artifact? history.log identifier).isSome := by
    rw [findsEntry_read, lists.keeps.entry_eq, Option.isSome_map]
  simp only [finds]
  constructor
  · rintro ⟨same, found⟩ identifier member
    have listed : identifier ∈ cache.identifiers history.files := by
      rw [same, List.mem_mergeSort]
      exact member
    have filled : cache.directory ≠ "" := by
      intro blank
      rw [identifiers_of_blank blank] at listed
      cases listed
    obtain ⟨front, stem, some_stem, text, below⟩ := (lists.mem_identifiers_iff filled).1 listed
    refine ⟨filled, ?_, found identifier member⟩
    rw [text]
    exact isPlain_join (fun name inside => (lists.proper_of_mem below name inside).1) some_stem
  · intro plain
    refine ⟨?_, fun identifier member => (plain identifier member).2.2⟩
    by_cases blank : cache.directory = ""
    · -- nothing can have been kept in a directory that cannot be listed
      have none : stored calls = [] :=
        List.eq_nil_iff_forall_not_mem.2 fun identifier member => (plain identifier member).1 blank
      rw [identifiers_of_blank blank, none, List.mergeSort_nil]
    · have same : (cache.identifiers history.files).Perm (stored calls) :=
        (List.perm_ext_iff_of_nodup
          (lists.nodup_identifiers blank fun identifier member => (plain identifier member).2.1)
          lists.distinct).2 fun identifier =>
            lists.mem_identifiers_iff_mem blank (fun identifier member => (plain identifier member).2.1)
              fun identifier member => (plain identifier member).2.2
      rw [lists.identifiers_eq blank] at same ⊢
      exact mergeSort_eq_of_perm same

set_option maxRecDepth 10000 in
/-- The posts that are left after edits are listed. -/
theorem identifiers_run_edits :
    stored edits = ["a", "b/nested"] ∧
      posts.identifiers (posts.run .empty edits).files =
        (stored edits).mergeSort (fun a b => decide (a ≤ b)) ∧
      ∀ identifier ∈ stored edits,
        findsEntry (posts.read (posts.run .empty edits).files identifier) = true := by
  have succeeded : ∀ entry ∈ (posts.run .empty edits).log, entry.2 = true := by decide +kernel
  have plain : ∀ identifier ∈ stored edits, posts.directory ≠ "" ∧
      Identifier.IsPlain identifier.toList ∧
        (posts.artifact? (posts.run .empty edits).log identifier).isSome = true := by decide +kernel
  exact ⟨by decide, (identifiers_run_iff rfl edits succeeded).2 plain⟩

set_option maxRecDepth 10000 in
/-- A post whose identifier ends with a slash is there, and it is not listed. -/
theorem identifiers_slash_ne :
    let calls := [.write (post "a/" "title" "A" "<p>")]
    let history := posts.run .empty calls
    (∀ entry ∈ history.log, entry.2 = true) ∧ stored calls = ["a/"] ∧
      posts.contains history.files "a/" = true ∧ posts.identifiers history.files = [] ∧
      posts.identifiers history.files ≠ (stored calls).mergeSort (fun a b => decide (a ≤ b)) := by
  decide +kernel

end Cache

end DocPress
