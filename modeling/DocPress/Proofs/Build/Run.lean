import DocPress.Build
import DocPress.Proofs.Cache.Fill
import DocPress.Proofs.Pipeline

/-!
Builds into a cache that starts empty. The files of entries may come below the directory of a store, but
what is read as a document stays the same: a new file can be taken for a document only where documents
have the extension of entries, and then it comes where nothing was before. As long as no entry is in the
way of another, what becomes of a document is what would become of it alone, and the cache shows the
artifacts of the documents that were built.
-/

namespace DocPress

namespace Store

variable {store : Store} {files after : FileTree} {identifier : String} {path : List Char}
  {top : Location} {names : List (List Char)} {stem : List Char}

instance (store : Store) (identifier : String) : Decidable (store.LeadsOut identifier) :=
  inferInstanceAs (Decidable (_ ∨ _))

/-- What is read under the identifier does not depend on the entries of a cache. Where documents have the
extension of entries, it is found, and does not lead out of the directory of the store. Where it leads out
of that directory, it is found. -/
structure IsSteady (store : Store) (files : FileTree) (identifier : String) : Prop where
  level : store.extension = Cache.extension → ¬ store.LeadsOut identifier
  found : store.extension = Cache.extension ∨ store.LeadsOut identifier →
    store.contains files identifier = true

/-! ### Files that come -/

theorem root_ne_empty (known : files.look store.root.toList = .ok .directory) : store.root ≠ "" := by
  intro blank
  obtain ⟨place, found, -⟩ := FileTree.look_eq_ok_iff.1 known
  exact (FileTree.locate_eq_ok_iff.1 found).2.1 (by rw [blank]; rfl)

/-- A file that is found at a path of names was there, or it is an entry and has its extension. -/
theorem isFile_of_gains (gains : Cache.Gains top files after) (sound : files.IsSound)
    (known : files.look store.root.toList = .ok .directory)
    (plain : Path.IsExtension store.extension.toList)
    (parts : Path.parts path =
      Path.parts store.root.toList ++ (names ++ [store.fileName stem]).map .name)
    (asks : FileTree.asksForDirectory path = false) (file : after.isFile path = true) :
    files.isFile path = true ∨ store.extension = Cache.extension ∧
      ∃ more, files.target store.root.toList ++ names = top ++ more := by
  obtain ⟨content, looked⟩ := FileTree.isFile_iff.1 file
  obtain ⟨place, found, here⟩ := FileTree.look_eq_ok_iff.1 looked
  have reached := FileTree.target_of_locate found
  have same : after.target path =
      files.target store.root.toList ++ (names ++ [store.fileName stem]) := by
    rw [← target_of_parts parts, FileTree.target, FileTree.target, gains.workingDirectory]
  rw [reached, same] at here
  rcases gains.came _ _ here with before | ⟨other, entry⟩
  · refine .inl (FileTree.isFile_iff.2 ⟨content, ?_⟩)
    exact (look_eq_ok_iff_holds sound known parts (by simp) asks).2 before
  · rw [Cache.entryNames, ← List.append_assoc, ← List.append_assoc] at entry
    obtain ⟨around, single⟩ := List.append_inj' entry rfl
    have extension : store.extension.toList = Cache.extension.toList :=
      Identifier.extension_eq_of_fileOf_eq plain.dot Cache.isExtension_json.dot
        (List.singleton_inj.1 single)
    exact .inr ⟨String.toList_inj.1 extension, _, around⟩

theorem isFile_gains (gains : Cache.Gains top files after) (file : files.isFile path = true) :
    after.isFile path = true := by
  obtain ⟨content, looked⟩ := FileTree.isFile_iff.1 file
  exact FileTree.isFile_iff.2 ⟨content, gains.look looked⟩

/-! ### Documents that stay -/

theorem contains_iff :
    store.contains files identifier = true ↔
      ∃ path, store.locate files identifier = .ok (some path) := by
  rw [contains]
  split
  · next path located => simp [located]
  · next other =>
      constructor
      · intro none
        cases none
      · rintro ⟨path, located⟩
        exact absurd located (other path)

theorem not_contains_of_isFile {direct : List Char} (named : store.directPath identifier = .ok direct)
    (direct_file : files.isFile direct = false)
    (index_file : files.isFile (store.indexPath identifier) = false) :
    ¬ store.contains files identifier = true := by
  rw [contains_iff]
  rintro ⟨path, located⟩
  simp only [locate, named, bind, Except.bind, direct_file, index_file] at located
  cases located

section

variable {direct : List Char} (gains : Cache.Gains top files after) (sound : files.IsSound)
  (known : files.look store.root.toList = .ok .directory)
  (plain : Path.IsExtension store.extension.toList) (steady : store.IsSteady files identifier)
  (named : store.directPath identifier = .ok direct)

include gains sound known plain steady named

/-- No file comes to be that of a document itself. -/
theorem isFile_direct_of_gains : after.isFile direct = files.isFile direct := by
  cases direct_file : files.isFile direct with
  | true => exact isFile_gains gains direct_file
  | false =>
      rw [Bool.eq_false_iff]
      intro came
      obtain ⟨direct_parts, direct_asks⟩ := parts_directPath plain named
      have onward := isFile_of_gains gains sound known plain direct_parts direct_asks came
      rw [direct_file] at onward
      obtain ⟨same, more, inside⟩ := onward.resolve_left Bool.false_ne_true
      -- It would come next to the index of the document, where nothing can be.
      cases index_file : files.isFile (store.indexPath identifier) with
      | false =>
          exact not_contains_of_isFile named direct_file index_file (steady.found (.inl same))
      | true =>
          have filled := root_ne_empty known
          have acceptable := (directPath_eq_ok_iff.1 named).1
          have index_asks := (parts_indexPath filled plain acceptable).2
          obtain ⟨below, index_parts⟩ :=
            parts_indexPath_of_level filled plain acceptable (steady.level same)
          obtain ⟨content, looked⟩ := FileTree.isFile_iff.1 index_file
          have holds :=
            (look_eq_ok_iff_holds sound known index_parts (by simp) index_asks).1 looked
          rw [Holds, ← List.append_assoc, ← List.append_assoc, inside, List.append_assoc,
            List.append_assoc, gains.vacant _ (by simp)] at holds
          cases holds

/-- No file comes to be the index of a document that has no file itself. -/
theorem isFile_index_of_gains (direct_file : files.isFile direct = false) :
    after.isFile (store.indexPath identifier) = files.isFile (store.indexPath identifier) := by
  cases index_file : files.isFile (store.indexPath identifier) with
  | true => exact isFile_gains gains index_file
  | false =>
      rw [Bool.eq_false_iff]
      intro came
      have unfound := not_contains_of_isFile named direct_file index_file
      have level : ¬ store.LeadsOut identifier := fun out => unfound (steady.found (.inr out))
      have filled := root_ne_empty known
      have acceptable := (directPath_eq_ok_iff.1 named).1
      have index_asks := (parts_indexPath filled plain acceptable).2
      obtain ⟨below, index_parts⟩ := parts_indexPath_of_level filled plain acceptable level
      have before := isFile_of_gains gains sound known plain index_parts index_asks came
      rw [index_file] at before
      exact unfound (steady.found (.inl (before.resolve_left Bool.false_ne_true).1))

end

/-- A document is found where it was found before. -/
theorem locate_of_gains (gains : Cache.Gains top files after) (sound : files.IsSound)
    (known : files.look store.root.toList = .ok .directory)
    (plain : Path.IsExtension store.extension.toList) (steady : store.IsSteady files identifier) :
    store.locate after identifier = store.locate files identifier := by
  by_cases acceptable : Identifier.IsAcceptable identifier.toList store.extension.toList
  case neg => rw [locate_eq, locate_eq, paths_of_not_isAcceptable acceptable]; rfl
  case pos =>
    obtain ⟨direct, named⟩ : ∃ direct, store.directPath identifier = .ok direct :=
      ⟨_, directPath_eq_ok_iff.2 ⟨acceptable, rfl⟩⟩
    simp only [locate, named, bind, Except.bind,
      isFile_direct_of_gains gains sound known plain steady named]
    cases direct_file : files.isFile direct with
    | true => rfl
    | false => rw [isFile_index_of_gains gains sound known plain steady named direct_file]

/-- A document is read as it was read before. -/
theorem resolve_of_gains (gains : Cache.Gains top files after) (sound : files.IsSound)
    (known : files.look store.root.toList = .ok .directory)
    (plain : Path.IsExtension store.extension.toList) (steady : store.IsSteady files identifier) :
    store.resolve after identifier = store.resolve files identifier := by
  rw [resolve, resolve, locate_of_gains gains sound known plain steady]
  cases located : store.locate files identifier with
  | error fault => rfl
  | ok found =>
      cases found with
      | none => rfl
      | some path =>
          obtain ⟨content, looked⟩ := FileTree.isFile_iff.1 (isFile_of_locate located)
          have read := FileTree.read_eq_ok_iff.2 looked
          have read' := FileTree.read_eq_ok_iff.2 (gains.look looked)
          simp only [bind, Except.bind, FileTree.readText, read, read']

/-! ### Documents that have entries -/

/-- The identifier of a document that is found has an entry, if its name is not too long. -/
theorem fits_of_locate (filled : store.root ≠ "") (plain : Path.IsExtension store.extension.toList)
    (located : store.locate files identifier = .ok (some path)) : Cache.Fits identifier := by
  obtain ⟨direct, named, choice⟩ := locate_eq_some_iff.1 located
  obtain ⟨acceptable, rfl⟩ := directPath_eq_ok_iff.1 named
  obtain ⟨content, looked⟩ := FileTree.isFile_iff.1 (isFile_of_locate located)
  obtain ⟨place, found, -⟩ := FileTree.look_eq_ok_iff.1 looked
  obtain ⟨null, -, followed, -⟩ := FileTree.locate_eq_ok_iff.1 found
  have inside : identifier.toList ⊆ path := by
    rcases choice with ⟨-, rfl⟩ | ⟨-, -, rfl⟩
    · exact List.Subset.trans (List.subset_append_left _ _) (Path.subset_within _ _)
    · refine List.Subset.trans (Path.subset_within store.root.toList identifier.toList) ?_
      exact Path.directory_subset_within (Identifier.head?_fileOf_ne _ (by decide) (by decide)) _
  have on_way : ∀ name ∈ Identifier.folders identifier.toList,
      PathPart.name name ∈ Path.parts path := by
    intro name member
    rcases choice with ⟨-, rfl⟩ | ⟨-, -, rfl⟩
    · rw [(parts_directPath plain named).1]
      simp [member]
    · rw [(parts_indexPath filled plain acceptable).1]
      simp [member]
  exact ⟨acceptable.of_extension Cache.isExtension_json, fun member => null (inside member),
    fun name member => FileTree.short_of_follow followed (on_way name member)⟩

end Store

/-- No entry is where another of them needs a directory. -/
def Cache.AreClear (artifacts : List Artifact) : Prop :=
  ∀ first ∈ artifacts, ∀ second ∈ artifacts, ¬ Blocks first.identifier second.identifier

theorem Cache.AreClear.subset {artifacts others : List Artifact} (clear : AreClear artifacts)
    (inside : others ⊆ artifacts) : AreClear others :=
  fun first member second member' => clear first (inside member) second (inside member')

/-- What builds have done together. -/
def BuildStats.total (parts : List BuildStats) : BuildStats :=
  parts.foldr .add {}

namespace Builder

variable {pipeline : Pipeline} {store : Store} {cache : Cache} {files after : FileTree}
  {identifier : String} {identifiers : List String} {done : List Artifact} {artifact : Artifact}

/-! ### Outcomes -/

/-- What becomes of documents that are built one after the other, each with its identifier. -/
def outcomes (builder : Builder) : List String → FileTree → FileTree × List (String × BuildStats)
  | [], files => (files, [])
  | identifier :: rest, files =>
    let (files, first) := builder.buildOne identifier files
    let (files, more) := builder.outcomes rest files
    (files, (identifier, first) :: more)

/-- A build puts together what becomes of its documents. -/
theorem build_eq (builder : Builder) (identifiers : List String) (files : FileTree) :
    builder.build identifiers files =
      ((builder.outcomes identifiers files).1,
        .total ((builder.outcomes identifiers files).2.map (·.2))) := by
  induction identifiers generalizing files with
  | nil => rfl
  | cons identifier rest ih =>
      simp only [build, outcomes, ih, List.map_cons, BuildStats.total, List.foldr_cons]

/-- The artifact of a document that is to be kept: it is made, and no field has the name for the code. -/
def artifact? (pipeline : Pipeline) (store : Store) (files : FileTree) (identifier : String) :
    Option Artifact :=
  (store.resolve files identifier).toOption.bind fun document =>
    (pipeline.run document).toOption.bind fun compiled =>
      if compiled.artifact.metadata.contains Cache.codeField then none else some compiled.artifact

/-- A document that is read was found under its identifier. -/
theorem of_resolve_eq_ok {document : Document} (resolved : store.resolve files identifier = .ok document) :
    document.identifier = identifier ∧
      ∃ path, store.locate files identifier = .ok (some path) := by
  rw [Store.resolve, bind_eq_ok_iff] at resolved
  obtain ⟨found, located, read⟩ := resolved
  cases found with
  | none => cases read
  | some path =>
      refine ⟨?_, path, located⟩
      dsimp only at read
      split at read
      · exact (Except.ok.inj read) ▸ rfl
      · cases read

theorem artifact?_eq_some_iff :
    artifact? pipeline store files identifier = some artifact ↔
      ∃ document compiled, store.resolve files identifier = .ok document ∧
        pipeline.run document = .ok compiled ∧ Cache.codeField ∉ compiled.artifact.metadata.keys ∧
          compiled.artifact = artifact := by
  simp only [artifact?, Option.bind_eq_some_iff, toOption_eq_some_iff, ite_eq_iff, reduceCtorEq,
    and_false, false_or, Option.some.injEq, Bool.not_eq_true, Fields.contains_eq_false_iff]
  simp only [exists_and_left]

/-- The artifact of a document has its identifier. -/
theorem identifier_of_artifact? (made : artifact? pipeline store files identifier = some artifact) :
    artifact.identifier = identifier := by
  obtain ⟨document, compiled, resolved, ran, -, rfl⟩ := artifact?_eq_some_iff.1 made
  obtain ⟨extracted, code, -, same⟩ := Pipeline.run_eq_ok ran
  rw [same]
  exact (of_resolve_eq_ok resolved).1

/-- The artifacts of documents are clear when their identifiers are. -/
theorem areClear_of_identifiers
    (clear : ∀ first ∈ identifiers, ∀ second ∈ identifiers, ¬ Cache.Blocks first second) :
    Cache.AreClear (identifiers.filterMap (artifact? pipeline store files)) := by
  intro first member second member'
  obtain ⟨identifier, inside, made⟩ := List.mem_filterMap.1 member
  obtain ⟨identifier', inside', made'⟩ := List.mem_filterMap.1 member'
  rw [identifier_of_artifact? made, identifier_of_artifact? made']
  exact clear identifier inside identifier' inside'

/-! ### One document -/

/-- Documents as there are on a disk, and a cache that starts empty. -/
structure IsReady (store : Store) (cache : Cache) (files : FileTree) : Prop where
  sound : files.IsSound
  known : files.look store.root.toList = .ok .directory
  plain : Path.IsExtension store.extension.toList
  empty : cache.IsEmpty files

theorem IsReady.resolve (ready : IsReady store cache files)
    (shows : Cache.Shows cache files done after) (steady : store.IsSteady files identifier) :
    store.resolve after identifier = store.resolve files identifier :=
  Store.resolve_of_gains (shows.gains ready.empty) ready.sound ready.known ready.plain steady

/-- The artifact of a document that is to be kept has an entry, if its name is not too long. -/
theorem IsReady.fits (ready : IsReady store cache files)
    (made : artifact? pipeline store files identifier = some artifact) :
    Cache.Fits artifact.identifier := by
  obtain ⟨document, -, resolved, -⟩ := artifact?_eq_some_iff.1 made
  obtain ⟨-, path, located⟩ := of_resolve_eq_ok resolved
  rw [identifier_of_artifact? made]
  exact Store.fits_of_locate (Store.root_ne_empty ready.known) ready.plain located

/-- What has been done with an artifact, as far as writing it tells. -/
def written (identifier : String) (compiled : Compiled) :
    Except CacheError (List Char) → BuildStats
  | .ok _ => .done true compiled
  | .error error => .failure ((PublishError.cache error).diagnostic identifier)

/-- A document that is made into an artifact is built as far as that can be written. -/
theorem buildOne_of_run {document : Document} {compiled : Compiled}
    (resolved : store.resolve files identifier = .ok document)
    (ran : pipeline.run document = .ok compiled) :
    buildOne ⟨pipeline, store, some cache⟩ identifier files =
      ((cache.write compiled.artifact files).1,
        written identifier compiled (cache.write compiled.artifact files).2) := by
  simp only [buildOne, resolved, Pipeline.publish, ran]
  rcases cache.write compiled.artifact files with ⟨tree, outcome⟩
  cases outcome <;> rfl

/-- A document of which no artifact is made leaves the files as they are. -/
theorem buildOne_of_error {document : Document} {error : PipelineError} (cache? : Option Cache)
    (resolved : store.resolve files identifier = .ok document)
    (ran : pipeline.run document = .error error) :
    buildOne ⟨pipeline, store, cache?⟩ identifier files =
      (files, .failure ((PublishError.pipeline error).diagnostic identifier)) := by
  simp only [buildOne, resolved, Pipeline.publish, ran]

/-- A document that is not read leaves the files as they are. -/
theorem buildOne_of_unread {error : StoreError} (cache? : Option Cache)
    (unread : store.resolve files identifier = .error error) :
    buildOne ⟨pipeline, store, cache?⟩ identifier files =
      (files, .failure ((Diagnostic.error "store" error.message).forDocument identifier)) := by
  simp only [buildOne, unread]

/-- A document is built as it would be alone, and its artifact comes into the cache. -/
theorem buildOne_shows (ready : IsReady store cache files)
    (shows : Cache.Shows cache files done after) (steady : store.IsSteady files identifier)
    (clear : ∀ artifact, artifact? pipeline store files identifier = some artifact →
      Cache.IsClear done artifact) :
    (buildOne ⟨pipeline, store, some cache⟩ identifier after).2 =
        (buildOne ⟨pipeline, store, some cache⟩ identifier files).2 ∧
      Cache.Shows cache files ((artifact? pipeline store files identifier).toList ++ done)
        (buildOne ⟨pipeline, store, some cache⟩ identifier after).1 := by
  have same := ready.resolve shows steady
  cases resolved : store.resolve files identifier with
  | error error =>
      rw [buildOne_of_unread _ resolved, buildOne_of_unread _ (same.trans resolved)]
      simpa [artifact?, resolved, Except.toOption] using shows
  | ok document =>
      cases ran : pipeline.run document with
      | error error =>
          rw [buildOne_of_error _ resolved ran, buildOne_of_error _ (same.trans resolved) ran]
          simpa [artifact?, resolved, ran, Except.toOption] using shows
      | ok compiled =>
          rw [buildOne_of_run resolved ran, buildOne_of_run (same.trans resolved) ran]
          by_cases reserved : Cache.codeField ∈ compiled.artifact.metadata.keys
          · rw [Cache.write_of_reserved reserved, Cache.write_of_reserved reserved]
            have none : artifact? pipeline store files identifier = none := by
              simp only [artifact?, resolved, ran, Except.toOption, Option.bind_some,
                Fields.contains_iff.2 reserved, if_true]
            rw [none]
            exact ⟨rfl, shows⟩
          · have made : artifact? pipeline store files identifier = some compiled.artifact :=
              artifact?_eq_some_iff.2 ⟨document, compiled, resolved, ran, reserved, rfl⟩
            have fits := ready.fits made
            obtain ⟨outcome, shown⟩ := shows.write ready.empty reserved fits (clear _ made)
            obtain ⟨alone, -⟩ := Cache.Shows.start.write ready.empty reserved fits
              fun _ member => absurd member List.not_mem_nil
            rw [outcome, alone, made]
            exact ⟨rfl, shown⟩

/-! ### Runs -/

/-- Documents are built as each would be alone, and their artifacts come into the cache one after the
other. -/
theorem outcomes_shows (ready : IsReady store cache files)
    (steady : ∀ identifier ∈ identifiers, store.IsSteady files identifier)
    (clear : Cache.AreClear (identifiers.filterMap (artifact? pipeline store files) ++ done))
    (shows : Cache.Shows cache files done after) :
    (outcomes ⟨pipeline, store, some cache⟩ identifiers after).2 =
        identifiers.map (fun identifier =>
          (identifier, (buildOne ⟨pipeline, store, some cache⟩ identifier files).2)) ∧
      Cache.Shows cache files
        ((identifiers.filterMap (artifact? pipeline store files)).reverse ++ done)
        (outcomes ⟨pipeline, store, some cache⟩ identifiers after).1 := by
  induction identifiers generalizing after done with
  | nil => exact ⟨rfl, shows⟩
  | cons identifier rest ih =>
      rw [List.forall_mem_cons] at steady
      have split : (identifier :: rest).filterMap (artifact? pipeline store files) =
          (artifact? pipeline store files identifier).toList ++
            rest.filterMap (artifact? pipeline store files) := by
        rw [List.filterMap_cons]
        cases artifact? pipeline store files identifier <;> rfl
      rw [split, List.append_assoc] at clear
      have own : ∀ artifact, artifact? pipeline store files identifier = some artifact →
          Cache.IsClear done artifact := by
        intro artifact made other member
        have first : artifact ∈ (artifact? pipeline store files identifier).toList ++
            (rest.filterMap (artifact? pipeline store files) ++ done) := by simp [made]
        have second : other ∈ (artifact? pipeline store files identifier).toList ++
            (rest.filterMap (artifact? pipeline store files) ++ done) := by simp [member]
        exact ⟨clear other second artifact first, clear artifact first other second⟩
      obtain ⟨outcome, shown⟩ := buildOne_shows ready shows steady.1 own
      obtain ⟨others, final⟩ := ih steady.2 (clear.subset (by grind)) shown
      simp only [outcomes, List.map_cons, outcome, others, true_and]
      rw [split, List.reverse_append, List.append_assoc]
      cases made : artifact? pipeline store files identifier with
      | none => simpa [made] using final
      | some artifact => simpa [made] using final

end Builder

end DocPress
