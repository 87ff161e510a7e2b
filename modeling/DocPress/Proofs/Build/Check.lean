import DocPress.Proofs.Build.Run

/-!
Checks and builds. A check runs the pipeline over documents and keeps nothing, and a build puts what comes
out into a cache. Where a check finds no fault, what can still stop a build is the field that the cache
takes for the code, a file name that is too long, and an entry in the way of another.
-/

namespace DocPress

/-! ### Sums -/

namespace BuildStats

variable {parts : List BuildStats}

theorem failed_total_eq_zero_iff : (total parts).failed = 0 ↔ ∀ part ∈ parts, part.failed = 0 := by
  induction parts with
  | nil => simp [total]
  | cons part rest ih =>
      change part.failed + (total rest).failed = 0 ↔ _
      rw [Nat.add_eq_zero_iff, ih, List.forall_mem_cons]

example : (total [{ documents := 1, written := 1 }, { documents := 1, failed := 1 }]).failed = 1 := by
  decide +kernel

/-- Parts that were written have as many artifacts in the cache as there are parts. -/
theorem total_map_written {α : Type} {first second : α → BuildStats} (items : List α)
    (written : ∀ item ∈ items, first item = { second item with written := 1 }) :
    total (items.map first) = { total (items.map second) with written := items.length } := by
  induction items with
  | nil => rfl
  | cons item rest ih =>
      rw [List.forall_mem_cons] at written
      change (first item).add (total (rest.map first)) = _
      rw [written.1, ih written.2, add, List.length_cons, Nat.add_comm rest.length]
      rfl

end BuildStats

namespace Builder

variable {pipeline : Pipeline} {store : Store} {cache : Cache} {files : FileTree}
  {identifier : String} {identifiers listing : List String}

/-! ### One document -/

/-- The metadata of the artifact that is made of a document has a field of the name for the code. -/
def HasCodeField (pipeline : Pipeline) (store : Store) (files : FileTree) (identifier : String) : Prop :=
  ∃ document compiled, store.resolve files identifier = .ok document ∧
    pipeline.run document = .ok compiled ∧ Cache.codeField ∈ compiled.artifact.metadata.keys

/-- A check changes no files. -/
theorem outcomes_check (identifiers : List String) (files : FileTree) :
    outcomes ⟨pipeline, store, none⟩ identifiers files =
      (files, identifiers.map fun identifier =>
        (identifier, (buildOne ⟨pipeline, store, none⟩ identifier files).2)) := by
  have one (identifier : String) :
      (buildOne ⟨pipeline, store, none⟩ identifier files).1 = files := by
    cases resolved : store.resolve files identifier with
    | error error => rw [buildOne_of_unread _ resolved]
    | ok document =>
        cases ran : pipeline.run document with
        | error error => rw [buildOne_of_error _ resolved ran]
        | ok compiled => simp only [buildOne, resolved, Pipeline.publish, ran]
  induction identifiers with
  | nil => rfl
  | cons identifier rest ih => simp only [outcomes, one, ih, List.map_cons]

/-- A document that passes a check is read, and an artifact is made of it. -/
theorem exists_of_passed
    (passed : (buildOne ⟨pipeline, store, none⟩ identifier files).2.failed = 0) :
    ∃ document compiled, store.resolve files identifier = .ok document ∧
      pipeline.run document = .ok compiled ∧
        (buildOne ⟨pipeline, store, none⟩ identifier files).2 = .done false compiled := by
  cases resolved : store.resolve files identifier with
  | error error =>
      rw [buildOne_of_unread _ resolved] at passed
      cases passed
  | ok document =>
      cases ran : pipeline.run document with
      | error error =>
          rw [buildOne_of_error _ resolved ran] at passed
          cases passed
      | ok compiled =>
          refine ⟨document, compiled, rfl, ran, ?_⟩
          simp only [buildOne, resolved, Pipeline.publish, ran]
          rfl

/-- An artifact that is to be kept has no such field. -/
theorem not_hasCodeField_of_isSome (kept : (artifact? pipeline store files identifier).isSome = true) :
    ¬ HasCodeField pipeline store files identifier := by
  obtain ⟨artifact, made⟩ := Option.isSome_iff_exists.1 kept
  obtain ⟨document, compiled, resolved, ran, free, -⟩ := artifact?_eq_some_iff.1 made
  rintro ⟨document', compiled', resolved', ran', reserved⟩
  cases resolved.symm.trans resolved'
  cases ran.symm.trans ran'
  exact free reserved

/-- A document that passes a check is written unless its artifact has a field of the name for the code,
or the name of the entry is too long. -/
theorem buildOne_of_passed (ready : IsReady store cache files)
    (passed : (buildOne ⟨pipeline, store, none⟩ identifier files).2.failed = 0) :
    (¬ HasCodeField pipeline store files identifier ∧ Cache.IsShort identifier →
      (buildOne ⟨pipeline, store, some cache⟩ identifier files).2 =
        { (buildOne ⟨pipeline, store, none⟩ identifier files).2 with written := 1 }) ∧
    ((buildOne ⟨pipeline, store, some cache⟩ identifier files).2.failed = 0 →
      ¬ HasCodeField pipeline store files identifier ∧ Cache.IsShort identifier) := by
  obtain ⟨document, compiled, resolved, ran, checked⟩ := exists_of_passed passed
  rw [buildOne_of_run resolved ran, checked]
  by_cases reserved : Cache.codeField ∈ compiled.artifact.metadata.keys
  · rw [Cache.write_of_reserved reserved]
    refine ⟨fun both => absurd ⟨document, compiled, resolved, ran, reserved⟩ both.1, fun kept => ?_⟩
    cases kept
  · have made : artifact? pipeline store files identifier = some compiled.artifact :=
      artifact?_eq_some_iff.2 ⟨document, compiled, resolved, ran, reserved, rfl⟩
    have fits := ready.fits made
    have own := identifier_of_artifact? made
    obtain ⟨outcome, -⟩ := Cache.Shows.start.write ready.empty reserved fits
      fun _ member => absurd member List.not_mem_nil
    have known : cache.entryPath identifier = .ok _ :=
      Cache.entryPath_of_isAcceptable (own ▸ fits.acceptable)
    have plain := not_hasCodeField_of_isSome (Option.isSome_iff_exists.2 ⟨_, made⟩)
    rw [outcome, own, Cache.outcome, known]
    simp only [bind, Except.bind]
    split
    · next short => exact ⟨fun _ => rfl, fun _ => ⟨plain, short⟩⟩
    · next long =>
        refine ⟨fun both => absurd both.2 long, fun kept => ?_⟩
        cases kept

/-! ### Builds after checks -/

/-- The extension of listed documents is one name by itself. -/
theorem isExtension_of_mem_identifiers (some_extension : store.extension ≠ "")
    (sound : files.IsSound) (known : files.look store.root.toList = .ok .directory)
    (listed : store.identifiers files = .ok listing) (member : identifier ∈ listing) :
    Path.IsExtension store.extension.toList := by
  obtain ⟨identifiers, listed', each⟩ := Store.exists_identifiers sound known
  cases listed.symm.trans listed'
  obtain ⟨names, content, holds, own⟩ := (each identifier).1 member
  have proper := holds.proper sound
  obtain ⟨dirs, stem, rfl, -, undotted, -⟩ :=
    (Store.identifierOf?_eq_some_iff (Store.root_ne_empty known) (holds.some_name known) proper).1 own
  exact ⟨by simpa using some_extension, Store.slash_extension (proper (store.fileName stem) (by simp)),
    undotted⟩

/-- Where listed documents pass a check, a build into an empty cache writes all of them, with the same
warnings and no failure, exactly when no artifact has a field of the name for the code and no entry has a
name that is too long. No entry is to be where another needs a directory, and where documents have the
extension of entries no identifier is to lead out of the directory of the store. -/
theorem build_eq_check_iff (some_extension : store.extension ≠ "") (sound : files.IsSound)
    (known : files.look store.root.toList = .ok .directory) (empty : cache.IsEmpty files)
    (listed : store.identifiers files = .ok listing) (taken : identifiers ⊆ listing)
    (level : store.extension = Cache.extension →
      ∀ identifier ∈ identifiers, ¬ store.LeadsOut identifier)
    (clear : ∀ first ∈ identifiers, ∀ second ∈ identifiers, ¬ Cache.Blocks first second)
    (passed : (build ⟨pipeline, store, none⟩ identifiers files).2.failed = 0) :
    (build ⟨pipeline, store, some cache⟩ identifiers files).2 =
        { (build ⟨pipeline, store, none⟩ identifiers files).2 with written := identifiers.length } ↔
      ∀ identifier ∈ identifiers,
        ¬ HasCodeField pipeline store files identifier ∧ Cache.IsShort identifier := by
  by_cases none : identifiers = []
  · simp [none, build]
  obtain ⟨first, member⟩ := List.exists_mem_of_ne_nil identifiers none
  have plain := isExtension_of_mem_identifiers some_extension sound known listed (taken member)
  have ready : IsReady store cache files := ⟨sound, known, plain, empty⟩
  have check : (build ⟨pipeline, store, .none⟩ identifiers files).2 = .total (identifiers.map
      fun identifier => (buildOne ⟨pipeline, store, .none⟩ identifier files).2) := by
    rw [build_eq, outcomes_check, List.map_map]
    rfl
  have each : ∀ identifier ∈ identifiers,
      (buildOne ⟨pipeline, store, .none⟩ identifier files).2.failed = 0 := by
    rw [check, BuildStats.failed_total_eq_zero_iff, List.forall_mem_map] at passed
    exact passed
  have cached : (build ⟨pipeline, store, some cache⟩ identifiers files).2 = .total (identifiers.map
      fun identifier => (buildOne ⟨pipeline, store, some cache⟩ identifier files).2) := by
    have steady : ∀ identifier ∈ identifiers, store.IsSteady files identifier := by
      intro identifier member
      obtain ⟨document, compiled, resolved, -⟩ := exists_of_passed (each identifier member)
      exact ⟨fun same => level same identifier member,
        fun _ => Store.contains_iff.2 (of_resolve_eq_ok resolved).2⟩
    have apart : Cache.AreClear (identifiers.filterMap (artifact? pipeline store files) ++ []) := by
      rw [List.append_nil]
      exact areClear_of_identifiers clear
    rw [build_eq, (outcomes_shows ready steady apart .start).1, List.map_map]
    rfl
  rw [cached, check]
  constructor
  · intro same identifier member
    have kept : (BuildStats.total (identifiers.map fun identifier =>
        (buildOne ⟨pipeline, store, some cache⟩ identifier files).2)).failed = 0 := by
      rw [same, ← check]
      exact passed
    rw [BuildStats.failed_total_eq_zero_iff, List.forall_mem_map] at kept
    exact (buildOne_of_passed ready (each identifier member)).2 (kept identifier member)
  · intro fine
    refine BuildStats.total_map_written identifiers fun identifier member => ?_
    exact (buildOne_of_passed ready (each identifier member)).1 (fine identifier member)

/-! ### A desk -/

/-- A document of a title, a date and more lines of its header. -/
def leaf (more : String) : FileContent :=
  .text ("---\ntitle: T\ndate: 2023-01-01\n" ++ more ++ "---\nx\n")

/-- Documents of which one has a field of the name for the code. -/
def desk : FileTree where
  entries :=
    [(["content".toList], .directory),
      (["content".toList, "tea.mdx".toList], .file (leaf "")),
      (["content".toList, "tea".toList], .directory),
      (["content".toList, "tea".toList, "cup.mdx".toList], .file (leaf "")),
      (["content".toList, "key.mdx".toList], .file (leaf "code: x\n"))]

/-- The cache of the backend of a site. -/
def oneCache : Cache :=
  .ofPipeline "cache" (Config.onePipeline [])

/-- The builder of a site with one backend, into a cache or nowhere. -/
def oneBuilder (cache : Option Cache) : Builder :=
  ⟨Config.onePipeline [], Store.library, cache⟩

theorem ready_desk : IsReady Store.library oneCache desk where
  sound := by decide +kernel
  known := by decide +kernel
  plain := ⟨by decide, by decide, by decide⟩
  empty := .of_entries (by decide +kernel) (by decide +kernel) (by decide +kernel)

/-- The documents on the desk are listed. -/
theorem listed_desk : ∃ listing, Store.library.identifiers desk = .ok listing ∧
    ["tea", "tea/cup", "key"] ⊆ listing := by
  obtain ⟨listing, listed, each⟩ := Store.exists_identifiers ready_desk.sound ready_desk.known
  have tea : Store.library.Holds desk ["tea.mdx".toList] (leaf "") := by decide +kernel
  have cup : Store.library.Holds desk ["tea".toList, "cup.mdx".toList] (leaf "") := by
    decide +kernel
  have key : Store.library.Holds desk ["key.mdx".toList] (leaf "code: x\n") := by decide +kernel
  refine ⟨listing, listed, ?_⟩
  rw [List.cons_subset, List.cons_subset, List.cons_subset]
  exact ⟨(each _).2 ⟨_, _, tea, by decide +kernel⟩, (each _).2 ⟨_, _, cup, by decide +kernel⟩,
    (each _).2 ⟨_, _, key, by decide +kernel⟩, List.nil_subset listing⟩

set_option maxRecDepth 10000 in
/-- The documents without the field are written. -/
theorem build_eq_check_tea :
    ((oneBuilder none).build ["tea", "tea/cup"] desk).2.failed = 0 ∧
      ((oneBuilder (some oneCache)).build ["tea", "tea/cup"] desk).2 =
        { ((oneBuilder none).build ["tea", "tea/cup"] desk).2 with written := 2 } := by
  obtain ⟨listing, listed, taken⟩ := listed_desk
  rw [List.cons_subset, List.cons_subset] at taken
  unfold oneBuilder
  have passed : (build ⟨Config.onePipeline [], Store.library, none⟩ ["tea", "tea/cup"]
      desk).2.failed = 0 := by
    decide +kernel
  have kept : ∀ identifier ∈ ["tea", "tea/cup"],
      (artifact? (Config.onePipeline []) Store.library desk identifier).isSome = true := by
    decide +kernel
  have short : ∀ identifier ∈ ["tea", "tea/cup"], Cache.IsShort identifier := by decide +kernel
  exact ⟨passed, (build_eq_check_iff (by decide) ready_desk.sound ready_desk.known ready_desk.empty
    listed (List.cons_subset.2 ⟨taken.1, List.cons_subset.2 ⟨taken.2.1, List.nil_subset listing⟩⟩)
    (fun same => absurd same (by decide)) (by decide +kernel) passed).2 fun identifier member =>
      ⟨not_hasCodeField_of_isSome (kept identifier member), short identifier member⟩⟩

set_option maxRecDepth 10000 in
/-- A document with the field passes a check, and a build into the empty cache does not write it. -/
theorem build_ne_check_key :
    oneCache.IsEmpty desk ∧
      (∃ listing, Store.library.identifiers desk = .ok listing ∧
        ["tea", "tea/cup", "key"] ⊆ listing) ∧
      ((oneBuilder none).build ["tea", "key"] desk).2.failed = 0 ∧
      ((oneBuilder (some oneCache)).build ["tea", "key"] desk).2.failed = 1 ∧
      ((oneBuilder (some oneCache)).build ["tea", "key"] desk).2.written = 1 :=
  ⟨ready_desk.empty, listed_desk, by decide +kernel⟩

end Builder

end DocPress
