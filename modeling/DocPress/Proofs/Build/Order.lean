import DocPress.Proofs.Build.Check

/-!
Builds in any order. The documents of a site may be built one after the other in any order. What has been
done and what is in the cache then is the same for all orders exactly when no entry of the site is where
another entry needs a directory, or where it leaves another file.
-/

namespace DocPress

/-! ### Trees with the same entries -/

/-- The same is at every place. -/
structure FileTree.Agrees (first second : FileTree) : Prop where
  workingDirectory : first.workingDirectory = second.workingDirectory
  entry : ∀ place, first.entry? place = second.entry? place

namespace FileTree.Agrees

variable {first second : FileTree}

theorem symm (agrees : first.Agrees second) : second.Agrees first :=
  ⟨agrees.workingDirectory.symm, fun place => (agrees.entry place).symm⟩

theorem trans {third : FileTree} (agrees : first.Agrees second) (agrees' : second.Agrees third) :
    first.Agrees third :=
  ⟨agrees.workingDirectory.trans agrees'.workingDirectory,
    fun place => (agrees.entry place).trans (agrees'.entry place)⟩

theorem requireDirectory (agrees : first.Agrees second) (place : Location) :
    first.requireDirectory place = second.requireDirectory place := by
  rw [FileTree.requireDirectory, FileTree.requireDirectory, agrees.entry]

/-- Parts are followed to the same place in trees that agree. -/
theorem follow (agrees : first.Agrees second) (start : Location) (parts : List PathPart) :
    first.follow start parts = second.follow start parts := by
  induction parts generalizing start with
  | nil => rfl
  | cons part parts ih => simp only [FileTree.follow, agrees.requireDirectory, ih]

/-- Trees with the same entries show the same files. -/
theorem read (agrees : first.Agrees second) (path : List Char) : first.read path = second.read path := by
  simp only [FileTree.read, FileTree.look, FileTree.locate, agrees.workingDirectory, agrees.follow,
    agrees.requireDirectory, agrees.entry]

end FileTree.Agrees

/-- Caches show the same artifacts in trees with the same entries. -/
theorem Cache.read_of_agrees {first second : FileTree} (agrees : first.Agrees second) (cache : Cache)
    (identifier : String) : cache.read first identifier = cache.read second identifier := by
  simp only [Cache.read, agrees.read]

/-! ### Layouts in any order -/

namespace Cache

variable {cache : Cache} {files after other : FileTree} {done others : List Artifact}

/-- The entry of the first artifact is where the second needs a directory, or where it leaves another
file. -/
def Clashes (first second : Artifact) : Prop :=
  IsShort first.identifier ∧ entryNames first.identifier <+: entryNames second.identifier ∧
    (entryNames first.identifier = entryNames second.identifier → fileOf first ≠ fileOf second)

/-- No artifact clashes with another of them. -/
def AreApart (artifacts : List Artifact) : Prop :=
  ∀ first ∈ artifacts, ∀ second ∈ artifacts, ¬ Clashes first second

theorem AreApart.areClear (apart : AreApart done) : AreClear done :=
  fun first member second member' blocks =>
    apart first member second member' ⟨blocks.1, blocks.2.1, fun same => absurd same blocks.2.2⟩

/-- What artifacts bring does not depend on their order. -/
theorem layout_perm (apart : AreApart done) (same : done.Perm others) (names : List (List Char)) :
    layout done names = layout others names := by
  cases found : holder? done names with
  | none =>
      have none : holder? others names = none := by
        rw [holder?_eq_none_iff] at found ⊢
        exact fun artifact member => found artifact (same.mem_iff.2 member)
      rw [layout, layout, found, none]
      simp only [same.mem_iff]
  | some first =>
      obtain ⟨member, own, short⟩ := of_holder?_eq_some found
      cases found' : holder? others names with
      | none =>
          rw [holder?_eq_none_iff] at found'
          exact absurd ⟨own, short⟩ (found' first (same.mem_iff.1 member))
      | some second =>
          obtain ⟨member', own', -⟩ := of_holder?_eq_some found'
          have files : fileOf first = fileOf second := by
            by_contra different
            have names_eq : entryNames first.identifier = entryNames second.identifier :=
              own.trans own'.symm
            exact apart first member second (same.mem_iff.2 member')
              ⟨short, names_eq ▸ List.prefix_rfl, fun _ => different⟩
          rw [layout_of_holder? found, layout_of_holder? found', files]

/-- In whatever order artifacts were written, the files are the same. -/
theorem Shows.agrees (apart : AreApart done) (same : done.Perm others)
    (shows : Shows cache files done after) (shows' : Shows cache files others other) :
    after.Agrees other := by
  cases shows with
  | start =>
      cases shows' with
      | start => exact ⟨rfl, fun _ => rfl⟩
      | filled some_artifact _ => exact absurd same.nil_eq.symm some_artifact
  | filled some_artifact lays =>
      cases shows' with
      | start => exact absurd same.eq_nil some_artifact
      | filled _ lays' =>
          refine ⟨lays.workingDirectory.trans lays'.workingDirectory.symm, fun place => ?_⟩
          by_cases inside : ∃ names, names ≠ [] ∧ place = cache.top files ++ names
          · obtain ⟨names, some_name, rfl⟩ := inside
            rw [lays.below names some_name, lays'.below names some_name, layout_perm apart same]
          · have outside : ∀ names, names ≠ [] → place ≠ cache.top files ++ names :=
              fun names some_name same => inside ⟨names, some_name, same⟩
            rw [lays.around place outside, lays'.around place outside]

end Cache

/-! ### What stays what it is -/

/-- Whether an entry is a file. -/
def FileEntry.isFile : FileEntry → Bool
  | .file _ => true
  | .directory => false

/-- Writing an artifact makes no directory of a file, and no file of a directory. -/
theorem Cache.isFile_write {cache : Cache} {artifact : Artifact} {files : FileTree} {place : Location}
    {kind : Bool} (here : (files.entry? place).map FileEntry.isFile = some kind) :
    (FileTree.entry? (cache.write artifact files).1 place).map FileEntry.isFile = some kind := by
  obtain ⟨entry, there, own⟩ := Option.map_eq_some_iff.1 here
  obtain ⟨made, fresh, outcome⟩ := write_cases cache artifact files
  have kept : FileTree.entry? (files.withDirectories made) place = some entry :=
    FileTree.entry_withDirectories_of_some (fun place member => (fresh place member).1) there
  rcases outcome with ⟨-, same⟩ | ⟨path, stop, -, -, -, -, file, same⟩
  · rw [same, kept, Option.map_some, own]
  · rw [same]
    by_cases replaced : place = stop
    · subst replaced
      rw [FileTree.entry_set_of_file file, Option.map_some]
      cases entry with
      | directory => exact absurd kept file
      | file content => exact congrArg some own
    · rw [FileTree.entry_set_of_ne replaced, kept, Option.map_some, own]

namespace Builder

variable {pipeline : Pipeline} {store : Store} {cache : Cache} {files after : FileTree}
  {identifiers listing : List String} {first second : String} {artifact artifact' : Artifact}

/-- Building a document makes no directory of a file, and no file of a directory. -/
theorem isFile_buildOne {identifier : String} {place : Location} {kind : Bool}
    (here : (files.entry? place).map FileEntry.isFile = some kind) :
    (FileTree.entry? (buildOne ⟨pipeline, store, some cache⟩ identifier files).1 place).map
      FileEntry.isFile = some kind := by
  cases resolved : store.resolve files identifier with
  | error error => rwa [buildOne_of_unread _ resolved]
  | ok document =>
      cases ran : pipeline.run document with
      | error error => rwa [buildOne_of_error _ resolved ran]
      | ok compiled =>
          rw [buildOne_of_run resolved ran]
          exact Cache.isFile_write here

/-- Building neither removes a file nor puts one in the place of a directory. -/
theorem isFile_outcomes {place : Location} {kind : Bool}
    (here : (files.entry? place).map FileEntry.isFile = some kind) :
    (FileTree.entry? (outcomes ⟨pipeline, store, some cache⟩ identifiers files).1 place).map
      FileEntry.isFile = some kind := by
  induction identifiers generalizing files with
  | nil => exact here
  | cons identifier rest ih => exact ih (isFile_buildOne here)

/-! ### Builds in an order -/

/-- Builds documents in an order, and tells what has been done in the order of the identifiers. -/
def buildInOrder (builder : Builder) (order identifiers : List String) (files : FileTree) :
    FileTree × BuildStats :=
  let (files, outcomes) := builder.outcomes order files
  (files, .total (identifiers.filterMap (List.lookup · outcomes)))

/-- There is one outcome for each identifier, in order. -/
theorem outcomes_identifiers (builder : Builder) (identifiers : List String) (files : FileTree) :
    (builder.outcomes identifiers files).2.map (·.1) = identifiers := by
  induction identifiers generalizing files with
  | nil => rfl
  | cons identifier rest ih => simp only [outcomes, List.map_cons, ih]

/-- What is told of identifiers is looked up in their own order. -/
theorem filterMap_lookup {pairs : List (String × BuildStats)} (distinct : (pairs.map (·.1)).Nodup) :
    (pairs.map (·.1)).filterMap (List.lookup · pairs) = pairs.map (·.2) := by
  induction pairs with
  | nil => rfl
  | cons pair rest ih =>
      obtain ⟨name, stats⟩ := pair
      rw [List.map_cons, List.nodup_cons] at distinct
      have onward : (rest.map (·.1)).filterMap (List.lookup · ((name, stats) :: rest)) =
          (rest.map (·.1)).filterMap (List.lookup · rest) := by
        refine List.filterMap_congr fun other member => ?_
        have apart : (other == name) = false := by
          rw [beq_eq_false_iff_ne]
          rintro rfl
          exact distinct.1 member
        rw [List.lookup_cons, apart]
      have own : List.lookup name ((name, stats) :: rest) = some stats := List.lookup_cons_self
      simp only [List.map_cons, List.filterMap_cons, own, onward, ih distinct.2]

/-- In the order of the identifiers themselves, this is the build. -/
theorem buildInOrder_self (builder : Builder) (distinct : identifiers.Nodup) (files : FileTree) :
    builder.buildInOrder identifiers identifiers files = builder.build identifiers files := by
  have known := outcomes_identifiers builder identifiers files
  have told := filterMap_lookup (known ▸ distinct)
  rw [known] at told
  rw [buildInOrder, build_eq]
  exact congrArg (_, BuildStats.total ·) told

theorem lookup_map {α : Type} {items : List String} {item : String} (f : String → α)
    (member : item ∈ items) :
    List.lookup item (items.map fun item => (item, f item)) = some (f item) := by
  induction items with
  | nil => cases member
  | cons other rest ih =>
      rw [List.map_cons, List.lookup_cons]
      split
      · next same => rw [eq_of_beq same]
      · next apart =>
          refine ih ((List.mem_cons.1 member).resolve_left ?_)
          rintro rfl
          simp at apart

/-! ### Orders that make no difference -/

/-- The artifacts that are to be kept of documents, in their order. -/
def artifacts (pipeline : Pipeline) (store : Store) (files : FileTree) (identifiers : List String) :
    List Artifact :=
  identifiers.filterMap (artifact? pipeline store files)

/-- Where no artifacts clash, a build in any order is as any other. -/
theorem buildInOrder_of_apart {order : List String} (ready : IsReady store cache files)
    (steady : ∀ identifier ∈ identifiers, store.IsSteady files identifier)
    (apart : Cache.AreApart (artifacts pipeline store files identifiers))
    (same : order.Perm identifiers) :
    (buildInOrder ⟨pipeline, store, some cache⟩ order identifiers files).2 =
        (build ⟨pipeline, store, some cache⟩ identifiers files).2 ∧
      (buildInOrder ⟨pipeline, store, some cache⟩ order identifiers files).1.Agrees
        (build ⟨pipeline, store, some cache⟩ identifiers files).1 := by
  have kept : (artifacts pipeline store files order).Perm (artifacts pipeline store files identifiers) :=
    same.filterMap _
  have clear : Cache.AreClear (artifacts pipeline store files identifiers ++ []) := by
    rw [List.append_nil]
    exact apart.areClear
  have clear' : Cache.AreClear (artifacts pipeline store files order ++ []) :=
    clear.subset fun artifact member => by simpa [kept.mem_iff] using member
  obtain ⟨told, shows⟩ := outcomes_shows ready steady clear .start
  obtain ⟨told', shows'⟩ :=
    outcomes_shows ready (fun _ member => steady _ (same.mem_iff.1 member)) clear' .start
  rw [build_eq]
  constructor
  · change BuildStats.total (identifiers.filterMap
        (List.lookup · (outcomes ⟨pipeline, store, some cache⟩ order files).2)) =
      BuildStats.total ((outcomes ⟨pipeline, store, some cache⟩ identifiers files).2.map (·.2))
    rw [told', told, List.map_map]
    -- Whatever the order, each document is told of with the outcome that it has alone.
    have each : ∀ identifier ∈ identifiers, List.lookup identifier (order.map fun identifier =>
        (identifier, (buildOne ⟨pipeline, store, some cache⟩ identifier files).2)) =
          some (buildOne ⟨pipeline, store, some cache⟩ identifier files).2 :=
      fun identifier member => lookup_map _ (same.mem_iff.2 member)
    rw [List.filterMap_congr each]
    exact congrArg BuildStats.total (congrFun List.filterMap_eq_map identifiers)
  · refine Cache.Shows.agrees ?_ ?_ shows' shows
    · rw [List.append_nil]
      intro first member second member'
      exact apart first (kept.mem_iff.1 (List.mem_reverse.1 member)) second
        (kept.mem_iff.1 (List.mem_reverse.1 member'))
    · rw [List.append_nil, List.append_nil]
      exact (List.reverse_perm _).trans (kept.trans (List.reverse_perm _).symm)

/-! ### Orders that make a difference -/

/-- Two documents can be put in front of all others. -/
theorem exists_perm_cons_cons (member : first ∈ identifiers) (member' : second ∈ identifiers)
    (apart : second ≠ first) : ∃ rest, (first :: second :: rest).Perm identifiers :=
  ⟨(identifiers.erase first).erase second,
    ((List.perm_cons_erase ((List.mem_erase_of_ne apart).2 member')).symm.cons first).trans
      (List.perm_cons_erase member).symm⟩

/-- What the first document brings to the directory of an empty cache is of one kind for good. -/
theorem isFile_of_first {names : List (List Char)} {entry : FileEntry}
    (ready : IsReady store cache files) (steady : store.IsSteady files first)
    (made : artifact? pipeline store files first = some artifact) (some_name : names ≠ [])
    (brought : Cache.layout [artifact] names = some entry) (rest : List String) :
    (FileTree.entry? (outcomes ⟨pipeline, store, some cache⟩ (first :: rest) files).1
      (cache.top files ++ names)).map FileEntry.isFile = some entry.isFile := by
  have shows : Cache.Shows cache files ((artifact? pipeline store files first).toList ++ [])
      (buildOne ⟨pipeline, store, some cache⟩ first files).1 :=
    (buildOne_shows ready .start steady fun _ _ _ => nofun).2
  rw [made] at shows
  change Option.map _ (FileTree.entry? (outcomes _ rest (buildOne _ first files).1).1 _) = _
  refine isFile_outcomes ?_
  cases shows with
  | filled _ lays =>
      rw [lays.below names some_name]
      exact congrArg (Option.map FileEntry.isFile) brought

/-- Where all orders leave the same files, no entry is where another needs a directory. -/
theorem areClear_of_agrees (ready : IsReady store cache files)
    (steady : ∀ identifier ∈ identifiers, store.IsSteady files identifier)
    (agrees : ∀ order, order.Perm identifiers →
      (outcomes ⟨pipeline, store, some cache⟩ order files).1.Agrees after) :
    Cache.AreClear (artifacts pipeline store files identifiers) := by
  rintro artifact member artifact' member' ⟨short, before, apart⟩
  obtain ⟨first, inside, made⟩ := List.mem_filterMap.1 member
  obtain ⟨second, inside', made'⟩ := List.mem_filterMap.1 member'
  have different : second ≠ first := by
    rintro rfl
    cases made.symm.trans made'
    exact apart rfl
  obtain ⟨rest, same⟩ := exists_perm_cons_cons inside inside' different
  have swapped : (second :: first :: rest).Perm identifiers := (List.Perm.swap _ _ _).trans same
  -- in one order a file is where in the other a directory is
  have some_name : Cache.entryNames artifact.identifier ≠ [] := Cache.entryNames_ne_nil
  have own : Cache.layout [artifact] (Cache.entryNames artifact.identifier) =
      some (.file (Cache.fileOf artifact)) :=
    Cache.layout_of_holder? (List.find?_cons_of_pos (by simpa using short))
  have around : Cache.layout [artifact'] (Cache.entryNames artifact.identifier) = some .directory := by
    have none : Cache.holder? [artifact'] (Cache.entryNames artifact.identifier) = none := by
      rw [Cache.holder?_eq_none_iff, List.forall_mem_singleton]
      exact fun both => apart both.1.symm
    rw [Cache.layout, none]
    exact if_pos ⟨artifact', List.mem_singleton_self artifact',
      Cache.prefix_folders_iff.2 ⟨before, apart⟩⟩
  have file := isFile_of_first ready (steady first inside) made some_name own (second :: rest)
  have directory :=
    isFile_of_first ready (steady second inside') made' some_name around (first :: rest)
  rw [(agrees _ same).entry] at file
  rw [(agrees _ swapped).entry, file] at directory
  cases directory

/-- Where no entry is where another needs a directory, the last document is the one that is there. -/
theorem layout_of_last {rest : List String} (ready : IsReady store cache files)
    (steady : ∀ identifier ∈ rest ++ [first], store.IsSteady files identifier)
    (clear : Cache.AreClear (artifacts pipeline store files (rest ++ [first])))
    (made : artifact? pipeline store files first = some artifact)
    (short : Cache.IsShort artifact.identifier) :
    FileTree.entry? (outcomes ⟨pipeline, store, some cache⟩ (rest ++ [first]) files).1
      (cache.top files ++ Cache.entryNames artifact.identifier) =
        some (.file (Cache.fileOf artifact)) := by
  have shows := (outcomes_shows ready steady (by rwa [List.append_nil]) .start).2
  have latest : ((rest ++ [first]).filterMap (artifact? pipeline store files)).reverse ++ [] =
      artifact :: (rest.filterMap (artifact? pipeline store files)).reverse := by
    rw [List.append_nil, List.filterMap_append, List.reverse_append]
    simp [made]
  rw [latest] at shows
  cases shows with
  | filled _ lays =>
      rw [lays.below _ Cache.entryNames_ne_nil]
      exact Cache.layout_of_holder? (List.find?_cons_of_pos (by simpa using short))

/-- Where all orders leave the same files, no artifacts clash. -/
theorem areApart_of_agrees (ready : IsReady store cache files)
    (steady : ∀ identifier ∈ identifiers, store.IsSteady files identifier)
    (agrees : ∀ order, order.Perm identifiers →
      (outcomes ⟨pipeline, store, some cache⟩ order files).1.Agrees after) :
    Cache.AreApart (artifacts pipeline store files identifiers) := by
  have clear := areClear_of_agrees ready steady agrees
  rintro artifact member artifact' member' ⟨short, before, differ⟩
  obtain ⟨first, inside, made⟩ := List.mem_filterMap.1 member
  obtain ⟨second, inside', made'⟩ := List.mem_filterMap.1 member'
  have names : Cache.entryNames artifact.identifier = Cache.entryNames artifact'.identifier := by
    by_contra apart
    exact clear artifact member artifact' member' ⟨short, before, apart⟩
  have different : second ≠ first := by
    rintro rfl
    cases made.symm.trans made'
    exact differ rfl rfl
  obtain ⟨rest, same⟩ := exists_perm_cons_cons inside inside' different
  have behind (one other : String) : ((rest ++ [one]) ++ [other]).Perm (other :: one :: rest) :=
    (List.perm_append_singleton other _).trans ((List.perm_append_singleton one rest).cons other)
  have first_last : ((rest ++ [second]) ++ [first]).Perm identifiers :=
    (behind second first).trans same
  have second_last : ((rest ++ [first]) ++ [second]).Perm identifiers :=
    (behind first second).trans ((List.Perm.swap _ _ _).trans same)
  have settled {order : List String} (reordered : order.Perm identifiers) :
      (∀ identifier ∈ order, store.IsSteady files identifier) ∧
        Cache.AreClear (artifacts pipeline store files order) :=
    ⟨fun identifier member => steady identifier (reordered.mem_iff.1 member),
      clear.subset (reordered.filterMap _).subset⟩
  have left := layout_of_last ready (settled first_last).1 (settled first_last).2 made short
  have right := layout_of_last ready (settled second_last).1 (settled second_last).2 made'
    (short.congr names)
  rw [(agrees _ first_last).entry] at left
  rw [(agrees _ second_last).entry, ← names, left] at right
  exact differ names (FileEntry.file.inj (Option.some.inj right))

/-- Builds of listed documents into an empty cache come to the same in all orders, in what has been done
and in what is there then, exactly when no two artifacts that are to be kept clash. -/
theorem order_free_iff (some_extension : store.extension ≠ "") (sound : files.IsSound)
    (known : files.look store.root.toList = .ok .directory) (empty : cache.IsEmpty files)
    (listed : store.identifiers files = .ok listing) (taken : identifiers ⊆ listing)
    (steady : ∀ identifier ∈ identifiers, store.IsSteady files identifier) :
    (∀ order, order.Perm identifiers →
      (buildInOrder ⟨pipeline, store, some cache⟩ order identifiers files).2 =
          (build ⟨pipeline, store, some cache⟩ identifiers files).2 ∧
        (buildInOrder ⟨pipeline, store, some cache⟩ order identifiers files).1.Agrees
          (build ⟨pipeline, store, some cache⟩ identifiers files).1) ↔
      Cache.AreApart (artifacts pipeline store files identifiers) := by
  by_cases none : identifiers = []
  · subst none
    refine ⟨fun _ => nofun, fun _ order same => ?_⟩
    obtain rfl := same.eq_nil
    exact ⟨rfl, rfl, fun _ => rfl⟩
  obtain ⟨first, member⟩ := List.exists_mem_of_ne_nil identifiers none
  have plain := isExtension_of_mem_identifiers some_extension sound known listed (taken member)
  have ready : IsReady store cache files := ⟨sound, known, plain, empty⟩
  constructor
  · intro free
    exact areApart_of_agrees ready steady fun order same => (free order same).2
  · intro apart order same
    exact buildInOrder_of_apart ready steady apart same

/-- The artifacts of documents do not clash when no entry has the names of another in front. -/
theorem areApart_of_identifiers
    (apart : ∀ first ∈ identifiers, ∀ second ∈ identifiers, first ≠ second →
      ¬ Cache.entryNames first <+: Cache.entryNames second) :
    Cache.AreApart (artifacts pipeline store files identifiers) := by
  rintro artifact member artifact' member' ⟨-, before, differ⟩
  obtain ⟨first, inside, made⟩ := List.mem_filterMap.1 member
  obtain ⟨second, inside', made'⟩ := List.mem_filterMap.1 member'
  by_cases same : first = second
  · subst same
    cases made.symm.trans made'
    exact differ rfl rfl
  · rw [identifier_of_artifact? made, identifier_of_artifact? made'] at before
    exact apart first inside second inside' same before

example : ¬ Cache.entryNames "tea" <+: Cache.entryNames "tea/cup" := by decide +kernel

/-! ### Two orders -/

/-- Two documents, one below the other's name, that are not changed by building. -/
theorem isSteady_desk : ∀ identifier ∈ ["tea", "tea/cup"],
    Store.library.IsSteady desk identifier := by
  have other : Store.library.extension ≠ Cache.extension := by decide
  have level : ∀ identifier ∈ ["tea", "tea/cup"], ¬ Store.library.LeadsOut identifier := by decide
  exact fun identifier member => ⟨fun same => absurd same other,
    fun either => absurd (either.resolve_left other) (level identifier member)⟩

set_option maxRecDepth 10000 in
/-- Two documents of the desk are written in any order. -/
theorem order_free_tea :
    ((oneBuilder (some oneCache)).build ["tea", "tea/cup"] desk).2.written = 2 ∧
      ∀ order, order.Perm ["tea", "tea/cup"] →
        ((oneBuilder (some oneCache)).buildInOrder order ["tea", "tea/cup"] desk).2 =
            ((oneBuilder (some oneCache)).build ["tea", "tea/cup"] desk).2 ∧
          ((oneBuilder (some oneCache)).buildInOrder order ["tea", "tea/cup"] desk).1.Agrees
            ((oneBuilder (some oneCache)).build ["tea", "tea/cup"] desk).1 := by
  obtain ⟨listing, listed, taken⟩ := listed_desk
  rw [List.cons_subset, List.cons_subset] at taken
  unfold oneBuilder
  exact ⟨by decide +kernel, (order_free_iff (by decide) ready_desk.sound ready_desk.known
    ready_desk.empty listed
    (List.cons_subset.2 ⟨taken.1, List.cons_subset.2 ⟨taken.2.1, List.nil_subset listing⟩⟩)
    isSteady_desk).2 (areApart_of_identifiers (by decide +kernel))⟩

/-- Documents of which the entry of one is where the other needs a directory. -/
def crossing : FileTree where
  entries :=
    [(["content".toList], .directory),
      (["content".toList, "a.mdx".toList], .file (leaf "")),
      (["content".toList, "a.json".toList], .directory),
      (["content".toList, "a.json".toList, "b.mdx".toList], .file (leaf ""))]

/-- What has been done in an order of these documents, and which of them the cache has then. -/
def crossed (order : List String) : BuildStats × List String :=
  let (after, stats) :=
    (oneBuilder (some oneCache)).buildInOrder order ["a", "a.json/b"] crossing
  (stats, ["a", "a.json/b"].filter (oneCache.contains after))

set_option maxRecDepth 10000 in
/-- Either document is written alone, and the one that comes second fails. -/
theorem order_free_crossing_ne :
    ((oneBuilder (some oneCache)).build ["a"] crossing).2.failed = 0 ∧
      ((oneBuilder (some oneCache)).build ["a.json/b"] crossing).2.failed = 0 ∧
      (crossed ["a", "a.json/b"]).1 ≠ (crossed ["a.json/b", "a"]).1 ∧
      (crossed ["a", "a.json/b"]).2 = ["a"] ∧ (crossed ["a.json/b", "a"]).2 = ["a.json/b"] := by
  decide +kernel

end Builder

end DocPress
