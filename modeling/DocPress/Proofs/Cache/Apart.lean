import DocPress.Proofs.Cache.Run
import DocPress.Proofs.FileTree.Apart
import DocPress.Proofs.Identifier

/-!
Caches that do not disturb each other. The caches of a configuration are in directories below one
root, which are named as the backends are. A name can have slashes, so a directory can be within
another, and then the entries of one cache are entries of the other. Otherwise no call on one cache is
seen in the other.
-/

namespace DocPress

namespace Cache

variable {cache first second : Cache} {identifier : String} {path : List Char}
  {files after : FileTree} {lead : List PathPart} {names others : List (List Char)}

/-- Whatever is called on one cache, another shows what it showed. -/
def LeavesAlone (first second : Cache) : Prop :=
  ∀ (files : FileTree) (calls : List Call), files.IsClosed →
    (∀ identifier,
      second.contains (first.run files calls).files identifier = second.contains files identifier ∧
        second.read (first.run files calls).files identifier = second.read files identifier) ∧
      second.identifiers (first.run files calls).files = second.identifiers files

/-! ### What calls change -/

theorem top_eq (direct : cache.parts = lead ++ names.map .name) (files : FileTree) :
    cache.top files = FileTree.destination files.workingDirectory lead ++ names := by
  change FileTree.destination files.workingDirectory cache.parts = _
  rw [direct, FileTree.destination_append, FileTree.destination_names]

/-- A call changes what is below the directory of its cache. -/
theorem perform_changesBelow (direct : cache.parts = lead ++ names.map .name)
    (plain : ∀ part ∈ lead, Path.isName part = false) (files : FileTree) (call : Call) :
    FileTree.ChangesBelow (cache.top files) files (call.perform cache files).1 := by
  cases call with
  | write artifact =>
      obtain ⟨made, fresh, outcome⟩ := write_cases cache artifact files
      have near : ∀ place ∈ made, cache.top files <+: place ∨ place <+: cache.top files := by
        intro place member
        obtain ⟨free, path, front, known, before, rfl⟩ := fresh place member
        obtain ⟨own, -, below⟩ := parts_of_entryPath known
        rw [below, direct, List.append_assoc, ← List.map_append] at before
        rcases FileTree.destination_start plain before with around | ⟨some_names, start, same⟩
        · rw [FileTree.entry_workingDirectory around] at free
          cases free
        · rw [same, top_eq direct, List.prefix_append_right_inj, List.prefix_append_right_inj]
          exact List.prefix_or_prefix_of_prefix (List.prefix_append names own) start
      have way := FileTree.ChangesBelow.withDirectories
        (fun place member => (fresh place member).1) near
      rcases outcome with ⟨-, same⟩ | ⟨path, place, -, -, known, found, -, same⟩
      · rw [Call.perform, same]
        exact way
      · obtain ⟨own, some_name, below⟩ := parts_of_entryPath known
        obtain ⟨-, rfl⟩ := (locate_entryPath_iff known below some_name).1 found
        rw [Call.perform, same]
        exact way.trans (.set (List.prefix_append _ own) _)
  | remove identifier =>
      obtain ⟨-, same⟩ | ⟨path, known, ⟨-, same, -⟩ | ⟨place, content, -, found, -, same⟩⟩ :=
        remove_cases cache identifier files
      · rw [Call.perform, same]
        exact .refl _ files
      · rw [Call.perform, same]
        exact .refl _ files
      · obtain ⟨own, some_name, below⟩ := parts_of_entryPath known
        obtain ⟨-, rfl⟩ := (locate_entryPath_iff known below some_name).1 found
        rw [Call.perform, same]
        exact .erase (List.prefix_append _ own)

/-- A run changes what is below the directory of its cache. -/
theorem run_changesBelow (direct : cache.parts = lead ++ names.map .name)
    (plain : ∀ part ∈ lead, Path.isName part = false) (files : FileTree) (calls : List Call) :
    FileTree.ChangesBelow (cache.top files) files (cache.run files calls).files := by
  refine run_induction (fun history => FileTree.ChangesBelow (cache.top files) files history.files)
    (.refl _ files) (fun history call changes => ?_) calls
  have next := perform_changesBelow direct plain history.files call
  have top : cache.top history.files = cache.top files :=
    congrArg (FileTree.destination · cache.parts) changes.workingDirectory
  exact changes.trans (top ▸ next)

/-! ### What another cache shows -/

/-- A cache in a directory apart from what changed shows what it showed. -/
theorem same_of_changesBelow {top : Location} (changes : FileTree.ChangesBelow top files after)
    (closed : files.IsClosed) (direct : cache.parts = lead ++ names.map .name)
    (plain : ∀ part ∈ lead, Path.isName part = false)
    (short : ∀ name ∈ names, (String.ofList name).utf8ByteSize ≤ FileTree.longestName)
    (apart : ¬ top <+: cache.top files) (apart' : ¬ cache.top files <+: top) :
    (∀ identifier, cache.contains after identifier = cache.contains files identifier ∧
        cache.read after identifier = cache.read files identifier) ∧
      cache.identifiers after = cache.identifiers files := by
  -- All that is asked of the cache is at paths below its directory, and these look the same.
  have looks (path : List Char) (more : List (List Char))
      (known : Path.parts path = cache.parts ++ more.map .name) :
      after.look path = files.look path := by
    rw [top_eq direct] at apart apart'
    have whole : Path.parts path = lead ++ (names ++ more).map .name := by
      rw [known, direct, List.append_assoc, ← List.map_append]
    exact changes.look_eq closed plain short apart apart' whole
  constructor
  · intro identifier
    cases known : cache.entryPath identifier with
    | error error =>
        refine ⟨by simp only [contains, known], ?_⟩
        rw [read, read, known]
        rfl
    | ok path =>
        obtain ⟨more, -, below⟩ := parts_of_entryPath known
        have looked := looks path more below
        have content : after.read path = files.read path := by
          rw [FileTree.read, FileTree.read, looked]
        constructor
        · simp only [contains, known, FileTree.isFile, looked]
        · simp only [read, known, bind, Except.bind, content]
  · have looked := looks cache.directory.toList [] (List.append_nil cache.parts).symm
    have target : after.target cache.directory.toList = files.target cache.directory.toList :=
      congrArg (FileTree.destination · cache.parts) changes.workingDirectory
    have listed : after.filesBelow cache.directory.toList = files.filesBelow cache.directory.toList := by
      rw [FileTree.filesBelow_eq, FileTree.filesBelow_eq, looked, target,
        changes.listed (files.target cache.directory.toList) apart apart']
    rw [identifiers, identifiers, listed]

/-- A cache leaves another alone when neither directory is within the other. -/
theorem leavesAlone_of_apart (direct : first.parts = lead ++ names.map .name)
    (direct' : second.parts = lead ++ others.map .name)
    (plain : ∀ part ∈ lead, Path.isName part = false)
    (short : ∀ name ∈ others, (String.ofList name).utf8ByteSize ≤ FileTree.longestName)
    (apart : ¬ names <+: others) (apart' : ¬ others <+: names) : first.LeavesAlone second := by
  intro files calls closed
  have changes := run_changesBelow direct plain files calls
  refine same_of_changesBelow changes closed direct' plain short ?_ ?_
  · rwa [top_eq direct, top_eq direct', List.prefix_append_right_inj]
  · rwa [top_eq direct, top_eq direct', List.prefix_append_right_inj]

/-! ### Where one directory is within another -/

/-- A name that files can have and identifiers can hold. -/
structure IsOrdinary (name : List Char) : Prop where
  short : (String.ofList name).utf8ByteSize ≤ FileTree.longestName
  null : '\x00' ∉ name
  backslash : '\\' ∉ name

instance (name : List Char) : Decidable (IsOrdinary name) :=
  decidable_of_iff ((String.ofList name).utf8ByteSize ≤ FileTree.longestName ∧ '\x00' ∉ name ∧
      '\\' ∉ name)
    ⟨fun ⟨short, null, backslash⟩ => ⟨short, null, backslash⟩,
      fun ⟨short, null, backslash⟩ => ⟨short, null, backslash⟩⟩

theorem null_not_mem_of_isOrdinary {text : List Char}
    (ordinary : ∀ {name}, PathPart.name name ∈ Path.parts text → IsOrdinary name) : '\x00' ∉ text :=
  Path.null_not_mem_iff.2 fun _ part => (ordinary part).null

/-- An artifact can be written where nothing is and no file is in the way. -/
theorem write_of_no_file {artifact : Artifact} (none : ∀ place, files.file? place = .none)
    (free : codeField ∉ artifact.metadata.keys)
    (known : cache.entryPath artifact.identifier = .ok path)
    (direct : Path.parts path = lead ++ names.map .name) (some_name : names ≠ [])
    (plain : ∀ part ∈ lead, Path.isName part = false)
    (ordinary : ∀ name ∈ names, IsOrdinary name)
    (vacant : files.entry? (FileTree.destination files.workingDirectory lead ++ names) = .none) :
    ∃ after, cache.write artifact files = (after, .ok path) := by
  obtain ⟨front, last, rfl⟩ := (List.eq_nil_or_concat' names).resolve_left some_name
  have known_parts : Path.parts path = (lead ++ front.map .name) ++ [.name last] := by
    rw [direct, List.map_append, List.append_assoc]
    rfl
  have around : Path.parts (Path.parent path) = lead ++ front.map .name := by
    rw [Path.parts_parent path (parts_ne_root known), known_parts, List.dropLast_concat]
  have place : FileTree.destination files.workingDirectory (lead ++ front.map .name) ++ [last] =
      FileTree.destination files.workingDirectory lead ++ (front ++ [last]) := by
    rw [FileTree.destination_append, FileTree.destination_names, List.append_assoc]
  have of_part {name : List Char} (part : PathPart.name name ∈ Path.parts path) : IsOrdinary name := by
    rw [direct, List.mem_append] at part
    rcases part with inside | inside
    · cases plain _ inside
    · obtain ⟨other, member, same⟩ := List.mem_map.1 inside
      rw [← PathPart.name.inj same]
      exact ordinary other member
  have of_parent {name : List Char} (part : PathPart.name name ∈ Path.parts (Path.parent path)) :
      IsOrdinary name := by
    rw [around] at part
    refine of_part ?_
    rw [known_parts]
    exact List.mem_append_left _ part
  obtain ⟨done, followed, directory⟩ := FileTree.makeDirectories_of_no_file none
    (null_not_mem_of_isOrdinary of_parent) fun name part => (of_parent part).short
  obtain ⟨made, same, fresh⟩ := files.makeDirectories_fst (Path.parent path)
  rw [same, around] at followed directory
  have found : (files.withDirectories made).locate path =
      .ok (FileTree.destination files.workingDirectory (lead ++ front.map .name) ++ [last]) :=
    FileTree.locate_of_follow known_parts (null_not_mem_of_isOrdinary of_part)
      (asksForDirectory_entryPath known) (ordinary last (by simp)).short followed directory
  -- The directories made are all in front of the place of the entry, so nothing is there yet.
  have file : FileTree.entry? (files.withDirectories made)
      (FileTree.destination files.workingDirectory (lead ++ front.map .name) ++ [last]) ≠
        some .directory := by
    rw [around] at fresh
    rw [place, FileTree.entry_beyond_made plain fresh vacant]
    exact nofun
  have outcome : files.makeDirectories (Path.parent path) = (files.withDirectories made, .ok ()) :=
    Prod.ext same done
  have refused : ¬ artifact.metadata.contains codeField = true :=
    Bool.eq_false_iff.1 (Fields.contains_eq_false_iff.2 free)
  have placed := FileTree.place_of_locate found file (.text (record artifact).write)
  rw [write, if_neg refused, known]
  simp only [outcome, placed]
  exact ⟨_, rfl⟩

/-- The identifier of a file below names. -/
def below (names : List (List Char)) : String :=
  String.ofList (Path.join (names ++ [['x']]))

/-- The file of an identifier below names has these names. -/
theorem entryPath_below (cache : Cache) (names : List (List Char))
    (proper : ∀ name ∈ names, Path.IsFileName name)
    (backslash : ∀ name ∈ names, '\\' ∉ name) :
    ∃ path, cache.entryPath (below names) = .ok path ∧
      Path.parts path = cache.parts ++ (names ++ ["x.json".toList]).map .name := by
  have text : (below names).toList = Path.join (names ++ [['x']]) := String.toList_ofList
  obtain ⟨acceptable, parts⟩ : Identifier.IsAcceptable (below names).toList extension.toList ∧
      Path.parts (Identifier.fileOf (below names).toList extension.toList) =
        (names ++ ["x.json".toList]).map .name := by
    rw [text]
    refine Identifier.isAcceptable_join (by decide) ?_ ?_
    · rw [List.forall_mem_append, List.forall_mem_singleton]
      exact ⟨proper, by decide⟩
    · rw [List.forall_mem_append, List.forall_mem_singleton]
      exact ⟨backslash, by decide⟩
  refine ⟨_, entryPath_of_isAcceptable acceptable, ?_⟩
  rw [parts_entryPath (entryPath_of_isAcceptable acceptable), parts]

/-- Where an entry of one cache is one of another as well, a call on the one is seen in the other. -/
theorem not_leavesAlone_of_parts {identifier' : String} {path' : List Char}
    (known : first.entryPath identifier = .ok path) (known' : second.entryPath identifier' = .ok path')
    (same : Path.parts path' = Path.parts path)
    (direct : Path.parts path = lead ++ names.map .name) (some_name : names ≠ [])
    (plain : ∀ part ∈ lead, Path.isName part = false)
    (ordinary : ∀ name ∈ names, IsOrdinary name) : ¬ first.LeavesAlone second := by
  intro alone
  let artifact : Artifact := ⟨identifier, .empty, .precompiled, ""⟩
  have around : FileTree.destination (FileTree.workingDirectory .empty) lead <+:
      FileTree.workingDirectory .empty := (FileTree.follow_lead plain List.prefix_rfl).2
  have top : FileTree.destination [] lead = [] := List.prefix_nil.1 around
  have filled : Path.parts path ≠ [] := by simp [direct, some_name]
  have vacant : FileTree.entry? .empty (FileTree.destination [] lead ++ names) = none :=
    FileTree.entry_empty (by simp [some_name])
  have free : codeField ∉ artifact.metadata.keys := by simp [artifact, Fields.keys, Fields.empty]
  obtain ⟨after, written⟩ := write_of_no_file FileTree.file?_empty free known direct some_name plain
    ordinary vacant
  have stored := FileTree.read_eq_ok_iff.1 (write_eq_ok written).2.2
  have there : second.contains after identifier' = true := by
    rw [contains, known']
    exact FileTree.isFile_iff.2 ⟨_, FileTree.look_file_of_parts same filled
      (asksForDirectory_entryPath known) (asksForDirectory_entryPath known') stored⟩
  have before : second.contains .empty identifier' = false := by
    rw [contains, known', Bool.eq_false_iff]
    intro file
    obtain ⟨content, looked⟩ := FileTree.isFile_iff.1 file
    obtain ⟨place, -, here⟩ := FileTree.look_eq_ok_iff.1 looked
    exact List.not_mem_nil (FileTree.mem_entries_of_file here)
  have seen := ((alone .empty [.write artifact] FileTree.isClosed_empty).1 identifier').1
  have run : (first.run .empty [.write artifact]).files = after := congrArg Prod.fst written
  rw [run, there, before] at seen
  cases seen

/-- Where names below one directory are names below another, the one cache disturbs the other. -/
theorem not_leavesAlone_of_meet {rest rest' : List (List Char)}
    (direct : first.parts = lead ++ names.map .name)
    (direct' : second.parts = lead ++ others.map .name)
    (plain : ∀ part ∈ lead, Path.isName part = false) (meet : names ++ rest = others ++ rest')
    (proper : ∀ name ∈ names ++ rest, Path.IsFileName name)
    (ordinary : ∀ name ∈ names ++ rest, IsOrdinary name) : ¬ first.LeavesAlone second := by
  have own : rest ⊆ names ++ rest := List.subset_append_right names rest
  have own' : rest' ⊆ names ++ rest := meet ▸ List.subset_append_right others rest'
  obtain ⟨path, known, parts⟩ := first.entryPath_below rest (fun name member => proper name (own member))
    fun name member => (ordinary name (own member)).backslash
  obtain ⟨path', known', parts'⟩ := second.entryPath_below rest'
    (fun name member => proper name (own' member))
    fun name member => (ordinary name (own' member)).backslash
  rw [direct, List.append_assoc, ← List.map_append, ← List.append_assoc names] at parts
  rw [direct', List.append_assoc, ← List.map_append, ← List.append_assoc others, ← meet] at parts'
  refine not_leavesAlone_of_parts known known' (parts'.trans parts.symm) parts (by simp) plain ?_
  rw [List.forall_mem_append, List.forall_mem_singleton]
  exact ⟨ordinary, by decide⟩

/-- The names in the path of a directory are proper. -/
theorem isFileName_of_parts (direct : cache.parts = lead ++ names.map .name) :
    ∀ name ∈ names, Path.IsFileName name := by
  intro name member
  have part : PathPart.name name ∈ cache.parts := by
    rw [direct]
    exact List.mem_append_right _ (List.mem_map_of_mem member)
  exact Path.isFileName_of_mem_parts part

/-- A cache leaves another alone exactly when neither directory is within the other. -/
theorem leavesAlone_iff (direct : first.parts = lead ++ names.map .name)
    (direct' : second.parts = lead ++ others.map .name)
    (plain : ∀ part ∈ lead, Path.isName part = false)
    (ordinary : ∀ name ∈ names ++ others, IsOrdinary name) :
    first.LeavesAlone second ↔ ¬ names <+: others ∧ ¬ others <+: names := by
  rw [List.forall_mem_append] at ordinary
  constructor
  · refine fun alone => ⟨?_, ?_⟩
    · rintro ⟨rest, rfl⟩
      exact not_leavesAlone_of_meet direct direct' plain (List.append_nil _).symm
        (isFileName_of_parts direct') ordinary.2 alone
    · rintro ⟨rest, rfl⟩
      refine not_leavesAlone_of_meet direct direct' plain (List.append_nil _) ?_ ?_ alone
      · rw [List.append_nil]
        exact isFileName_of_parts direct
      · rw [List.append_nil]
        exact ordinary.1
  · rintro ⟨apart, apart'⟩
    exact leavesAlone_of_apart direct direct' plain (fun name member => (ordinary.2 name member).short)
      apart apart'

end Cache

theorem Cache.parts_ofPipeline (root : String) (pipeline : Pipeline) :
    (Cache.ofPipeline root pipeline).parts =
      Path.parts (Path.within root.toList pipeline.backend.toList) := by
  rw [Cache.parts, Cache.ofPipeline, String.toList_ofList]

/-! ### The caches of a configuration -/

namespace Config

variable {config : Config} {root first second : String} {backend backend' : Backend}
  {lead : List PathPart} {base names others : List (List Char)}

/-- The caches of two backends, in directories that are named as the backends are, below one root that
leads up only in front of its names: a call on the one is never seen in the other exactly when neither
name has the names of the other in front. -/
theorem caches_leaveAlone_iff (valid : config.validate = .ok ())
    (known : config.backend first = .ok backend) (known' : config.backend second = .ok backend')
    (plain : ∀ part ∈ lead, Path.isName part = false)
    (direct : Path.parts root.toList = lead ++ base.map .name)
    (own : Path.parts (Path.within root.toList first.toList) =
      Path.parts root.toList ++ names.map .name)
    (own' : Path.parts (Path.within root.toList second.toList) =
      Path.parts root.toList ++ others.map .name)
    (ordinary : ∀ name ∈ base ++ names ++ others, Cache.IsOrdinary name) :
    ∃ pipeline pipeline', Pipeline.ofConfig config first = .ok pipeline ∧
      Pipeline.ofConfig config second = .ok pipeline' ∧
      ((Cache.ofPipeline root pipeline).LeavesAlone (.ofPipeline root pipeline') ↔
        ¬ names <+: others ∧ ¬ others <+: names) := by
  refine ⟨_, _, Pipeline.ofConfig_eq_ok known (isPlaced_of_validate valid known),
    Pipeline.ofConfig_eq_ok known' (isPlaced_of_validate valid known'), ?_⟩
  have parts {name : String} {backend : Backend} (placed : backend.IsPlaced) {all : List (List Char)}
      (own : Path.parts (Path.within root.toList name.toList) =
        Path.parts root.toList ++ all.map .name) :
      (Cache.ofPipeline root (.ofBackend config name backend placed)).parts =
        lead ++ (base ++ all).map .name := by
    rw [Cache.parts_ofPipeline, List.map_append, ← List.append_assoc, ← direct]
    exact own
  have all : ∀ name ∈ (base ++ names) ++ (base ++ others), Cache.IsOrdinary name := by
    intro name member
    simp only [List.mem_append] at member ordinary
    rcases member with (inside | inside) | (inside | inside)
    all_goals exact ordinary name (by simp [inside])
  rw [Cache.leavesAlone_iff (parts _ own) (parts _ own') plain all, List.prefix_append_right_inj,
    List.prefix_append_right_inj]

/-- The caches of two of the default backends leave each other alone. -/
theorem caches_leaveAlone_default :
    ∃ pipeline pipeline', Pipeline.ofConfig .default "mdx-bundler" = .ok pipeline ∧
      Pipeline.ofConfig .default "next-mdx-remote" = .ok pipeline' ∧
      (Cache.ofPipeline "public/posts" pipeline).LeavesAlone
        (.ofPipeline "public/posts" pipeline') := by
  have valid : default.validate = .ok () := by decide
  obtain ⟨backend, known⟩ : ∃ backend, default.backend "mdx-bundler" = .ok backend := ⟨_, rfl⟩
  obtain ⟨backend', known'⟩ : ∃ backend, default.backend "next-mdx-remote" = .ok backend := ⟨_, rfl⟩
  have direct : Path.parts "public/posts".toList =
      [] ++ ["public".toList, "posts".toList].map .name := by decide
  have own : Path.parts (Path.within "public/posts".toList "mdx-bundler".toList) =
      Path.parts "public/posts".toList ++ ["mdx-bundler".toList].map .name := by decide
  have own' : Path.parts (Path.within "public/posts".toList "next-mdx-remote".toList) =
      Path.parts "public/posts".toList ++ ["next-mdx-remote".toList].map .name := by decide
  obtain ⟨pipeline, pipeline', made, made', alone⟩ :=
    caches_leaveAlone_iff valid known known' (by simp) direct own own' (by decide)
  exact ⟨pipeline, pipeline', made, made', alone.2 ⟨by decide, by decide⟩⟩

/-- A site with two backends. -/
def twoBackends (first second : String) : Config :=
  { backends := .ofList [(first, .standard .precompiled), (second, .standard .onDemand)] }

/-- The pipeline of a backend with the standard stages. -/
def standardPipeline (config : Config) (name : String) (strategy : Strategy) : Pipeline :=
  .ofBackend config name (.standard strategy)
    (Backend.misplaced?_eq_none_iff.1 (by cases strategy <;> decide))

theorem ofConfig_standard {strategy : Strategy}
    (known : config.backend first = .ok (.standard strategy)) :
    Pipeline.ofConfig config first = .ok (config.standardPipeline first strategy) :=
  Pipeline.ofConfig_eq_ok known _

set_option maxRecDepth 10000 in
/-- Where a backend is named as a directory in the cache of another, an artifact of the other is found
in its cache. -/
theorem caches_leaveAlone_nested_ne :
    (twoBackends "a" "a/b").validate = .ok () ∧
      ∃ pipeline pipeline', Pipeline.ofConfig (twoBackends "a" "a/b") "a" = .ok pipeline ∧
        Pipeline.ofConfig (twoBackends "a" "a/b") "a/b" = .ok pipeline' ∧
        (Cache.ofPipeline "cache" pipeline').contains .empty "x" = false ∧
        (Cache.ofPipeline "cache" pipeline').contains
          ((Cache.ofPipeline "cache" pipeline).run .empty
            [.write (Cache.post "b/x" "title" "X" "<p>")]).files "x" = true := by
  refine ⟨by decide, (twoBackends "a" "a/b").standardPipeline "a" .precompiled,
    (twoBackends "a" "a/b").standardPipeline "a/b" .onDemand, ofConfig_standard rfl,
    ofConfig_standard rfl, ?_, ?_⟩
  · decide +kernel
  · decide +kernel

end Config

end DocPress
