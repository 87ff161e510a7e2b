import DocPress.Proofs.Cache.Entry

/-!
Runs of calls on a cache. A cache is a tree of files in which directories are made on demand, and files
and directories can stand in each other's way. For its readers it is a table all the same: each path
has what the last successful write put there, unless a successful removal came behind it. Paths are
compared by their parts.
-/

namespace DocPress

namespace Cache

/-! ### Calls -/

/-- A call that may change a cache. -/
inductive Call where
  | write (artifact : Artifact)
  | remove (identifier : String)

/-- The identifier that a call is about. -/
def Call.identifier : Call → String
  | .write artifact => artifact.identifier
  | .remove identifier => identifier

/-- The artifact that a call leaves behind. -/
def Call.artifact? : Call → Option Artifact
  | .write artifact => some artifact
  | .remove _ => none

/-- The files after a call, and whether it succeeded. -/
def Call.perform (cache : Cache) (files : FileTree) : Call → FileTree × Bool
  | .write artifact => ((cache.write artifact files).1, (cache.write artifact files).2.isOk)
  | .remove identifier => ((cache.remove identifier files).1, (cache.remove identifier files).2.isOk)

/-- What calls have come to: the files, and the calls with what became of them, the latest first. -/
structure History where
  files : FileTree
  log : List (Call × Bool) := []

/-- The history with one more call. -/
def History.next (cache : Cache) (history : History) (call : Call) : History where
  files := (call.perform cache history.files).1
  log := (call, (call.perform cache history.files).2) :: history.log

/-- The history of calls, one after the other. -/
def run (cache : Cache) (start : FileTree) (calls : List Call) : History :=
  calls.foldl (History.next cache) { files := start }

variable {cache : Cache} {identifier : String} {path : List Char} {files after start : FileTree}
  {artifact : Artifact} {names : List (List Char)}

/-- What a call preserves holds after every run. -/
theorem run_induction (P : History → Prop) (first : P { files := start })
    (next : ∀ history call, P history → P (history.next cache call)) (calls : List Call) :
    P (cache.run start calls) := by
  have onward (history : History) (here : P history) :
      P (calls.foldl (History.next cache) history) := by
    induction calls generalizing history with
    | nil => exact here
    | cons call calls ih => exact ih _ (next history call here)
  exact onward _ first

/-! ### What the log says -/

/-- What the last successful write put at a path, unless a successful removal came behind it. -/
def artifactAt? (cache : Cache) (parts : List PathPart) : List (Call × Bool) → Option Artifact
  | [] => none
  | (call, succeeded) :: earlier =>
    if succeeded = true ∧ cache.entryParts? call.identifier = some parts then call.artifact?
    else cache.artifactAt? parts earlier

/-- The artifact that is there for an identifier, as the calls say. -/
def artifact? (cache : Cache) (log : List (Call × Bool)) (identifier : String) : Option Artifact :=
  (cache.entryParts? identifier).bind fun parts => cache.artifactAt? parts log

variable {parts : List PathPart} {log : List (Call × Bool)} {call : Call}

/-- A call that failed is as none. -/
theorem artifactAt?_failed :
    cache.artifactAt? parts ((call, false) :: log) = cache.artifactAt? parts log := by
  rw [artifactAt?, if_neg (by simp)]

/-- A call is as none for all other paths. -/
theorem artifactAt?_of_ne {succeeded : Bool} (other : cache.entryParts? call.identifier ≠ some parts) :
    cache.artifactAt? parts ((call, succeeded) :: log) = cache.artifactAt? parts log := by
  rw [artifactAt?, if_neg (by simp [other])]

/-- A call that succeeded decides what is at its path. -/
theorem artifactAt?_self (own : cache.entryParts? call.identifier = some parts) :
    cache.artifactAt? parts ((call, true) :: log) = call.artifact? := by
  rw [artifactAt?, if_pos ⟨rfl, own⟩]

/-- A call is as none for all other names. -/
theorem artifactAt?_of_names_ne {own : List (List Char)} {succeeded : Bool}
    (known : cache.entryParts? call.identifier = some (cache.parts ++ own.map .name))
    (other : names ≠ own) :
    cache.artifactAt? (cache.parts ++ names.map .name) ((call, succeeded) :: log) =
      cache.artifactAt? (cache.parts ++ names.map .name) log := by
  apply artifactAt?_of_ne
  rw [known]
  intro same
  exact other (parts_injective.1 (Option.some.inj same)).symm

/-! ### What is kept -/

/-- The files of a cache are those that the calls on it say, and each of them can be reached. -/
structure Keeps (cache : Cache) (files : FileTree) (log : List (Call × Bool)) : Prop where
  held : ∀ names : List (List Char), names ≠ [] → files.file? (cache.top files ++ names) =
    (cache.artifactAt? (cache.parts ++ names.map .name) log).map fileOf
  reached : ∀ (names : List (List Char)) (artifact : Artifact),
    cache.artifactAt? (cache.parts ++ names.map .name) log = some artifact →
      files.Reaches (cache.parts ++ names.map .name)
  plain : ∀ parts artifact, cache.artifactAt? parts log = some artifact →
    codeField ∉ artifact.metadata.keys

namespace Keeps

/-- What is in the file of an entry. -/
theorem read_iff {content : FileContent} (keeps : Keeps cache files log)
    (known : cache.entryPath identifier = .ok path) :
    files.read path = .ok content ↔
      ∃ artifact, cache.artifactAt? (Path.parts path) log = some artifact ∧
        content = fileOf artifact := by
  obtain ⟨names, some_name, below⟩ := parts_of_entryPath known
  rw [read_entryPath_iff known below some_name, keeps.held names some_name, below,
    Option.map_eq_some_iff]
  constructor
  · rintro ⟨-, artifact, written, rfl⟩
    exact ⟨artifact, written, rfl⟩
  · rintro ⟨artifact, written, rfl⟩
    exact ⟨keeps.reached names artifact written, artifact, written, rfl⟩

/-- Calls that fail leave at most directories behind. -/
theorem withDirectories {made : List Location} (keeps : Keeps cache files log)
    (fresh : ∀ place ∈ made, files.entry? place = none) :
    Keeps cache (files.withDirectories made) log where
  held names some_name := (FileTree.file?_withDirectories fresh _).trans (keeps.held names some_name)
  reached names artifact written := (keeps.reached names artifact written).withDirectories fresh
  plain := keeps.plain

theorem failed (keeps : Keeps cache files log) : Keeps cache files ((call, false) :: log) where
  held names some_name := by rw [artifactAt?_failed, keeps.held names some_name]
  reached names artifact := by
    rw [artifactAt?_failed]
    exact keeps.reached names artifact
  plain parts artifact := by
    rw [artifactAt?_failed]
    exact keeps.plain parts artifact

/-- A file that is set at the place of an entry is what the call says. -/
theorem written {place : Location} (keeps : Keeps cache files log)
    (free : codeField ∉ artifact.metadata.keys)
    (known : cache.entryPath artifact.identifier = .ok path) (found : files.locate path = .ok place)
    (file : files.entry? place ≠ some .directory) :
    Keeps cache (files.set place (.file (fileOf artifact))) ((.write artifact, true) :: log) := by
  obtain ⟨own, some_name, below⟩ := parts_of_entryPath known
  obtain ⟨reaches, rfl⟩ := (locate_entryPath_iff known below some_name).1 found
  have own_parts : cache.entryParts? (Call.write artifact).identifier = _ :=
    entryParts?_of_names known below
  constructor
  case held =>
    intro names some_name
    by_cases same : names = own
    · subst same
      rw [artifactAt?_self own_parts, Call.artifact?, Option.map_some, FileTree.file?_eq_some_iff]
      exact FileTree.entry_set_of_file file
    · rw [artifactAt?_of_names_ne own_parts same, ← keeps.held names some_name]
      refine FileTree.file?_congr (FileTree.entry_set_of_ne fun together => same ?_)
      exact List.append_cancel_left together
  case reached =>
    intro names other written
    by_cases same : names = own
    · subst same
      exact reaches.set file
    · rw [artifactAt?_of_names_ne own_parts same] at written
      exact (keeps.reached names other written).set file
  case plain =>
    intro parts other written
    by_cases same : cache.entryParts? (Call.write artifact).identifier = some parts
    · rw [artifactAt?_self same] at written
      cases written
      exact free
    · rw [artifactAt?_of_ne same] at written
      exact keeps.plain parts other written

/-- A removal that succeeded leaves nothing at its path and all else as it was. -/
theorem removed {own : List (List Char)} (keeps : Keeps cache files log)
    (own_parts : cache.entryParts? (Call.remove identifier).identifier =
      some (cache.parts ++ own.map .name))
    (top : cache.top after = cache.top files) (gone : after.file? (cache.top files ++ own) = none)
    (others : ∀ names, names ≠ own →
      after.file? (cache.top files ++ names) = files.file? (cache.top files ++ names))
    (ways : ∀ parts, files.Reaches parts → after.Reaches parts) :
    Keeps cache after ((.remove identifier, true) :: log) := by
  constructor
  case held =>
    intro names some_name
    rw [top]
    by_cases same : names = own
    · rw [same, gone, artifactAt?_self own_parts]
      rfl
    · rw [others names same, artifactAt?_of_names_ne own_parts same, keeps.held names some_name]
  case reached =>
    intro names artifact written
    by_cases same : names = own
    · rw [same, artifactAt?_self own_parts] at written
      cases written
    · rw [artifactAt?_of_names_ne own_parts same] at written
      exact ways _ (keeps.reached names artifact written)
  case plain =>
    intro parts artifact written
    by_cases same : cache.entryParts? (Call.remove identifier).identifier = some parts
    · rw [artifactAt?_self same] at written
      cases written
    · rw [artifactAt?_of_ne same] at written
      exact keeps.plain parts artifact written

/-- Nothing is below the file of an entry, since the way to it would lead through the file. -/
theorem file?_below (keeps : Keeps cache files log) {own more : List (List Char)}
    {content : FileContent} (file : files.entry? (cache.top files ++ own) = some (.file content))
    (further : more ≠ []) : files.file? (cache.top files ++ (own ++ more)) = none := by
  obtain ⟨name, more, rfl⟩ := List.exists_cons_of_ne_nil further
  rw [keeps.held _ (by simp), Option.map_eq_none_iff]
  cases written : cache.artifactAt? (cache.parts ++ (own ++ name :: more).map .name) log with
  | none => rfl
  | some artifact =>
      have followed := (keeps.reached _ artifact written).followed
      rw [List.map_append, ← List.append_assoc] at followed
      have directory := FileTree.directory_of_follow followed
      rw [destination_parts, file] at directory
      cases directory

/-- An entry that is erased is gone, and no other. -/
theorem erased {place : Location} {content : FileContent} (keeps : Keeps cache files log)
    (known : cache.entryPath identifier = .ok path) (found : files.locate path = .ok place)
    (file : files.entry? place = some (.file content)) :
    Keeps cache (files.erase place) ((.remove identifier, true) :: log) := by
  obtain ⟨own, some_name, below⟩ := parts_of_entryPath known
  obtain ⟨-, rfl⟩ := (locate_entryPath_iff known below some_name).1 found
  have gone {names : List (List Char)} (inside : own <+: names) :
      (files.erase (cache.top files ++ own)).file? (cache.top files ++ names) = none :=
    FileTree.file?_erase_below file ((List.prefix_append_right_inj _).2 inside)
  refine keeps.removed (entryParts?_of_names known below) rfl (gone List.prefix_rfl) ?others
    fun parts reaches => reaches.erase file
  intro names other
  by_cases inside : own <+: names
  · rw [gone inside]
    obtain ⟨more, rfl⟩ := inside
    have further : more ≠ [] := by
      rintro rfl
      exact other (List.append_nil own)
    exact (keeps.file?_below file further).symm
  · refine FileTree.file?_congr (FileTree.entry_erase fun below => inside ?_)
    exact (List.prefix_append_right_inj _).1 below

/-- Where no file is found to remove, none was written. -/
theorem absent (keeps : Keeps cache files log) (known : cache.entryPath identifier = .ok path)
    (missing : files.removeFile path = .error .noEntry) :
    Keeps cache files ((.remove identifier, true) :: log) := by
  obtain ⟨own, some_name, below⟩ := parts_of_entryPath known
  refine keeps.removed (entryParts?_of_names known below) rfl ?gone (fun _ _ => rfl) fun _ => id
  rw [keeps.held own some_name, Option.map_eq_none_iff]
  cases written : cache.artifactAt? (cache.parts ++ own.map .name) log with
  | none => rfl
  | some artifact =>
      have stored := keeps.held own some_name
      rw [written, Option.map_some, FileTree.file?_eq_some_iff] at stored
      have found := (locate_entryPath_iff known below some_name).2
        ⟨keeps.reached own artifact written, rfl⟩
      have removed := FileTree.removeFile_eq_ok_iff.2 ⟨_, _, found, stored, rfl⟩
      rw [missing] at removed
      cases removed

/-- A call keeps the files in step with the log. -/
theorem perform (keeps : Keeps cache files log) (call : Call) :
    Keeps cache (call.perform cache files).1 ((call, (call.perform cache files).2) :: log) := by
  cases call with
  | write artifact =>
      obtain ⟨made, fresh, ⟨⟨error, result⟩, same⟩ |
        ⟨path, place, result, free, known, found, file, same⟩⟩ := write_cases cache artifact files
      · rw [Call.perform, result, same]
        exact (keeps.withDirectories fun place member => (fresh place member).1).failed
      · rw [Call.perform, result, same]
        have made := keeps.withDirectories fun place member => (fresh place member).1
        exact made.written free known found file
  | remove identifier =>
      obtain ⟨⟨error, result⟩, same⟩ | ⟨path, known, ⟨result, same, missing⟩ |
        ⟨place, content, result, found, file, same⟩⟩ := remove_cases cache identifier files
      · rw [Call.perform, result, same]
        exact keeps.failed
      · rw [Call.perform, result, same]
        exact keeps.absent known missing
      · rw [Call.perform, result, same]
        exact keeps.erased known found file

/-- What the calls say is in the file of an identifier. -/
theorem entry_eq (keeps : Keeps cache files log) (identifier : String) :
    cache.entry? files identifier = (cache.artifact? log identifier).map fileOf := by
  unfold entry?
  rw [artifact?, entryParts?]
  cases known : cache.entryPath identifier with
  | error error => rfl
  | ok path =>
      change (files.read path).toOption = (cache.artifactAt? (Path.parts path) log).map fileOf
      cases stored : files.read path with
      | ok content =>
          obtain ⟨artifact, written, rfl⟩ := (keeps.read_iff known).1 stored
          rw [written]
          rfl
      | error fault =>
          cases written : cache.artifactAt? (Path.parts path) log with
          | none => rfl
          | some artifact =>
              rw [(keeps.read_iff known).2 ⟨artifact, written, rfl⟩] at stored
              cases stored

end Keeps

/-- No file is below the directory of the cache. -/
def IsFresh (cache : Cache) (start : FileTree) : Prop :=
  ∀ names content, names ≠ [] → (cache.top start ++ names, .file content) ∉ start.entries

theorem IsFresh.keeps (fresh : cache.IsFresh start) : Keeps cache start [] where
  held names some_name := by
    refine FileTree.file?_eq_none fun content here => ?_
    exact fresh names content some_name (FileTree.mem_entries_of_file here)
  reached _ _ written := nomatch written
  plain _ _ written := nomatch written

/-- A run keeps the files in step with the log. -/
theorem keeps_run (fresh : cache.IsFresh start) (calls : List Call) :
    Keeps cache (cache.run start calls).files (cache.run start calls).log := by
  refine run_induction (fun history => Keeps cache history.files history.log) fresh.keeps ?_ calls
  exact fun history call keeps => keeps.perform call

/-! ### Runs -/

/-- A cache is a table for its callers, whatever is called and whether it succeeds. What is read is
what the last successful write left, decoded by the schema of the cache; it is there until a successful
removal of the same path, and a removal tells whether it was there. A successful call changes no entry
at another path, and a call that fails changes none. -/
theorem run_entries (fresh : cache.IsFresh start) (calls : List Call) :
    let history := cache.run start calls
    (∀ identifier,
      (∀ artifact, cache.artifact? history.log identifier = some artifact →
        cache.read history.files identifier = cache.decoded identifier artifact) ∧
      (cache.artifact? history.log identifier = none →
        ∃ error, cache.read history.files identifier = .error error) ∧
      (cache.contains history.files identifier = true ↔
        (cache.artifact? history.log identifier).isSome = true) ∧
      ((cache.remove identifier history.files).2 = .ok true ↔
        cache.contains history.files identifier = true)) ∧
    ∀ call after succeeded, Call.perform cache history.files call = (after, succeeded) →
      ∀ other, (succeeded = true → cache.entryParts? other ≠ cache.entryParts? call.identifier) →
        cache.entry? after other = cache.entry? history.files other := by
  intro history
  have keeps := keeps_run fresh calls
  refine ⟨fun identifier => ⟨?written, ?none, ?there, remove_eq_true_iff _ _ _⟩, ?others⟩
  case written =>
    intro artifact written
    have free : codeField ∉ artifact.metadata.keys := by
      obtain ⟨parts, -, written⟩ := Option.bind_eq_some_iff.1 written
      exact keeps.plain parts artifact written
    refine read_of_entry free ?_
    rw [keeps.entry_eq, written]
    rfl
  case none =>
    intro none
    refine read_of_entry_none ?_
    rw [keeps.entry_eq, none]
    rfl
  case there => rw [contains_iff, keeps.entry_eq, Option.isSome_map]
  case others =>
    intro call after succeeded performed other apart
    have next := keeps.perform call
    rw [performed] at next
    rw [next.entry_eq, keeps.entry_eq]
    cases succeeded with
    | false => simp only [artifact?, artifactAt?_failed]
    | true =>
        simp only [artifact?]
        cases known : cache.entryParts? other with
        | none => rfl
        | some parts =>
            rw [known] at apart
            exact congrArg _ (artifactAt?_of_ne (Ne.symm (apart rfl)))

/-- A cache of posts. -/
def posts : Cache :=
  ⟨"cache", .precompiled, .blog⟩

/-- A post with one field. -/
def post (identifier name text code : String) : Artifact :=
  ⟨identifier, .ofList [(name, .text text)], .precompiled, code⟩

theorem posts_isFresh : posts.IsFresh .empty := nofun

/-- Posts that are written, and one that is removed. -/
def edits : List Call :=
  [.write (post "b/nested" "title" "B" "<p>"), .write (post "a" "title" "A" "first"),
    .write (post "c" "title" "C" "<p>"), .remove "c", .write (post "a" "title" "A" "second")]

set_option maxRecDepth 10000 in
/-- The later of two posts is read, and a post that was removed is not. -/
theorem run_entries_edits :
    posts.read (posts.run .empty edits).files "a" =
        posts.decoded "a" (post "a" "title" "A" "second") ∧
      ∃ error, posts.read (posts.run .empty edits).files "c" = .error error := by
  have second : posts.artifact? (posts.run .empty edits).log "a" =
      some (post "a" "title" "A" "second") := by decide +kernel
  have removed : posts.artifact? (posts.run .empty edits).log "c" = none := by decide +kernel
  have reads := (run_entries posts_isFresh edits).1
  exact ⟨(reads "a").1 _ second, (reads "c").2.1 removed⟩

set_option maxRecDepth 10000 in
/-- A post with a date that is none is written, and it cannot be read. -/
theorem read_written_date_eq_error :
    ∃ after path, posts.write (post "a" "date" "soon" "<p>x</p>") .empty = (after, .ok path) ∧
      posts.read after "a" = .error (.corrupt "a" (.metadata (.invalidDate "date" "soon"))) := by
  have done : (posts.write (post "a" "date" "soon" "<p>x</p>") .empty).2.isOk = true := by
    decide +kernel
  rcases written : posts.write (post "a" "date" "soon" "<p>x</p>") .empty with ⟨after, result⟩
  rw [written] at done
  cases result with
  | error error => cases done
  | ok path =>
      obtain ⟨free, known, stored⟩ := write_eq_ok written
      have entry : posts.entry? after "a" = some (fileOf (post "a" "date" "soon" "<p>x</p>")) :=
        Option.bind_eq_some_iff.2
          ⟨path, toOption_eq_some_iff.2 known, toOption_eq_some_iff.2 stored⟩
      have refused : Metadata.ofJsonFields posts.schema [codeField]
          (recordFields (post "a" "date" "soon" "<p>x</p>")) =
            .error (.invalidDate "date" "soon") := by rfl
      refine ⟨after, path, rfl, ?_⟩
      rw [read_of_entry free entry, decoded, refused]

end Cache

end DocPress
