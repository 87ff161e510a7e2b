import DocPress.FileTree
import DocPress.Proofs.Path.Below
import DocPress.Proofs.Result

/-!
Reading what was written. A file that has been placed at a path is read back from that path: the way
to it leads through directories, and placing a file does not change them.

The parts of a path alone decide the place that it leads to, and the tree decides whether it can be
followed.
-/

namespace DocPress.FileTree

variable {tree after : FileTree} {place other start stop : Location} {entry : FileEntry}
  {path : List Char} {content : FileContent} {parts : List PathPart}

/-! ### Entries -/

/-- What was set at a place that is not the working directory is there. -/
theorem entry_set_self (free : place.isPrefixOf tree.workingDirectory = false) :
    FileTree.entry? (tree.set place entry) place = some entry := by
  have others : (tree.entries.filter (·.1 ≠ place)).find? (·.1 = place) = none := by
    rw [List.find?_eq_none]
    intro found member
    simpa using (List.mem_filter.1 member).2
  unfold entry?
  rw [set, if_neg (by simp [free]), List.find?_append, others]
  simp

/-- Other places are as before. -/
theorem entry_set_of_ne (apart : other ≠ place) :
    FileTree.entry? (tree.set place entry) other = tree.entry? other := by
  have others : (tree.entries.filter (·.1 ≠ place)).find? (·.1 = other) =
      tree.entries.find? (·.1 = other) := by
    rw [List.find?_filter]
    congr 1
    funext found
    by_cases same : found.1 = other
    · simp [same, apart]
    · simp [same]
  have last : [(place, entry)].find? (·.1 = other) = none := by
    simpa using apart.symm
  unfold entry?
  rw [set, List.find?_append, others, last, Option.or_none]

/-- A directory is required where one is. -/
theorem requireDirectory_eq_ok_iff :
    tree.requireDirectory place = .ok () ↔ tree.entry? place = some .directory := by
  rw [requireDirectory]
  split
  · next here => simp [here]
  · next here => simp [here]
  · next here => simp [here]

/-! ### The way to a place -/

/-- A way through directories stays when something else than a directory is replaced. -/
theorem follow_set (file : tree.entry? place ≠ some .directory) :
    ∀ {parts : List PathPart} {start stop : Location}, tree.follow start parts = .ok stop →
      (tree.set place entry).follow start parts = .ok stop := by
  intro parts
  induction parts with
  | nil => exact id
  | cons part parts ih =>
      intro start stop found
      rw [follow] at found ⊢
      cases here : tree.requireDirectory start with
      | error fault => rw [here] at found; cases found
      | ok _ =>
          have directory := requireDirectory_eq_ok_iff.1 here
          have apart : start ≠ place := by
            rintro rfl
            exact file directory
          rw [requireDirectory_eq_ok_iff.2 ((entry_set_of_ne apart).trans directory)]
          rw [here] at found
          cases next : step start part with
          | error fault => rw [next] at found; cases found
          | ok middle =>
              rw [next] at found
              exact ih found

/-- A path that leads to something else than a directory leads there still when that is replaced. -/
theorem locate_set (file : tree.entry? place ≠ some .directory)
    (found : tree.locate path = .ok place) : (tree.set place entry).locate path = .ok place := by
  rw [locate] at found ⊢
  by_cases null : path.contains '\x00' = true
  · rw [if_pos null] at found
    cases found
  by_cases blank : path.isEmpty = true
  · rw [if_neg null, if_pos blank] at found
    cases found
  rw [if_neg null, if_neg blank] at found ⊢
  cases followed : tree.follow tree.workingDirectory (Path.parts path) with
  | error fault => rw [followed] at found; cases found
  | ok reached =>
      have kept : (tree.set place entry).follow (tree.set place entry).workingDirectory
          (Path.parts path) = .ok reached := follow_set file followed
      rw [followed] at found
      rw [kept]
      by_cases asked : asksForDirectory path = true
      · -- a path that asks for a directory would have led to one
        simp only [bind, Except.bind, asked, if_true] at found
        cases here : tree.requireDirectory reached with
        | error fault => rw [here] at found; cases found
        | ok _ =>
            rw [here] at found
            cases found
            exact absurd (requireDirectory_eq_ok_iff.1 here) file
      · simpa [bind, Except.bind, asked] using found

/-! ### Placing and reading -/

/-- What placing a file does: it is set where the path leads, where no directory was. -/
theorem place_eq_ok (placed : tree.place path content = .ok after) :
    ∃ place, tree.locate path = .ok place ∧ tree.entry? place ≠ some .directory ∧
      after = tree.set place (.file content) := by
  rw [FileTree.place] at placed
  by_cases null : path.contains '\x00' = true
  · rw [if_pos null] at placed
    cases placed
  rw [if_neg null] at placed
  cases found : tree.locate path with
  | error fault => rw [found] at placed; cases placed
  | ok place =>
      rw [found] at placed
      simp only [bind, Except.bind, pure, Except.pure] at placed
      split at placed
      · cases placed
      · next file =>
          cases placed
          exact ⟨place, rfl, file, rfl⟩

/-- A file that was placed at a path is read from it. -/
theorem read_place (placed : tree.place path content = .ok after) :
    after.read path = .ok content := by
  obtain ⟨place, found, file, rfl⟩ := place_eq_ok placed
  have free : place.isPrefixOf tree.workingDirectory = false := by
    rw [Bool.eq_false_iff]
    intro around
    apply file
    unfold entry?
    exact if_pos around
  rw [read, look, locate_set file found]
  simp only [bind, Except.bind, entry_set_self free]
  rfl

/-! ### Destinations -/

/-- Where a part of a path leads from a place, if it can be followed. -/
def lead (place : Location) : PathPart → Location
  | .root => []
  | .here => place
  | .up => place.dropLast
  | .name text => place ++ [text]

/-- Where parts of a path lead from a place, if they can be followed. -/
def destination (place : Location) (parts : List PathPart) : Location :=
  parts.foldl lead place

theorem destination_append (place : Location) (front back : List PathPart) :
    destination place (front ++ back) = destination (destination place front) back :=
  List.foldl_append

/-- Names lead down one after another. -/
theorem destination_names (place : Location) (names : List (List Char)) :
    destination place (names.map .name) = place ++ names := by
  induction names generalizing place with
  | nil => exact (List.append_nil place).symm
  | cons name names ih =>
      change destination (place ++ [name]) (names.map .name) = _
      rw [ih, List.append_assoc]
      rfl

/-- Parts lead up to a place around the one that they start from, and from there through their own
names. -/
theorem destination_eq (place : Location) (parts : List PathPart) :
    ∃ front names, front <+: place ∧ destination place parts = front ++ names ∧
      ∀ name ∈ names, PathPart.name name ∈ parts := by
  induction parts using List.reverseRecOn with
  | nil => exact ⟨place, [], List.prefix_rfl, (List.append_nil place).symm, by simp⟩
  | append_singleton parts part ih =>
      obtain ⟨front, names, around, stop, own⟩ := ih
      have onward : destination place (parts ++ [part]) = lead (front ++ names) part := by
        rw [destination_append, stop]
        rfl
      have kept : ∀ name ∈ names, PathPart.name name ∈ parts ++ [part] := fun name member =>
        List.mem_append_left _ (own name member)
      rw [onward]
      cases part with
      | root => exact ⟨[], [], List.nil_prefix, rfl, by simp⟩
      | here => exact ⟨front, names, around, rfl, kept⟩
      | up =>
          rcases List.eq_nil_or_concat' names with rfl | ⟨names, last, rfl⟩
          · have above := List.dropLast_prefix front
            refine ⟨front.dropLast, [], above.trans around, ?_, by simp⟩
            rw [List.append_nil, List.append_nil]
            rfl
          · refine ⟨front, names, around, ?_, fun name member =>
              kept name (List.mem_append_left _ member)⟩
            rw [lead, ← List.append_assoc, List.dropLast_concat]
      | name text =>
          refine ⟨front, names ++ [text], around, List.append_assoc _ _ _, ?_⟩
          rw [List.forall_mem_append, List.forall_mem_singleton]
          exact ⟨kept, by simp⟩

/-- Below the place that they start from, parts lead through their own names. -/
theorem mem_of_destination_eq {names : List (List Char)}
    (below : destination place parts = place ++ names) :
    ∀ name ∈ names, PathPart.name name ∈ parts := by
  obtain ⟨front, own, ⟨rest, rfl⟩, stop, known⟩ := destination_eq place parts
  rw [stop, List.append_assoc, List.append_cancel_left_eq] at below
  intro name member
  exact known name (below ▸ List.mem_append_right rest member)

/-- A step leads where its part does. -/
theorem lead_of_step {part : PathPart} {next : Location} (stepped : step place part = .ok next) :
    next = lead place part := by
  cases part with
  | root | here | up => exact (Except.ok.inj stepped).symm
  | name text =>
      rw [step] at stepped
      split at stepped
      · cases stepped
      · exact (Except.ok.inj stepped).symm

/-- What following parts that are not at their end goes through. -/
theorem follow_cons_eq_ok_iff {part : PathPart} :
    tree.follow start (part :: parts) = .ok stop ↔
      tree.entry? start = some .directory ∧ step start part = .ok (lead start part) ∧
        tree.follow (lead start part) parts = .ok stop := by
  rw [follow, ← requireDirectory_eq_ok_iff]
  constructor
  · intro followed
    cases here : tree.requireDirectory start with
    | error fault => rw [here] at followed; cases followed
    | ok _ =>
        rw [here] at followed
        cases stepped : step start part with
        | error fault => rw [stepped] at followed; cases followed
        | ok next =>
            obtain rfl := lead_of_step stepped
            rw [stepped] at followed
            exact ⟨rfl, rfl, followed⟩
  · rintro ⟨here, stepped, followed⟩
    rw [here, stepped]
    exact followed

/-- Following parts ends at their destination. -/
theorem destination_of_follow (followed : tree.follow start parts = .ok stop) :
    stop = destination start parts := by
  induction parts generalizing start with
  | nil =>
      cases followed
      rfl
  | cons part parts ih => exact ih (follow_cons_eq_ok_iff.1 followed).2.2

/-- Parts are followed to the end when the front is, and the back from there. -/
theorem follow_append_eq_ok_iff {front back : List PathPart} :
    tree.follow start (front ++ back) = .ok stop ↔
      tree.follow start front = .ok (destination start front) ∧
        tree.follow (destination start front) back = .ok stop := by
  rw [follow_append]
  constructor
  · intro followed
    cases first : tree.follow start front with
    | error fault => rw [first] at followed; cases followed
    | ok middle =>
        rw [first] at followed
        rw [← destination_of_follow first]
        exact ⟨rfl, followed⟩
  · rintro ⟨first, second⟩
    rw [first]
    exact second

/-- A way that goes on leads through a directory. -/
theorem directory_of_follow {part : PathPart} {front back : List PathPart}
    (followed : tree.follow start (front ++ part :: back) = .ok stop) :
    tree.entry? (destination start front) = some .directory :=
  (follow_cons_eq_ok_iff.1 (follow_append_eq_ok_iff.1 followed).2).1

/-! ### Paths that ask for directories -/

/-- A path asks for a directory when its last segment is empty or a dot. -/
theorem asksForDirectory_eq {front : List (List Char)} {last : List Char}
    (segments : Text.splitOn Path.isSeparator path = front ++ [last]) :
    asksForDirectory path = (last.isEmpty || last = ['.']) := by
  rw [asksForDirectory, segments, List.getLast?_concat]

/-- What is taken from a directory asks for a directory when it does by itself. -/
theorem asksForDirectory_within (relative : path.head? ≠ some '/') (directory : List Char) :
    asksForDirectory (Path.within directory path) = asksForDirectory path := by
  by_cases blank : directory = []
  · rw [blank, Path.within, if_pos (by simp)]
  · obtain ⟨front, opened, -⟩ := Path.opened_eq directory
    obtain ⟨more, last, segments⟩ : ∃ more last, Text.splitOn Path.isSeparator path = more ++ [last] :=
      ⟨_, _, (List.dropLast_concat_getLast (Text.splitOn_ne_nil _)).symm⟩
    have whole : Text.splitOn Path.isSeparator (Path.within directory path) =
        (Text.splitOn Path.isSeparator front ++ more) ++ [last] := by
      rw [Path.within_eq relative blank, opened, List.append_assoc, List.singleton_append,
        Text.splitOn_append_cons (by decide), segments, List.append_assoc]
    rw [asksForDirectory_eq whole, asksForDirectory_eq segments]

/-- Joined names ask for no directory. -/
theorem asksForDirectory_join {names : List (List Char)} (some_name : names ≠ [])
    (proper : ∀ name ∈ names, Path.IsFileName name) : asksForDirectory (Path.join names) = false := by
  have segments := Path.splitOn_join some_name fun name member => (proper name member).slash
  obtain ⟨front, last, rfl⟩ := (List.eq_nil_or_concat' names).resolve_left some_name
  have own := proper last (by simp)
  rw [asksForDirectory_eq segments]
  simp [own.nonempty, own.ne_here]

/-! ### Where paths lead -/

/-- The place that a path leads to, if it can be followed. -/
def target (tree : FileTree) (path : List Char) : Location :=
  destination tree.workingDirectory (Path.parts path)

/-- A path is located when its parts can be followed, to a directory if it asks for one. -/
theorem locate_eq_ok_iff :
    tree.locate path = .ok place ↔
      '\x00' ∉ path ∧ path ≠ [] ∧ tree.follow tree.workingDirectory (Path.parts path) = .ok place ∧
        (asksForDirectory path = true → tree.entry? place = some .directory) := by
  rw [locate]
  by_cases null : path.contains '\x00' = true
  · simp [bind, Except.bind, throw, throwThe, MonadExceptOf.throw, List.contains_iff_mem.1 null]
  by_cases blank : path.isEmpty = true
  · simp [bind, Except.bind, throw, throwThe, MonadExceptOf.throw, List.isEmpty_iff.1 blank]
  rw [if_neg null, if_neg blank]
  rw [List.contains_iff_mem] at null
  rw [List.isEmpty_iff] at blank
  cases followed : tree.follow tree.workingDirectory (Path.parts path) with
  | error fault => simp [bind, Except.bind]
  | ok reached =>
      by_cases asked : asksForDirectory path = true
      · cases here : tree.requireDirectory reached with
        | error fault =>
            have other : tree.entry? reached ≠ some .directory := by
              intro directory
              rw [requireDirectory_eq_ok_iff.2 directory] at here
              cases here
            simp only [bind, Except.bind, asked, if_true, here, reduceCtorEq, false_iff]
            rintro ⟨-, -, same, directory⟩
            cases same
            exact other (directory trivial)
        | ok _ =>
            have directory := requireDirectory_eq_ok_iff.1 here
            simp only [bind, Except.bind, asked, if_true, here, pure, Except.pure]
            constructor
            · intro same
              cases same
              exact ⟨null, blank, rfl, fun _ => directory⟩
            · rintro ⟨-, -, same, -⟩
              exact same
      · simp [bind, Except.bind, asked, null, blank, pure, Except.pure]

theorem target_of_locate (found : tree.locate path = .ok place) : place = tree.target path :=
  destination_of_follow (locate_eq_ok_iff.1 found).2.2.1

/-! ### What is at a path -/

/-- An entry is found when its path is located and it is there. -/
theorem look_eq_ok_iff :
    tree.look path = .ok entry ↔
      ∃ place, tree.locate path = .ok place ∧ tree.entry? place = some entry := by
  rw [look, bind_eq_ok_iff]
  apply exists_congr
  intro place
  apply and_congr_right
  intro _
  cases tree.entry? place with
  | none => simp [throw, throwThe, MonadExceptOf.throw]
  | some found => simp [pure, Except.pure]

/-- A content is read when it is that of a file. -/
theorem read_eq_ok_iff :
    tree.read path = .ok content ↔ tree.look path = .ok (.file content) := by
  rw [read, bind_eq_ok_iff]
  constructor
  · rintro ⟨entry, looked, given⟩
    cases entry with
    | directory => cases given
    | file own =>
        cases given
        exact looked
  · intro looked
    exact ⟨_, looked, rfl⟩

/-- A path is one of a file when a file is found. -/
theorem isFile_iff : tree.isFile path = true ↔ ∃ content, tree.look path = .ok (.file content) := by
  rw [isFile]
  cases tree.look path with
  | error fault => simp
  | ok entry => cases entry <;> simp

/-- Removing a file takes its entry away and nothing else. -/
theorem removeFile_eq_ok_iff :
    tree.removeFile path = .ok after ↔
      ∃ place content, tree.locate path = .ok place ∧ tree.entry? place = some (.file content) ∧
        after = tree.erase place := by
  rw [removeFile, bind_eq_ok_iff]
  apply exists_congr
  intro place
  cases here : tree.entry? place with
  | none => simp [throw, throwThe, MonadExceptOf.throw]
  | some entry =>
      cases entry with
      | directory => simp [throw, throwThe, MonadExceptOf.throw]
      | file own => simp [pure, Except.pure, eq_comm]

/-- A path leads on from the directory that all of its parts but the last lead to. -/
theorem locate_of_follow {front : List PathPart} {last : List Char}
    (known : Path.parts path = front ++ [.name last]) (null : '\x00' ∉ path)
    (plain : asksForDirectory path = false)
    (short : (String.ofList last).utf8ByteSize ≤ longestName)
    (followed : tree.follow tree.workingDirectory front =
      .ok (destination tree.workingDirectory front))
    (directory : tree.entry? (destination tree.workingDirectory front) = some .directory) :
    tree.locate path = .ok (destination tree.workingDirectory front ++ [last]) := by
  refine locate_eq_ok_iff.2 ⟨null, ?_, ?_, fun asked => absurd asked (by simp [plain])⟩
  · rintro rfl
    exact absurd known (by simp [Path.parts, Path.partsOf, Path.part?, Text.splitOn])
  · rw [known, follow_append_eq_ok_iff]
    refine ⟨followed, follow_cons_eq_ok_iff.2 ⟨directory, ?_, rfl⟩⟩
    rw [step, if_neg (Nat.not_lt.2 short)]
    rfl

/-- Where a path leads to no directory a file is placed. -/
theorem place_of_locate (found : tree.locate path = .ok place)
    (file : tree.entry? place ≠ some .directory) (content : FileContent) :
    tree.place path content = .ok (tree.set place (.file content)) := by
  have null := (locate_eq_ok_iff.1 found).1
  rw [FileTree.place, if_neg (by rwa [List.contains_iff_mem])]
  simp only [bind, Except.bind, found]
  rfl

/-- A file is what can be removed. -/
theorem isFile_iff_removeFile : tree.isFile path = true ↔ ∃ after, tree.removeFile path = .ok after := by
  simp only [isFile_iff, look_eq_ok_iff, removeFile_eq_ok_iff]
  constructor
  · rintro ⟨content, place, found, file⟩
    exact ⟨_, place, content, found, file, rfl⟩
  · rintro ⟨_, place, content, found, file, -⟩
    exact ⟨content, place, found, file⟩

/-! ### Parts that can be followed -/

/-- Whether parts can be followed from the working directory and hold no null character. -/
structure Reaches (tree : FileTree) (parts : List PathPart) : Prop where
  followed : tree.follow tree.workingDirectory parts =
    .ok (destination tree.workingDirectory parts)
  null : ∀ name, PathPart.name name ∈ parts → '\x00' ∉ name

/-- A path that asks for no directory is located by its parts alone. -/
theorem locate_eq_ok_iff_reaches (filled : Path.parts path ≠ [])
    (plain : asksForDirectory path = false) :
    tree.locate path = .ok place ↔
      tree.Reaches (Path.parts path) ∧ place = tree.target path := by
  have nonempty : path ≠ [] := by
    rintro rfl
    exact filled rfl
  rw [locate_eq_ok_iff, Path.null_not_mem_iff, plain]
  constructor
  · rintro ⟨clear, -, followed, -⟩
    obtain rfl := destination_of_follow followed
    exact ⟨⟨followed, clear⟩, rfl⟩
  · rintro ⟨⟨followed, clear⟩, rfl⟩
    exact ⟨clear, nonempty, followed, fun asked => absurd asked (by decide)⟩

end DocPress.FileTree
