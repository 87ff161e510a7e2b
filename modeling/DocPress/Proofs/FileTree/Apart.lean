import DocPress.Proofs.FileTree.Listing

/-!
Changes in one part of a tree that are not seen in another. What changes below a place brings
directories on the way to it as well. Where such a directory comes, something was missing before on
every way that leads through its place, and the same is missing still unless the way goes on to where
the change was.
-/

namespace DocPress.FileTree

variable {tree before middle after : FileTree} {top other place start : Location} {path : List Char}
  {entry : FileEntry} {content : FileContent} {names more : List (List Char)}
  {lead parts : List PathPart}

/-! ### Changes below a place -/

/-- All that changed is at a place and below it, and directories that came on the way to it. -/
structure ChangesBelow (top : Location) (before after : FileTree) : Prop where
  workingDirectory : after.workingDirectory = before.workingDirectory
  entry : ∀ place, ¬ top <+: place → after.entry? place = before.entry? place ∨
    place <+: top ∧ before.entry? place = none ∧ after.entry? place = some .directory
  listed : ∀ other, ¬ top <+: other → ¬ other <+: top → after.filesUnder other = before.filesUnder other

/-- What is below a place apart from another is not below the other. -/
theorem not_prefix_append (apart : ¬ top <+: other) (apart' : ¬ other <+: top) (names : Location) :
    ¬ top <+: other ++ names := by
  intro inside
  rcases List.prefix_or_prefix_of_prefix inside (List.prefix_append other names) with below | around
  · exact apart below
  · exact apart' around

namespace ChangesBelow

theorem refl (top : Location) (tree : FileTree) : ChangesBelow top tree tree :=
  ⟨rfl, fun _ _ => .inl rfl, fun _ _ _ => rfl⟩

theorem trans (first : ChangesBelow top before middle) (second : ChangesBelow top middle after) :
    ChangesBelow top before after where
  workingDirectory := second.workingDirectory.trans first.workingDirectory
  entry place outside := by
    rcases second.entry place outside with same | ⟨around, free, directory⟩
    · rw [same]
      exact first.entry place outside
    · rcases first.entry place outside with same | ⟨-, -, directory'⟩
      · exact .inr ⟨around, same ▸ free, directory⟩
      · rw [free] at directory'
        cases directory'
  listed other apart apart' := (second.listed other apart apart').trans (first.listed other apart apart')

theorem withDirectories {made : List Location} (fresh : ∀ place ∈ made, tree.entry? place = none)
    (near : ∀ place ∈ made, top <+: place ∨ place <+: top) :
    ChangesBelow top tree (tree.withDirectories made) where
  workingDirectory := rfl
  entry place outside := by
    rcases entry_withDirectories fresh place with same | ⟨member, free, directory⟩
    · exact .inl same
    · exact .inr ⟨(near place member).resolve_left outside, free, directory⟩
  listed other _ _ := filesUnder_withDirectories tree made other

/-- Entries that are dropped below a place are not listed elsewhere. -/
theorem filterMap_filter_apart (tree : FileTree) (keep : Location → Bool)
    (kept : ∀ place, ¬ top <+: place → keep place = true) (apart : ¬ top <+: other)
    (apart' : ¬ other <+: top) :
    (tree.entries.filter fun found => keep found.1).filterMap (fileNames? other) =
      tree.filesUnder other := by
  have all : ∀ names, keep (other ++ names) = true := fun names =>
    kept _ (not_prefix_append apart apart' names)
  rw [tree.filterMap_filter_fileNames keep (fun _ => true) all, List.filter_true]

theorem set (below : top <+: place) (entry : FileEntry) :
    ChangesBelow top tree (tree.set place entry) where
  workingDirectory := rfl
  entry other outside := by
    refine .inl (entry_set_of_ne ?_)
    rintro rfl
    exact outside below
  listed other apart apart' := by
    have unlisted : fileNames? other (place, entry) = none := by
      cases found : fileNames? other (place, entry) with
      | none => rfl
      | some names =>
          obtain ⟨content, same⟩ := fileNames?_eq_some_iff.1 found
          obtain ⟨rfl, -⟩ := Prod.mk.inj same
          exact absurd below (not_prefix_append apart apart' names)
    have kept : ∀ found, ¬ top <+: found → decide (found ≠ place) = true := by
      intro found outside
      refine decide_eq_true ?_
      rintro rfl
      exact outside below
    rw [filesUnder, FileTree.set, List.filterMap_append, List.filterMap_cons_none unlisted,
      List.filterMap_nil, List.append_nil]
    exact filterMap_filter_apart tree (· ≠ place) kept apart apart'

theorem erase (below : top <+: place) : ChangesBelow top tree (tree.erase place) where
  workingDirectory := rfl
  entry other outside := .inl (entry_erase fun inside => outside (below.trans inside))
  listed other apart apart' := by
    refine filterMap_filter_apart tree (!place.isPrefixOf ·) (fun found outside => ?_) apart apart'
    rw [Bool.not_eq_true', Bool.eq_false_iff, Ne, List.isPrefixOf_iff_prefix]
    exact fun inside => outside (below.trans inside)

end ChangesBelow

/-! ### What is seen along a way -/

/-- What parts lead to from a place. -/
def lookAlong (tree : FileTree) (start : Location) (parts : List PathPart) :
    Except FileFault FileEntry := do
  match tree.entry? (← tree.follow start parts) with
  | some entry => return entry
  | none => throw .noEntry

theorem lookAlong_cons (tree : FileTree) (start : Location) (part : PathPart)
    (parts : List PathPart) :
    tree.lookAlong start (part :: parts) = (do
      tree.requireDirectory start
      tree.lookAlong (← step start part) parts) := by
  simp only [lookAlong, follow, bind_assoc]

theorem lookAlong_append {front back : List PathPart} {stop : Location}
    (followed : tree.follow start front = .ok stop) :
    tree.lookAlong start (front ++ back) = tree.lookAlong stop back := by
  simp only [lookAlong, follow_append, followed]
  rfl

/-- From a place where nothing is nothing is seen. -/
theorem lookAlong_of_none (none : tree.entry? start = none) (parts : List PathPart) :
    tree.lookAlong start parts = .error .noEntry := by
  cases parts with
  | nil => simp [lookAlong, follow, bind, Except.bind, none, throw, throwThe, MonadExceptOf.throw]
  | cons part parts =>
      rw [lookAlong_cons, requireDirectory, none]
      rfl

/-- What is at a path is what its parts lead to. A path that asks for a directory shows no file. -/
theorem look_eq (tree : FileTree) (path : List Char) :
    tree.look path =
      if path.contains '\x00' then .error .nullInName
      else if path.isEmpty then .error .noEntry
      else do
        let entry ← tree.lookAlong tree.workingDirectory (Path.parts path)
        if asksForDirectory path ∧ entry ≠ .directory then throw .notDirectory
        return entry := by
  rw [look, locate]
  by_cases null : path.contains '\x00' = true
  · rw [if_pos null, if_pos null]
    rfl
  by_cases blank : path.isEmpty = true
  · rw [if_neg null, if_neg null, if_pos blank, if_pos blank]
    rfl
  rw [if_neg null, if_neg null, if_neg blank, if_neg blank, lookAlong]
  cases tree.follow tree.workingDirectory (Path.parts path) with
  | error fault => rfl
  | ok place =>
      by_cases asked : asksForDirectory path = true
      · cases here : tree.entry? place with
        | none =>
            simp only [bind, Except.bind, asked, if_true, requireDirectory, here]
            rfl
        | some entry =>
            cases entry <;>
              simp [bind, Except.bind, asked, requireDirectory, here, pure, Except.pure, throw,
                throwThe, MonadExceptOf.throw]
      · cases here : tree.entry? place <;>
          simp [bind, Except.bind, asked, here, pure, Except.pure, throw, throwThe,
            MonadExceptOf.throw]

/-- Paths of the same parts show the same files, unless they ask for directories. -/
theorem look_file_of_parts {path' : List Char} (same : Path.parts path' = Path.parts path)
    (filled : Path.parts path ≠ []) (plain : asksForDirectory path = false)
    (plain' : asksForDirectory path' = false) (looked : tree.look path = .ok entry) :
    tree.look path' = .ok entry := by
  obtain ⟨place, found, here⟩ := look_eq_ok_iff.1 looked
  refine look_eq_ok_iff.2 ⟨place, ?_, here⟩
  rw [locate_eq_ok_iff_reaches filled plain] at found
  rwa [locate_eq_ok_iff_reaches (same ▸ filled) plain', target, same]

/-! ### What is not seen -/

/-- The same is seen along a way when its start is as before and the same is seen from there on. -/
theorem lookAlong_cons_congr {part : PathPart} (here : after.entry? start = before.entry? start)
    (next : after.lookAlong (FileTree.lead start part) parts =
      before.lookAlong (FileTree.lead start part) parts) :
    after.lookAlong start (part :: parts) = before.lookAlong start (part :: parts) := by
  have required : after.requireDirectory start = before.requireDirectory start := by
    rw [requireDirectory, requireDirectory, here]
  rw [lookAlong_cons, lookAlong_cons, required]
  cases before.requireDirectory start with
  | error fault => rfl
  | ok _ =>
      cases stepped : step start part with
      | error fault => rfl
      | ok middle =>
          obtain rfl := lead_of_step stepped
          exact next

/-- Along a way whose places are all as before the same is seen. -/
theorem lookAlong_congr (same : ∀ more, after.entry? (start ++ more) = before.entry? (start ++ more))
    (names : List (List Char)) :
    after.lookAlong start (names.map .name) = before.lookAlong start (names.map .name) := by
  have here : after.entry? start = before.entry? start := by simpa using same []
  induction names generalizing start with
  | nil => simp only [lookAlong, List.map_nil, follow, bind, Except.bind, here]
  | cons name names ih =>
      have onward (rest : List (List Char)) :
          after.entry? (start ++ [name] ++ rest) = before.entry? (start ++ [name] ++ rest) := by
        rw [List.append_assoc]
        exact same _
      exact lookAlong_cons_congr here (ih onward (same [name]))

/-- A way to and below a place apart shows what it showed before: where a directory came on it, nothing
had been and the next place is still empty. Names on the way are to be short, for a name that is too
long is a fault only in a directory that is there. -/
theorem ChangesBelow.lookAlong_eq (changes : ChangesBelow top before after)
    (closed : before.IsClosed) (apart : ¬ top <+: start ++ names) (apart' : ¬ start ++ names <+: top)
    (short : ∀ name ∈ names, (String.ofList name).utf8ByteSize ≤ longestName)
    (more : List (List Char)) :
    after.lookAlong start ((names ++ more).map .name) =
      before.lookAlong start ((names ++ more).map .name) := by
  induction names generalizing start with
  | nil =>
      rw [List.append_nil] at apart apart'
      refine lookAlong_congr (fun rest => ?_) _
      rcases changes.entry _ (not_prefix_append apart apart' rest) with same | ⟨around, -, -⟩
      · exact same
      · exact absurd ((List.prefix_append start rest).trans around) apart'
  | cons name names ih =>
      rw [List.forall_mem_cons] at short
      have next := @ih (start ++ [name]) (by simpa using apart) (by simpa using apart') short.2
      have outside : ¬ top <+: start := fun below => apart (below.trans (List.prefix_append start _))
      rcases changes.entry start outside with same | ⟨-, free, directory⟩
      · exact lookAlong_cons_congr same next
      · rw [lookAlong_of_none free, List.cons_append, List.map_cons, lookAlong_cons,
          requireDirectory, directory, step, if_neg (Nat.not_lt.2 short.1)]
        exact next.trans (lookAlong_of_none (closed.none_below free name) _)

/-! ### The way to the names -/

/-- Parts that are no names lead from the working directory to directories around it. -/
theorem follow_lead (plain : ∀ part ∈ lead, Path.isName part = false)
    (around : start <+: tree.workingDirectory) :
    tree.follow start lead = .ok (destination start lead) ∧
      destination start lead <+: tree.workingDirectory := by
  induction lead generalizing start with
  | nil => exact ⟨rfl, around⟩
  | cons part lead ih =>
      rw [List.forall_mem_cons] at plain
      have inside : FileTree.lead start part <+: tree.workingDirectory ∧
          step start part = .ok (FileTree.lead start part) := by
        cases part with
        | root => exact ⟨List.nil_prefix, rfl⟩
        | here => exact ⟨around, rfl⟩
        | up =>
            have above := List.dropLast_prefix start
            exact ⟨above.trans around, rfl⟩
        | name text => cases plain.1
      obtain ⟨followed, below⟩ := ih plain.2 inside.1
      exact ⟨follow_cons_eq_ok_iff.2 ⟨entry_workingDirectory around, inside.2, followed⟩, below⟩

/-- The start of such a way leads to a directory around the working directory, or to the start of the
names. -/
theorem destination_start (plain : ∀ part ∈ lead, Path.isName part = false) {front : List PathPart}
    (before : front <+: lead ++ names.map .name) :
    destination tree.workingDirectory front <+: tree.workingDirectory ∨
      ∃ some_names, some_names <+: names ∧ destination tree.workingDirectory front =
        destination tree.workingDirectory lead ++ some_names := by
  rcases List.prefix_or_prefix_of_prefix before (List.prefix_append lead _) with inside | beyond
  · refine .inl (follow_lead (fun part member => ?_) List.prefix_rfl).2
    exact plain part (inside.subset member)
  · obtain ⟨rest, rfl⟩ := beyond
    obtain ⟨some_names, start, rfl⟩ :=
      List.prefix_map_iff.1 ((List.prefix_append_right_inj lead).1 before)
    exact .inr ⟨some_names, start, by rw [destination_append, destination_names]⟩

/-- The directories that are made on such a way come before its last name. -/
theorem entry_beyond_made {made : List Location} {last : List Char}
    (plain : ∀ part ∈ lead, Path.isName part = false)
    (fresh : ∀ place ∈ made, tree.entry? place = none ∧ ∃ front, front <+: lead ++ names.map .name ∧
      place = destination tree.workingDirectory front)
    (vacant : tree.entry? (destination tree.workingDirectory lead ++ (names ++ [last])) = none) :
    FileTree.entry? (tree.withDirectories made)
      (destination tree.workingDirectory lead ++ (names ++ [last])) = none := by
  rcases entry_withDirectories (fun place member => (fresh place member).1)
    (destination tree.workingDirectory lead ++ (names ++ [last])) with old | ⟨member, -, -⟩
  · rw [old, vacant]
  · obtain ⟨-, front, before, same⟩ := fresh _ member
    rcases destination_start plain before with outside | ⟨some_names, inside, same'⟩
    · rw [← same] at outside
      rw [entry_workingDirectory outside] at vacant
      cases vacant
    · rw [same', List.append_cancel_left_eq] at same
      have shorter := (same ▸ inside).length_le
      rw [List.length_append, List.length_singleton] at shorter
      exact absurd shorter (Nat.not_succ_le_self _)

/-- A path to a place apart, or to one below it, shows what it showed before. -/
theorem ChangesBelow.look_eq (changes : ChangesBelow top before after) (closed : before.IsClosed)
    (plain : ∀ part ∈ lead, Path.isName part = false)
    (short : ∀ name ∈ names, (String.ofList name).utf8ByteSize ≤ longestName)
    (apart : ¬ top <+: destination before.workingDirectory lead ++ names)
    (apart' : ¬ destination before.workingDirectory lead ++ names <+: top)
    (known : Path.parts path = lead ++ (names ++ more).map .name) :
    after.look path = before.look path := by
  have first : before.follow before.workingDirectory lead =
      .ok (destination before.workingDirectory lead) := (follow_lead plain List.prefix_rfl).1
  have second : after.follow after.workingDirectory lead =
      .ok (destination after.workingDirectory lead) := (follow_lead plain List.prefix_rfl).1
  rw [FileTree.look_eq, FileTree.look_eq, known, lookAlong_append first, lookAlong_append second,
    changes.workingDirectory, changes.lookAlong_eq closed apart apart' short]

end DocPress.FileTree
