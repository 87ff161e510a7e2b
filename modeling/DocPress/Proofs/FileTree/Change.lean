import DocPress.Proofs.FileTree

/-!
Changes of trees. A path can be followed still when directories are added, when a file is placed, and
when a file is removed, since no file is on the way to anything else.

Directories are made along a way as along its first half and then from there on, so a way that was made
once is only followed the next time. What comes is at the places that the way leads through, and nowhere
else.
-/

namespace DocPress.FileTree

variable {tree after : FileTree} {place other start stop : Location} {entry : FileEntry}
  {path : List Char} {content : FileContent} {parts : List PathPart}

/-! ### Changes that leave ways open -/

/-- A way through directories that are still there can still be followed. -/
theorem follow_mono
    (keeps : ∀ place, tree.entry? place = some .directory → after.entry? place = some .directory)
    (followed : tree.follow start parts = .ok stop) : after.follow start parts = .ok stop := by
  induction parts generalizing start with
  | nil => exact followed
  | cons part parts ih =>
      obtain ⟨here, stepped, rest⟩ := follow_cons_eq_ok_iff.1 followed
      exact follow_cons_eq_ok_iff.2 ⟨keeps start here, stepped, ih rest⟩

/-- Places that are not below an erased one are as before. -/
theorem entry_erase (apart : ¬ place <+: other) :
    FileTree.entry? (tree.erase place) other = tree.entry? other := by
  have kept : (tree.entries.filter (!place.isPrefixOf ·.1)).find? (·.1 = other) =
      tree.entries.find? (·.1 = other) := by
    rw [List.find?_filter]
    congr 1
    funext found
    by_cases same : found.1 = other
    · have outside : place.isPrefixOf other = false := by
        rw [Bool.eq_false_iff]
        intro inside
        exact apart (List.isPrefixOf_iff_prefix.1 inside)
      simp [same, outside]
    · simp [same]
  unfold entry?
  rw [erase, kept]

/-- Nothing is left at an erased place and below it, but the directories around the working
directory. -/
theorem entry_erase_below (below : place <+: other)
    (outside : ¬ other <+: tree.workingDirectory) : FileTree.entry? (tree.erase place) other = none := by
  have removed : (tree.entries.filter (!place.isPrefixOf ·.1)).find? (·.1 = other) = none := by
    rw [List.find?_eq_none]
    rintro found member same
    have kept := (List.mem_filter.1 member).2
    rw [of_decide_eq_true same, List.isPrefixOf_iff_prefix.2 below] at kept
    cases kept
  have around : other.isPrefixOf tree.workingDirectory = false := by
    rw [Bool.eq_false_iff]
    intro inside
    exact outside (List.isPrefixOf_iff_prefix.1 inside)
  unfold entry?
  rw [erase, if_neg (by simp [around]), removed]
  rfl

/-- The working directory and the directories around it are there. -/
theorem entry_workingDirectory (around : place <+: tree.workingDirectory) :
    tree.entry? place = some .directory := by
  unfold entry?
  exact if_pos (List.isPrefixOf_iff_prefix.2 around)

/-- The working directory does not lie below a file. -/
theorem not_prefix_of_file (file : tree.entry? place = some (.file content)) :
    ¬ place <+: tree.workingDirectory := by
  intro around
  rw [entry_workingDirectory around] at file
  cases file

/-- A file that was set where no directory was is there. -/
theorem entry_set_of_file (file : tree.entry? place ≠ some .directory) :
    FileTree.entry? (tree.set place entry) place = some entry := by
  refine entry_set_self ?_
  rw [Bool.eq_false_iff]
  intro around
  exact file (entry_workingDirectory (List.isPrefixOf_iff_prefix.1 around))

/-- A way that does not start below a file does not lead past it, so it stays when the file is
erased. -/
theorem follow_erase (file : tree.entry? place = some (.file content)) :
    ∀ {parts : List PathPart} {start stop : Location}, ¬ place <+: start →
      tree.follow start parts = .ok stop → (tree.erase place).follow start parts = .ok stop := by
  intro parts
  induction parts with
  | nil =>
      intro start stop _ followed
      exact followed
  | cons part parts ih =>
      intro start stop outside followed
      obtain ⟨here, stepped, rest⟩ := follow_cons_eq_ok_iff.1 followed
      refine follow_cons_eq_ok_iff.2 ⟨(entry_erase outside).trans here, stepped, ?_⟩
      by_cases inside : place <+: lead start part
      · -- the step ends at the file itself, and nothing can follow it
        cases parts with
        | nil => exact rest
        | cons next parts =>
            have directory := (follow_cons_eq_ok_iff.1 rest).1
            exfalso
            cases part with
            | root =>
                obtain rfl := List.prefix_nil.1 inside
                exact outside List.nil_prefix
            | here => exact outside inside
            | up =>
                have above := List.dropLast_prefix start
                exact outside (inside.trans above)
            | name text =>
                rcases List.prefix_concat_iff.1 inside with rfl | before
                · change tree.entry? (start ++ [text]) = _ at directory
                  rw [directory] at file
                  cases file
                · exact outside before
      · exact ih inside rest

/-! ### Making directories -/

/-- The tree with more directories. -/
def withDirectories (tree : FileTree) (made : List Location) : FileTree :=
  { tree with entries := tree.entries ++ made.map fun place => (place, .directory) }

/-- Where nothing is there is no entry to replace. -/
theorem set_of_none (free : tree.entry? place = none) :
    tree.set place entry = { tree with entries := tree.entries ++ [(place, entry)] } := by
  have others : tree.entries.filter (·.1 ≠ place) = tree.entries := by
    rw [List.filter_eq_self]
    intro found member
    refine decide_eq_true ?_
    rintro rfl
    unfold entry? at free
    split at free
    · cases free
    · rw [Option.map_eq_none_iff, List.find?_eq_none] at free
      exact free found member (decide_eq_true rfl)
  rw [set, others]

/-- What making directories on a way does: directories come where nothing was, at places that the way
leads through. -/
theorem makeWay_fst (tree : FileTree) (start : Location) (parts : List PathPart) :
    ∃ made : List Location, (tree.makeWay start parts).1 = tree.withDirectories made ∧
      ∀ place ∈ made, tree.entry? place = none ∧
        ∃ front, front <+: parts ∧ place = destination start front := by
  induction parts generalizing tree start with
  | nil => exact ⟨[], by simp [makeWay, withDirectories], by simp⟩
  | cons part parts ih =>
      rw [makeWay]
      cases stepped : step start part with
      | error fault => exact ⟨[], by simp [withDirectories], by simp⟩
      | ok next =>
          obtain rfl := lead_of_step stepped
          have behind {place : Location} :
              (∃ front, front <+: parts ∧ place = destination (lead start part) front) →
                ∃ front, front <+: part :: parts ∧ place = destination start front := by
            rintro ⟨front, before, rfl⟩
            exact ⟨part :: front, List.cons_prefix_cons.2 ⟨rfl, before⟩, rfl⟩
          cases here : tree.entry? (lead start part) with
          | none =>
              -- A place that is new behind this one was new before, as only this one has come.
              obtain ⟨made, same, fresh⟩ := ih (tree.set (lead start part) .directory)
                (lead start part)
              refine ⟨lead start part :: made, ?_, ?_⟩
              · simp only [here]
                rw [same, set_of_none here]
                simp [withDirectories]
              · intro place member
                rcases List.mem_cons.1 member with rfl | later
                · exact ⟨here, [part], by simp, rfl⟩
                · obtain ⟨free, through⟩ := fresh place later
                  refine ⟨?_, behind through⟩
                  by_cases same : place = lead start part
                  · rw [same, here]
                  · rwa [entry_set_of_ne same] at free
          | some entry =>
              cases entry with
              | directory =>
                  obtain ⟨made, same, fresh⟩ := ih tree (lead start part)
                  simp only [here]
                  exact ⟨made, same, fun place member =>
                    ⟨(fresh place member).1, behind (fresh place member).2⟩⟩
              | file content => exact ⟨[], by simp [here, withDirectories], by simp⟩

/-- Making directories adds directories at places of the path where nothing was. -/
theorem makeDirectories_fst (tree : FileTree) (path : List Char) :
    ∃ made : List Location, (tree.makeDirectories path).1 = tree.withDirectories made ∧
      ∀ place ∈ made, tree.entry? place = none ∧
        ∃ front, front <+: Path.parts path ∧
          place = destination tree.workingDirectory front := by
  rw [makeDirectories]
  split
  · exact ⟨[], by simp [withDirectories], by simp⟩
  · exact makeWay_fst tree tree.workingDirectory (Path.parts path)

/-- More directories come only where nothing was. -/
theorem entry_withDirectories {made : List Location}
    (fresh : ∀ place ∈ made, tree.entry? place = none) (place : Location) :
    FileTree.entry? (tree.withDirectories made) place = tree.entry? place ∨
      place ∈ made ∧ tree.entry? place = none ∧
        FileTree.entry? (tree.withDirectories made) place = some .directory := by
  by_cases added : place ∈ made
  · have free := fresh place added
    refine .inr ⟨added, free, ?_⟩
    unfold entry? at free
    split at free
    · cases free
    · next outside =>
        rw [Option.map_eq_none_iff] at free
        have found : (made.map fun place => (place, FileEntry.directory)).find? (·.1 = place) =
            some (place, .directory) := by
          cases search : (made.map fun place => (place, FileEntry.directory)).find?
              (·.1 = place) with
          | none =>
              rw [List.find?_eq_none] at search
              exact absurd (decide_eq_true rfl)
                (search (place, .directory) (List.mem_map_of_mem added))
          | some found =>
              obtain ⟨other, -, rfl⟩ := List.mem_map.1 (List.mem_of_find?_eq_some search)
              have same : other = place := by simpa using List.find?_some search
              rw [same]
        unfold entry?
        rw [withDirectories, if_neg outside, List.find?_append, free, Option.none_or, found]
        rfl
  · refine .inl ?_
    have none : (made.map fun place => (place, FileEntry.directory)).find? (·.1 = place) = none := by
      rw [List.find?_eq_none]
      rintro found member same
      obtain ⟨other, inside, rfl⟩ := List.mem_map.1 member
      exact added (of_decide_eq_true same ▸ inside)
    unfold entry?
    rw [withDirectories, List.find?_append, none, Option.or_none]

/-- New directories leave what was there. -/
theorem entry_withDirectories_of_some {made : List Location}
    (fresh : ∀ place ∈ made, tree.entry? place = none) (here : tree.entry? place = some entry) :
    FileTree.entry? (tree.withDirectories made) place = some entry := by
  rcases entry_withDirectories fresh place with same | ⟨-, free, -⟩
  · rw [same, here]
  · rw [here] at free
    cases free

/-! ### Files -/

/-- The content of the file at a place. -/
def file? (tree : FileTree) (place : Location) : Option FileContent :=
  match tree.entry? place with
  | some (.file content) => some content
  | _ => none

/-- A file is found where there is one. -/
theorem file?_eq_some_iff :
    tree.file? place = some content ↔ tree.entry? place = some (.file content) := by
  rw [file?]
  split
  · next own here => simp [here]
  · next other =>
      constructor
      · intro none
        cases none
      · intro here
        exact absurd here (other content)

/-- What is found is around the working directory or among the entries. -/
theorem mem_entries_of_entry (here : tree.entry? place = some entry) :
    place <+: tree.workingDirectory ∨ (place, entry) ∈ tree.entries := by
  unfold entry? at here
  split at here
  · next around => exact .inl (List.isPrefixOf_iff_prefix.1 around)
  · obtain ⟨⟨other, own⟩, found, rfl⟩ := Option.map_eq_some_iff.1 here
    obtain rfl : other = place := by simpa using List.find?_some found
    exact .inr (List.mem_of_find?_eq_some found)

theorem mem_entries_of_file (file : tree.entry? place = some (.file content)) :
    (place, .file content) ∈ tree.entries :=
  (mem_entries_of_entry file).resolve_left (not_prefix_of_file file)

theorem file?_congr (same : after.entry? place = tree.entry? place) :
    after.file? place = tree.file? place := by
  rw [file?, file?, same]

/-- Where there is no file none is found. -/
theorem file?_eq_none (other : ∀ content, tree.entry? place ≠ some (.file content)) :
    tree.file? place = none := by
  cases here : tree.file? place with
  | none => rfl
  | some content => exact absurd (file?_eq_some_iff.1 here) (other content)

/-- New directories are no files. -/
theorem file?_withDirectories {made : List Location}
    (fresh : ∀ place ∈ made, tree.entry? place = none) (place : Location) :
    (tree.withDirectories made).file? place = tree.file? place := by
  rcases entry_withDirectories fresh place with same | ⟨-, free, directory⟩
  · exact file?_congr same
  · rw [file?, file?, free, directory]

/-- No file is left where one was erased, or below it. -/
theorem file?_erase_below (file : tree.entry? place = some (.file content))
    (below : place <+: other) : (tree.erase place).file? other = none := by
  refine file?_eq_none fun content => ?_
  rw [entry_erase_below below fun around => not_prefix_of_file file (below.trans around)]
  exact nofun

/-! ### Parts that can still be followed -/

/-- A path that is reached stays reached while what is on it stays. -/
theorem Reaches.of_follow (reaches : tree.Reaches parts)
    (same : after.workingDirectory = tree.workingDirectory)
    (keeps : ∀ stop, tree.follow tree.workingDirectory parts = .ok stop →
      after.follow tree.workingDirectory parts = .ok stop) : after.Reaches parts := by
  refine ⟨?_, reaches.null⟩
  rw [same]
  exact keeps _ reaches.followed

/-- New directories keep what is reached. -/
theorem Reaches.withDirectories {made : List Location}
    (fresh : ∀ place ∈ made, tree.entry? place = none) (reaches : tree.Reaches parts) :
    (tree.withDirectories made).Reaches parts := by
  refine reaches.of_follow rfl fun stop followed => follow_mono (fun place directory => ?_) followed
  exact entry_withDirectories_of_some fresh directory

theorem Reaches.set (reaches : tree.Reaches parts) (file : tree.entry? place ≠ some .directory) :
    (tree.set place entry).Reaches parts :=
  reaches.of_follow rfl fun _ followed => follow_set file followed

theorem Reaches.erase (reaches : tree.Reaches parts)
    (file : tree.entry? place = some (.file content)) : (tree.erase place).Reaches parts :=
  reaches.of_follow rfl fun _ followed => follow_erase file (not_prefix_of_file file) followed

/-! ### Ways that can be made -/

/-- Directories are made on the way through parts, which can be followed then to a directory. -/
structure MakesWay (tree : FileTree) (start : Location) (parts : List PathPart) : Prop where
  done : (tree.makeWay start parts).2 = .ok ()
  followed : (tree.makeWay start parts).1.follow start parts = .ok (destination start parts)
  directory : FileTree.entry? (tree.makeWay start parts).1 (destination start parts) =
    some .directory

/-- A way is made when it is made from its next place on. -/
theorem MakesWay.of_next {part : PathPart} (stepped : step start part = .ok (lead start part))
    (here : after.entry? start = some .directory)
    (same : tree.makeWay start (part :: parts) = after.makeWay (lead start part) parts)
    (next : after.MakesWay (lead start part) parts) : tree.MakesWay start (part :: parts) := by
  obtain ⟨made, added, fresh⟩ := after.makeWay_fst (lead start part) parts
  refine ⟨same ▸ next.done, follow_cons_eq_ok_iff.2 ⟨?_, stepped, same ▸ next.followed⟩,
    same ▸ next.directory⟩
  rw [same, added]
  exact entry_withDirectories_of_some (fun place member => (fresh place member).1) here

/-- Where no file is in the way and names are short, directories are made to the end of a way. -/
theorem makesWay_of_clear
    (clear : ∀ front, front <+: parts → front ≠ [] → tree.file? (destination start front) = none)
    (short : ∀ name, PathPart.name name ∈ parts → (String.ofList name).utf8ByteSize ≤ longestName)
    (here : tree.entry? start = some .directory) : tree.MakesWay start parts := by
  induction parts generalizing tree start with
  | nil => exact ⟨rfl, rfl, here⟩
  | cons part parts ih =>
      have stepped : step start part = .ok (lead start part) := by
        cases part with
        | root | here | up => rfl
        | name text =>
            rw [step, if_neg (Nat.not_lt.2 (short text List.mem_cons_self))]
            rfl
      have onward : ∀ name, PathPart.name name ∈ parts →
          (String.ofList name).utf8ByteSize ≤ longestName :=
        fun name member => short name (List.mem_cons_of_mem part member)
      have clear' : ∀ front, front <+: parts → front ≠ [] →
          tree.file? (destination (lead start part) front) = none := fun front before _ =>
        clear (part :: front) (List.cons_prefix_cons.2 ⟨rfl, before⟩) (List.cons_ne_nil part front)
      cases next : tree.entry? (lead start part) with
      | some entry =>
          cases entry with
          | directory =>
              refine .of_next stepped here ?_ (ih clear' onward next)
              simp only [makeWay, stepped, next]
          | file content =>
              have free : tree.file? (lead start part) = none :=
                clear [part] (List.cons_prefix_cons.2 ⟨rfl, List.nil_prefix⟩) (List.cons_ne_nil part [])
              rw [file?_eq_some_iff.2 next] at free
              cases free
      | none =>
          -- What is made here is a directory, so no file is in the way behind it either.
          have vacant : tree.entry? (lead start part) ≠ some .directory := by
            rw [next]
            exact (Option.some_ne_none _).symm
          have apart : start ≠ lead start part := by
            intro same
            rw [← same, here] at next
            cases next
          have made : FileTree.entry? (tree.set (lead start part) .directory) (lead start part) =
              some .directory := entry_set_of_file vacant
          refine .of_next stepped ((entry_set_of_ne apart).trans here) ?_
            (ih (fun front before some_part => ?_) onward made)
          · simp only [makeWay, stepped, next]
          · by_cases same : destination (lead start part) front = lead start part
            · rw [same, file?, made]
            · rw [file?_congr (entry_set_of_ne same), clear' front before some_part]

/-- Where no file is in the way, a directory is made at a path of short names. -/
theorem makeDirectories_of_no_file (none : ∀ place, tree.file? place = none)
    (null : '\x00' ∉ path)
    (short : ∀ name, PathPart.name name ∈ Path.parts path →
      (String.ofList name).utf8ByteSize ≤ longestName) :
    (tree.makeDirectories path).2 = .ok () ∧
      (tree.makeDirectories path).1.follow tree.workingDirectory (Path.parts path) =
        .ok (destination tree.workingDirectory (Path.parts path)) ∧
      FileTree.entry? (tree.makeDirectories path).1
        (destination tree.workingDirectory (Path.parts path)) = some .directory := by
  rw [makeDirectories, if_neg (by rwa [List.contains_iff_mem])]
  have way := makesWay_of_clear (fun _ _ _ => none _) short (entry_workingDirectory List.prefix_rfl)
  exact ⟨way.done, way.followed, way.directory⟩

variable {front : List PathPart}

/-! ### Ways in two halves -/

/-- What a way that could be made has done with its first part. -/
theorem makeWay_cons_of_done {part : PathPart}
    (done : (tree.makeWay start (part :: parts)).2 = .ok ()) :
    step start part = .ok (lead start part) ∧ ∃ middle : FileTree,
      middle.entry? (lead start part) = some .directory ∧
      (tree.entry? start = some .directory → middle.entry? start = some .directory) ∧
      ∀ more, tree.makeWay start (part :: more) = middle.makeWay (lead start part) more := by
  cases stepped : step start part with
  | error fault =>
      rw [makeWay, stepped] at done
      cases done
  | ok next =>
      obtain rfl := lead_of_step stepped
      refine ⟨rfl, ?_⟩
      cases here : tree.entry? (lead start part) with
      | none =>
          have vacant : tree.entry? (lead start part) ≠ some .directory := by
            rw [here]
            exact (Option.some_ne_none _).symm
          refine ⟨tree.set (lead start part) .directory, entry_set_of_file vacant, fun directory => ?_,
            fun more => by simp only [makeWay, stepped, here]⟩
          rwa [entry_set_of_ne]
          intro same
          rw [← same, directory] at here
          cases here
      | some entry =>
          cases entry with
          | directory =>
              exact ⟨tree, here, id, fun more => by simp only [makeWay, stepped, here]⟩
          | file content =>
              simp only [makeWay, stepped, here] at done
              split at done <;> cases done

/-- A way is made from where its first half ends. -/
theorem makeWay_append (done : (tree.makeWay start front).2 = .ok ()) (back : List PathPart) :
    tree.makeWay start (front ++ back) =
      (tree.makeWay start front).1.makeWay (destination start front) back := by
  induction front generalizing tree start with
  | nil => rfl
  | cons part front ih =>
      obtain ⟨-, middle, -, -, same⟩ := makeWay_cons_of_done done
      rw [List.cons_append, same, same]
      rw [same] at done
      exact ih done

/-- A way from a directory that could be made can be followed. -/
theorem makesWay_of_done (here : tree.entry? start = some .directory)
    (done : (tree.makeWay start parts).2 = .ok ()) : tree.MakesWay start parts := by
  induction parts generalizing tree start with
  | nil => exact ⟨rfl, rfl, here⟩
  | cons part parts ih =>
      obtain ⟨stepped, middle, next, kept, same⟩ := makeWay_cons_of_done done
      rw [same] at done
      exact .of_next stepped (kept here) (same parts) (ih next done)

/-- On a way that can be followed nothing is to be made. -/
theorem makeWay_of_follow (followed : tree.follow start parts = .ok stop)
    (directory : tree.entry? stop = some .directory) : tree.makeWay start parts = (tree, .ok ()) := by
  induction parts generalizing start with
  | nil => rfl
  | cons part parts ih =>
      obtain ⟨-, stepped, rest⟩ := follow_cons_eq_ok_iff.1 followed
      have next : tree.entry? (lead start part) = some .directory := by
        cases parts with
        | nil =>
            cases rest
            exact directory
        | cons other parts => exact (follow_cons_eq_ok_iff.1 rest).1
      simp only [makeWay, stepped, next]
      exact ih rest

/-! ### Names on the way -/

/-- What is followed has names that are not too long. -/
theorem short_of_follow (followed : tree.follow start parts = .ok stop) {name : List Char}
    (member : PathPart.name name ∈ parts) : (String.ofList name).utf8ByteSize ≤ longestName := by
  induction parts generalizing start with
  | nil => cases member
  | cons part parts ih =>
      obtain ⟨-, stepped, rest⟩ := follow_cons_eq_ok_iff.1 followed
      rcases List.mem_cons.1 member with rfl | later
      · rw [step] at stepped
        split at stepped
        · cases stepped
        · next short => exact Nat.not_lt.1 short
      · exact ih rest later

/-- A path with a last name that is too long leads nowhere. -/
theorem locate_of_long {path last : List Char} (known : Path.parts path = front ++ [.name last])
    (null : '\x00' ∉ path) (long : longestName < (String.ofList last).utf8ByteSize)
    (followed : tree.follow tree.workingDirectory front = .ok stop)
    (directory : tree.entry? stop = some .directory) : tree.locate path = .error .nameTooLong := by
  have some_char : path ≠ [] := by
    rintro rfl
    exact absurd known (by simp [Path.parts, Path.partsOf, Path.part?, Text.splitOn])
  rw [locate, if_neg (by rwa [List.contains_iff_mem]), if_neg (by rwa [List.isEmpty_iff]), known,
    follow_append, followed]
  simp only [bind, Except.bind, follow, requireDirectory_eq_ok_iff.2 directory, step, if_pos long]

/-! ### What is there then -/

/-- Making a way leaves the working directory. -/
theorem makeWay_workingDirectory (tree : FileTree) (start : Location) (parts : List PathPart) :
    (tree.makeWay start parts).1.workingDirectory = tree.workingDirectory := by
  obtain ⟨made, same, -⟩ := tree.makeWay_fst start parts
  rw [same]
  rfl

/-- Making directories leaves the working directory. -/
theorem makeDirectories_workingDirectory (tree : FileTree) (path : List Char) :
    (tree.makeDirectories path).1.workingDirectory = tree.workingDirectory := by
  obtain ⟨made, same, -⟩ := tree.makeDirectories_fst path
  rw [same]
  rfl

/-- Making directories keeps what is there. -/
theorem entry_makeWay_of_some {entry : FileEntry} (here : tree.entry? place = some entry)
    (start : Location) (parts : List PathPart) :
    FileTree.entry? (tree.makeWay start parts).1 place = some entry := by
  obtain ⟨made, same, fresh⟩ := tree.makeWay_fst start parts
  rw [same]
  exact entry_withDirectories_of_some (fun place member => (fresh place member).1) here

/-- The places on a way that was made are directories. -/
theorem MakesWay.entry_front (way : tree.MakesWay start parts) (before : front <+: parts) :
    FileTree.entry? (tree.makeWay start parts).1 (destination start front) = some .directory := by
  obtain ⟨back, rfl⟩ := before
  cases back with
  | nil =>
      have directory := way.directory
      rwa [List.append_nil] at directory ⊢
  | cons part back => exact directory_of_follow way.followed

/-- Places that a way does not lead through are as before. -/
theorem entry_makeWay_of_apart
    (apart : ∀ front, front <+: parts → place ≠ destination start front) :
    FileTree.entry? (tree.makeWay start parts).1 place = tree.entry? place := by
  obtain ⟨made, same, fresh⟩ := tree.makeWay_fst start parts
  rw [same]
  rcases entry_withDirectories (fun place member => (fresh place member).1) place with
    old | ⟨member, -, -⟩
  · exact old
  · obtain ⟨-, front, before, through⟩ := fresh place member
    exact absurd through (apart front before)

/-- The places that names lead through are those of their starts. -/
theorem exists_prefix_map_iff {names : List (List Char)} :
    (∃ front, front <+: names.map PathPart.name ∧ place = destination start front) ↔
      ∃ front, front <+: names ∧ place = start ++ front := by
  constructor
  · rintro ⟨front, before, rfl⟩
    obtain ⟨own, first, rfl⟩ := List.prefix_map_iff.1 before
    exact ⟨own, first, destination_names start own⟩
  · rintro ⟨front, before, rfl⟩
    exact ⟨front.map .name, before.map _, (destination_names start front).symm⟩

end DocPress.FileTree
