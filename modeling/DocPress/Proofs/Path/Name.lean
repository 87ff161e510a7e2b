import DocPress.Proofs.Path

/-!
Paths that are made of names. Names that are joined by slashes are the parts of what they make, and a
path holds the characters that its names hold.
-/

namespace DocPress.Path

/-! ### Names -/

/-- A text that is a name when it stands between slashes. -/
structure IsFileName (name : List Char) : Prop where
  nonempty : name ≠ []
  ne_here : name ≠ ['.']
  ne_up : name ≠ ['.', '.']
  slash : '/' ∉ name

variable {name : List Char} {names segments : List (List Char)} {directory path : List Char}

/-- A file's name is not empty, no dots for a directory and without a slash. -/
theorem isFileName_iff :
    IsFileName name ↔ name ≠ [] ∧ name ≠ ['.'] ∧ name ≠ ['.', '.'] ∧ '/' ∉ name :=
  ⟨fun proper => ⟨proper.nonempty, proper.ne_here, proper.ne_up, proper.slash⟩,
    fun ⟨nonempty, ne_here, ne_up, slash⟩ => ⟨nonempty, ne_here, ne_up, slash⟩⟩

instance (name : List Char) : Decidable (IsFileName name) :=
  decidable_of_iff _ isFileName_iff.symm

theorem isSeparator_eq_false_iff {c : Char} : isSeparator c = false ↔ c ≠ '/' := by
  simp [isSeparator]

theorem isSeparator_of_not_mem (slash : '/' ∉ name) : ∀ c ∈ name, isSeparator c = false := by
  intro c inside
  apply isSeparator_eq_false_iff.2
  rintro rfl
  exact slash inside

theorem IsFileName.part? (proper : IsFileName name) (first : Bool) :
    Path.part? first name = some (.name name) := by
  simp [Path.part?, proper.nonempty, proper.ne_here, proper.ne_up]

/-- A segment that is read as a name is that of a file. -/
theorem isFileName_of_part? {segment : List Char} {first : Bool} (slash : '/' ∉ segment)
    (part : Path.part? first segment = some (.name name)) : segment = name ∧ IsFileName name := by
  rw [Path.part?] at part
  split at part
  · cases part
  · next nonempty =>
      split at part
      · split at part <;> cases part
      · next ne_here =>
          split at part
          · cases part
          · next ne_up =>
              cases part
              exact ⟨rfl, by simpa using nonempty, ne_here, ne_up, slash⟩

/-- The names among parts are texts that stand between slashes. -/
theorem isFileName_of_mem_partsOf {first : Bool} (slash : ∀ segment ∈ segments, '/' ∉ segment)
    (member : PathPart.name name ∈ partsOf first segments) : IsFileName name := by
  induction segments generalizing first with
  | nil => cases member
  | cons segment rest ih =>
      rw [List.forall_mem_cons] at slash
      rw [partsOf, List.mem_append, Option.mem_toList] at member
      rcases member with own | behind
      · exact (isFileName_of_part? slash.1 own).2
      · exact ih slash.2 behind

/-- Where all parts are names, what is between slashes is a name, a single dot or nothing. -/
theorem isFileName_of_isName {first : Bool} (slash : ∀ segment ∈ segments, '/' ∉ segment)
    (plain : (partsOf first segments).all isName = true) {segment : List Char}
    (member : segment ∈ segments) (nonempty : segment ≠ []) (ne_here : segment ≠ ['.']) :
    IsFileName segment := by
  induction segments generalizing first with
  | nil => cases member
  | cons head rest ih =>
      rw [List.forall_mem_cons] at slash
      rw [partsOf, List.all_append, Bool.and_eq_true, part?_isName_iff] at plain
      rcases List.mem_cons.1 member with rfl | behind
      · exact ⟨nonempty, ne_here, plain.1.1, slash.1⟩
      · exact ih slash.2 plain.2 behind

theorem IsFileName.filled (proper : IsFileName name) : name ≠ [] ∧ '/' ∉ name :=
  ⟨proper.nonempty, proper.slash⟩

/-- A name in front is no slash. -/
theorem IsFileName.head?_ne (proper : IsFileName name) : name.head? ≠ some '/' := by
  intro head
  exact proper.slash (List.mem_of_mem_head? head)

/-- Files' names are the parts they are read as. -/
theorem partsOf_names (proper : ∀ name ∈ names, IsFileName name) (first : Bool) :
    partsOf first names = names.map .name := by
  induction names generalizing first with
  | nil => rfl
  | cons name names ih =>
      rw [List.forall_mem_cons] at proper
      rw [partsOf, proper.1.part? first, ih proper.2]
      rfl

/-! ### Joining -/

theorem join_singleton (segment : List Char) : join [segment] = segment :=
  List.intercalate_singleton

theorem join_cons (segment : List Char) (nonempty : segments ≠ []) :
    join (segment :: segments) = segment ++ '/' :: join segments := by
  rw [join, List.intercalate_cons_of_ne_nil nonempty, List.append_assoc]
  rfl

/-- What was joined is found between the slashes. -/
theorem splitOn_join (nonempty : segments ≠ []) (slash : ∀ segment ∈ segments, '/' ∉ segment) :
    Text.splitOn isSeparator (join segments) = segments :=
  Text.splitOn_intercalate (by decide) nonempty fun segment member =>
    isSeparator_of_not_mem (slash segment member)

/-- What is between the slashes makes the text again. -/
theorem join_splitOn (text : List Char) : join (Text.splitOn isSeparator text) = text := by
  induction text with
  | nil => exact join_singleton []
  | cons c rest ih =>
      have behind := Text.splitOn_ne_nil (p := isSeparator) rest
      rw [Text.splitOn]
      by_cases slash : c = '/'
      · subst slash
        rw [if_pos (by decide), join_cons [] behind, ih]
        rfl
      · rw [if_neg (by simpa [isSeparator] using slash)]
        cases parts : Text.splitOn isSeparator rest with
        | nil => exact absurd parts behind
        | cons first more =>
            rw [parts] at ih
            by_cases last : more = []
            · subst last
              rw [join_singleton] at ih ⊢
              rw [ih]
            · rw [join_cons first last] at ih
              rw [join_cons (c :: first) last, List.cons_append, ih]

theorem not_mem_of_mem_splitOn {text segment : List Char}
    (member : segment ∈ Text.splitOn isSeparator text) : '/' ∉ segment := by
  intro slash
  exact absurd ((Text.of_mem_splitOn member _ slash).2) (by decide)

theorem eq_nil_of_join_eq_nil (slash : ∀ segment ∈ segments, '/' ∉ segment)
    (blank : join segments = []) : segments = [] ∨ segments = [[]] := by
  by_cases none : segments = []
  · exact .inl none
  · have split := splitOn_join none slash
    rw [blank] at split
    exact .inr split.symm

theorem join_ne_nil_of_filled (some_segment : segments ≠ [])
    (filled : ∀ segment ∈ segments, segment ≠ [] ∧ '/' ∉ segment) : join segments ≠ [] := by
  intro blank
  rcases eq_nil_of_join_eq_nil (fun segment member => (filled segment member).2) blank with
    rfl | rfl
  · exact some_segment rfl
  · exact (filled [] List.mem_cons_self).1 rfl

theorem join_ne_nil (nonempty : names ≠ []) (proper : ∀ name ∈ names, IsFileName name) :
    join names ≠ [] :=
  join_ne_nil_of_filled nonempty fun name member => (proper name member).filled

/-- Joined texts start with no slash if none of them is empty. -/
theorem head?_join_ne_of_filled (filled : ∀ segment ∈ segments, segment ≠ [] ∧ '/' ∉ segment) :
    (join segments).head? ≠ some '/' := by
  cases segments with
  | nil => simp [join]
  | cons segment rest =>
      rw [List.forall_mem_cons] at filled
      have first : segment.head? ≠ some '/' := fun head => filled.1.2 (List.mem_of_mem_head? head)
      by_cases last : rest = []
      · subst last
        rwa [join_singleton]
      · rwa [join_cons segment last, List.head?_append_of_ne_nil _ filled.1.1]

/-- Joined names start with a name. -/
theorem head?_join_ne (proper : ∀ name ∈ names, IsFileName name) :
    (join names).head? ≠ some '/' :=
  head?_join_ne_of_filled fun name member => (proper name member).filled

/-- Files' names are read back from the path they are joined to. -/
theorem parts_join (proper : ∀ name ∈ names, IsFileName name) :
    parts (join names) = names.map .name := by
  rw [parts_eq_partsOf (head?_join_ne proper)]
  by_cases none : names = []
  · subst none
    rfl
  · rw [splitOn_join none fun name member => (proper name member).slash, partsOf_names proper]

theorem mem_join {c : Char} (member : c ∈ join segments) :
    c = '/' ∨ ∃ segment ∈ segments, c ∈ segment :=
  Text.mem_intercalate member

theorem not_mem_join {c : Char} (slash : c ≠ '/') (clear : ∀ segment ∈ segments, c ∉ segment) :
    c ∉ join segments := by
  intro member
  rcases mem_join member with rfl | ⟨segment, inside, found⟩
  · exact slash rfl
  · exact clear segment inside found

/-- Where no text holds a backslash there is none to replace in what they are joined to. -/
theorem map_join_eq_self (backslash : ∀ segment ∈ segments, '\\' ∉ segment) :
    ((join segments).map fun c => if c = '\\' then '/' else c) = join segments := by
  refine (List.map_congr_left fun c inside => if_neg ?_).trans (List.map_id _)
  rintro rfl
  exact not_mem_join (by decide) backslash inside

/-- A character of a segment is one of the path. -/
theorem mem_join_of_mem {c : Char} {segment : List Char} (inside : segment ∈ segments)
    (member : c ∈ segment) : c ∈ join segments := by
  induction segments with
  | nil => cases inside
  | cons first rest ih =>
      by_cases last : rest = []
      · subst last
        obtain rfl := List.mem_singleton.1 inside
        rwa [join_singleton]
      · rw [join_cons first last, List.mem_append, List.mem_cons]
        rcases List.mem_cons.1 inside with rfl | behind
        · exact .inl member
        · exact .inr (.inr (ih behind))

theorem isFileName_of_mem_parts (member : PathPart.name name ∈ parts path) : IsFileName name := by
  unfold parts at member
  split at member
  · exact isFileName_of_mem_partsOf (fun _ => not_mem_of_mem_splitOn)
      ((List.mem_cons.1 member).resolve_left nofun)
  · exact isFileName_of_mem_partsOf (fun _ => not_mem_of_mem_splitOn) member

/-- A character other than a dot is in a segment exactly when it is in a name. -/
theorem exists_name_of_mem_segments {c : Char} (here : c ≠ '.') (first : Bool) :
    (∃ segment ∈ segments, c ∈ segment) ↔
      ∃ name, PathPart.name name ∈ partsOf first segments ∧ c ∈ name := by
  induction segments generalizing first with
  | nil => simp [partsOf]
  | cons segment rest ih =>
      have own : c ∈ segment ↔ ∃ name, part? first segment = some (.name name) ∧ c ∈ name := by
        rw [part?]
        constructor
        · intro inside
          refine ⟨segment, ?_, inside⟩
          rw [if_neg (by simp [List.ne_nil_of_mem inside]), if_neg, if_neg]
          · rintro rfl
            simp [here] at inside
          · rintro rfl
            simp [here] at inside
        · rintro ⟨name, part, inside⟩
          split at part
          · cases part
          · split at part
            · split at part <;> cases part
            · split at part <;> cases part
              exact inside
      simp only [List.exists_mem_cons_iff, partsOf, List.mem_append, Option.mem_toList,
        or_and_right, exists_or, own, ih false]

/-- A character that is neither a slash nor a dot is in a path when it is in one of its names. -/
theorem mem_iff_of_ne {c : Char} (slash : c ≠ '/') (here : c ≠ '.') :
    c ∈ path ↔ ∃ name, PathPart.name name ∈ parts path ∧ c ∈ name := by
  have segments (text : List Char) :
      c ∈ text ↔ ∃ segment ∈ Text.splitOn isSeparator text, c ∈ segment := by
    constructor
    · intro inside
      rw [← join_splitOn text] at inside
      exact (mem_join inside).resolve_left slash
    · rintro ⟨segment, member, inside⟩
      rw [← join_splitOn text]
      exact mem_join_of_mem member inside
  unfold parts
  split
  · next rest =>
      rw [List.mem_cons, or_iff_right slash, segments, exists_name_of_mem_segments here false]
      simp
  · rw [segments, exists_name_of_mem_segments here true]

theorem null_not_mem_iff :
    '\x00' ∉ path ↔ ∀ name, PathPart.name name ∈ parts path → '\x00' ∉ name := by
  rw [mem_iff_of_ne (by decide) (by decide)]
  push Not
  rfl

theorem join_append {back : List (List Char)} (front : segments ≠ []) (behind : back ≠ []) :
    join (segments ++ back) = join segments ++ '/' :: join back := by
  induction segments with
  | nil => exact absurd rfl front
  | cons segment rest ih =>
      by_cases single : rest = []
      · subst single
        rw [join_singleton, List.singleton_append, join_cons segment behind]
      · rw [List.cons_append, join_cons segment (by simp [single]), ih single,
          join_cons segment single, List.append_assoc, List.cons_append]

/-- Joined texts end with no slash if none of them is empty. -/
theorem getLast?_join_ne_of_filled (filled : ∀ segment ∈ segments, segment ≠ [] ∧ '/' ∉ segment) :
    (join segments).getLast? ≠ some '/' := by
  rcases List.eq_nil_or_concat' segments with rfl | ⟨front, last, rfl⟩
  · simp [join]
  · have own := filled last (by simp)
    have ends : (join (front ++ [last])).getLast? = last.getLast? := by
      by_cases none : front = []
      · rw [none, List.nil_append, join_singleton]
      · rw [join_append none (by simp), join_singleton,
          List.getLast?_append_of_ne_nil _ (List.cons_ne_nil _ _), List.getLast?_cons_of_ne_nil own.1]
    rw [ends]
    exact fun tail => own.2 (List.mem_of_getLast? tail)

/-- What stands behind joined texts goes on the last of them. -/
theorem join_concat_append (front : List (List Char)) (last rest : List Char) :
    join (front ++ [last]) ++ rest = join (front ++ [last ++ rest]) := by
  by_cases none : front = []
  · subst none
    rw [List.nil_append, List.nil_append, join_singleton, join_singleton]
  · rw [join_append none (by simp), join_append none (by simp), join_singleton, join_singleton,
      List.append_assoc, List.cons_append]

/-- The start of a relative path is relative. -/
theorem head?_join_of_start (relative : path.head? ≠ some '/')
    (start : segments <+: Text.splitOn isSeparator path) : (join segments).head? ≠ some '/' := by
  obtain ⟨back, whole⟩ := start
  intro head
  apply relative
  rw [← join_splitOn path, ← whole]
  by_cases last : back = []
  · rw [last, List.append_nil]
    exact head
  by_cases none : segments = []
  · rw [none] at head
    cases head
  · rw [join_append none last, List.head?_append, head]
    rfl

end DocPress.Path
