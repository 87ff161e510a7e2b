import DocPress.FileTree
import DocPress.Proofs.Text

/-!
Paths below a directory. A path is below another when only names follow the parts of the other, and
then it leads to a place below the place that the other leads to.
-/

namespace DocPress

namespace Path

/-! ### Parts of texts between slashes -/

theorem partsOf_append (first : Bool) (front back : List (List Char)) :
    partsOf first (front ++ back) =
      partsOf first front ++ partsOf (first && front.isEmpty) back := by
  induction front generalizing first with
  | nil => rw [List.isEmpty_nil, Bool.and_true]; rfl
  | cons segment front ih =>
      rw [List.cons_append, partsOf, partsOf, ih false, List.append_assoc, Bool.false_and,
        List.isEmpty_cons, Bool.and_false]

/-- Only the dot depends on what is in front of it. -/
theorem part?_eq_of_ne_dot {segment : List Char} (other : segment ≠ ['.']) (here there : Bool) :
    part? here segment = part? there segment := by
  rw [part?, part?, if_neg other, if_neg other]

/-- Texts that stand for names in front stand for the same names everywhere. -/
theorem partsOf_of_isName {segments : List (List Char)}
    (plain : (partsOf true segments).all isName = true) (first : Bool) :
    partsOf first segments = partsOf true segments := by
  cases segments with
  | nil => rfl
  | cons segment rest =>
      have other : segment ≠ ['.'] := by
        rintro rfl
        exact absurd plain (by simp [partsOf, part?, isName])
      rw [partsOf, partsOf, part?_eq_of_ne_dot other first true]

/-- A text stands for a name or for nothing, unless it leads up or is a dot with nothing in front of
it. -/
theorem part?_isName_iff (first : Bool) (segment : List Char) :
    (part? first segment).toList.all isName = true ↔
      segment ≠ ['.', '.'] ∧ ¬ (first = true ∧ segment = ['.']) := by
  by_cases blank : segment = []
  · subst blank
    simp [part?]
  by_cases dot : segment = ['.']
  · subst dot
    cases first <;> simp [part?, isName]
  by_cases dots : segment = ['.', '.']
  · subst dots
    simp [part?, isName]
  · simp [part?, isName, blank, dot, dots]

/-! ### Paths within directories -/

theorem parts_eq_partsOf {path : List Char} (relative : path.head? ≠ some '/') :
    parts path = partsOf true (Text.splitOn isSeparator path) := by
  unfold parts
  split
  · exact absurd rfl relative
  · rfl

/-- What follows a slash adds its parts to what is in front of it. -/
theorem parts_append_cons {front : List Char} (nonempty : front ≠ []) (back : List Char) :
    parts (front ++ '/' :: back) =
      parts front ++ partsOf false (Text.splitOn isSeparator back) := by
  have separated (text : List Char) :
      Text.splitOn isSeparator (text ++ '/' :: back) =
        Text.splitOn isSeparator text ++ Text.splitOn isSeparator back :=
    Text.splitOn_append_cons (by decide) text back
  cases front with
  | nil => exact absurd rfl nonempty
  | cons c rest =>
      by_cases absolute : c = '/'
      · subst absolute
        show PathPart.root :: partsOf false (Text.splitOn isSeparator (rest ++ '/' :: back)) =
          PathPart.root :: partsOf false (Text.splitOn isSeparator rest) ++ _
        rw [separated, partsOf_append, Bool.false_and, List.cons_append]
      · have relative (more : List Char) : (c :: more).head? ≠ some '/' := by simpa using absolute
        have some_part : (Text.splitOn isSeparator (c :: rest)).isEmpty = false := by
          simpa using Text.splitOn_ne_nil (c :: rest)
        rw [List.cons_append, parts_eq_partsOf (relative _), parts_eq_partsOf (relative _),
          ← List.cons_append, separated, partsOf_append, some_part, Bool.and_false]

/-- A relative path adds its parts to the directory that it is taken from. -/
theorem parts_within {path : List Char} (relative : path.head? ≠ some '/')
    (directory : List Char) :
    parts (within directory path) =
      parts directory ++ partsOf directory.isEmpty (Text.splitOn isSeparator path) := by
  unfold within
  by_cases blank : directory = []
  · subst blank
    rw [if_pos (by simp), parts_eq_partsOf relative]
    rfl
  · have filled : directory.isEmpty = false := by simpa using blank
    rw [if_neg (by simp [relative, blank]), filled]
    by_cases closed : directory.getLast? = some '/'
    · obtain ⟨front, rfl⟩ := List.getLast?_eq_some_iff.mp closed
      rw [if_pos closed, List.append_assoc, List.singleton_append]
      by_cases top : front = []
      · subst top
        rfl
      · rw [parts_append_cons top, parts_append_cons top]
        simp [Text.splitOn, partsOf, part?]
    · rw [if_neg closed, parts_append_cons blank]

/-! ### Below a directory -/

/-- Only names follow the parts of the directory. -/
def IsBelow (directory path : List Char) : Prop :=
  ∃ names : List (List Char), parts path = parts directory ++ names.map PathPart.name

theorem isName_all_iff {found : List PathPart} :
    found.all isName = true ↔ ∃ names : List (List Char), found = names.map PathPart.name := by
  constructor
  · intro plain
    induction found with
    | nil => exact ⟨[], rfl⟩
    | cons part rest ih =>
        rw [List.all_cons, Bool.and_eq_true] at plain
        obtain ⟨names, rfl⟩ := ih plain.2
        cases part with
        | name text => exact ⟨text :: names, rfl⟩
        | root | here | up => exact absurd plain.1 (by decide)
  · rintro ⟨names, rfl⟩
    simp [isName]

/-- A path is below a directory exactly when all that it adds are names. -/
theorem isBelow_iff {directory path : List Char} {added : List PathPart}
    (split : parts path = parts directory ++ added) :
    IsBelow directory path ↔ added.all isName = true := by
  rw [isName_all_iff, IsBelow, split]
  simp only [List.append_cancel_left_eq]

theorem isBelow_nil_iff {path : List Char} :
    IsBelow [] path ↔ (parts path).all isName = true :=
  isBelow_iff (List.nil_append _).symm

end Path

/-! ### The places below a directory -/

namespace FileTree

variable (tree : FileTree)

theorem follow_append (place : Location) (front back : List PathPart) :
    tree.follow place (front ++ back) =
      tree.follow place front >>= fun next => tree.follow next back := by
  induction front generalizing place with
  | nil => rfl
  | cons part front ih =>
      simp only [List.cons_append, follow, ih, bind_assoc]

/-- Names lead from a place to places below it. -/
theorem isPrefix_of_follow_names {place reached : Location} (names : List (List Char))
    (found : tree.follow place (names.map PathPart.name) = .ok reached) : place <+: reached := by
  induction names generalizing place with
  | nil =>
      cases found
      exact List.prefix_rfl
  | cons text names ih =>
      rw [List.map_cons, follow] at found
      cases directory : tree.requireDirectory place with
      | error fault => rw [directory] at found; cases found
      | ok _ =>
          rw [directory] at found
          simp only [step] at found
          split at found
          · cases found
          · exact (List.prefix_append place [text]).trans (ih found)

/-- A path leads where its parts lead from the working directory. -/
theorem follow_of_locate {path : List Char} {place : Location}
    (found : tree.locate path = .ok place) :
    tree.follow tree.workingDirectory (Path.parts path) = .ok place := by
  rw [locate] at found
  by_cases null : path.contains '\x00' = true
  · rw [if_pos null] at found
    cases found
  by_cases blank : path.isEmpty = true
  · rw [if_neg null, if_pos blank] at found
    cases found
  rw [if_neg null, if_neg blank] at found
  cases followed : tree.follow tree.workingDirectory (Path.parts path) with
  | error fault =>
      rw [followed] at found
      cases found
  | ok reached =>
      rw [followed] at found
      simp only [bind, Except.bind] at found
      split at found
      · split at found
        · cases found
        · exact found
      · exact found

/-- What a path below a directory leads to is below the place of the directory. -/
theorem isPrefix_of_locate {directory path : List Char} {place : Location}
    (below : Path.IsBelow directory path) (found : tree.locate path = .ok place) :
    ∃ top, tree.follow tree.workingDirectory (Path.parts directory) = .ok top ∧ top <+: place := by
  obtain ⟨names, parts⟩ := below
  have followed := tree.follow_of_locate found
  rw [parts, follow_append] at followed
  cases reached : tree.follow tree.workingDirectory (Path.parts directory) with
  | error fault => rw [reached] at followed; cases followed
  | ok top =>
      rw [reached] at followed
      exact ⟨top, rfl, tree.isPrefix_of_follow_names names followed⟩

end FileTree

end DocPress
