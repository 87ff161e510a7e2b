import DocPress.Proofs.Path.Name

/-!
Paths that are taken apart: into the parent and the file name, the file name into stem and extension,
and into a directory and what is left below it.
-/

namespace DocPress.Path

variable {name : List Char} {names segments : List (List Char)} {directory path : List Char}

/-! ### Trimming and parents -/

/-- Trimming segments leaves the parts as they are. -/
theorem partsOf_trimSegments (first : Bool) (segments : List (List Char)) :
    partsOf first (trimSegments first segments) = partsOf first segments := by
  induction segments generalizing first with
  | nil => rfl
  | cons segment rest ih =>
      have tail := ih false
      rw [trimSegments]
      cases trimmed : trimSegments false rest with
      | nil =>
          rw [trimmed] at tail
          rw [partsOf, ← tail]
          cases part : part? first segment with
          | none => rfl
          | some part' => simp [partsOf, part]
      | cons next more =>
          rw [trimmed] at tail
          change (part? first segment).toList ++ partsOf false (next :: more) = _
          rw [tail]
          rfl

/-- Trimmed segments end in one that stands for a part. -/
theorem trimSegments_eq (first : Bool) (segments : List (List Char)) :
    (trimSegments first segments = [] ∧ partsOf first segments = []) ∨
      ∃ front last part, trimSegments first segments = front ++ [last] ∧
        partsOf first segments = partsOf first front ++ [part] := by
  induction segments generalizing first with
  | nil => exact .inl ⟨rfl, rfl⟩
  | cons segment rest ih =>
      rw [trimSegments, partsOf]
      rcases ih false with ⟨trimmed, none⟩ | ⟨front, last, part, trimmed, found⟩
      · rw [trimmed, none]
        cases own : part? first segment with
        | none => exact .inl ⟨rfl, rfl⟩
        | some part => exact .inr ⟨[], segment, part, rfl, rfl⟩
      · rw [trimmed, found]
        refine .inr ⟨segment :: front, last, part, ?_, ?_⟩
        · cases front <;> rfl
        · rw [partsOf, List.append_assoc]

/-- Trimmed segments are the first ones. -/
theorem trimSegments_isStart (first : Bool) (segments : List (List Char)) :
    trimSegments first segments <+: segments := by
  induction segments generalizing first with
  | nil => exact List.prefix_rfl
  | cons segment rest ih =>
      rw [trimSegments]
      have tail := ih false
      split
      · split
        · exact List.prefix_append [segment] rest
        · exact List.nil_prefix
      · exact List.cons_prefix_cons.2 ⟨rfl, tail⟩

/-- The segments in front of the last part. -/
def segmentsBefore (first : Bool) (segments : List (List Char)) : List (List Char) :=
  trimSegments first (trimSegments first segments).dropLast

/-- The segments before the last part are the first ones. -/
theorem segmentsBefore_isStart (first : Bool) (segments : List (List Char)) :
    segmentsBefore first segments <+: segments := by
  have shorter := List.dropLast_prefix (trimSegments first segments)
  exact (trimSegments_isStart first _).trans (shorter.trans (trimSegments_isStart first segments))

/-- The segments before the last part have the parts before it. -/
theorem partsOf_segmentsBefore (first : Bool) (segments : List (List Char)) :
    partsOf first (segmentsBefore first segments) = (partsOf first segments).dropLast := by
  rw [segmentsBefore, partsOf_trimSegments]
  rcases trimSegments_eq first segments with ⟨trimmed, none⟩ | ⟨front, last, part, trimmed, found⟩
  · rw [trimmed, none]
    rfl
  · rw [trimmed, found, List.dropLast_concat, List.dropLast_concat]

/-- Segments without slashes are read back from the path they are joined to. -/
theorem partsOf_splitOn_join (first : Bool) (slash : ∀ segment ∈ segments, '/' ∉ segment) :
    partsOf first (Text.splitOn isSeparator (join segments)) = partsOf first segments := by
  by_cases none : segments = []
  · subst none
    rfl
  · rw [splitOn_join none slash]

theorem not_mem_of_mem_segmentsBefore {first : Bool} {text segment : List Char}
    (member : segment ∈ segmentsBefore first (Text.splitOn isSeparator text)) : '/' ∉ segment :=
  not_mem_of_mem_splitOn ((segmentsBefore_isStart first _).subset member)

/-- The parent has all parts but the last. -/
theorem parts_parent (path : List Char) (below : parts path ≠ [.root]) :
    parts (parent path) = (parts path).dropLast := by
  unfold parent
  split
  · next rest =>
      have some_part : partsOf false (Text.splitOn isSeparator rest) ≠ [] := by
        intro none
        exact below (by rw [parts, none])
      change PathPart.root :: partsOf false (Text.splitOn isSeparator
        (join (segmentsBefore false (Text.splitOn isSeparator rest)))) =
          (PathPart.root :: partsOf false (Text.splitOn isSeparator rest)).dropLast
      rw [partsOf_splitOn_join false fun _ => not_mem_of_mem_segmentsBefore, partsOf_segmentsBefore,
        List.dropLast_cons_of_ne_nil some_part]
  · next absolute =>
      have relative : path.head? ≠ some '/' := by
        intro head
        obtain ⟨rest, rfl⟩ := List.head?_eq_some_iff.1 head
        exact absolute rest rfl
      change parts (join (segmentsBefore true (Text.splitOn isSeparator path))) = _
      rw [parts_eq_partsOf (head?_join_of_start relative (segmentsBefore_isStart true _)),
        partsOf_splitOn_join true fun _ => not_mem_of_mem_segmentsBefore, partsOf_segmentsBefore,
        parts_eq_partsOf relative]

/-- There is nothing to trim off names. -/
theorem trimSegments_names (proper : ∀ name ∈ names, IsFileName name) (first : Bool) :
    trimSegments first names = names := by
  induction names generalizing first with
  | nil => rfl
  | cons name names ih =>
      rw [List.forall_mem_cons] at proper
      rw [trimSegments, ih proper.2]
      cases names with
      | nil => simp [proper.1.part? first]
      | cons next more => rfl

/-- The parent of names in a row is all but the last. -/
theorem parent_join (proper : ∀ other ∈ names ++ [name], IsFileName other) :
    parent (join (names ++ [name])) = join names := by
  have front : ∀ other ∈ names, IsFileName other := fun other member =>
    proper other (List.mem_append_left _ member)
  unfold parent
  split
  · next rest absolute =>
      exact absurd (congrArg List.head? absolute) (head?_join_ne proper)
  · change join (segmentsBefore true (Text.splitOn isSeparator (join (names ++ [name])))) = _
    rw [splitOn_join (by simp) fun other member => (proper other member).slash, segmentsBefore,
      trimSegments_names proper, List.dropLast_concat, trimSegments_names front]

/-! ### File names -/

theorem fileName?_of_parts {front : List PathPart} (known : parts path = front ++ [.name name]) :
    fileName? path = some name := by
  rw [fileName?, known, List.getLast?_concat]

/-- The stem of a path is that of its file's name. -/
theorem stem?_of_parts {front : List PathPart} (known : parts path = front ++ [.name name]) :
    stem? path = some (splitExtension name).1 := by
  rw [stem?, fileName?_of_parts known]
  rfl

/-- The extension of a path is that of its file's name. -/
theorem extension?_of_parts {front : List PathPart} (known : parts path = front ++ [.name name]) :
    extension? path = (splitExtension name).2 := by
  rw [extension?, fileName?_of_parts known]
  rfl

/-- A file name has an extension when something is in front of its last dot. -/
theorem splitExtension_eq_iff {stem extension : List Char} :
    splitExtension name = (stem, some extension) ↔
      name = stem ++ '.' :: extension ∧ stem ≠ [] ∧ '.' ∉ extension := by
  rw [splitExtension]
  constructor
  · intro split
    cases cut : Text.splitOnce? (· = '.') name.reverse with
    | none => simp [cut] at split
    | some pieces =>
        obtain ⟨after, before⟩ := pieces
        obtain ⟨c, mark, clear, whole⟩ := Text.splitOnce?_eq_some cut
        obtain rfl : c = '.' := by simpa using mark
        simp only [cut] at split
        by_cases hidden : before.isEmpty = true
        · rw [if_pos hidden] at split
          cases split
        · rw [if_neg hidden] at split
          cases split
          refine ⟨?_, ?_, ?_⟩
          · rw [← List.reverse_reverse name, whole]
            simp
          · simpa using hidden
          · intro dot
            simpa using clear '.' (List.mem_reverse.1 dot)
  · rintro ⟨rfl, shown, undotted⟩
    have cut : Text.splitOnce? (· = '.') (stem ++ '.' :: extension).reverse =
        some (extension.reverse, stem.reverse) := by
      have whole : (stem ++ '.' :: extension).reverse =
          extension.reverse ++ '.' :: stem.reverse := by simp
      rw [whole]
      refine Text.splitOnce?_append ?_ (by decide) _
      intro c inside
      refine decide_eq_false ?_
      rintro rfl
      exact undotted (List.mem_reverse.1 inside)
    simp only [cut]
    simp [shown]

/-- What the stem of a file name is cut to with the extension: a single dot keeps the dot behind it. -/
def cutStem (stem : List Char) : List Char :=
  if stem = ['.'] then ['.', '.'] else stem

theorem cutStem_of_ne {stem : List Char} (other : stem ≠ ['.']) : cutStem stem = stem :=
  if_neg other

/-- A name that was cut is neither empty nor a single dot. -/
theorem cutStem_plain {stem : List Char} (some_stem : stem ≠ []) :
    cutStem stem ≠ [] ∧ cutStem stem ≠ ['.'] := by
  rw [cutStem]
  split
  · decide
  · next other => exact ⟨some_stem, other⟩

/-- Cutting adds nothing but a dot. -/
theorem not_mem_cutStem {c : Char} {stem : List Char} (other : c ≠ '.') (clear : c ∉ stem) :
    c ∉ cutStem stem := by
  rw [cutStem]
  split
  · simp [other]
  · exact clear

/-- Two dots at the end of names are no name. -/
theorem fileName?_join_up {front : List (List Char)} (proper : ∀ name ∈ front, IsFileName name) :
    fileName? (join (front ++ [['.', '.']])) = none := by
  have relative : (join (front ++ [['.', '.']])).head? ≠ some '/' := by
    refine head?_join_ne_of_filled (List.forall_mem_append.2 ⟨fun name member => ?_, ?_⟩)
    · exact (proper name member).filled
    · exact List.forall_mem_singleton.2 (by decide)
  have slash : ∀ name ∈ front ++ [['.', '.']], '/' ∉ name := by
    refine List.forall_mem_append.2 ⟨fun name member => (proper name member).slash, ?_⟩
    exact List.forall_mem_singleton.2 (by decide)
  have up : parts (join (front ++ [['.', '.']])) = front.map .name ++ [.up] := by
    rw [parts_eq_partsOf relative, splitOn_join (by simp) slash, partsOf_append, partsOf_names proper]
    cases front <;> rfl
  rw [fileName?, up, List.getLast?_concat]

/-- A stem and the dot behind it are a file's name, unless they are two dots. -/
theorem isFileName_dotted {stem : List Char} (some_stem : stem ≠ []) (other : stem ≠ ['.'])
    (slash : '/' ∉ stem) : IsFileName (stem ++ ['.']) := by
  refine ⟨List.append_ne_nil_of_left_ne_nil some_stem _, fun same => ?_, fun same => ?_, ?_⟩
  · exact some_stem (List.append_cancel_right (same.trans (List.nil_append _).symm))
  · exact other (List.append_cancel_right (same.trans (List.singleton_append).symm))
  · exact fun inside => (List.mem_append.1 inside).elim slash (by decide)

/-- The extension is cut off the last of joined names. -/
theorem withoutExtension_join {front : List (List Char)} {stem extension : List Char}
    (proper : ∀ name ∈ front ++ [stem ++ '.' :: extension], IsFileName name) (some_stem : stem ≠ [])
    (undotted : '.' ∉ extension) :
    withoutExtension (join (front ++ [stem ++ '.' :: extension])) = join (front ++ [cutStem stem]) := by
  have shown : extension? (join (front ++ [stem ++ '.' :: extension])) = some extension := by
    have known := parts_join proper
    rw [List.map_append] at known
    rw [extension?_of_parts known, splitExtension_eq_iff.2 ⟨rfl, some_stem, undotted⟩]
  have whole : join (front ++ [stem ++ '.' :: extension]) =
      join (front ++ [stem ++ ['.']]) ++ extension := by
    rw [join_concat_append, List.append_assoc, List.singleton_append]
  rw [withoutExtension, shown, Option.getD_some, whole, List.length_append, Nat.add_sub_cancel,
    List.take_left]
  rw [List.forall_mem_append, List.forall_mem_singleton] at proper
  -- up to the dot there is a name, unless there are only two dots
  by_cases dot : stem = ['.']
  · subst dot
    simp only [List.singleton_append]
    rw [fileName?_join_up proper.1]
    rfl
  · have slash : '/' ∉ stem := fun inside => proper.2.slash (List.mem_append_left _ inside)
    have dotted := isFileName_dotted some_stem dot slash
    have known := parts_join (List.forall_mem_append.2 ⟨proper.1, List.forall_mem_singleton.2 dotted⟩)
    rw [List.map_append] at known
    have cut : splitExtension (stem ++ ['.']) = (stem, some []) :=
      splitExtension_eq_iff.2 ⟨rfl, some_stem, List.not_mem_nil⟩
    rw [fileName?_of_parts known, cutStem_of_ne dot, ← join_concat_append]
    simp only [cut, List.length_append, Nat.add_sub_cancel_left, Nat.add_sub_cancel, List.take_left]

example : withoutExtension "a/..json".toList = "a/..".toList := by decide +kernel

/-! ### Names below a directory -/

/-- A directory with the slash that is put behind it. -/
def opened (directory : List Char) : List Char :=
  if directory.getLast? = some '/' then directory else directory ++ ['/']

/-- A directory is given with one slash behind it. -/
theorem opened_eq (directory : List Char) :
    ∃ front, opened directory = front ++ ['/'] ∧
      (directory = front ∨ directory = front ++ ['/']) := by
  rw [opened]
  by_cases closed : directory.getLast? = some '/'
  · obtain ⟨front, rfl⟩ := List.getLast?_eq_some_iff.1 closed
    exact ⟨front, if_pos closed, .inr rfl⟩
  · exact ⟨directory, if_neg closed, .inl rfl⟩

/-- A path within a directory stands behind the directory and its slash. -/
theorem within_eq (relative : path.head? ≠ some '/') (nonempty : directory ≠ []) :
    within directory path = opened directory ++ path := by
  rw [within, opened, if_neg (by simp [relative, nonempty])]
  split
  · rfl
  · rw [List.append_assoc]
    rfl

/-- The parts of names within a directory are those of the directory and the names. -/
theorem parts_within_names (proper : ∀ name ∈ names, IsFileName name) (directory : List Char) :
    parts (within directory (join names)) = parts directory ++ names.map .name := by
  rw [parts_within (head?_join_ne proper)]
  by_cases none : names = []
  · subst none
    rfl
  · rw [splitOn_join none fun name member => (proper name member).slash, partsOf_names proper]

/-- The parts of a path below a directory are those of the directory and the names. -/
theorem parts_pathBelow (proper : ∀ name ∈ names, IsFileName name) (directory : List Char) :
    parts (FileTree.pathBelow directory names) = parts directory ++ names.map .name := by
  induction names generalizing directory with
  | nil => exact (List.append_nil _).symm
  | cons name rest ih =>
      rw [List.forall_mem_cons] at proper
      have own := parts_within_names (List.forall_mem_singleton.2 proper.1) directory
      rw [join_singleton] at own
      change parts (FileTree.pathBelow (within directory name) rest) = _
      rw [ih proper.2, own, List.append_assoc]
      rfl

/-- The extension of a path below a directory is that of its last name. -/
theorem extension?_pathBelow {front : List (List Char)}
    (proper : ∀ other ∈ front ++ [name], IsFileName other) (directory : List Char) :
    extension? (FileTree.pathBelow directory (front ++ [name])) = (splitExtension name).2 := by
  have known : parts (FileTree.pathBelow directory (front ++ [name])) =
      (parts directory ++ front.map .name) ++ [.name name] := by
    rw [parts_pathBelow proper]
    simp
  exact extension?_of_parts known

/-- Names that are taken one after the other from a directory are taken joined. -/
theorem pathBelow_eq_within (proper : ∀ name ∈ names, IsFileName name) (some_name : names ≠ [])
    (nonempty : directory ≠ []) :
    FileTree.pathBelow directory names = within directory (join names) := by
  induction names generalizing directory with
  | nil => exact absurd rfl some_name
  | cons name rest ih =>
      have whole := within_eq (head?_join_ne proper) nonempty
      rw [List.forall_mem_cons] at proper
      have front := within_eq proper.1.head?_ne nonempty
      change FileTree.pathBelow (within directory name) rest = _
      by_cases last : rest = []
      · subst last
        rw [join_singleton]
        rfl
      · have open_end : (opened directory ++ name).getLast? ≠ some '/' := by
          rw [List.getLast?_append_of_ne_nil _ proper.1.nonempty]
          intro closed
          exact proper.1.slash (List.mem_of_getLast? closed)
        have filled : within directory name ≠ [] := by
          rw [front]
          exact List.append_ne_nil_of_right_ne_nil _ proper.1.nonempty
        rw [ih proper.2 last filled, within_eq (head?_join_ne proper.2) filled, whole, front,
          opened, if_neg open_end, join_cons name last]
        simp

/-! ### What is left below a directory -/

/-- Parts are dropped with all that is between them. -/
theorem dropParts_append {back : List (List Char)} (proper : ∀ name ∈ back, IsFileName name)
    (first : Bool) (front : List (List Char)) :
    dropParts first (partsOf first front).length (front ++ back) = back := by
  induction front generalizing first with
  | nil =>
      cases back with
      | nil => rfl
      | cons name rest =>
          rw [List.forall_mem_cons] at proper
          simp [partsOf, dropParts, proper.1.part? first]
  | cons segment front ih =>
      have behind := ih false
      cases own : part? first segment with
      | none => simpa [dropParts, partsOf, own] using behind
      | some part => simpa [dropParts, partsOf, own] using behind

theorem partsOf_splitOn_concat (first : Bool) (text : List Char) :
    partsOf first (Text.splitOn isSeparator (text ++ ['/'])) =
      partsOf first (Text.splitOn isSeparator text) := by
  rw [Text.splitOn_append_cons (by decide), partsOf_append]
  simp [Text.splitOn, partsOf, part?]

/-- A relative path that is not empty starts with a part. -/
theorem partsOf_ne_nil {c : Char} {rest : List Char} (relative : c ≠ '/') :
    partsOf true (Text.splitOn isSeparator (c :: rest)) ≠ [] := by
  rw [Text.splitOn, if_neg (by simpa [isSeparator] using relative)]
  have started (first : List Char) : part? true (c :: first) ≠ none := by
    simp only [part?, List.isEmpty_cons, Bool.false_eq_true, if_false, if_true]
    split
    · simp
    · split <;> simp
  split
  · cases own : part? true [c] with
    | none => exact absurd own (started [])
    | some part => simp [partsOf, own]
  · next first more _ =>
      cases own : part? true (c :: first) with
      | none => exact absurd own (started first)
      | some part => simp [partsOf, own]

/-- What is in front of the names is dropped as the parts of the directory. -/
theorem dropParts_splitOn (proper : ∀ name ∈ names, IsFileName name) (some_name : names ≠ [])
    (first : Bool) (front : List Char) :
    trimSegments false (dropParts first (partsOf first (Text.splitOn isSeparator front)).length
      (Text.splitOn isSeparator (front ++ '/' :: join names))) = names := by
  rw [Text.splitOn_append_cons (by decide),
    splitOn_join some_name fun name member => (proper name member).slash,
    dropParts_append proper, trimSegments_names proper]

/-- A root is taken off an absolute path part by part. -/
theorem stripRoot?_absolute {rest : List Char} {more : List PathPart}
    (known : parts directory = .root :: more)
    (below : parts directory <+: parts ('/' :: rest)) :
    stripRoot? directory ('/' :: rest) =
      some (join (trimSegments false
        (dropParts false more.length (Text.splitOn isSeparator rest)))) := by
  rw [← List.isPrefixOf_iff_prefix, known] at below
  rw [stripRoot?.eq_def, known]
  exact if_pos below

/-- A relative directory is taken off a path part by part. -/
theorem stripRoot?_relative {part : PathPart} {more : List PathPart}
    (known : parts directory = part :: more) (relative : path.head? ≠ some '/')
    (below : parts directory <+: parts path) :
    stripRoot? directory path =
      some (join (trimSegments false
        (dropParts true (parts directory).length (Text.splitOn isSeparator path)))) := by
  rw [← List.isPrefixOf_iff_prefix, known] at below
  rw [stripRoot?.eq_def, known]
  simp only [below, if_true]
  split
  · exact absurd rfl relative
  · next none _ => cases none
  · exact absurd rfl relative
  · next same _ =>
      cases same
      rfl

/-- The directory that names were taken from is taken off again. -/
theorem stripRoot?_within (proper : ∀ name ∈ names, IsFileName name) (some_name : names ≠ [])
    (nonempty : directory ≠ []) :
    stripRoot? directory (within directory (join names)) = some (join names) := by
  have below : parts directory <+: parts (within directory (join names)) := by
    rw [parts_within_names proper]
    exact List.prefix_append _ _
  rw [within_eq (head?_join_ne proper) nonempty] at below ⊢
  obtain ⟨front, whole, shape⟩ := opened_eq directory
  rw [whole, List.append_assoc, List.singleton_append] at below ⊢
  cases front with
  | nil =>
      -- the top itself
      obtain rfl : directory = ['/'] := shape.resolve_left nonempty
      have dropped : dropParts false 0 names = names := dropParts_append proper false []
      have top : parts ['/'] = .root :: [] := rfl
      rw [List.nil_append] at below ⊢
      rw [stripRoot?_absolute top below]
      rw [List.length_nil, splitOn_join some_name fun name member => (proper name member).slash, dropped,
        trimSegments_names proper]
  | cons c front =>
      by_cases absolute : c = '/'
      · subst absolute
        have known : parts directory =
            .root :: partsOf false (Text.splitOn isSeparator front) := by
          rcases shape with rfl | rfl
          · rfl
          · exact congrArg (PathPart.root :: ·) (partsOf_splitOn_concat false front)
        rw [List.cons_append] at below ⊢
        rw [stripRoot?_absolute known below, dropParts_splitOn proper some_name]
      · have outside (rest : List Char) : (c :: rest).head? ≠ some '/' := by simpa using absolute
        have known : parts directory = partsOf true (Text.splitOn isSeparator (c :: front)) := by
          rcases shape with rfl | rfl
          · exact parts_eq_partsOf (outside _)
          · rw [← partsOf_splitOn_concat]
            exact parts_eq_partsOf (outside _)
        obtain ⟨part, more, some_part⟩ : ∃ part more, parts directory = part :: more := by
          apply List.exists_cons_of_ne_nil
          rw [known]
          exact partsOf_ne_nil absolute
        rw [List.cons_append] at below ⊢
        rw [stripRoot?_relative some_part (outside _) below, ← List.cons_append, known,
          dropParts_splitOn proper some_name]

/-- The names below a directory are what is left when it is taken off. -/
theorem stripRoot?_pathBelow (proper : ∀ name ∈ names, IsFileName name) (some_name : names ≠ [])
    (nonempty : directory ≠ []) :
    stripRoot? directory (FileTree.pathBelow directory names) = some (join names) := by
  rw [pathBelow_eq_within proper some_name nonempty, stripRoot?_within proper some_name nonempty]

end DocPress.Path
