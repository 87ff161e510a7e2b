import Mathlib.Data.List.Chain
import Mathlib.Data.List.Induction
import DocPress.Text.Blank
import DocPress.Text.Letter

/-!
Cutting texts at marks and at separators, and trimming them.
-/

namespace DocPress.Text

/-! ### Marks of two characters -/

/-- Whether a text and all that may follow it hold no mark of two times `c` that begins in the text:
no two of them stand side by side in it, and it does not end in one. -/
def IsClear (c : Char) : List Char → Prop
  | [] => True
  | [last] => last ≠ c
  | first :: next :: rest => ¬(first = c ∧ next = c) ∧ IsClear c (next :: rest)

variable {c : Char}

theorem isClear_cons_of_ne {first : Char} {rest : List Char} (different : first ≠ c)
    (clear : IsClear c rest) : IsClear c (first :: rest) := by
  cases rest with
  | nil => exact different
  | cons next rest => exact ⟨fun same => different same.1, clear⟩

theorem isClear_of_not_mem {text : List Char} (absent : c ∉ text) : IsClear c text := by
  induction text with
  | nil => trivial
  | cons first rest ih =>
      rw [List.mem_cons, not_or] at absent
      exact isClear_cons_of_ne (Ne.symm absent.1) (ih absent.2)

theorem IsClear.append {first second : List Char} (head : IsClear c first)
    (tail : IsClear c second) : IsClear c (first ++ second) := by
  induction first with
  | nil => exact tail
  | cons a rest ih =>
      cases rest with
      | nil => exact isClear_cons_of_ne head tail
      | cons b rest => exact ⟨head.1, ih head.2⟩

/-- A mark of two characters is looked for behind a text that is clear of it. -/
theorem splitAtMark?_append {text : List Char} (clear : IsClear c text) (rest : List Char) :
    splitAtMark? [c, c] (text ++ rest) =
      (splitAtMark? [c, c] rest).map fun parts => (text ++ parts.1, parts.2) := by
  induction text with
  | nil => simp
  | cons first tail ih =>
      have behind : IsClear c tail := by
        cases tail with
        | nil => trivial
        | cons next more => exact clear.2
      have noMark : stripStart? [c, c] (first :: (tail ++ rest)) = none := by
        cases tail with
        | nil => simp [stripStart?, Ne.symm clear]
        | cons next more =>
            have apart : c = first → c ≠ next := fun same again =>
              clear.1 ⟨same.symm, again.symm⟩
            simpa [stripStart?] using apart
      rw [List.cons_append, splitAtMark?, noMark, ih behind, Option.map_map]
      rfl

/-- There is no mark in a text that is clear of it. -/
theorem splitAtMark?_eq_none {text : List Char} (clear : IsClear c text) :
    splitAtMark? [c, c] text = none := by
  simpa [splitAtMark?] using splitAtMark?_append clear []

/-- Whether no two of `c` stand side by side in a text. -/
def IsApart (c : Char) (text : List Char) : Prop :=
  text.IsChain fun first next => ¬(first = c ∧ next = c)

/-- A text keeps clear of a mark when it does not hold it and does not end with its character. -/
theorem isClear_iff {text : List Char} :
    IsClear c text ↔ IsApart c text ∧ text.getLast? ≠ some c := by
  fun_induction IsClear c text with
  | case1 => simp [IsApart]
  | case2 last => simp [IsApart]
  | case3 first next rest ih =>
      rw [ih, IsApart, IsApart, List.isChain_cons_cons, and_assoc, List.getLast?_cons_cons]

theorem IsApart.append {first second : List Char} (head : IsApart c first)
    (tail : IsApart c second) (meets : first.getLast? = some c → second.head? ≠ some c) :
    IsApart c (first ++ second) := by
  refine List.isChain_append.2 ⟨head, tail, ?_⟩
  rintro a last b start ⟨rfl, rfl⟩
  exact meets last start

/-- There is no mark in a text in which no two of its characters stand side by side. -/
theorem splitAtMark?_eq_none_of_isApart {text : List Char} (apart : IsApart c text) :
    splitAtMark? [c, c] text = none := by
  by_cases ends : text.getLast? = some c
  · obtain ⟨before, rfl⟩ := List.getLast?_eq_some_iff.1 ends
    obtain ⟨front, -, meets⟩ := List.isChain_append.1 apart
    have clear : IsClear c before := isClear_iff.2 ⟨front, fun last => meets c last c rfl ⟨rfl, rfl⟩⟩
    rw [splitAtMark?_append clear]
    simp [splitAtMark?, stripStart?]
  · exact splitAtMark?_eq_none (isClear_iff.2 ⟨apart, ends⟩)

/-- The first mark behind a text that is clear of it. -/
theorem splitAtMark?_mark {text : List Char} (clear : IsClear c text) (rest : List Char) :
    splitAtMark? [c, c] (text ++ c :: c :: rest) = some (text, rest) := by
  simp [splitAtMark?_append clear, splitAtMark?, stripStart?]

/-- A text starts with another one when it is that text with something behind it. -/
theorem stripStart?_eq_some_iff {start text after : List Char} :
    stripStart? start text = some after ↔ text = start ++ after := by
  induction start generalizing text with
  | nil => simp [stripStart?]
  | cons first start ih =>
      cases text with
      | nil => simp [stripStart?]
      | cons next rest =>
          rw [stripStart?, List.cons_append, List.cons.injEq]
          split
          case isTrue same => rw [ih, and_iff_right same.symm]
          case isFalse other => simp [Ne.symm other]

/-- What is in front of the first mark is clear of it. -/
theorem splitAtMark?_eq_some_iff {text before after : List Char} :
    splitAtMark? [c, c] text = some (before, after) ↔
      text = before ++ c :: c :: after ∧ IsClear c before := by
  constructor
  · intro found
    induction text generalizing before with
    | nil => cases found
    | cons first tail ih =>
        rw [splitAtMark?] at found
        split at found
        case _ rest marked =>
          cases found
          rw [stripStart?_eq_some_iff] at marked
          exact ⟨marked, trivial⟩
        case _ unmarked =>
          obtain ⟨⟨front, rest⟩, behind, same⟩ := Option.map_eq_some_iff.1 found
          cases same
          obtain ⟨rfl, clear⟩ := ih behind
          refine ⟨rfl, ?_⟩
          cases front with
          | nil =>
              rintro rfl
              simp [stripStart?] at unmarked
          | cons next front =>
              refine ⟨?_, clear⟩
              rintro ⟨rfl, rfl⟩
              simp [stripStart?] at unmarked
  · rintro ⟨rfl, clear⟩
    exact splitAtMark?_mark clear after

/-- A text without a mark has no two of its characters side by side. -/
theorem splitAtMark?_eq_none_iff {text : List Char} :
    splitAtMark? [c, c] text = none ↔ IsApart c text := by
  refine ⟨fun absent => ?_, splitAtMark?_eq_none_of_isApart⟩
  induction text with
  | nil => exact .nil
  | cons first tail ih =>
      rw [splitAtMark?] at absent
      split at absent
      case _ => cases absent
      case _ unmarked =>
        have behind : IsApart c tail := ih (Option.map_eq_none_iff.1 absent)
        cases tail with
        | nil => exact .singleton _
        | cons next rest =>
            refine List.isChain_cons_cons.2 ⟨?_, behind⟩
            rintro ⟨rfl, rfl⟩
            simp [stripStart?] at unmarked

/-- A mark is two of its characters side by side. -/
theorem isApart_iff_infix {text : List Char} : IsApart c text ↔ ¬[c, c] <:+: text := by
  constructor
  · rintro apart ⟨front, rest, rfl⟩
    have middle := (List.isChain_append.1 (List.isChain_append.1 apart).1).2.1
    exact (List.isChain_cons_cons.1 middle).1 ⟨rfl, rfl⟩
  · intro absent
    rw [← splitAtMark?_eq_none_iff, Option.eq_none_iff_forall_ne_some]
    rintro ⟨before, after⟩ found
    obtain ⟨rfl, -⟩ := splitAtMark?_eq_some_iff.1 found
    exact absent ⟨before, after, by simp⟩

theorem IsApart.infix {text part : List Char} (apart : IsApart c text) (inside : part <:+: text) :
    IsApart c part :=
  List.IsChain.infix apart inside

/-! ### Trimming -/

variable {p : Char → Bool}

theorem dropEndWhile_cons (first : Char) (rest : List Char) :
    dropEndWhile p (first :: rest) =
      if (dropEndWhile p rest).isEmpty && p first then [] else first :: dropEndWhile p rest := rfl

theorem dropEndWhile_concat_of_neg {last : Char} (keep : p last = false) (text : List Char) :
    dropEndWhile p (text ++ [last]) = text ++ [last] := by
  induction text with
  | nil => simp [dropEndWhile, keep]
  | cons first rest ih =>
      rw [List.cons_append, dropEndWhile_cons, ih]
      simp

theorem dropEndWhile_concat_of_pos {last : Char} (drop : p last = true) (text : List Char) :
    dropEndWhile p (text ++ [last]) = dropEndWhile p text := by
  simp [dropEndWhile, drop]

theorem dropEndWhile_append_of_pos {dropped : List Char} (all : ∀ c ∈ dropped, p c = true)
    (text : List Char) : dropEndWhile p (text ++ dropped) = dropEndWhile p text := by
  induction dropped generalizing text with
  | nil => rw [List.append_nil]
  | cons c rest ih =>
      rw [List.forall_mem_cons] at all
      rw [List.append_cons, ih all.2, dropEndWhile_concat_of_pos all.1]

/-- A text does not end with what was dropped from its end. -/
theorem getLast?_dropEndWhile {text : List Char} {last : Char}
    (ends : (dropEndWhile p text).getLast? = some last) : p last = false := by
  induction text using List.reverseRecOn with
  | nil => cases ends
  | append_singleton before c ih =>
      cases drop : p c with
      | true =>
          rw [dropEndWhile_concat_of_pos drop] at ends
          exact ih ends
      | false =>
          rw [dropEndWhile_concat_of_neg drop, List.getLast?_concat] at ends
          cases ends
          exact drop

theorem dropEndWhile_eq_self {text : List Char} (keep : ∀ last ∈ text, p last = false) :
    dropEndWhile p text = text := by
  rcases List.eq_nil_or_concat text with rfl | ⟨before, last, rfl⟩
  · rfl
  · rw [List.concat_eq_append] at keep ⊢
    exact dropEndWhile_concat_of_neg (keep last (by simp)) before

theorem dropEndWhile_isPrefix (p : Char → Bool) (text : List Char) :
    dropEndWhile p text <+: text := by
  induction text with
  | nil => exact List.prefix_rfl
  | cons c rest ih =>
      rw [dropEndWhile_cons]
      split
      · exact List.nil_prefix
      · exact List.cons_prefix_cons.2 ⟨rfl, ih⟩

/-- What is dropped from the start of a text is at its start. -/
theorem exists_dropWhile (p : Char → Bool) (text : List Char) :
    ∃ dropped, (∀ c ∈ dropped, p c = true) ∧ text = dropped ++ text.dropWhile p :=
  ⟨text.takeWhile p, List.all_eq_true.1 List.all_takeWhile, List.takeWhile_append_dropWhile.symm⟩

theorem dropWhile_append {front rest : List Char} (all : ∀ c ∈ front, p c = true)
    (stops : ∀ c, rest.head? = some c → p c = false) : (front ++ rest).dropWhile p = rest := by
  rw [List.dropWhile_append_of_pos all]
  cases rest with
  | nil => rfl
  | cons c rest => exact List.dropWhile_cons_of_neg (by simp [stops c rfl])

/-- What is dropped from the end of a text is at its end. -/
theorem exists_dropEndWhile_append (p : Char → Bool) (text : List Char) :
    ∃ dropped, (∀ c ∈ dropped, p c = true) ∧ text = dropEndWhile p text ++ dropped := by
  induction text with
  | nil => exact ⟨[], by simp, rfl⟩
  | cons c rest ih =>
      obtain ⟨dropped, all, whole⟩ := ih
      rw [dropEndWhile_cons]
      split
      case isTrue none =>
        obtain ⟨empty, here⟩ := Bool.and_eq_true_iff.1 none
        rw [List.isEmpty_iff.1 empty, List.nil_append] at whole
        exact ⟨c :: dropped, List.forall_mem_cons.2 ⟨here, all⟩, congrArg (c :: ·) whole⟩
      case isFalse => exact ⟨dropped, all, congrArg (c :: ·) whole⟩

/-- What is trimmed from a text are the blanks around it. -/
theorem exists_trim (text : List Char) :
    ∃ left right, (∀ c ∈ left, isBlank c = true) ∧ (∀ c ∈ right, isBlank c = true) ∧
      text = left ++ trim text ++ right := by
  obtain ⟨left, before, outer⟩ := exists_dropWhile isBlank text
  obtain ⟨right, behind, whole⟩ := exists_dropEndWhile_append isBlank (trimStart text)
  refine ⟨left, right, before, behind, ?_⟩
  calc text
    _ = left ++ trimStart text := outer
    _ = left ++ (trim text ++ right) := by rw [trim, trimEnd, ← whole]
    _ = left ++ trim text ++ right := (List.append_assoc _ _ _).symm

theorem trim_infix (text : List Char) : trim text <:+: text :=
  (dropEndWhile_isPrefix isBlank _).isInfix.trans (List.dropWhile_suffix _).isInfix

theorem trimEnd_eq_self {text : List Char} (ends : ∀ c, text.getLast? = some c → isBlank c = false) :
    trimEnd text = text := by
  rw [trimEnd]
  rcases List.eq_nil_or_concat text with rfl | ⟨before, last, rfl⟩
  · rfl
  · rw [List.concat_eq_append] at ends ⊢
    exact dropEndWhile_concat_of_neg (ends last List.getLast?_concat) before

/-- A text between characters that are no blanks has nothing to trim. -/
theorem trim_eq_self {text : List Char} (starts : ∀ c, text.head? = some c → isBlank c = false)
    (ends : ∀ c, text.getLast? = some c → isBlank c = false) : trim text = text := by
  have front : trimStart text = text := by
    cases text with
    | nil => rfl
    | cons c rest => simp [trimStart, starts c rfl]
  rw [trim, front, trimEnd_eq_self ends]

theorem trim_cons {c : Char} (blank : isBlank c = true) (text : List Char) :
    trim (c :: text) = trim text := by
  rw [trim, trimStart, List.dropWhile_cons_of_pos blank]
  rfl

/-- Whether there are no blanks at either end of a text. -/
structure IsTrimmed (text : List Char) : Prop where
  starts : ∀ c, text.head? = some c → isBlank c = false
  ends : ∀ c, text.getLast? = some c → isBlank c = false

/-- A text that was trimmed is trimmed. -/
theorem isTrimmed_trim (text : List Char) : IsTrimmed (trim text) where
  starts c head := by
    obtain ⟨dropped, whole⟩ := dropEndWhile_isPrefix isBlank (trimStart text)
    have first : (trimStart text).head? = some c := by
      rw [← whole, List.head?_append]
      exact Option.or_eq_some_iff.2 (.inl head)
    have stops := List.head?_dropWhile_not isBlank text
    rw [show text.dropWhile isBlank = trimStart text from rfl, first] at stops
    exact stops
  ends _ last := getLast?_dropEndWhile last

theorem IsTrimmed.append {first last : List Char} (starts : IsTrimmed first) (filled : first ≠ [])
    (ends : IsTrimmed last) (filled' : last ≠ []) (middle : List Char) :
    IsTrimmed (first ++ middle ++ last) where
  starts c head := by
    obtain ⟨d, first, rfl⟩ := List.exists_cons_of_ne_nil filled
    exact starts.starts c head
  ends c last := by
    rw [List.getLast?_append_of_ne_nil _ filled'] at last
    exact ends.ends c last

/-- Trimming takes all blanks around a text. -/
theorem trim_append {left core right : List Char} (before : ∀ c ∈ left, isBlank c = true)
    (trimmed : IsTrimmed core) (behind : ∀ c ∈ right, isBlank c = true) :
    trim (left ++ core ++ right) = core := by
  cases core with
  | nil =>
      have all : ∀ c ∈ left ++ right, isBlank c = true := List.forall_mem_append.2 ⟨before, behind⟩
      have front : trimStart (left ++ right) = [] := by
        rw [trimStart, ← List.append_nil (left ++ right)]
        exact dropWhile_append all nofun
      rw [List.append_nil, trim, front]
      rfl
  | cons c core =>
      have front : trimStart (left ++ (c :: core) ++ right) = c :: core ++ right := by
        rw [trimStart, List.append_assoc]
        exact dropWhile_append before trimmed.starts
      rw [trim, front, trimEnd, dropEndWhile_append_of_pos behind]
      exact trimEnd_eq_self trimmed.ends

theorem trim_eq_nil {text : List Char} (blank : ∀ c ∈ text, isBlank c = true) : trim text = [] := by
  have cut := @trim_append text [] [] blank ⟨nofun, nofun⟩ nofun
  rwa [List.append_nil, List.append_nil] at cut

theorem trim_trim (text : List Char) : trim (trim text) = trim text :=
  trim_eq_self (isTrimmed_trim text).starts (isTrimmed_trim text).ends

/-! ### Lines -/

/-- The lines with their ends make up the text. -/
theorem flatten_linesWithEnds (text : List Char) : (linesWithEnds text).flatten = text := by
  induction text with
  | nil => rfl
  | cons c rest ih =>
      rw [linesWithEnds]
      split
      · next feed => rw [List.flatten_cons, ih, feed]; rfl
      · cases lines : linesWithEnds rest with
        | nil => rw [lines] at ih; simp [← ih]
        | cons line more => rw [lines] at ih; simpa using ih

/-- A line feed ends the lines in front of it. -/
theorem linesWithEnds_append {text : List Char} (ended : text = [] ∨ text.getLast? = some '\n')
    (rest : List Char) : linesWithEnds (text ++ rest) = linesWithEnds text ++ linesWithEnds rest := by
  induction text with
  | nil => rfl
  | cons c text ih =>
      have last : (c :: text).getLast? = some '\n' := ended.resolve_left (List.cons_ne_nil _ _)
      rw [List.cons_append, linesWithEnds, linesWithEnds]
      cases text with
      | nil =>
          obtain rfl : c = '\n' := Option.some.inj last
          rfl
      | cons d text =>
          rw [List.getLast?_cons_cons] at last
          rw [ih (.inr last)]
          split
          · rfl
          · cases lines : linesWithEnds (d :: text) with
            | nil =>
                have whole := flatten_linesWithEnds (d :: text)
                rw [lines] at whole
                cases whole
            | cons line more => rfl

/-- The first line of a text stands on its own, and the lines behind it are those of the rest. Only a last
line is not ended. -/
theorem linesWithEnds_of_cons {text line : List Char} {more : List (List Char)}
    (lines : linesWithEnds text = line :: more) :
    linesWithEnds line = [line] ∧ linesWithEnds more.flatten = more ∧
      (more = [] ∨ line.getLast? = some '\n') := by
  induction text generalizing line with
  | nil => cases lines
  | cons c rest ih =>
      rw [linesWithEnds] at lines
      split at lines
      case isTrue feed =>
        obtain ⟨rfl, rfl⟩ := List.cons.inj lines
        exact ⟨rfl, by rw [flatten_linesWithEnds], .inr rfl⟩
      case isFalse solid =>
        cases behind : linesWithEnds rest with
        | nil =>
            rw [behind] at lines
            obtain ⟨rfl, rfl⟩ := List.cons.inj lines
            exact ⟨by simp [linesWithEnds, solid], rfl, .inl rfl⟩
        | cons part parts =>
            rw [behind] at lines
            obtain ⟨rfl, rfl⟩ := List.cons.inj lines
            obtain ⟨single, later, ended⟩ := ih behind
            refine ⟨by rw [linesWithEnds, if_neg solid, single], later, ended.imp_right fun last => ?_⟩
            cases part with
            | nil => cases last
            | cons d part => rw [List.getLast?_cons_cons]; exact last

/-- Lines that stand next to each other are the lines of what they come to. -/
theorem linesWithEnds_flatten {text : List Char} {front behind : List (List Char)}
    (lines : linesWithEnds text = front ++ behind) :
    linesWithEnds front.flatten = front ∧ linesWithEnds behind.flatten = behind := by
  induction front generalizing text with
  | nil =>
      refine ⟨rfl, ?_⟩
      rw [← show linesWithEnds text = behind from lines, flatten_linesWithEnds]
  | cons line front ih =>
      obtain ⟨single, more, ended⟩ := linesWithEnds_of_cons lines
      obtain ⟨first, last⟩ := ih more
      refine ⟨?_, last⟩
      rw [List.flatten_cons]
      rcases ended with none | feed
      · obtain rfl := (List.append_eq_nil_iff.1 none).1
        rw [List.flatten_nil, List.append_nil, single]
      · rw [linesWithEnds_append (.inr feed), single, first]
        rfl

/-- There are no more line feeds in a text than it has lines. -/
theorem count_le_length_linesWithEnds (text : List Char) :
    text.count '\n' ≤ (linesWithEnds text).length := by
  induction text with
  | nil => exact Nat.le_refl _
  | cons c rest ih =>
      rw [linesWithEnds]
      split
      case isTrue feed => simpa [feed] using ih
      case isFalse solid =>
        rw [List.count_cons_of_ne (by simpa using solid)]
        cases lines : linesWithEnds rest with
        | nil => rw [lines] at ih; exact Nat.le_succ_of_le ih
        | cons line more => rw [lines] at ih; exact ih

/-! ### Parts between separators -/

theorem splitOn_ne_nil (text : List Char) : splitOn p text ≠ [] := by
  cases text with
  | nil => simp [splitOn]
  | cons c rest =>
      rw [splitOn]
      split
      · exact List.cons_ne_nil _ _
      · split <;> exact List.cons_ne_nil _ _

/-- A text ends with one of its parts. -/
theorem exists_splitOn_concat (p : Char → Bool) (text : List Char) :
    ∃ front last, splitOn p text = front ++ [last] :=
  ⟨_, _, (List.dropLast_concat_getLast (splitOn_ne_nil text)).symm⟩

/-- Where two texts meet, the last part of the one and the first part of the other become one. -/
theorem splitOn_append {left right : List Char} {front more : List (List Char)}
    {last first : List Char} (before : splitOn p left = front ++ [last])
    (behind : splitOn p right = first :: more) :
    splitOn p (left ++ right) = front ++ (last ++ first) :: more := by
  induction left generalizing front last with
  | nil =>
      cases front with
      | nil =>
          obtain rfl : [] = last := (List.cons.inj before).1
          exact behind
      | cons part front =>
          exact absurd (List.cons.inj before).2.symm (by simp)
  | cons c left ih =>
      rw [List.cons_append, splitOn]
      rw [splitOn] at before
      by_cases separator : p c = true
      · rw [if_pos separator] at before ⊢
        cases front with
        | nil => exact absurd (List.cons.inj before).2 (splitOn_ne_nil left)
        | cons part front =>
            obtain ⟨rfl, rest⟩ := List.cons.inj before
            rw [ih rest]
            rfl
      · rw [if_neg separator] at before ⊢
        -- The character goes in front of the first part, which is the last one if there is no other.
        cases parts : splitOn p left with
        | nil => exact absurd parts (splitOn_ne_nil left)
        | cons part others =>
            rw [parts] at before
            cases front with
            | nil =>
                obtain ⟨rfl, rfl⟩ := List.cons.inj before
                rw [ih (show splitOn p left = [] ++ [part] from parts)]
                rfl
            | cons head front =>
                obtain ⟨rfl, rfl⟩ := List.cons.inj before
                rw [ih (show splitOn p left = (part :: front) ++ [last] from parts)]
                rfl

/-- A separator keeps the parts around it apart. -/
theorem splitOn_append_cons {c : Char} (separator : p c = true) (left right : List Char) :
    splitOn p (left ++ c :: right) = splitOn p left ++ splitOn p right := by
  have behind : splitOn p (c :: right) = [] :: splitOn p right := by
    rw [splitOn, if_pos separator]
  obtain ⟨front, last, before⟩ := exists_splitOn_concat p left
  rw [splitOn_append before behind, List.append_nil, before, List.append_assoc]
  rfl

/-- A text that is one part is that part. -/
theorem splitOn_eq_singleton {text part : List Char} (single : splitOn p text = [part]) :
    text = part := by
  induction text generalizing part with
  | nil => exact (List.cons.inj single).1
  | cons c rest ih =>
      rw [splitOn] at single
      split at single
      · exact absurd (List.cons.inj single).2 (splitOn_ne_nil rest)
      · cases parts : splitOn p rest with
        | nil => exact absurd parts (splitOn_ne_nil rest)
        | cons first more =>
            rw [parts] at single
            obtain ⟨rfl, rfl⟩ := List.cons.inj single
            rw [ih parts]

theorem splitOn_eq_self {text : List Char} (plain : ∀ c ∈ text, p c = false) :
    splitOn p text = [text] := by
  induction text with
  | nil => rfl
  | cons c rest ih =>
      rw [List.forall_mem_cons] at plain
      rw [splitOn, if_neg (by simp [plain.1]), ih plain.2]

/-- What was put together with a separator in between is found between the separators. -/
theorem splitOn_intercalate {separator : Char} {parts : List (List Char)} (mark : p separator = true)
    (some_part : parts ≠ []) (clear : ∀ part ∈ parts, ∀ c ∈ part, p c = false) :
    splitOn p ([separator].intercalate parts) = parts := by
  induction parts with
  | nil => exact absurd rfl some_part
  | cons part rest ih =>
      rw [List.forall_mem_cons] at clear
      by_cases last : rest = []
      · subst last
        rw [List.intercalate_singleton, splitOn_eq_self clear.1]
      · rw [List.intercalate_cons_of_ne_nil last, List.append_assoc, List.singleton_append,
          splitOn_append_cons mark, splitOn_eq_self clear.1, ih last clear.2]
        rfl

/-- What is between separators is a part of the text and holds no separator. -/
theorem of_mem_splitOn {text part : List Char} (member : part ∈ splitOn p text) :
    ∀ c ∈ part, c ∈ text ∧ p c = false := by
  induction text generalizing part with
  | nil =>
      obtain rfl := List.mem_singleton.1 member
      exact nofun
  | cons c rest ih =>
      rw [splitOn] at member
      by_cases separator : p c = true
      · rw [if_pos separator] at member
        rcases List.mem_cons.1 member with rfl | behind
        · exact nofun
        · exact fun d inside => (ih behind d inside).imp_left (List.mem_cons_of_mem c)
      · rw [if_neg separator] at member
        cases parts : splitOn p rest with
        | nil => exact absurd parts (splitOn_ne_nil rest)
        | cons first more =>
            rw [parts] at member ih
            rcases List.mem_cons.1 member with rfl | behind
            · intro d inside
              rcases List.mem_cons.1 inside with rfl | later
              · exact ⟨List.mem_cons_self, Bool.eq_false_iff.2 separator⟩
              · exact (ih List.mem_cons_self d later).imp_left (List.mem_cons_of_mem c)
            · exact fun d inside =>
                (ih (List.mem_cons_of_mem first behind) d inside).imp_left (List.mem_cons_of_mem c)

/-- A character of joined texts is the separator or in one of them. -/
theorem mem_intercalate {separator c : Char} {parts : List (List Char)}
    (member : c ∈ [separator].intercalate parts) : c = separator ∨ ∃ part ∈ parts, c ∈ part := by
  induction parts with
  | nil => cases member
  | cons part rest ih =>
      by_cases last : rest = []
      · subst last
        rw [List.intercalate_singleton] at member
        exact .inr ⟨part, List.mem_cons_self, member⟩
      · rw [List.intercalate_cons_of_ne_nil last, List.append_assoc, List.singleton_append,
          List.mem_append, List.mem_cons] at member
        rcases member with here | rfl | behind
        · exact .inr ⟨part, List.mem_cons_self, here⟩
        · exact .inl rfl
        · exact (ih behind).imp_right fun ⟨other, listed, inside⟩ =>
            ⟨other, List.mem_cons_of_mem _ listed, inside⟩

/-- A character that is not in a text is no separator in it. -/
theorem decide_eq_false_of_not_mem {c : Char} {text : List Char} (absent : c ∉ text) :
    ∀ d ∈ text, decide (d = c) = false := by
  intro d member
  refine decide_eq_false ?_
  rintro rfl
  exact absent member

theorem splitOnce?_append {before : List Char} {c : Char} (clear : ∀ d ∈ before, p d = false)
    (mark : p c = true) (behind : List Char) :
    splitOnce? p (before ++ c :: behind) = some (before, behind) := by
  induction before with
  | nil => rw [List.nil_append, splitOnce?, if_pos mark]
  | cons d before ih =>
      rw [List.forall_mem_cons] at clear
      rw [List.cons_append, splitOnce?, if_neg (by simp [clear.1]), ih clear.2]
      rfl

/-- A text that is cut has a separator where it is cut, and none before. -/
theorem splitOnce?_eq_some {text before behind : List Char}
    (cut : splitOnce? p text = some (before, behind)) :
    ∃ c, p c = true ∧ (∀ d ∈ before, p d = false) ∧ text = before ++ c :: behind := by
  induction text generalizing before with
  | nil => cases cut
  | cons d rest ih =>
      rw [splitOnce?] at cut
      by_cases mark : p d = true
      · rw [if_pos mark] at cut
        cases cut
        exact ⟨d, mark, by simp, rfl⟩
      · rw [if_neg mark] at cut
        obtain ⟨⟨first, second⟩, found, same⟩ := Option.map_eq_some_iff.1 cut
        cases same
        obtain ⟨c, separator, clear, rfl⟩ := ih found
        exact ⟨c, separator, List.forall_mem_cons.2 ⟨Bool.eq_false_iff.2 mark, clear⟩, rfl⟩

/-- A text without separators is not cut. -/
theorem splitOnce?_eq_none {text : List Char} (clear : ∀ c ∈ text, p c = false) :
    splitOnce? p text = none := by
  cases cut : splitOnce? p text with
  | none => rfl
  | some parts =>
      obtain ⟨c, mark, -, rfl⟩ := splitOnce?_eq_some cut
      rw [clear c (List.mem_append_right _ List.mem_cons_self)] at mark
      cases mark

theorem splitOnce?_eq (p : Char → Bool) (text : List Char) : splitOnce? p text =
    match text.dropWhile (!p ·) with
    | [] => none
    | _ :: rest => some (text.takeWhile (!p ·), rest) := by
  induction text with
  | nil => rfl
  | cons c rest ih =>
      rw [splitOnce?, List.dropWhile_cons, List.takeWhile_cons]
      cases mark : p c with
      | true => rfl
      | false =>
          simp only [Bool.not_false, if_true, Bool.false_eq_true, if_false, ih]
          cases rest.dropWhile (!p ·) <;> rfl

/-! ### Words -/

/-- Whether a text is a single word. -/
structure IsWord (text : List Char) : Prop where
  filled : text ≠ []
  solid : ∀ c ∈ text, isBlank c = false

/-- A word is a text with something in it and no blanks. -/
theorem isWord_iff {text : List Char} :
    IsWord text ↔ text ≠ [] ∧ text.all (!isBlank ·) = true := by
  rw [List.all_eq_true]
  constructor
  · rintro ⟨filled, solid⟩
    exact ⟨filled, fun c member => by rw [solid c member]; rfl⟩
  · rintro ⟨filled, solid⟩
    exact ⟨filled, fun c member => by simpa using solid c member⟩

instance (text : List Char) : Decidable (IsWord text) :=
  decidable_of_iff _ isWord_iff.symm

theorem IsWord.isTrimmed {text : List Char} (word : IsWord text) : IsTrimmed text where
  starts c head := word.solid c (List.mem_of_head? head)
  ends c last := word.solid c (List.mem_of_getLast? last)

theorem words_append_cons {c : Char} (blank : isBlank c = true) (left right : List Char) :
    words (left ++ c :: right) = words left ++ words right := by
  rw [words, splitOn_append_cons blank, List.filter_append]
  rfl

/-- Blanks hold no words. -/
theorem words_blanks {blanks : List Char} (all : ∀ c ∈ blanks, isBlank c = true) :
    words blanks = [] := by
  induction blanks with
  | nil => rfl
  | cons c rest ih =>
      rw [List.forall_mem_cons] at all
      rw [← List.nil_append (c :: rest), words_append_cons all.1, ih all.2]
      rfl

theorem words_of_isWord {text : List Char} (word : IsWord text) : words text = [text] := by
  rw [words, splitOn_eq_self word.solid, List.filter_singleton, List.isEmpty_eq_false_iff.2 word.filled]
  rfl

/-- What starts with a blank, or is empty, is kept apart from a text in front of it. -/
theorem words_append {left right : List Char} (apart : ∀ c, right.head? = some c → isBlank c = true) :
    words (left ++ right) = words left ++ words right := by
  cases right with
  | nil =>
      rw [List.append_nil]
      exact (List.append_nil _).symm
  | cons c right =>
      have here := words_append_cons (apart c rfl)
      have alone := here [] right
      rw [List.nil_append] at alone
      rw [here left right, alone]
      rfl

theorem words_blanks_append {blanks : List Char} (all : ∀ c ∈ blanks, isBlank c = true)
    (text : List Char) : words (blanks ++ text) = words text := by
  induction blanks with
  | nil => rfl
  | cons c rest ih =>
      rw [List.forall_mem_cons] at all
      rw [List.cons_append, ← List.nil_append (c :: (rest ++ text)), words_append_cons all.1, ih all.2]
      rfl

/-- The words of a text are those of the trimmed one. -/
theorem words_trim (text : List Char) : words (trim text) = words text := by
  obtain ⟨left, right, before, behind, whole⟩ := exists_trim text
  have apart : ∀ c, right.head? = some c → isBlank c = true :=
    fun c head => behind c (List.mem_of_head? head)
  conv_rhs => rw [whole, words_append apart, words_blanks behind, words_blanks_append before,
    List.append_nil]

/-- A text is blank, or there is a first word in it. -/
theorem isBlank_or_exists_word (text : List Char) :
    (∀ c ∈ text, isBlank c = true) ∨ ∃ left first more, text = left ++ first ++ more ∧
      (∀ c ∈ left, isBlank c = true) ∧ IsWord first ∧ ∀ c, more.head? = some c → isBlank c = true := by
  obtain ⟨left, before, whole⟩ := exists_dropWhile isBlank text
  cases rest : text.dropWhile isBlank with
  | nil =>
      rw [rest, List.append_nil] at whole
      exact .inl (whole ▸ before)
  | cons c behind =>
      have solid : isBlank c = false := by
        have stops := List.head?_dropWhile_not isBlank text
        rw [rest] at stops
        exact stops
      refine .inr ⟨left, c :: behind.takeWhile (!isBlank ·), behind.dropWhile (!isBlank ·), ?_, before,
        ⟨List.cons_ne_nil _ _, ?_⟩, ?_⟩
      · rw [List.append_assoc, List.cons_append, List.takeWhile_append_dropWhile, ← rest]
        exact whole
      · refine List.forall_mem_cons.2 ⟨solid, fun d member => ?_⟩
        simpa using List.all_eq_true.1 List.all_takeWhile d member
      · intro d head
        have stops := List.head?_dropWhile_not (!isBlank ·) behind
        rw [head] at stops
        simpa using stops

theorem ofList_append_blank (front rest : List Char) :
    String.ofList (front ++ ' ' :: rest) = String.ofList front ++ " " ++ String.ofList rest := by
  rw [← String.toList_inj]
  simp

/-! ### Sets of characters -/

/-- Whether a character belongs to a set is quickly decided on the list of intervals. -/
theorem CharSet.contains_eq_any (set : CharSet) (c : Char) :
    set.contains c = set.intervals.toList.any (within c.toNat) :=
  Array.any_toList.symm

theorem isAlphanumeric_eq_any (c : Char) : isAlphanumeric c =
    (alphabetic.intervals.toList.any (CharSet.within c.toNat) ||
      numeric.intervals.toList.any (CharSet.within c.toNat)) := by
  rw [isAlphanumeric, CharSet.contains_eq_any, CharSet.contains_eq_any]

/-! ### Numbers -/

/-- Numbers that are written alike are the same. -/
theorem eq_of_toString_eq {m n : Nat} (same : toString m = toString n) : m = n := by
  rw [Nat.toString_eq_ofList_toDigits, Nat.toString_eq_ofList_toDigits, String.ofList_inj] at same
  have value := congrArg (fun digits => Nat.ofDigitChars 10 digits 0) same
  have read (n : Nat) : Nat.ofDigitChars 10 (Nat.toDigits 10 n) 0 = n :=
    Nat.ofDigitChars_toDigits (by decide) (by decide)
  simpa only [read] using value

/-- A text has no more characters than bytes. -/
theorem length_le_utf8ByteSize (text : String) : text.toList.length ≤ text.utf8ByteSize := by
  obtain ⟨chars, rfl⟩ : ∃ chars, String.ofList chars = text := ⟨_, String.ofList_toList⟩
  rw [String.toList_ofList]
  induction chars with
  | nil => exact Nat.zero_le _
  | cons c rest ih =>
      have whole : String.ofList (c :: rest) = String.singleton c ++ String.ofList rest := by
        rw [← String.toList_inj]
        simp
      rw [whole, String.utf8ByteSize_append, String.utf8ByteSize_singleton, List.length_cons]
      have positive := c.utf8Size_pos
      omega

end DocPress.Text
