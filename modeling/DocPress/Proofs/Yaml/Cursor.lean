import DocPress.Yaml.Write

/-!
Places and characters of written YAML. Moving over a text changes the place in a way that the text alone
decides, and of the characters that are written as themselves only the space is a blank within a line.
-/

namespace DocPress.Yaml

@[simp] theorem length_spaces (count : Nat) : (spaces count).length = count :=
  List.length_replicate

/-! ### Places -/

namespace Mark

/-- The place `count` characters further on the same line. -/
def along (count : Nat) (mark : Mark) : Mark :=
  ⟨mark.index + count, mark.line, mark.column + count⟩

/-- The start of the next line, behind a line end of one character. -/
def newLine (mark : Mark) : Mark :=
  ⟨mark.index + 1, mark.line + 1, 0⟩

/-- The place behind a text whose line ends are single characters. -/
def past : List Char → Mark → Mark
  | [], mark => mark
  | c :: rest, mark => past rest (if isBreak c then mark.newLine else mark.along 1)

@[simp] theorem along_zero (mark : Mark) : mark.along 0 = mark := rfl

@[simp] theorem along_along (first second : Nat) (mark : Mark) :
    (mark.along first).along second = mark.along (first + second) := by
  simp [along, Nat.add_assoc]

@[simp] theorem column_along (count : Nat) (mark : Mark) :
    (mark.along count).column = mark.column + count := rfl

@[simp] theorem line_along (count : Nat) (mark : Mark) : (mark.along count).line = mark.line := rfl

@[simp] theorem index_along (count : Nat) (mark : Mark) :
    (mark.along count).index = mark.index + count := rfl

@[simp] theorem past_nil (mark : Mark) : past [] mark = mark := rfl

theorem past_append (first second : List Char) (mark : Mark) :
    past (first ++ second) mark = past second (past first mark) := by
  induction first generalizing mark with
  | nil => rfl
  | cons c rest ih => exact ih _

theorem past_cons_break {c : Char} (lineEnd : isBreak c = true) (rest : List Char) (mark : Mark) :
    past (c :: rest) mark = past rest mark.newLine := by
  rw [past, if_pos lineEnd]

theorem past_cons_solid {c : Char} (inLine : isBreak c = false) (rest : List Char) (mark : Mark) :
    past (c :: rest) mark = past rest (mark.along 1) := by
  rw [past, if_neg (by rw [inLine]; decide)]

/-- Within a line the place moves along by the length of the text. -/
theorem past_eq_along {text : List Char} (inLine : ∀ c ∈ text, isBreak c = false) (mark : Mark) :
    past text mark = mark.along text.length := by
  induction text generalizing mark with
  | nil => rfl
  | cons c rest ih =>
      rw [past_cons_solid (inLine c List.mem_cons_self),
        ih (fun c member => inLine c (List.mem_cons_of_mem _ member)), along_along, List.length_cons,
        Nat.add_comm]

/-- Going past spaces moves the mark along its line. -/
theorem past_spaces (count : Nat) (mark : Mark) : past (spaces count) mark = mark.along count := by
  rw [past_eq_along, length_spaces]
  intro c member
  obtain rfl := List.eq_of_mem_replicate member
  rfl

/-- Behind a line end the place is at the start of a line. -/
theorem column_past {text : List Char} (lineEnd : text.getLast?.any isBreak = true) (mark : Mark) :
    (past text mark).column = 0 := by
  cases last : text.getLast? with
  | none => rw [last] at lineEnd; cases lineEnd
  | some c =>
      obtain ⟨before, rfl⟩ := List.getLast?_eq_some_iff.1 last
      rw [last] at lineEnd
      rw [past_append, past_cons_break lineEnd]
      rfl

example : past "a: b\nc\n".toList ⟨0, 1, 0⟩ = ⟨7, 3, 0⟩ := by decide +kernel

/-- Going past a text never goes back to an earlier line. -/
theorem line_le_past (text : List Char) (mark : Mark) : mark.line ≤ (past text mark).line := by
  induction text generalizing mark with
  | nil => exact Nat.le_refl _
  | cons c rest ih =>
      refine Nat.le_trans ?_ (ih _)
      split
      · exact Nat.le_succ _
      · exact Nat.le_refl _

/-- Going past a text with a line end in it ends on a later line. -/
theorem line_lt_past {text : List Char} (lineEnd : ∃ c ∈ text, isBreak c = true) (mark : Mark) :
    mark.line < (past text mark).line := by
  obtain ⟨c, member, lineEnd⟩ := lineEnd
  obtain ⟨before, after, rfl⟩ := List.append_of_mem member
  rw [past_append, past_cons_break lineEnd]
  calc mark.line
    _ ≤ (past before mark).line := line_le_past before mark
    _ < (past before mark).newLine.line := Nat.lt_succ_self _
    _ ≤ _ := line_le_past after _

end Mark

/-! ### Characters -/

variable {c : Char}

theorem isBreak_of_isSpace (blank : isSpace c = true) : isBreak c = false := by
  simp only [isSpace, Bool.or_eq_true, decide_eq_true_eq] at blank
  rcases blank with rfl | rfl <;> rfl

/-- A line end is no blank. -/
theorem isSpace_of_isBreak (lineEnd : isBreak c = true) : isSpace c = false := by
  cases blank : isSpace c with
  | false => rfl
  | true => rw [isBreak_of_isSpace blank] at lineEnd; cases lineEnd

/-- The only printable blank is the space, since a tab is not printed. -/
theorem eq_space_of_isSpace (printable : isPrintable c = true) (blank : isSpace c = true) :
    c = ' ' := by
  simp only [isSpace, Bool.or_eq_true, decide_eq_true_eq] at blank
  rcases blank with rfl | rfl
  · rfl
  · exact absurd printable (by decide)

/-- The line ends that are written as themselves: the line feed and the two separators. -/
theorem isBreak_cases (printable : isPrintable c = true) (lineEnd : isBreak c = true) :
    c = '\n' ∨ c.toNat = 0x2028 ∨ c.toNat = 0x2029 := by
  simp only [isBreak, Bool.or_eq_true, decide_eq_true_eq] at lineEnd
  rcases lineEnd with (((rfl | rfl) | next) | line) | paragraph
  · exact .inl rfl
  · exact absurd printable (by decide)
  · simp [isPrintable, next] at printable
  · exact .inr (.inl line)
  · exact .inr (.inr paragraph)

/-- Every printable character may stand in a document. -/
theorem isAllowed_of_isPrintable (printable : isPrintable c = true) : isAllowed c = true := by
  simp only [isPrintable, isAllowed, Bool.or_eq_true, Bool.and_eq_true, decide_eq_true_eq, bne_iff_ne,
    ne_eq] at printable ⊢
  omega

/-! ### Runs -/

/-- Whether a text goes on with a character that is neither a blank nor a line end, or has ended. -/
def IsSolid (rest : List Char) : Prop :=
  ∀ c, rest.head? = some c → isSpace c = false ∧ isBreak c = false

theorem IsSolid.append {rest : List Char} (solid : IsSolid rest) (filled : rest ≠ [])
    (after : List Char) : IsSolid (rest ++ after) := by
  cases rest with
  | nil => exact absurd rfl filled
  | cons c rest => exact solid

theorem isSolid_cons {c : Char} (blank : isSpace c = false) (lineEnd : isBreak c = false)
    (rest : List Char) : IsSolid (c :: rest) := by
  intro first same
  obtain rfl := Option.some.inj same
  exact ⟨blank, lineEnd⟩

/-- The line ends of a text that is written as it stands. -/
def AreBreaks (ends : List Char) : Prop :=
  ∀ c ∈ ends, isPrintable c = true ∧ isBreak c = true

/-- A text that goes on with line ends ends in one. -/
theorem AreBreaks.ended {ends : List Char} (breaks : AreBreaks ends) (filled : ends ≠ [])
    (front : List Char) : (front ++ ends).getLast?.any isBreak = true := by
  obtain ⟨last, final⟩ : ∃ last, ends.getLast? = some last :=
    ⟨_, List.getLast?_eq_some_getLast filled⟩
  rw [List.getLast?_append, final]
  exact (breaks last (List.mem_of_getLast? final)).2

/-- Going past whole lines that are empty ends at the first column again. -/
theorem AreBreaks.column_past {ends : List Char} {mark : Mark} (breaks : AreBreaks ends)
    (column : mark.column = 0) : (mark.past ends).column = 0 := by
  cases ends with
  | nil => rw [Mark.past_nil, column]
  | cons e ends => exact Mark.column_past (breaks.ended (List.cons_ne_nil e ends) []) mark

/-- Whether a text is on one line and written as it stands. -/
def IsInline (text : List Char) : Prop :=
  ∀ c ∈ text, isPrintable c = true ∧ isBreak c = false

theorem isInline_iff {text : List Char} :
    (text.all fun c => isPrintable c && !isBreak c) = true ↔ IsInline text := by
  simp [IsInline]

instance (text : List Char) : Decidable (IsInline text) :=
  decidable_of_iff _ isInline_iff

theorem IsInline.append {first second : List Char} (head : IsInline first) (tail : IsInline second) :
    IsInline (first ++ second) := by
  intro c member
  rcases List.mem_append.1 member with member | member
  · exact head c member
  · exact tail c member

theorem IsInline.left {first second : List Char} (inline : IsInline (first ++ second)) :
    IsInline first :=
  fun c member => inline c (List.mem_append_left _ member)

theorem IsInline.right {first second : List Char} (inline : IsInline (first ++ second)) :
    IsInline second :=
  fun c member => inline c (List.mem_append_right _ member)

theorem IsInline.past {text : List Char} (inline : IsInline text) (mark : Mark) :
    mark.past text = mark.along text.length :=
  Mark.past_eq_along (fun c member => (inline c member).2) mark

/-- A printable text is solid if it starts with neither a space nor a line end. -/
theorem isSolid_of_head {rest : List Char} (printable : ∀ c ∈ rest, isPrintable c = true)
    (space : rest.head? ≠ some ' ') (lineEnd : ∀ c, rest.head? = some c → isBreak c = false) :
    IsSolid rest := by
  intro c first
  refine ⟨?_, lineEnd c first⟩
  cases blank : isSpace c with
  | false => rfl
  | true =>
      obtain rfl := eq_space_of_isSpace (printable c (List.mem_of_mem_head? first)) blank
      exact absurd first space

/-- The blanks at the start of a text, and the text behind them. -/
theorem exists_spaces (text : List Char) :
    ∃ count after, text = spaces count ++ after ∧ after.head? ≠ some ' ' := by
  induction text with
  | nil => exact ⟨0, [], rfl, by simp⟩
  | cons c rest ih =>
      by_cases blank : c = ' '
      · obtain ⟨count, after, rfl, other⟩ := ih
        exact ⟨count + 1, after, by rw [blank]; rfl, other⟩
      · exact ⟨0, c :: rest, rfl, by simpa using blank⟩

/-- The line ends at the start of a text, and the text behind them. -/
theorem exists_breaks {text : List Char} (printable : ∀ c ∈ text, isPrintable c = true) :
    ∃ ends after, text = ends ++ after ∧ AreBreaks ends ∧
      ∀ c, after.head? = some c → isBreak c = false := by
  induction text with
  | nil => exact ⟨[], [], rfl, fun _ member => absurd member List.not_mem_nil, by simp⟩
  | cons c rest ih =>
      cases lineEnd : isBreak c with
      | true =>
          obtain ⟨ends, after, rfl, breaks, other⟩ :=
            ih fun c member => printable c (List.mem_cons_of_mem _ member)
          refine ⟨c :: ends, after, rfl, fun d member => ?_, other⟩
          rcases List.mem_cons.mp member with rfl | member
          · exact ⟨printable _ List.mem_cons_self, lineEnd⟩
          · exact breaks d member
      | false =>
          refine ⟨[], c :: rest, rfl, fun _ member => absurd member List.not_mem_nil, ?_⟩
          rintro first same
          exact (Option.some.inj same) ▸ lineEnd

/-- The first line of a text without its end, and the text behind it. -/
theorem exists_line (text : List Char) :
    ∃ line more, text = line ++ more ∧ (∀ c ∈ line, isBreak c = false) ∧
      ∀ c, more.head? = some c → isBreak c = true := by
  induction text with
  | nil => exact ⟨[], [], rfl, fun _ member => absurd member List.not_mem_nil, by simp⟩
  | cons c text ih =>
      cases lineEnd : isBreak c with
      | true =>
          refine ⟨[], c :: text, rfl, fun _ member => absurd member List.not_mem_nil, ?_⟩
          rintro first same
          exact (Option.some.inj same) ▸ lineEnd
      | false =>
          obtain ⟨line, more, rfl, inline, ends⟩ := ih
          refine ⟨c :: line, more, rfl, fun d member => ?_, ends⟩
          rcases List.mem_cons.1 member with rfl | member
          · exact lineEnd
          · exact inline d member

/-! ### Indented lines -/

/-- Indenting adds nothing inside a line. -/
theorem indentLines_solid {c : Char} (lineEnd : isBreak c = false) (indent : Nat)
    (rest : List Char) : indentLines indent false (c :: rest) = c :: indentLines indent false rest := by
  rw [indentLines, lineEnd]
  rfl

/-- Indenting adds the spaces in front of a line that holds something. -/
theorem indentLines_start {rest : List Char} (solid : ∀ c, rest.head? = some c → isBreak c = false)
    (filled : rest ≠ []) (indent : Nat) :
    indentLines indent true rest = spaces indent ++ indentLines indent false rest := by
  cases rest with
  | nil => exact absurd rfl filled
  | cons c rest =>
      have lineEnd := solid c rfl
      rw [indentLines_solid lineEnd, indentLines, lineEnd]
      rfl

/-- Indenting adds nothing to empty lines, and stands at the start of a line behind them. -/
theorem indentLines_breaks {ends : List Char} (breaks : AreBreaks ends) (filled : ends ≠ [])
    (indent : Nat) (atStart : Bool) (rest : List Char) :
    indentLines indent atStart (ends ++ rest) = ends ++ indentLines indent true rest := by
  induction ends generalizing atStart with
  | nil => exact absurd rfl filled
  | cons c ends ih =>
      have behind : AreBreaks ends := fun c member => breaks c (List.mem_cons_of_mem _ member)
      rw [List.cons_append, indentLines, if_pos (breaks c List.mem_cons_self).2, List.cons_append]
      cases ends with
      | nil => rfl
      | cons next ends => rw [ih behind (List.cons_ne_nil _ _)]

/-! ### Moving -/

namespace Cursor

variable {rest : List Char} {mark : Mark}

theorem skip_append (text rest : List Char) (mark : Mark) :
    skip text.length ⟨text ++ rest, mark⟩ = ⟨rest, mark.along text.length⟩ := by
  simp [skip, Mark.along]

/-- Skipping the spaces at the cursor leaves what follows them. -/
theorem skip_spaces (count : Nat) (rest : List Char) (mark : Mark) :
    skip count ⟨spaces count ++ rest, mark⟩ = ⟨rest, mark.along count⟩ := by
  have skipped := skip_append (spaces count) rest mark
  rwa [length_spaces] at skipped

@[simp] theorem skip_zero (cursor : Cursor) : skip 0 cursor = cursor := rfl

theorem skip_one (c : Char) (rest : List Char) (mark : Mark) :
    skip 1 ⟨c :: rest, mark⟩ = ⟨rest, mark.along 1⟩ := rfl

theorem skipBreak_cons (printable : isPrintable c = true) (lineEnd : isBreak c = true) :
    skipBreak ⟨c :: rest, mark⟩ = ⟨rest, mark.newLine⟩ := by
  have notReturn : c ≠ '\r' := by
    rintro rfl
    exact absurd printable (by decide)
  simp [skipBreak, notReturn, lineEnd, Mark.newLine]

theorem breakText_cons (printable : isPrintable c = true) (lineEnd : isBreak c = true) :
    breakText ⟨c :: rest, mark⟩ = [c] := by
  rcases isBreak_cases printable lineEnd with rfl | line | paragraph
  · rfl
  · simp [breakText, line]
  · simp [breakText, paragraph]

theorem takeWhile_append {p : Char → Bool} {text : List Char} (all : ∀ c ∈ text, p c = true)
    (stops : rest.head?.any p = false) :
    takeWhile p ⟨text ++ rest, mark⟩ = (text, ⟨rest, mark.along text.length⟩) := by
  have taken : (text ++ rest).takeWhile p = text := by
    rw [List.takeWhile_append_of_pos all]
    cases rest with
    | nil => simp
    | cons c rest =>
        have other : p c = false := stops
        rw [List.takeWhile_cons_of_neg (by rw [other]; decide), List.append_nil]
  rw [takeWhile, taken, skip_append]

end Cursor

end DocPress.Yaml
