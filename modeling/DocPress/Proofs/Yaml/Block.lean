import DocPress.Proofs.Yaml.Plain

/-!
Block scalars read back. The lines of a block keep their line ends; what becomes of those at the end is
said by the indicators in front, which are chosen for the text.
-/

namespace DocPress.Yaml

open Cursor

/-! ### Indicators -/

/-- What has to happen to the line ends at the end of a block for a text. -/
def chompingOf (text : List Char) : Chomping :=
  match text.reverse with
  | [] => .strip
  | last :: before =>
    if !isBreak last then .strip
    else if before.isEmpty || before.head?.any isBreak then .keep
    else .clip

/-- The indicator that stands for what happens to the line ends at the end. -/
def Chomping.hint : Chomping → List Char
  | .strip => ['-']
  | .clip => []
  | .keep => ['+']

/-- Whether the first line of a text does not show its indentation. -/
def hidesIndent (text : List Char) : Bool :=
  text.head?.any fun c => c = ' ' || isBreak c

/-- The hints are one for the indentation, if it is hidden, and one for the end. -/
theorem blockHints_eq (text : List Char) :
    blockHints text = (if hidesIndent text then ['2'] else []) ++ (chompingOf text).hint := by
  rw [blockHints, hidesIndent, chompingOf]
  congr 1
  cases text.reverse with
  | nil => rfl
  | cons last before =>
      dsimp only
      split
      · rfl
      · split <;> rfl

/-- The hints of a block scalar are read back. -/
theorem takeBlockHints_blockHints (start : Mark) (text rest : List Char) (mark : Mark) :
    takeBlockHints start ⟨blockHints text ++ '\n' :: rest, mark⟩ =
      .ok (chompingOf text, if hidesIndent text then some 2 else none,
        ⟨'\n' :: rest, mark.along (blockHints text).length⟩) := by
  rw [blockHints_eq]
  cases hidesIndent text <;> cases chompingOf text <;> rfl

/-! ### Line ends and indentation -/

section Breaks

variable {start mark : Mark} {fuel widest indent : Nat} {breaks rest : List Char}

/-- Whether the place behind empty lines is where a line of the block, or something else, starts: the
indentation is taken off, as far as it belongs to the block. -/
def StartsLine (indent : Nat) (text : List Char) (behind : List Char) (count : Nat) : Prop :=
  text = spaces count ++ behind ∧ (∀ c, behind.head? = some c → isBreak c = false) ∧
    (count = indent ∨ count < indent ∧ IsSolid behind)

/-- The spaces in front of a line are taken as far as they belong to the block. -/
theorem StartsLine.wanted {text behind : List Char} {count : Nat}
    (starts : StartsLine indent text behind count) :
    min (text.takeWhile (· = ' ')).length indent = count := by
  obtain ⟨rfl, -, place⟩ := starts
  have length : ((spaces count ++ behind).takeWhile (· = ' ')).length =
      count + (behind.takeWhile (· = ' ')).length := by
    rw [List.takeWhile_append_of_pos (by simp [spaces]), List.length_append,
      length_spaces]
  rw [length]
  rcases place with rfl | ⟨less, solid⟩
  · omega
  · have none : behind.takeWhile (· = ' ') = [] := by
      cases behind with
      | nil => rfl
      | cons c behind =>
          have other : c ≠ ' ' := by
            rintro rfl
            exact absurd (solid ' ' rfl).1 (by decide)
          rw [List.takeWhile_cons_of_neg (by simpa using other)]
    rw [none]
    simp only [List.length_nil]
    omega

/-- What is not indented as far as the block stands behind it. -/
theorem startsLine_end {behind : List Char} {count : Nat} (outside : count < indent)
    (solid : IsSolid behind) : StartsLine indent (spaces count ++ behind) behind count :=
  ⟨rfl, fun d first => (solid d first).2, .inr ⟨outside, solid⟩⟩

/-- Where a line starts only its indentation is taken. -/
theorem takeBlockBreaks_start {text behind : List Char} {count : Nat}
    (starts : StartsLine indent text behind count) (column : mark.column = 0) :
    takeBlockBreaks start (some indent) (fuel + 1) widest breaks ⟨text, mark⟩ =
      .ok (max widest count, breaks, ⟨behind, mark.along count⟩) := by
  have wanted := starts.wanted
  obtain ⟨rfl, solid, place⟩ := starts
  have noBreak : (⟨behind, mark.along count⟩ : Cursor).next?.any isBreak = false := by
    cases behind with
    | nil => rfl
    | cons c behind => exact solid c rfl
  have noTab : (decide (count < indent) &&
      decide ((⟨behind, mark.along count⟩ : Cursor).next? = some '\t')) = false := by
    rcases place with rfl | ⟨-, solid⟩
    · simp
    · rw [Bool.and_eq_false_iff]
      right
      rw [decide_eq_false_iff_not]
      intro tab
      exact absurd (solid '\t' tab).1 (by decide)
  rw [takeBlockBreaks]
  simp only [column, Nat.sub_zero, wanted, skip_spaces, Mark.column_along, Nat.zero_add, noBreak,
    Option.all_some, noTab, Bool.false_eq_true, if_false]

/-- Empty lines are taken up to where a line starts, and its indentation with them. -/
theorem takeBlockBreaks_breaks {ends text behind : List Char} {count : Nat} (areBreaks : AreBreaks ends)
    (starts : StartsLine indent text behind count) (column : mark.column = 0)
    (enough : ends.length < fuel) :
    takeBlockBreaks start (some indent) fuel widest breaks ⟨ends ++ text, mark⟩ =
      .ok (max widest count, breaks ++ ends, ⟨behind, (mark.past ends).along count⟩) := by
  induction ends generalizing fuel breaks mark with
  | nil =>
      obtain ⟨fuel, rfl⟩ : ∃ less, fuel = less + 1 := ⟨fuel - 1, by omega⟩
      rw [List.append_nil]
      exact takeBlockBreaks_start starts column
  | cons c ends ih =>
      obtain ⟨fuel, rfl⟩ : ∃ less, fuel = less + 1 := ⟨fuel - 1, by omega⟩
      obtain ⟨printable, lineEnd⟩ := areBreaks c List.mem_cons_self
      have noSpace : (c = ' ') = False := by
        refine eq_false ?_
        rintro rfl
        exact absurd lineEnd (by decide)
      have noTab : (c = '\t') = False := by
        refine eq_false ?_
        rintro rfl
        exact absurd lineEnd (by decide)
      have next : (⟨c :: (ends ++ text), mark⟩ : Cursor).next? = some c := rfl
      have step := @ih mark.newLine fuel (breaks ++ [c])
        (fun d member => areBreaks d (List.mem_cons_of_mem _ member)) rfl
        (Nat.lt_of_succ_lt_succ enough)
      rw [List.append_assoc, List.singleton_append] at step
      rw [List.cons_append, takeBlockBreaks]
      simp only [List.takeWhile_cons, noSpace, decide_false, Bool.false_eq_true, if_false,
        List.length_nil, Nat.zero_min, skip_zero, next, Option.some.injEq, noTab, Bool.and_false,
        Option.any_some, lineEnd, if_true, column, Nat.max_zero]
      rw [breakText_cons printable lineEnd, skipBreak_cons printable lineEnd, step,
        Mark.past_cons_break lineEnd]

end Breaks

/-! ### Lines -/

section Lines

variable {start mark : Mark} {fuel indent : Nat} {rest : List Char}

/-- A line of a literal block, the line ends behind it and the indentation of the next line. -/
theorem takeBlockLines_line {block : BlockText} {line ends text behind : List Char} {c : Char}
    {count : Nat} (inside : mark.column = indent)
    (inline : ∀ c ∈ line, isBreak c = false) (areBreaks : AreBreaks (c :: ends))
    (starts : StartsLine indent text behind count) :
    takeBlockLines true start indent (fuel + 1) block ⟨line ++ (c :: ends ++ text), mark⟩ =
      takeBlockLines true start indent fuel
        { block.addLine true line [c] with emptyLines := ends }
        ⟨behind, (mark.past (line ++ c :: ends)).along count⟩ := by
  obtain ⟨printable, lineEnd⟩ := areBreaks c List.mem_cons_self
  have taken := @takeWhile_append (c :: ends ++ text) mark (fun c => !isBreak c) line
    (fun d member => by rw [inline d member]; rfl) (by simp [lineEnd])
  have notEmpty : (line ++ (c :: ends ++ text)).isEmpty = false := by simp
  have breaks := @takeBlockBreaks_breaks start (mark.along line.length).newLine
    ((ends ++ text).length + 1) 0 indent [] ends text behind count
    (fun d member => areBreaks d (List.mem_cons_of_mem _ member)) starts rfl
    (by rw [List.length_append]; omega)
  rw [List.nil_append] at breaks
  rw [List.cons_append] at *
  rw [takeBlockLines]
  simp only [inside, notEmpty, taken, decide_true, Bool.not_false, Bool.and_self, if_true]
  rw [breakText_cons printable lineEnd, skipBreak_cons printable lineEnd, breaks, Mark.past_append,
    Mark.past_eq_along inline, Mark.past_cons_break lineEnd]
  rfl

/-- A line outside of the block ends it. -/
theorem takeBlockLines_end {block : BlockText} (outside : mark.column < indent) :
    takeBlockLines true start indent (fuel + 1) block ⟨rest, mark⟩ = .ok (block, ⟨rest, mark⟩) := by
  rw [takeBlockLines]
  simp [Nat.ne_of_lt outside]

theorem indentLines_append_of_inline {line : List Char} (inline : ∀ c ∈ line, isBreak c = false)
    (indent : Nat) (more : List Char) :
    indentLines indent false (line ++ more) = line ++ indentLines indent false more := by
  induction line with
  | nil => rfl
  | cons c line ih =>
      rw [List.cons_append, indentLines_solid (inline c List.mem_cons_self),
        ih fun d member => inline d (List.mem_cons_of_mem _ member)]
      rfl

/-- What reading the lines of a block comes to: they are cut in front of the line ends at the end. -/
structure Collects (block result : BlockText) (full : List Char) : Prop where
  split : ∃ body last, full = body ++ (last :: result.emptyLines) ∧ result.lastBreak = [last] ∧
    result.text = block.text ++ block.lastBreak ++ block.emptyLines ++ body ∧
    (∃ c, body.getLast? = some c ∧ isBreak c = false) ∧ AreBreaks (last :: result.emptyLines)

/-- What is read behind a line of the block is what is read with the line in front. -/
theorem Collects.line {block result : BlockText} {line ends more : List Char} {e : Char}
    (collects : Collects { block.addLine true line [e] with emptyLines := ends } result more) :
    Collects block result (line ++ (e :: ends ++ more)) := by
  obtain ⟨body, final, split, lastBreak, text, ⟨c, last, solid⟩, breaks⟩ := collects
  refine ⟨line ++ (e :: ends) ++ body, final, ?_, lastBreak, ?_, ⟨c, ?_, solid⟩, breaks⟩
  · rw [split]
    simp
  · rw [text]
    simp [BlockText.addLine]
  · rw [List.getLast?_append, last]
    rfl

/-- A text that starts in a line and ends in a line end is a line, the line ends behind it and what
starts in the next line. -/
theorem exists_firstLine {full : List Char} (printable : ∀ c ∈ full, isPrintable c = true)
    (first : ∃ c, full.head? = some c ∧ isBreak c = false) (last : full.getLast?.any isBreak = true) :
    ∃ line c e ends after, full = line ++ (e :: ends ++ after) ∧ line.getLast? = some c ∧
      (∀ d ∈ line, isBreak d = false) ∧ AreBreaks (e :: ends) ∧
      ∀ d, after.head? = some d → isBreak d = false := by
  obtain ⟨line, more, rfl, inline, isEnd⟩ := exists_line full
  obtain ⟨ends, after, rfl, areBreaks, other⟩ :=
    exists_breaks fun c member => printable c (List.mem_append_right line member)
  have filled : line ≠ [] := by
    rintro rfl
    obtain ⟨c, head, solid⟩ := first
    exact absurd (isEnd c head) (by rw [solid]; decide)
  obtain ⟨c, final⟩ : ∃ c, line.getLast? = some c := ⟨_, List.getLast?_eq_some_getLast filled⟩
  cases ends with
  | cons e ends => exact ⟨line, c, e, ends, after, rfl, final, inline, areBreaks, other⟩
  | nil =>
      cases after with
      | nil => simp [final, inline c (List.mem_of_getLast? final)] at last
      | cons d after => exact absurd ((other d rfl).symm.trans (isEnd d rfl)) (by decide)

/-- Indenting leaves a line and the empty ones behind it as they are and goes on with the next. -/
theorem indentLines_line {line ends : List Char} {e : Char} (inline : ∀ c ∈ line, isBreak c = false)
    (areBreaks : AreBreaks (e :: ends)) (indent : Nat) (text : List Char) :
    indentLines indent false (line ++ (e :: ends ++ text)) =
      line ++ (e :: ends ++ indentLines indent true text) := by
  rw [indentLines_append_of_inline inline, indentLines_breaks areBreaks (List.cons_ne_nil e ends)]

/-- Behind line ends, a text that does not start with another one starts a line. -/
theorem startsLine_indentLines {text : List Char} {d : Char} (solid : isBreak d = false)
    (indent : Nat) (behind : List Char) :
    StartsLine indent (indentLines indent true (d :: text) ++ behind)
      (indentLines indent false (d :: text) ++ behind) indent := by
  have other : ∀ c, (d :: text).head? = some c → isBreak c = false := by
    rintro c ⟨⟩
    exact solid
  refine ⟨?_, fun first head => ?_, .inl rfl⟩
  · rw [indentLines_start other (List.cons_ne_nil d text), List.append_assoc]
  · rw [indentLines_solid solid] at head
    obtain rfl := Option.some.inj head
    exact solid

/-- The lines of a block, from the first one that is not empty. -/
theorem takeBlockLines_text {full : List Char} {block : BlockText} {count : Nat}
    (printable : ∀ c ∈ full, isPrintable c = true)
    (first : ∃ c, full.head? = some c ∧ isBreak c = false) (last : full.getLast?.any isBreak = true)
    (inside : mark.column = indent) (outside : count < indent) (solid : IsSolid rest)
    (enough : full.length < fuel) :
    ∃ result, takeBlockLines true start indent fuel block
        ⟨indentLines indent false full ++ (spaces count ++ rest), mark⟩ =
          .ok (result, ⟨rest, (mark.past (indentLines indent false full)).along count⟩) ∧
      Collects block result full := by
  -- Each step takes a line with all line ends behind it, so the induction is on the length.
  induction length : full.length using Nat.strongRecOn generalizing full block fuel mark with
  | ind size ih =>
      obtain ⟨fuel, rfl⟩ : ∃ less, fuel = less + 1 := ⟨fuel - 1, by omega⟩
      obtain ⟨line, c, e, ends, after, rfl, final, inline, areBreaks, other⟩ :=
        exists_firstLine printable first last
      have final' := inline c (List.mem_of_getLast? final)
      have ended := areBreaks.ended (List.cons_ne_nil e ends) line
      rw [indentLines_line inline areBreaks]
      simp only [List.length_append, List.length_cons] at length enough
      cases after with
      | nil =>
          obtain ⟨fuel, rfl⟩ : ∃ less, fuel = less + 1 := ⟨fuel - 1, by omega⟩
          have nothing : indentLines indent true [] = [] := rfl
          refine ⟨{ block.addLine true line [e] with emptyLines := ends }, ?_,
            line, e, by simp, rfl, rfl, ⟨c, final, final'⟩, areBreaks⟩
          rw [nothing, List.append_nil, List.append_assoc,
            takeBlockLines_line inside inline areBreaks (startsLine_end outside solid),
            takeBlockLines_end]
          rw [Mark.column_along, Mark.column_past ended]
          omega
      | cons d after =>
          have solid' := other d rfl
          have inside' : ((mark.past (line ++ e :: ends)).along indent).column = indent := by
            rw [Mark.column_along, Mark.column_past ended, Nat.zero_add]
          have last' : (d :: after).getLast?.any isBreak = true := by
            rwa [List.getLast?_append_of_ne_nil _ (by simp),
              List.getLast?_append_of_ne_nil _ (List.cons_ne_nil d after)] at last
          obtain ⟨result, read, collects⟩ :=
            @ih (d :: after).length (by omega)
              ((mark.past (line ++ e :: ends)).along indent) fuel (d :: after)
              { block.addLine true line [e] with emptyLines := ends }
              (fun c member => printable c (by simp [List.mem_cons.1 member]))
              ⟨d, rfl, solid'⟩ last' inside' (by omega) rfl
          refine ⟨result, ?_, collects.line⟩
          rw [List.append_assoc, List.append_assoc, takeBlockLines_line inside inline areBreaks
            (startsLine_indentLines solid' indent _), read,
            indentLines_start other (List.cons_ne_nil d after)]
          simp only [Mark.past_append, Mark.past_spaces]

end Lines

/-! ### The line ends at the end -/

/-- Indenting keeps the last character. -/
theorem getLast?_indentLines (indent : Nat) (atStart : Bool) (text : List Char) :
    (indentLines indent atStart text).getLast? = text.getLast? := by
  induction text generalizing atStart with
  | nil => rfl
  | cons c rest ih =>
      have behind (inner : List Char) (same : inner.getLast? = rest.getLast?) :
          (c :: inner).getLast? = (c :: rest).getLast? := by
        rw [List.getLast?_cons, List.getLast?_cons, same]
      rw [indentLines]
      split
      · exact behind _ (ih true)
      · split
        · rw [List.getLast?_append_of_ne_nil _ (List.cons_ne_nil _ _)]
          exact behind _ (ih false)
        · exact behind _ (ih false)

theorem indentLines_concat {c : Char} (lineEnd : isBreak c = true) (indent : Nat) (atStart : Bool)
    (text : List Char) :
    indentLines indent atStart (text ++ [c]) = indentLines indent atStart text ++ [c] := by
  induction text generalizing atStart with
  | nil => simp [indentLines, lineEnd]
  | cons d text ih =>
      rw [List.cons_append, indentLines, indentLines, ih, ih]
      split
      · rfl
      · split
        · rw [List.append_assoc, List.cons_append]
        · rfl

theorem endLine_append (front : List Char) {text : List Char} (filled : text ≠ []) :
    endLine (front ++ text) = front ++ endLine text := by
  rw [endLine, endLine, List.getLast?_append_of_ne_nil _ filled]
  split
  · rfl
  · rw [List.append_assoc]

/-- Ending the last line commutes with indenting. -/
theorem indentLines_endLine (indent : Nat) (text : List Char) :
    endLine (indentLines indent true text) = indentLines indent true (endLine text) := by
  rw [endLine, endLine, getLast?_indentLines]
  split
  · rfl
  · exact (indentLines_concat rfl indent true text).symm

/-- A block scalar with its line ended is the bar, the hints and the indented lines. -/
theorem endLine_blockChars {text : List Char} (filled : text ≠ []) (indent : Nat) :
    endLine (blockChars indent text) =
      '|' :: (blockHints text ++ '\n' :: indentLines indent true (endLine text)) := by
  have written : indentLines indent true text ≠ [] := by
    intro empty
    have last := getLast?_indentLines indent true text
    rw [empty, List.getLast?_nil] at last
    exact filled (List.getLast?_eq_none_iff.1 last.symm)
  have split : blockChars indent text =
      ('|' :: (blockHints text ++ ['\n'])) ++ indentLines indent true text := by
    simp [blockChars]
  rw [split, endLine_append _ written, indentLines_endLine]
  simp

theorem chompingOf_concat (before : List Char) (last : Char) :
    chompingOf (before ++ [last]) =
      if !isBreak last then .strip
      else if before.isEmpty || before.getLast?.any isBreak then .keep
      else .clip := by
  rw [chompingOf, List.reverse_append, List.reverse_singleton, List.singleton_append]
  simp only [List.isEmpty_reverse, List.head?_reverse]

/-- Of a text of line ends alone, all of them are kept. -/
theorem chompingOf_breaks {text : List Char} (breaks : AreBreaks text) (filled : text ≠ []) :
    chompingOf text = .keep := by
  obtain ⟨before, last, rfl⟩ := (List.eq_nil_or_concat text).resolve_left filled
  rw [List.concat_eq_append] at *
  have kept : (before.isEmpty || before.getLast?.any isBreak) = true := by
    have front : AreBreaks before := fun c member => breaks c (List.mem_append_left _ member)
    by_cases empty : before = []
    · simp [empty]
    · rw [← List.nil_append before, front.ended empty []]
      simp
  rw [chompingOf_concat, (breaks last (by simp)).2, kept]
  rfl

/-- The indicators keep what belongs to the text of the line ends at its end. -/
theorem chomp_endLine {text body others : List Char} {last : Char}
    (split : endLine text = body ++ last :: others)
    (solid : ∃ c, body.getLast? = some c ∧ isBreak c = false) (breaks : AreBreaks (last :: others)) :
    body ++ (if chompingOf text = .strip then [] else [last]) ++
      (if chompingOf text = .keep then others else []) = text := by
  obtain ⟨c, final, solid⟩ := solid
  rw [endLine] at split
  rcases List.eq_nil_or_concat others with rfl | ⟨others, next, rfl⟩
  · split at split
    case isTrue =>
        have clipped : (body.isEmpty || body.getLast?.any isBreak) = false := by
          obtain ⟨before, rfl⟩ := List.getLast?_eq_some_iff.1 final
          simp [solid]
        rw [split, chompingOf_concat, (breaks last List.mem_cons_self).2, clipped]
        simp
    case isFalse open_ =>
        obtain ⟨rfl, -⟩ := List.append_inj' split rfl
        obtain ⟨before, rfl⟩ := List.getLast?_eq_some_iff.1 final
        rw [chompingOf_concat, solid]
        simp
  · rw [List.concat_eq_append] at *
    have front : AreBreaks (last :: others) := fun d member =>
      breaks d (by rw [← List.cons_append]; exact List.mem_append_left _ member)
    have ended := front.ended (List.cons_ne_nil last others) body
    split at split
    case isTrue =>
        rw [← List.cons_append, ← List.append_assoc] at split
        rw [split, chompingOf_concat, (breaks next (by simp)).2, ended]
        simp
    case isFalse open_ =>
        rw [← List.cons_append, ← List.append_assoc] at split
        obtain ⟨rfl, -⟩ := List.append_inj' split rfl
        exact absurd ended open_

/-! ### Whole blocks -/

section Whole

variable {start mark : Mark} {fuel parent count : Nat} {rest : List Char}

/-- Without a hint, the indentation of the first line is that of the block. -/
theorem takeBlockBreaks_shown {indent : Nat} {c : Char} (column : mark.column = 0)
    (blank : isSpace c = false) (lineEnd : isBreak c = false) :
    takeBlockBreaks start none (fuel + 1) 0 [] ⟨spaces indent ++ c :: rest, mark⟩ =
      .ok (indent, [], ⟨c :: rest, mark.along indent⟩) := by
  have space : c ≠ ' ' := by
    rintro rfl
    exact absurd blank (by decide)
  have tab : c ≠ '\t' := by
    rintro rfl
    exact absurd blank (by decide)
  have taken : ((spaces indent ++ c :: rest).takeWhile (· = ' ')).length = indent := by
    rw [List.takeWhile_append_of_pos (by simp [spaces]), List.takeWhile_cons_of_neg (by simpa using space),
      List.append_nil, length_spaces]
  rw [takeBlockBreaks]
  simp only [taken, skip_spaces, Mark.column_along, column, Nat.zero_add, Nat.zero_max, next?,
    List.head?_cons, Option.any_some, lineEnd, Option.some.injEq, tab, decide_false, Bool.and_false,
    Bool.false_eq_true, if_false]

/-- A printable text stays so with its line ended. -/
theorem printable_endLine {text : List Char} (printable : ∀ c ∈ text, isPrintable c = true) :
    ∀ c ∈ endLine text, isPrintable c = true := by
  intro c member
  rw [endLine] at member
  split at member
  · exact printable c member
  · rcases List.mem_append.1 member with member | member
    · exact printable c member
    · obtain rfl := List.mem_singleton.1 member
      rfl

theorem getLast?_endLine (text : List Char) : (endLine text).getLast?.any isBreak = true := by
  rw [endLine]
  split
  case isTrue ended => exact ended
  case isFalse => rw [List.getLast?_concat]; rfl

theorem head?_endLine {text : List Char} (filled : text ≠ []) :
    (endLine text).head? = text.head? := by
  rw [endLine]
  split
  · rfl
  · exact List.head?_append_of_ne_nil _ filled

theorem length_le_indentLines (indent : Nat) (atStart : Bool) (text : List Char) :
    text.length ≤ (indentLines indent atStart text).length := by
  induction text generalizing atStart with
  | nil => exact Nat.le_refl _
  | cons c rest ih =>
      rw [indentLines]
      split
      · exact Nat.succ_le_succ (ih true)
      · split
        · rw [List.length_append]
          exact Nat.le_trans (Nat.succ_le_succ (ih false)) (Nat.le_add_left _ _)
        · exact Nat.succ_le_succ (ih false)

theorem hidesIndent_endLine {text : List Char} (filled : text ≠ []) :
    hidesIndent (endLine text) = hidesIndent text := by
  rw [hidesIndent, head?_endLine filled, hidesIndent]

/-! A text of line ends alone has no line that could show the indentation. -/

/-- A text that is nothing but line ends once its last line is ended was so before. -/
theorem areBreaks_of_endLine {text : List Char} (breaks : AreBreaks (endLine text)) :
    AreBreaks text := by
  intro c member
  refine breaks c ?_
  rw [endLine]
  split
  · exact member
  · exact List.mem_append_left _ member

theorem endLine_breaks {text : List Char} (breaks : AreBreaks text) (filled : text ≠ []) :
    endLine text = text :=
  if_pos (breaks.ended filled [])

/-- Line ends are not indented. -/
theorem indentLines_onlyBreaks {text : List Char} (breaks : AreBreaks text) (filled : text ≠ [])
    (indent : Nat) : indentLines indent true text = text := by
  have lines := indentLines_breaks breaks filled indent true []
  rw [List.append_nil] at lines
  exact lines.trans (List.append_nil text)

/-- A text of line ends hides its indentation. -/
theorem hidesIndent_breaks {text : List Char} (breaks : AreBreaks text) (filled : text ≠ []) :
    hidesIndent text = true := by
  cases text with
  | nil => exact absurd rfl filled
  | cons c text => simp [hidesIndent, (breaks c List.mem_cons_self).2]

/-! The empty lines and the lines behind them make up the block. -/

/-- The empty lines in front of the first line of a block, whose indentation is found from the hint or,
where that line shows it, from the line. -/
theorem exists_takeBlockBreaks {ends after behind : List Char} {c : Char} (breaks : AreBreaks ends)
    (solid : isBreak c = false) (printable : isPrintable c = true) (column : mark.column = 0)
    (enough : ends.length < fuel + 1) :
    let known := if hidesIndent (ends ++ c :: after) then some (parent + 2) else none
    ∃ widest, takeBlockBreaks start known (fuel + 1) 0 []
        ⟨ends ++ (indentLines (parent + 2) true (c :: after) ++ behind), mark⟩ =
          .ok (widest, ends, ⟨indentLines (parent + 2) false (c :: after) ++ behind,
            (mark.past ends).along (parent + 2)⟩) ∧
      known.getD (max widest (max (parent + 1) 1)) = parent + 2 := by
  intro known
  cases hides : hidesIndent (ends ++ c :: after) with
  | true =>
      have hinted : known = some (parent + 2) := if_pos hides
      rw [hinted]
      exact ⟨_, takeBlockBreaks_breaks breaks (startsLine_indentLines solid _ behind) column enough, rfl⟩
  | false =>
      have shown : known = none := if_neg (by simp [hides])
      have start' : indentLines (parent + 2) true (c :: after) =
          spaces (parent + 2) ++ c :: indentLines (parent + 2) false after := by
        rw [indentLines_start (by rintro d ⟨⟩; exact solid) (List.cons_ne_nil c after),
          indentLines_solid solid]
      rw [shown, start', indentLines_solid solid]
      cases ends with
      | cons e ends => simp [hidesIndent, (breaks e List.mem_cons_self).2] at hides
      | nil =>
          have blank : isSpace c = false := by
            cases blank : isSpace c with
            | false => rfl
            | true =>
                obtain rfl := eq_space_of_isSpace printable blank
                simp [hidesIndent] at hides
          rw [List.nil_append, List.append_assoc]
          exact ⟨_, takeBlockBreaks_shown column blank solid, by simp⟩

/-- The lines of a block for a text, with all that comes first taken off. -/
theorem exists_blockText {text : List Char} {known : Option Nat}
    (printable : ∀ c ∈ text, isPrintable c = true) (filled : text ≠ [])
    (column : mark.column = 0) (outside : count < parent + 2) (solid : IsSolid rest)
    (hint : known = if hidesIndent text then some (parent + 2) else none)
    (enough : (endLine text).length < fuel) :
    ∃ widest ends place block, takeBlockBreaks start known fuel 0 []
        ⟨indentLines (parent + 2) true (endLine text) ++ (spaces count ++ rest), mark⟩ =
          .ok (widest, ends, place) ∧
      known.getD (max widest (max (parent + 1) 1)) = parent + 2 ∧
      takeBlockLines true start (parent + 2) (place.rest.length + 1) ⟨[], [], ends, false⟩ place =
        .ok (block, ⟨rest, (mark.past (indentLines (parent + 2) true (endLine text))).along count⟩) ∧
      block.text ++ (if chompingOf text = .strip then [] else block.lastBreak) ++
        (if chompingOf text = .keep then block.emptyLines else []) = text := by
  obtain ⟨ends, after, split, breaks, other⟩ := exists_breaks (printable_endLine printable)
  cases after with
  | nil =>
      -- Nothing but line ends: no line shows an indent, so the hint gives the width.
      rw [List.append_nil] at split
      have onlyBreaks : AreBreaks text := areBreaks_of_endLine (split ▸ breaks)
      rw [endLine_breaks onlyBreaks filled] at enough
      rw [endLine_breaks onlyBreaks filled, indentLines_onlyBreaks onlyBreaks filled, hint,
        hidesIndent_breaks onlyBreaks filled]
      refine ⟨_, _, _, ⟨[], [], text, false⟩,
        takeBlockBreaks_breaks onlyBreaks (startsLine_end outside solid) column enough, rfl, ?_, ?_⟩
      · rw [List.nil_append, takeBlockLines_end]
        rw [Mark.column_along, onlyBreaks.column_past column]
        omega
      · rw [chompingOf_breaks onlyBreaks filled]
        rfl
  | cons c after =>
      -- Behind the first line ends stands a line, whose indent is the width where no hint is given.
      have solid' := other c rfl
      have printable' : ∀ d ∈ c :: after, isPrintable d = true := fun d member =>
        printable_endLine printable d (split ▸ List.mem_append_right _ member)
      have written : indentLines (parent + 2) true (ends ++ c :: after) =
          ends ++ indentLines (parent + 2) true (c :: after) := by
        cases ends with
        | nil => rfl
        | cons e ends => rw [indentLines_breaks breaks (List.cons_ne_nil e ends)]
      obtain ⟨fuel, rfl⟩ : ∃ less, fuel = less + 1 := ⟨fuel - 1, by omega⟩
      obtain ⟨widest, first, width⟩ := @exists_takeBlockBreaks start mark fuel parent ends after
        (spaces count ++ rest) c breaks solid' (printable' c List.mem_cons_self) column
        (by rw [split, List.length_append] at enough; omega)
      rw [← split, hidesIndent_endLine filled, ← hint] at first width
      rw [← List.append_assoc, ← written, ← split] at first
      have last : (c :: after).getLast?.any isBreak = true := by
        have ended := getLast?_endLine text
        rwa [split, List.getLast?_append_of_ne_nil _ (List.cons_ne_nil c after)] at ended
      have place : ((mark.past ends).along (parent + 2)).column = parent + 2 := by
        rw [Mark.column_along, breaks.column_past column, Nat.zero_add]
      have longer := length_le_indentLines (parent + 2) false (c :: after)
      obtain ⟨block, lines, body, final, split', lastBreak, text', ⟨d, last', solid''⟩, breaks'⟩ :=
        @takeBlockLines_text start _
          ((indentLines (parent + 2) false (c :: after) ++ (spaces count ++ rest)).length + 1) _ rest
          (c :: after) ⟨[], [], ends, false⟩ count printable' ⟨c, rfl, solid'⟩ last place outside solid
          (by rw [List.length_append]; omega)
      refine ⟨widest, ends, _, block, first, width, ?_, ?_⟩
      · rw [lines, split, written, indentLines_start other (List.cons_ne_nil c after),
          Mark.past_append, Mark.past_append, Mark.past_spaces]
      · rw [text', lastBreak]
        exact chomp_endLine (by rw [split, split', List.append_assoc]; rfl)
          ⟨d, by rw [List.getLast?_append, last']; rfl, solid''⟩ breaks'

end Whole

/-- A text that may be written as a block is read back from it, up to the next line that is not a part of
it. -/
theorem takeBlockScalar_blockChars {parent count : Nat} {rest text : List Char} {mark : Mark}
    (allowed : blockAllowed text = true)
    (outside : count < parent + 2) (solid : IsSolid rest) :
    takeBlockScalar true parent ⟨endLine (blockChars (parent + 2) text) ++ (spaces count ++ rest), mark⟩ =
      .ok (text, ⟨rest, (mark.past (endLine (blockChars (parent + 2) text))).along count⟩) := by
  simp only [blockAllowed, Bool.and_eq_true, Bool.not_eq_true', List.isEmpty_eq_false_iff,
    List.all_eq_true] at allowed
  obtain ⟨⟨⟨filled, printable⟩, -⟩, -⟩ := allowed
  have longer := length_le_indentLines (parent + 2) true (endLine text)
  obtain ⟨widest, ends, place, block, first, width, lines, whole⟩ :=
    @exists_blockText mark ((mark.along 1).along (blockHints text).length).newLine
      ((indentLines (parent + 2) true (endLine text) ++ (spaces count ++ rest)).length + 1)
      parent count rest text _ printable filled rfl outside solid rfl
      (by rw [List.length_append]; omega)
  have skipped (rest : List Char) (mark : Mark) :
      (⟨'\n' :: rest, mark⟩ : Cursor).skipSpaces.skipComment = ⟨'\n' :: rest, mark⟩ := rfl
  have hint : (if hidesIndent text then some 2 else none : Option Nat).map (fun hint =>
        if (0 : Int) ≤ parent then (parent : Int).toNat + hint else hint) =
      if hidesIndent text then some (parent + 2) else none := by
    cases hidesIndent text <;> simp
  have next : ((parent : Int) + 1).toNat = parent + 1 := by omega
  rw [endLine_blockChars filled, List.cons_append, List.append_assoc, List.cons_append, takeBlockScalar]
  simp only [skip_one, takeBlockHints_blockHints, bind, Except.bind, skipped, hint, next, breakOrEnd,
    skipBreak_cons (show isPrintable '\n' = true from rfl) (show isBreak '\n' = true from rfl),
    show isBreak '\n' = true from rfl, Bool.not_true, Bool.false_eq_true, if_false, first, width, lines,
    whole]
  have hints : IsInline (blockHints text) := by
    rw [blockHints_eq]
    cases hidesIndent text <;> cases chompingOf text <;> decide
  rw [Mark.past_cons_solid rfl, Mark.past_append, hints.past, Mark.past_cons_break rfl]
  rfl

end DocPress.Yaml
