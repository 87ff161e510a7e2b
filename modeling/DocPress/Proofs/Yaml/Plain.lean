import DocPress.Proofs.Yaml.Quoted

/-!
Plain scalars read back. A text that may stand without quotes is read up to the colon behind a key, or
up to the end of its line.
-/

namespace DocPress.Yaml

open Cursor

/-! ### Words -/

theorem hasIndicator_cons {c : Char} {rest : List Char} (clean : hasIndicator (c :: rest) = false) :
    (c = ':' → blankOrEnd rest = false) ∧ (c = ' ' → rest.head? ≠ some '#') ∧
      hasIndicator rest = false := by
  simp only [hasIndicator, Bool.or_eq_false_iff, Bool.and_eq_false_iff, decide_eq_false_iff_not] at clean
  obtain ⟨⟨colon, number⟩, behind⟩ := clean
  refine ⟨fun same => colon.resolve_left (· same), fun same => number.resolve_left ?_, behind⟩
  subst same
  decide

theorem hasIndicator_append {front rest : List Char} (clean : hasIndicator (front ++ rest) = false) :
    hasIndicator rest = false := by
  induction front with
  | nil => exact clean
  | cons c front ih => exact ih (hasIndicator_cons clean).2.2

/-- A word of a plain scalar, in front of a place where the scalar may end. -/
theorem plainLength_word {word more tail : List Char} (inline : IsInline word) (blank : ' ' ∉ word)
    (clean : hasIndicator (word ++ more) = false) (ends : blankOrEnd more = true)
    (stops : plainLength false tail = .ok 0) : plainLength false (word ++ tail) = .ok word.length := by
  induction word with
  | nil => exact stops
  | cons c word ih =>
      obtain ⟨colon, -, behind⟩ := hasIndicator_cons clean
      obtain ⟨printable, lineEnd⟩ := inline c List.mem_cons_self
      have solid : isSpace c = false := by
        cases space : isSpace c with
        | false => rfl
        | true => exact absurd (eq_space_of_isSpace printable space ▸ List.mem_cons_self) blank
      have goesOn : (c = ':' && blankOrEnd (word ++ tail)) = false := by
        by_cases same : c = ':'
        · cases word with
          | nil => exact absurd (ends.symm.trans (colon same)) (by decide)
          | cons next word => exact Bool.and_eq_false_iff.2 (.inr (colon same))
        · simp [same]
      have rest := ih (fun d member => inline d (List.mem_cons_of_mem _ member))
        (fun member => blank (List.mem_cons_of_mem _ member)) behind
      simp only [List.cons_append, plainLength, solid, lineEnd, goesOn, rest, Bool.or_self,
        Bool.false_and, Bool.false_eq_true, if_false, List.length_cons]

theorem plainLength_blank {c : Char} (blank : isSpace c = true ∨ isBreak c = true) (rest : List Char) :
    plainLength false (c :: rest) = .ok 0 := by
  rw [plainLength, if_pos (by simpa using blank)]

/-- The first word of a text, and the blanks behind it. -/
theorem exists_word (text : List Char) : ∃ word more, text = word ++ more ∧ ' ' ∉ word ∧
    (more = [] ∨ ∃ count rest, more = spaces (count + 1) ++ rest ∧ rest.head? ≠ some ' ') := by
  induction text with
  | nil => exact ⟨[], [], rfl, List.not_mem_nil, .inl rfl⟩
  | cons c text ih =>
      by_cases space : c = ' '
      · obtain ⟨count, rest, rfl, other⟩ := exists_spaces text
        exact ⟨[], c :: (spaces count ++ rest), rfl, List.not_mem_nil,
          .inr ⟨count, rest, by rw [space]; rfl, other⟩⟩
      · obtain ⟨word, more, rfl, blank, ends⟩ := ih
        refine ⟨c :: word, more, rfl, fun member => ?_, ends⟩
        rcases List.mem_cons.1 member with same | member
        · exact space same.symm
        · exact blank member

/-! ### Where a plain scalar ends -/

/-- How a plain scalar ends, in front of a text and at a place: where reading goes on and whether a line
end comes last. A key ends at its colon, and a value at a line that is indented less than `indent`. -/
inductive PlainEnd (indent : Int) : List Char → Mark → Cursor → Bool → Prop where
  | colon {c : Char} {rest : List Char} {mark : Mark} (blank : isSpace c = true ∨ isBreak c = true) :
      PlainEnd indent (':' :: c :: rest) mark ⟨':' :: c :: rest, mark⟩ false
  | line {count : Nat} {rest : List Char} {mark : Mark} (solid : IsSolid rest)
      (outside : (count : Int) < indent) :
      PlainEnd indent ('\n' :: (spaces count ++ rest)) mark ⟨rest, mark.newLine.along count⟩ true

variable {indent : Int} {after : List Char} {cursor : Cursor} {endsLine : Bool}

/-- A plain scalar ends where its end is. -/
theorem PlainEnd.stops {mark : Mark} (ends : PlainEnd indent after mark cursor endsLine) :
    plainLength false after = .ok 0 := by
  cases ends with
  | @colon c rest _ blank =>
      have ends : blankOrEnd (c :: rest) = true := by simpa [blankOrEnd] using blank
      simp [plainLength, ends, isSpace, isBreak]
  | line solid outside => exact plainLength_blank (.inr rfl) _

theorem areBreaks_feed : AreBreaks ['\n'] := by
  intro c member
  obtain rfl := List.mem_singleton.1 member
  decide

/-- What stands in front of a part of a plain scalar. -/
def gapText (gap : Option Gap) : List Char :=
  (gap.map Gap.fold).getD []

section Take

variable {start mark : Mark} {fuel : Nat} {done word : List Char} {gap : Option Gap}

/-- The check of the blanks in front of a line. -/
def checkTab (indent : Int) (start : Mark) (cursor : Cursor) : Except Break Unit :=
  if (cursor.mark.column : Int) < indent && cursor.next? = some '\t' then
    cursor.fail .tabViolation (some (.plainScalar, start))
  else .ok ()

theorem checkTab_space (cursor : Cursor) (next : cursor.next? = some ' ') :
    checkTab indent start cursor = .ok () := by
  simp [checkTab, next]

/-- A word and the gap behind it. -/
theorem takePlain_gap {c : Char} {rest : List Char} {next : Gap} {behind : Cursor}
    (filled : word ≠ []) (blank : isSpace c = true ∨ isBreak c = true)
    (apart : atDocumentMarker ⟨word ++ c :: rest, mark⟩ = false) (number : word.head? ≠ some '#')
    (length : plainLength false (word ++ c :: rest) = .ok word.length)
    (taken : takeGap (checkTab indent start) ((c :: rest).length + 1) (.spaces [])
      ⟨c :: rest, mark.along word.length⟩ = .ok (next, behind)) :
    takePlain false indent start (fuel + 1) done gap ⟨word ++ c :: rest, mark⟩ =
      if (behind.mark.column : Int) < indent then
        .ok ⟨done ++ gapText gap ++ word, behind, next.isBreak⟩
      else takePlain false indent start fuel (done ++ gapText gap ++ word) (some next) behind := by
  have positive : word.length ≠ 0 := by simpa using filled
  have noNumber : ((⟨word ++ c :: rest, mark⟩ : Cursor).next? = some '#') = False := by
    cases word with
    | nil => exact absurd rfl filled
    | cons first word => exact eq_false number
  have goesOn : (!(isSpace c || isBreak c)) = false := by rw [Bool.not_eq_false', Bool.or_eq_true]; exact blank
  rw [takePlain]
  simp only [apart, noNumber, length, skip_append, List.take_left, positive, decide_false, goesOn,
    Bool.or_self, Bool.false_eq_true, if_false]
  dsimp only [Option.getD]
  unfold checkTab at taken
  rw [taken]
  simp only [bind, Except.bind, Bool.not_false, Bool.true_and, decide_eq_true_eq]
  rfl

/-- The last word of a plain scalar is taken with the gap before it. -/
theorem takePlain_last (inline : IsInline word) (blank : ' ' ∉ word) (filled : word ≠ [])
    (clean : hasIndicator word = false)
    (apart : atDocumentMarker ⟨word ++ after, mark⟩ = false) (number : word.head? ≠ some '#')
    (ends : PlainEnd indent after (mark.along word.length) cursor endsLine) :
    takePlain false indent start (fuel + 1) done gap ⟨word ++ after, mark⟩ =
      .ok ⟨done ++ gapText gap ++ word, cursor, endsLine⟩ := by
  have length := @plainLength_word word [] after inline blank (by rwa [List.append_nil]) rfl ends.stops
  cases ends with
  | @colon c rest _ blank =>
      have positive : word.length ≠ 0 := by simpa using filled
      have noNumber : ((⟨word ++ ':' :: c :: rest, mark⟩ : Cursor).next? = some '#') = False := by
        cases word with
        | nil => exact absurd rfl filled
        | cons first word => exact eq_false number
      rw [takePlain]
      simp only [apart, noNumber, length, skip_append, List.take_left, positive, decide_false,
        Bool.or_self, Bool.false_eq_true, if_false]
      rfl
  | @line count rest _ solid outside =>
      have taken := @takeGap_lines (checkTab indent start) (('\n' :: (spaces count ++ rest)).length + 1) count rest
        (mark.along word.length) checkTab_space '\n' [] areBreaks_feed
        (by simp; omega) solid
      rw [takePlain_gap filled (.inr rfl) apart number length taken, if_pos]
      · rfl
      · simpa [Mark.past, isBreak, Mark.newLine] using outside

/-- A word of a plain scalar is taken with the gap before it, up to the next one. -/
theorem takePlain_word {count : Nat} {text rest : List Char} (inline : IsInline word)
    (blank : ' ' ∉ word) (filled : word ≠ [])
    (clean : hasIndicator (word ++ (spaces (count + 1) ++ text)) = false)
    (apart : atDocumentMarker ⟨word ++ (spaces (count + 1) ++ rest), mark⟩ = false)
    (number : word.head? ≠ some '#') (inside : indent ≤ mark.column + 1) (solid : IsSolid rest) :
    takePlain false indent start (fuel + 1) done gap ⟨word ++ (spaces (count + 1) ++ rest), mark⟩ =
      takePlain false indent start fuel (done ++ gapText gap ++ word)
        (some (.spaces (spaces (count + 1)))) ⟨rest, mark.along (word.length + (count + 1))⟩ := by
  have length := @plainLength_word word _ (spaces (count + 1) ++ rest) inline blank clean rfl
    (plainLength_blank (.inl rfl) _)
  have taken := @takeGap_spaces (checkTab indent start) ((spaces (count + 1) ++ rest).length + 1) (count + 1) rest
    (mark.along word.length) (by simp; omega) solid []
  refine (takePlain_gap filled (.inl rfl) apart number length taken).trans ?_
  rw [if_neg]
  · rw [Mark.along_along]
    rfl
  · simp only [Mark.along_along, Mark.column_along]
    omega

/-- A plain scalar is read back whole. -/
theorem takePlain_text {text : List Char} (inline : IsInline text) (space : text.head? ≠ some ' ')
    (filled : text ≠ []) (last : text.getLast? ≠ some ' ') (clean : hasIndicator text = false)
    (apart : atDocumentMarker ⟨text ++ after, mark⟩ = false) (number : text.head? ≠ some '#')
    (inside : indent ≤ mark.column + 1) (enough : text.length < fuel)
    (ends : PlainEnd indent after (mark.along text.length) cursor endsLine) :
    takePlain false indent start fuel done gap ⟨text ++ after, mark⟩ =
      .ok ⟨done ++ gapText gap ++ text, cursor, endsLine⟩ := by
  -- by strong induction, a word and the spaces behind it at a time
  induction length : text.length using Nat.strongRecOn generalizing text fuel done gap mark with
  | ind size ih =>
      obtain ⟨fuel, rfl⟩ : ∃ less, fuel = less + 1 := ⟨fuel - 1, by omega⟩
      obtain ⟨word, more, rfl, blank, rfl | ⟨count, rest, rfl, other⟩⟩ := exists_word text
      · rw [List.append_nil] at *
        exact takePlain_last inline blank filled clean apart number ends
      · have behind : rest ≠ [] := by
          rintro rfl
          simp [spaces, List.getLast?_append, List.getLast?_replicate] at last
        have first : word ≠ [] := by
          rintro rfl
          exact space rfl
        have inner : IsInline rest := inline.right.right
        have solid : IsSolid (rest ++ after) := by
          refine IsSolid.append ?_ behind after
          exact isSolid_of_head (fun c member => (inner c member).1) other
            (fun c start => (inner c (List.mem_of_mem_head? start)).2)
        have later : hasIndicator (' ' :: rest) = false := by
          refine @hasIndicator_append (word ++ spaces count) _ ?_
          rw [← clean, List.append_assoc, spaces, spaces, List.replicate_succ', List.append_assoc]
          rfl
        obtain ⟨-, notNumber, clean'⟩ := hasIndicator_cons later
        have final : rest.getLast? ≠ some ' ' := by
          rwa [List.getLast?_append_of_ne_nil _ (by simp [behind]),
            List.getLast?_append_of_ne_nil _ behind] at last
        simp only [List.length_append, length_spaces] at length enough ends
        rw [List.append_assoc, List.append_assoc] at apart ⊢
        rw [takePlain_word inline.left blank first clean apart
          (by rwa [List.head?_append_of_ne_nil _ first] at number) inside solid]
        have further : indent ≤ (mark.along (word.length + (count + 1))).column + 1 := by
          rw [Mark.column_along]
          omega
        have apart' : atDocumentMarker ⟨rest ++ after, mark.along (word.length + (count + 1))⟩ = false := by
          simp [atDocumentMarker]
        have ends' : PlainEnd indent after ((mark.along (word.length + (count + 1))).along rest.length)
            cursor endsLine := by
          rwa [Mark.along_along, Nat.add_assoc]
        rw [ih rest.length (by omega) inner other behind final clean' apart' (notNumber rfl) further
          (by omega) ends' rfl]
        simp [gapText, Gap.fold]

end Take

/-! ### Whole scalars -/

/-- A text that may stand without quotes. -/
structure IsPlain (text : List Char) : Prop where
  inline : IsInline text
  filled : text ≠ []
  first : text.head? ≠ some ' '
  last : text.getLast? ≠ some ' '
  starts : startsAsIndicator text = false
  clean : hasIndicator text = false

/-- A text that may be written plain is a plain one. -/
theorem isPlain_of_plainAllowed {text : List Char} (allowed : plainAllowed text = true)
    (filled : text ≠ []) : IsPlain text := by
  simp only [plainAllowed, atEnds, Bool.not_eq_true', Bool.or_eq_false_iff, Bool.not_eq_false',
    List.all_eq_true, List.any_eq_false] at allowed
  obtain ⟨⟨⟨⟨⟨first, last⟩, printable⟩, lineEnd⟩, starts⟩, clean⟩ := allowed
  cases text with
  | nil => exact absurd rfl filled
  | cons c rest =>
      have space : c ≠ ' ' := by simpa using first
      have inline : IsInline (c :: rest) := fun d member =>
        ⟨printable d member, by simpa using lineEnd d member⟩
      refine ⟨inline, filled, by simpa using space, fun same => ?_, starts, ?_⟩
      · rw [same] at last
        cases last
      · have blank : isSpace c = false := by
          cases blank : isSpace c with
          | false => rfl
          | true => exact absurd (eq_space_of_isSpace (printable c List.mem_cons_self) blank) space
        have colon : (c = ':' && blankOrEnd rest) = false := by
          by_cases same : c = ':'
          · subst same
            simpa [startsAsIndicator] using starts
          · simp [same]
        rw [hasIndicator, colon, blank, (inline c List.mem_cons_self).2]
        exact clean

theorem PlainEnd.head_ne {mark : Mark} (ends : PlainEnd indent after mark cursor endsLine) {c : Char}
    (marker : c = '-' ∨ c = '.') : after.head? ≠ some c := by
  cases ends <;> rcases marker with rfl | rfl <;> simp

/-- A text in front of the end of a plain scalar starts with the marks that the whole starts with. -/
theorem exists_of_append_eq {text rest : List Char} {c : Char} (other : after.head? ≠ some c)
    (filled : text ≠ []) (same : text ++ after = c :: c :: c :: rest) :
    ∃ more, text = c :: c :: c :: more := by
  match text, same with
  | [_], same => simp_all
  | [_, _], same => simp_all
  | a :: b :: d :: more, same =>
      simp only [List.cons_append, List.cons.injEq] at same
      obtain ⟨rfl, rfl, rfl, -⟩ := same
      exact ⟨more, rfl⟩

/-- No document marker stands where a plain scalar starts. -/
theorem IsPlain.apart {text : List Char} (plain : IsPlain text) (mark : Mark) {place : Mark}
    (ends : PlainEnd indent after place cursor endsLine) :
    atDocumentMarker ⟨text ++ after, mark⟩ = false := by
  rw [atDocumentMarker, Bool.and_eq_false_iff]
  right
  split
  case h_1 rest same =>
      obtain ⟨more, rfl⟩ := exists_of_append_eq (ends.head_ne (.inl rfl)) plain.filled same
      exact absurd plain.starts (by simp [startsAsIndicator])
  case h_2 rest same =>
      obtain ⟨more, rfl⟩ := exists_of_append_eq (ends.head_ne (.inr rfl)) plain.filled same
      exact absurd plain.starts (by simp [startsAsIndicator])
  case h_3 => rfl

/-- A plain text starts with no number sign. -/
theorem IsPlain.number {text : List Char} (plain : IsPlain text) : text.head? ≠ some '#' := by
  intro first
  obtain ⟨rest, rfl⟩ := List.head?_eq_some_iff.1 first
  exact absurd plain.starts (by simp [startsAsIndicator])

/-- A plain text is read back. -/
theorem takePlainScalar_text {text : List Char} (plain : IsPlain text) (mark : Mark)
    (inside : indent ≤ mark.column + 1)
    (ends : PlainEnd indent after (mark.along text.length) cursor endsLine) :
    takePlainScalar false indent ⟨text ++ after, mark⟩ = .ok ⟨text, cursor, endsLine⟩ := by
  rw [takePlainScalar, takePlain_text plain.inline plain.first plain.filled plain.last plain.clean
    (plain.apart mark ends) plain.number inside (by rw [List.length_append]; omega) ends]
  rfl

end DocPress.Yaml
