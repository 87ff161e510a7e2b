import Mathlib.Data.List.Chain
import DocPress.Proofs.Yaml.Cursor

/-!
Scalars in quotes read back. In double quotes everything that could be taken for something else is
escaped; in single quotes line ends stand as they are, and the blanks in front of a line are dropped.
-/

namespace DocPress.Yaml

open Cursor

/-! ### Gaps -/

section Gap

variable {check : Cursor → Except Break Unit} {fuel count : Nat} {rest : List Char} {mark : Mark}

/-- There is no gap in front of a solid text. -/
theorem takeGap_solid (solid : IsSolid rest) (gap : Gap) :
    takeGap check fuel gap ⟨rest, mark⟩ = .ok (gap, ⟨rest, mark⟩) := by
  cases fuel with
  | zero => rfl
  | succ fuel =>
      cases rest with
      | nil => rfl
      | cons c rest =>
          obtain ⟨blank, lineEnd⟩ := solid c rfl
          simp only [takeGap, blank, lineEnd, Bool.false_eq_true, if_false]

/-- A gap of spaces is taken up to the solid text behind it. -/
theorem takeGap_spaces (enough : count ≤ fuel) (solid : IsSolid rest) (text : List Char) :
    takeGap check fuel (.spaces text) ⟨spaces count ++ rest, mark⟩ =
      .ok (.spaces (text ++ spaces count), ⟨rest, mark.along count⟩) := by
  induction count generalizing fuel text mark with
  | zero => simpa [spaces] using takeGap_solid solid _
  | succ count ih =>
      cases fuel with
      | zero => omega
      | succ fuel =>
          have step := @ih fuel (mark.along 1) (Nat.le_of_succ_le_succ enough) (text ++ [' '])
          rw [Mark.along_along, List.append_assoc, Nat.add_comm 1] at step
          exact step

/-- Blanks in front of a line are dropped. -/
theorem takeGap_indent (lenient : ∀ cursor, cursor.next? = some ' ' → check cursor = .ok ())
    (enough : count ≤ fuel) (solid : IsSolid rest) (first others : List Char) :
    takeGap check fuel (.breaks first others) ⟨spaces count ++ rest, mark⟩ =
      .ok (.breaks first others, ⟨rest, mark.along count⟩) := by
  induction count generalizing fuel mark with
  | zero => exact takeGap_solid solid _
  | succ count ih =>
      cases fuel with
      | zero => omega
      | succ fuel =>
          have step := @ih fuel (mark.along 1) (Nat.le_of_succ_le_succ enough)
          rw [Mark.along_along, Nat.add_comm 1] at step
          rw [spaces, List.replicate_succ, List.cons_append, takeGap]
          simp only [show isSpace ' ' = true from rfl, if_true]
          rw [lenient _ rfl]
          exact step

/-- A gap of line ends is taken with the spaces that follow, up to the solid text behind it. -/
theorem takeGap_breaks (lenient : ∀ cursor, cursor.next? = some ' ' → check cursor = .ok ())
    {ends : List Char} (breaks : AreBreaks ends) (enough : ends.length + count ≤ fuel)
    (solid : IsSolid rest) (first others : List Char) :
    takeGap check fuel (.breaks first others) ⟨ends ++ (spaces count ++ rest), mark⟩ =
      .ok (.breaks first (others ++ ends), ⟨rest, (mark.past ends).along count⟩) := by
  induction ends generalizing fuel others mark with
  | nil =>
      rw [List.append_nil]
      exact takeGap_indent lenient (by simpa using enough) solid first others
  | cons c ends ih =>
      cases fuel with
      | zero => simp at enough
      | succ fuel =>
          obtain ⟨printable, lineEnd⟩ := breaks c List.mem_cons_self
          have step := @ih fuel mark.newLine (fun c member => breaks c (List.mem_cons_of_mem _ member))
            (by simp only [List.length_cons] at enough; omega) (others ++ [c])
          rw [List.append_assoc, List.singleton_append] at step
          rw [List.cons_append, takeGap]
          simp only [isSpace_of_isBreak lineEnd, lineEnd, Bool.false_eq_true, if_false, if_true]
          rw [breakText_cons printable lineEnd, skipBreak_cons printable lineEnd, step,
            Mark.past_cons_break lineEnd]

/-- A gap that goes over line ends. -/
theorem takeGap_lines (lenient : ∀ cursor, cursor.next? = some ' ' → check cursor = .ok ())
    {c : Char} {ends : List Char} (breaks : AreBreaks (c :: ends))
    (enough : ends.length + count < fuel) (solid : IsSolid rest) :
    takeGap check fuel (.spaces []) ⟨(c :: ends) ++ (spaces count ++ rest), mark⟩ =
      .ok (.breaks [c] ends, ⟨rest, (mark.past (c :: ends)).along count⟩) := by
  cases fuel with
  | zero => omega
  | succ fuel =>
      obtain ⟨printable, lineEnd⟩ := breaks c List.mem_cons_self
      rw [List.cons_append, takeGap]
      simp only [isSpace_of_isBreak lineEnd, lineEnd, Bool.false_eq_true, if_false, if_true]
      rw [breakText_cons printable lineEnd, skipBreak_cons printable lineEnd,
        takeGap_breaks lenient (fun c member => breaks c (List.mem_cons_of_mem _ member))
          (by omega) solid, Mark.past_cons_break lineEnd]
      rfl

end Gap

/-! ### Escapes -/

theorem hexNumber?_append {count : Nat} {digits : List Char} (length : digits.length = count)
    (rest : List Char) : hexNumber? count (digits ++ rest) = hexNumber? count digits := by
  subst length
  rw [hexNumber?, hexNumber?, List.take_left, List.take_length]

/-- Whether the digits of a number read back behind a letter that announces `count` of them. -/
def readsBack (count : Nat) (letter : Char) (code : Nat) : Bool :=
  let digits := hexDigits count code
  digits.length == count && hexNumber? count digits == some code &&
    ('\\' :: letter :: digits).all fun c => isPrintable c && !isBreak c

/-- The check of an escape says that its digits are read back and stand in a line. -/
theorem readsBack_iff {count code : Nat} {letter : Char} : readsBack count letter code = true ↔
    (hexDigits count code).length = count ∧ hexNumber? count (hexDigits count code) = some code ∧
      IsInline ('\\' :: letter :: hexDigits count code) := by
  rw [readsBack, Bool.and_eq_true, Bool.and_eq_true, beq_iff_eq, beq_iff_eq, isInline_iff, and_assoc]

theorem readsBack_two : (List.range 256).all (readsBack 2 'x') = true := by
  decide +kernel

theorem readsBack_four : [0xFEFF, 0xFFFE, 0xFFFF].all (readsBack 4 'u') = true := by
  decide +kernel

/-- Whether a character is written as itself in double quotes. -/
def standsInQuotes (c : Char) : Bool :=
  isPrintable c && !isBreak c && c != '"' && c != '\\'

/-- Of the characters that have no letter of their own after a backslash, those outside of Latin-1 that
cannot be shown are the byte order mark and the last two of the basic plane. -/
theorem toNat_of_unnamed {c : Char} (escaped : standsInQuotes c = false) (wide : 0xFF < c.toNat)
    (line : c.toNat ≠ 0x2028) (paragraph : c.toNat ≠ 0x2029) :
    c.toNat ∈ [0xFEFF, 0xFFFE, 0xFFFF] := by
  have valid : c.toNat < 0xD800 ∨ 0xDFFF < c.toNat ∧ c.toNat < 0x110000 := c.valid
  have solid : isBreak c = false := by
    simp only [isBreak, Bool.or_eq_false_iff, decide_eq_false_iff_not]
    refine ⟨⟨⟨⟨?_, ?_⟩, by omega⟩, line⟩, paragraph⟩ <;>
    · rintro rfl
      exact absurd wide (by decide)
  have mark : c ≠ '"' ∧ c ≠ '\\' := by
    constructor <;>
    · rintro rfl
      exact absurd wide (by decide)
  have hidden : isPrintable c = false := by
    simpa [standsInQuotes, solid, mark.1, mark.2] using escaped
  simp only [isPrintable, Bool.or_eq_false_iff, Bool.and_eq_false_iff, decide_eq_false_iff_not,
    bne_eq_false_iff_eq] at hidden
  simp only [List.mem_cons, List.not_mem_nil, or_false]
  omega

/-- Whether a text is an escape that stands for a character. -/
def Escapes (c : Char) (written : List Char) : Prop :=
  ∃ letter digits, written = '\\' :: letter :: digits ∧ digits.length ≤ 4 ∧ IsInline written ∧
    ∀ start rest mark, takeEscape start ⟨written ++ rest, mark⟩ (letter :: (digits ++ rest)) =
      .ok (c, ⟨rest, mark.along written.length⟩)

/-- A letter that stands for a character on its own. -/
theorem escapes_letter {c letter : Char} (named : escapedChar? letter = some c)
    (inline : IsInline ['\\', letter]) : Escapes c ['\\', letter] := by
  refine ⟨letter, [], rfl, Nat.zero_le 4, inline, fun start rest mark => ?_⟩
  rw [takeEscape]
  simp only [named]
  rfl

/-- A letter and the number of a character. -/
theorem escapes_number {c letter : Char} {digits : List Char} {count : Nat}
    (unnamed : escapedChar? letter = none) (length : escapeLength? letter = some count)
    (inline : IsInline ('\\' :: letter :: digits)) (width : digits.length = count) (few : count ≤ 4)
    (number : hexNumber? count digits = some c.toNat) :
    Escapes c ('\\' :: letter :: digits) := by
  refine ⟨letter, digits, rfl, width ▸ few, inline, fun start rest mark => ?_⟩
  have valid : c.toNat < 0xD800 ∨ 0xDFFF < c.toNat ∧ c.toNat < 0x110000 := c.valid
  have scalar : ((0xD800 ≤ c.toNat && c.toNat ≤ 0xDFFF) || 0x10FFFF < c.toNat) = false := by
    simp only [Bool.or_eq_false_iff, Bool.and_eq_false_iff, decide_eq_false_iff_not]
    omega
  rw [takeEscape]
  simp only [unnamed, length, hexNumber?_append width, number]
  rw [if_neg (by simpa using scalar), Char.ofNat_toNat]
  subst width
  have skipped : (Cursor.skip 2 ⟨'\\' :: letter :: digits ++ rest, mark⟩).skip digits.length =
      ⟨rest, mark.along ('\\' :: letter :: digits).length⟩ := by
    rw [List.length_cons, List.length_cons, Nat.add_assoc, Nat.add_comm, ← Mark.along_along]
    exact skip_append digits rest (mark.along 2)
  rw [skipped]

/-- A character in double quotes is written as itself or as an escape. -/
theorem escapes_escapeChar {c : Char} (escaped : standsInQuotes c = false) :
    Escapes c (escapeChar c) := by
  rw [escapeChar, if_neg (by simpa [standsInQuotes] using escaped)]
  dsimp only
  split
  case h_1 code letter found =>
      have same : code = c.toNat := by simpa using List.find?_some found
      have member := List.mem_of_find?_eq_some found
      obtain rfl : c = Char.ofNat code := by rw [same, Char.ofNat_toNat]
      clear escaped found same
      simp only [List.mem_cons, Prod.mk.injEq, List.not_mem_nil, or_false] at member
      rcases member with ⟨rfl, rfl⟩ | ⟨rfl, rfl⟩ | ⟨rfl, rfl⟩ | ⟨rfl, rfl⟩ | ⟨rfl, rfl⟩ | ⟨rfl, rfl⟩ |
        ⟨rfl, rfl⟩ | ⟨rfl, rfl⟩ | ⟨rfl, rfl⟩ | ⟨rfl, rfl⟩ | ⟨rfl, rfl⟩ | ⟨rfl, rfl⟩ | ⟨rfl, rfl⟩ |
        ⟨rfl, rfl⟩ <;>
      exact escapes_letter rfl (by decide)
  case h_2 unnamed =>
      split
      case isTrue narrow =>
          obtain ⟨width, number, inline⟩ := readsBack_iff.1 (List.all_eq_true.1 readsBack_two
            c.toNat (List.mem_range.2 (Nat.lt_succ_of_le narrow)))
          exact escapes_number rfl rfl inline width (by decide) number
      case isFalse wide =>
          simp only [List.find?_eq_none, List.mem_cons, List.not_mem_nil, or_false,
            forall_eq_or_imp, forall_eq, beq_iff_eq] at unnamed
          have member := toNat_of_unnamed escaped (Nat.lt_of_not_le wide)
            (fun same => by simp [same] at unnamed) (fun same => by simp [same] at unnamed)
          obtain ⟨width, number, inline⟩ :=
            readsBack_iff.1 (List.all_eq_true.1 readsBack_four c.toNat member)
          have basic : c.toNat ≤ 0xFFFF := by
            simp only [List.mem_cons, List.not_mem_nil, or_false] at member
            omega
          rw [if_pos basic]
          exact escapes_number rfl rfl inline width (by decide) number

theorem escapeChar_stands {c : Char} (stands : standsInQuotes c = true) : escapeChar c = [c] := by
  rw [escapeChar, if_pos (by simpa [standsInQuotes] using stands)]

/-! ### Double quotes -/

section Quoted

variable {double : Bool} {start mark : Mark} {fuel : Nat} {done rest : List Char}

/-- Blanks within a line of a quoted scalar are kept. -/
theorem takeQuoted_spaces {count : Nat} (solid : IsSolid rest) :
    takeQuoted double start (fuel + 1) done ⟨spaces (count + 1) ++ rest, mark⟩ =
      takeQuoted double start fuel (spaces (count + 1) ++ done) ⟨rest, mark.along (count + 1)⟩ := by
  have gap := @takeGap_spaces (fun _ => .ok ()) ((spaces (count + 1) ++ rest).length + 1) (count + 1)
    rest mark (by simp; omega) solid []
  have apart : atDocumentMarker ⟨rest, mark.along (count + 1)⟩ = false := by
    simp [atDocumentMarker]
  rw [takeQuoted]
  dsimp only
  rw [gap]
  simp only [bind, Except.bind, apart, Bool.false_eq_true, if_false, Gap.fold, List.nil_append]
  rw [spaces, List.reverse_replicate]
  rfl

/-- The only blank that may stand in quotes is the space. -/
theorem isSpace_of_standsInQuotes {c : Char} (stands : standsInQuotes c = true) (other : c ≠ ' ') :
    isSpace c = false := by
  simp only [standsInQuotes, Bool.and_eq_true] at stands
  cases blank : isSpace c with
  | false => rfl
  | true => exact absurd (eq_space_of_isSpace stands.1.1.1 blank) other

/-- A character that stands in quotes is taken as itself. -/
theorem takeQuoted_stands {c : Char} (stands : standsInQuotes c = true) (other : c ≠ ' ') :
    takeQuoted true start (fuel + 1) done ⟨c :: rest, mark⟩ =
      takeQuoted true start fuel (c :: done) ⟨rest, mark.along 1⟩ := by
  have blank := isSpace_of_standsInQuotes stands other
  simp only [standsInQuotes, Bool.and_eq_true, Bool.not_eq_true', bne_iff_ne] at stands
  obtain ⟨⟨⟨-, lineEnd⟩, quote⟩, backslash⟩ := stands
  rw [takeQuoted]
  simp only [blank, lineEnd, quote, backslash, Bool.or_self, Bool.false_eq_true, if_false, if_true]
  rfl

/-- An escape is taken as the character it stands for. -/
theorem takeQuoted_escape {c : Char} {written : List Char} (escapes : Escapes c written) :
    takeQuoted true start (fuel + 1) done ⟨written ++ rest, mark⟩ =
      takeQuoted true start fuel (c :: done) ⟨rest, mark.along written.length⟩ := by
  obtain ⟨letter, digits, rfl, -, inline, read⟩ := escapes
  have solid : isBreak letter = false := (inline letter (by simp)).2
  have read := read start rest mark
  rw [List.cons_append, List.cons_append] at read ⊢
  rw [takeQuoted]
  simp only [show isSpace '\\' = false from rfl, show isBreak '\\' = false from rfl, solid, read,
    Bool.or_self, Bool.false_eq_true, if_false, if_true]
  rfl

/-- The escapes of a text that starts with no space are solid. -/
theorem isSolid_flatMap_escapeChar {text : List Char} (other : text.head? ≠ some ' ') :
    IsSolid (text.flatMap escapeChar ++ '"' :: rest) := by
  cases text with
  | nil => exact isSolid_cons rfl rfl _
  | cons c text =>
      cases stands : standsInQuotes c with
      | true =>
          have lineEnd : isBreak c = false := by
            simp only [standsInQuotes, Bool.and_eq_true, Bool.not_eq_true'] at stands
            exact stands.1.1.2
          rw [List.flatMap_cons, escapeChar_stands stands]
          exact isSolid_cons (isSpace_of_standsInQuotes stands (by simpa using other)) lineEnd _
      | false =>
          obtain ⟨letter, digits, written, -⟩ := escapes_escapeChar stands
          rw [List.flatMap_cons, written]
          exact isSolid_cons rfl rfl _

/-- Spaces are not escaped. -/
theorem flatMap_escapeChar_spaces (count : Nat) :
    (spaces count).flatMap escapeChar = spaces count := by
  induction count with
  | zero => rfl
  | succ count ih => exact congrArg (' ' :: ·) ih

/-- What is written in double quotes is read back up to the closing quote. -/
theorem takeQuoted_flatMap_escapeChar (start : Mark) (rest text : List Char) :
    ∀ {fuel : Nat} {done : List Char} {mark : Mark}, (text.flatMap escapeChar).length < fuel →
      takeQuoted true start fuel done ⟨text.flatMap escapeChar ++ '"' :: rest, mark⟩ =
        .ok (done.reverse ++ text, ⟨rest, mark.along ((text.flatMap escapeChar).length + 1)⟩) := by
  -- by strong induction, since a gap takes several blanks at once
  induction length : text.length using Nat.strongRecOn generalizing text with
  | ind size ih =>
      intro fuel done mark enough
      obtain ⟨fuel, rfl⟩ : ∃ less, fuel = less + 1 := ⟨fuel - 1, by omega⟩
      obtain ⟨count, after, rfl, other⟩ := exists_spaces text
      cases count with
      | succ count =>
          simp only [List.flatMap_append, flatMap_escapeChar_spaces, List.length_append,
            length_spaces] at enough ⊢
          have shorter : after.length < size := by
            rw [← length, List.length_append, length_spaces]
            omega
          rw [List.append_assoc, takeQuoted_spaces (isSolid_flatMap_escapeChar other),
            ih _ shorter after rfl (by omega), Mark.along_along]
          simp [spaces, List.append_assoc, Nat.add_assoc]
      | zero =>
          rw [show spaces 0 = [] from rfl, List.nil_append] at length enough ⊢
          cases after with
          | nil => simp [takeQuoted, isSpace, isBreak, skip_one]
          | cons c after =>
              rw [List.flatMap_cons, List.length_append] at enough
              rw [List.flatMap_cons, List.append_assoc, List.length_append]
              have shorter : after.length < size := by rw [← length, List.length_cons]; omega
              cases stands : standsInQuotes c with
              | true =>
                  rw [escapeChar_stands stands] at enough ⊢
                  rw [List.singleton_append, takeQuoted_stands stands (by simpa using other),
                    ih _ shorter after rfl (by rw [List.length_singleton] at enough; omega), Mark.along_along]
                  simp [Nat.add_assoc]
              | false =>
                  have escapes := escapes_escapeChar stands
                  have positive : 0 < (escapeChar c).length := by
                    obtain ⟨letter, digits, written, -⟩ := escapes
                    rw [written]
                    exact Nat.succ_pos _
                  rw [takeQuoted_escape escapes, ih _ shorter after rfl (by omega), Mark.along_along]
                  simp [Nat.add_assoc]

end Quoted

/-! ### Single quotes -/

/-- A text without a pair has no two such characters side by side. -/
theorem hasPair_eq_false_iff {p q : Char → Bool} {text : List Char} :
    hasPair p q text = false ↔ text.IsChain fun a b => (p a && q b) = false := by
  induction text with
  | nil => simp [hasPair]
  | cons a rest ih =>
      cases rest with
      | nil => simp [hasPair]
      | cons b rest => rw [hasPair, Bool.or_eq_false_iff, List.isChain_cons_cons, ih]

/-- A text that may stand in single quotes, in parts: blanks and line ends are next to neither each other
nor parts of their own kind. -/
inductive IsParted : List Char → Prop where
  | nil : IsParted []
  | solid {c : Char} {rest : List Char} (blank : isSpace c = false) (lineEnd : isBreak c = false)
      (parted : IsParted rest) : IsParted (c :: rest)
  | spaces {count : Nat} {rest : List Char} (solid : IsSolid rest) (parted : IsParted rest) :
      IsParted (spaces (count + 1) ++ rest)
  | breaks {c : Char} {ends rest : List Char} (breaks : AreBreaks (c :: ends)) (feed : c ≠ '\n')
      (solid : IsSolid rest) (parted : IsParted rest) : IsParted ((c :: ends) ++ rest)

/-- A text that may be written in single quotes has no space beside a line end. -/
theorem isParted_of_singleAllowed {text : List Char} (allowed : singleAllowed text = true)
    (feed : '\n' ∉ text) : IsParted text := by
  simp only [singleAllowed, hasLooseSpace, Bool.and_eq_true, Bool.not_eq_true', Bool.or_eq_false_iff,
    List.all_eq_true, hasPair_eq_false_iff] at allowed
  obtain ⟨printable, after, before⟩ := allowed
  -- by strong induction, over the runs of blanks and of line ends
  induction length : text.length using Nat.strongRecOn generalizing text with
  | ind size ih =>
      have behind {front rest : List Char} (split : text = front ++ rest)
          (shorter : rest.length < size) : IsParted rest := by
        subst split
        exact ih _ shorter (fun member => feed (List.mem_append_right _ member))
          (fun c member => printable c (List.mem_append_right _ member)) after.right_of_append
          before.right_of_append rfl
      obtain ⟨count, rest, rfl, space⟩ := exists_spaces text
      cases count with
      | succ count =>
          have solid : IsSolid rest := by
            refine isSolid_of_head (fun c member => printable c (List.mem_append_right _ member)) space ?_
            intro c first
            have meets := (List.isChain_append.1 before).2.2 ' ' (by simp [spaces, List.getLast?_replicate]) c first
            simpa using meets
          refine .spaces solid (behind rfl ?_)
          rw [← length, List.length_append, length_spaces]
          omega
      | zero =>
          rw [show spaces 0 = [] from rfl, List.nil_append] at *
          obtain ⟨ends, rest, rfl, breaks, other⟩ := exists_breaks printable
          cases ends with
          | cons c ends =>
              have solid : IsSolid rest := by
                refine isSolid_of_head (fun c member => printable c (List.mem_append_right _ member))
                  (fun first => ?_) other
                obtain ⟨last, final⟩ : ∃ last, (c :: ends).getLast? = some last :=
                  ⟨_, List.getLast?_eq_some_getLast (List.cons_ne_nil c ends)⟩
                have meets := (List.isChain_append.1 after).2.2 last final ' ' first
                simp [(breaks last (List.mem_of_getLast? final)).2] at meets
              refine .breaks breaks (fun same => feed (same ▸ List.mem_cons_self)) solid (behind rfl ?_)
              rw [← length, List.length_append, List.length_cons]
              omega
          | nil =>
              cases rest with
              | nil => exact .nil
              | cons c rest =>
                  have blank : isSpace c = false := by
                    cases blank : isSpace c with
                    | false => rfl
                    | true =>
                        exact absurd (eq_space_of_isSpace (printable c List.mem_cons_self) blank)
                          (by simpa using space)
                  refine .solid blank (other c rfl) (@behind [c] rest rfl ?_)
                  rw [← length, List.nil_append, List.length_cons]
                  omega
/-! The written form, part by part. -/

/-- A character in single quotes. -/
def quoteChar (c : Char) : List Char :=
  if c = '\'' then ['\'', '\''] else [c]

/-- What stands between single quotes for a text. -/
def quotedLines (indent : Nat) (text : List Char) : List Char :=
  indentLines indent false (text.flatMap quoteChar) ++
    if text.getLast?.any isBreak then spaces indent else []

theorem singleQuotedChars_eq (indent : Nat) (text : List Char) :
    singleQuotedChars indent text = '\'' :: (quotedLines indent text ++ ['\'']) := rfl

theorem quoteChar_of_ne {c : Char} (other : c ≠ '\'') : quoteChar c = [c] := if_neg other

/-- A character within a line is written there. -/
theorem quotedLines_solid {c : Char} (lineEnd : isBreak c = false) (indent : Nat) (rest : List Char) :
    quotedLines indent (c :: rest) = quoteChar c ++ quotedLines indent rest := by
  have last : (c :: rest).getLast?.any isBreak = rest.getLast?.any isBreak := by
    cases rest with
    | nil => simp [lineEnd]
    | cons next rest => rw [List.getLast?_cons_cons]
  have lines (behind : List Char) : indentLines indent false (quoteChar c ++ behind) =
      quoteChar c ++ indentLines indent false behind := by
    by_cases quote : c = '\''
    · subst quote
      rfl
    · rw [quoteChar_of_ne quote]
      exact indentLines_solid lineEnd indent behind
  rw [quotedLines, last, List.flatMap_cons, lines, List.append_assoc, quotedLines]

/-- Spaces are written as they are. -/
theorem quotedLines_spaces (indent count : Nat) (rest : List Char) :
    quotedLines indent (spaces count ++ rest) = spaces count ++ quotedLines indent rest := by
  induction count with
  | zero => rfl
  | succ count ih =>
      rw [spaces, List.replicate_succ, List.cons_append, quotedLines_solid rfl]
      exact congrArg (' ' :: ·) ih

/-- Line ends are written as they are, with the next line indented. -/
theorem quotedLines_breaks {ends rest : List Char} (breaks : AreBreaks ends) (filled : ends ≠ [])
    (solid : IsSolid rest) (indent : Nat) :
    quotedLines indent (ends ++ rest) = ends ++ (spaces indent ++ quotedLines indent rest) := by
  have same : ends.flatMap quoteChar = ends := by
    refine (List.flatMap_congr fun c member => quoteChar_of_ne ?_).trans (List.flatMap_singleton' ends)
    rintro rfl
    exact absurd (breaks _ member).2 (by decide)
  rw [quotedLines, List.flatMap_append, same, indentLines_breaks breaks filled, List.append_assoc]
  congr 1
  cases rest with
  | nil =>
      obtain ⟨last, final⟩ : ∃ last, ends.getLast? = some last :=
        ⟨_, List.getLast?_eq_some_getLast filled⟩
      have lineEnd : isBreak last = true := (breaks last (List.mem_of_getLast? final)).2
      rw [List.append_nil, final, Option.any_some, lineEnd, if_pos rfl]
      exact (List.append_nil _).symm
  | cons c rest =>
      have starts : ∀ d, ((c :: rest).flatMap quoteChar).head? = some d → isBreak d = false := by
        intro d first
        have head : ((c :: rest).flatMap quoteChar).head? = some c := by
          by_cases quote : c = '\''
          · subst quote
            rfl
          · rw [List.flatMap_cons, quoteChar_of_ne quote]
            rfl
        obtain rfl := Option.some.inj (head.symm.trans first)
        exact (solid c rfl).2
      have filled : (c :: rest).flatMap quoteChar ≠ [] := by
        intro empty
        have parts := List.append_eq_nil_iff.1 (List.flatMap_cons ▸ empty)
        unfold quoteChar at parts
        split at parts <;> cases parts.1
      rw [indentLines_start starts filled, List.append_assoc, quotedLines,
        List.getLast?_append_of_ne_nil _ (List.cons_ne_nil c rest)]

section Quoted

variable {start mark : Mark} {fuel indent : Nat} {done rest : List Char}

/-- Line ends in a quoted scalar are kept, unless the first one is a line feed. -/
theorem takeQuoted_lines {double : Bool} {c : Char} {ends : List Char} (breaks : AreBreaks (c :: ends))
    (feed : c ≠ '\n') (solid : IsSolid rest) (positive : 0 < indent) :
    takeQuoted double start (fuel + 1) done ⟨(c :: ends) ++ (spaces indent ++ rest), mark⟩ =
      takeQuoted double start fuel ((c :: ends).reverse ++ done)
        ⟨rest, (mark.past (c :: ends)).along indent⟩ := by
  have gap := @takeGap_lines (fun _ => .ok ()) (((c :: ends) ++ (spaces indent ++ rest)).length + 1)
    indent rest mark (fun _ _ => rfl) c ends breaks (by simp; omega) solid
  have apart : atDocumentMarker ⟨rest, (mark.past (c :: ends)).along indent⟩ = false := by
    simp [atDocumentMarker, Nat.ne_of_gt positive]
  have lineEnd := (breaks c List.mem_cons_self).2
  rw [List.cons_append] at gap ⊢
  rw [takeQuoted]
  dsimp only
  rw [gap, isSpace_of_isBreak lineEnd, lineEnd]
  simp only [bind, Except.bind, apart, Bool.false_eq_true, if_false, Bool.false_or, if_true, Gap.fold,
    List.cons.injEq, feed, false_and]
  rfl

/-- A character in single quotes is taken back, a quote from two of them. -/
theorem takeQuoted_quoteChar {c : Char} (blank : isSpace c = false) (lineEnd : isBreak c = false) :
    takeQuoted false start (fuel + 1) done ⟨quoteChar c ++ rest, mark⟩ =
      takeQuoted false start fuel (c :: done) ⟨rest, mark.past (quoteChar c)⟩ := by
  by_cases quote : c = '\''
  · subst quote
    rfl
  · rw [quoteChar_of_ne quote, Mark.past_cons_solid lineEnd, List.singleton_append, takeQuoted]
    simp only [blank, lineEnd, Bool.or_self, Bool.false_eq_true, if_false]
    split
    case h_1 => exact absurd rfl quote
    case h_2 => exact absurd rfl quote
    case h_3 => rfl

/-- A quote that no other follows ends the scalar. -/
theorem takeQuoted_end (other : rest.head? ≠ some '\'') :
    takeQuoted false start (fuel + 1) done ⟨'\'' :: rest, mark⟩ =
      .ok (done.reverse, ⟨rest, mark.along 1⟩) := by
  rw [takeQuoted]
  simp only [show isSpace '\'' = false from rfl, show isBreak '\'' = false from rfl, Bool.or_self,
    Bool.false_eq_true, if_false]
  split
  case h_1 => exact absurd rfl other
  case h_2 => rfl
  case h_3 noEnd noPair => exact absurd rfl noEnd

/-- The lines of a solid text are solid. -/
theorem isSolid_quotedLines {text : List Char} (solid : IsSolid text) (indent : Nat) :
    IsSolid (quotedLines indent text ++ '\'' :: rest) := by
  cases text with
  | nil => exact isSolid_cons rfl rfl _
  | cons c text =>
      obtain ⟨blank, lineEnd⟩ := solid c rfl
      rw [quotedLines_solid lineEnd]
      by_cases quote : c = '\''
      · subst quote
        exact isSolid_cons rfl rfl _
      · rw [quoteChar_of_ne quote]
        exact isSolid_cons blank lineEnd _

/-- What is written in single quotes is read back up to the closing quote. -/
theorem takeQuoted_quotedLines {text : List Char} (parted : IsParted text) (positive : 0 < indent)
    (other : rest.head? ≠ some '\'') (enough : (quotedLines indent text).length < fuel) :
    takeQuoted false start fuel done ⟨quotedLines indent text ++ '\'' :: rest, mark⟩ =
      .ok (done.reverse ++ text, ⟨rest, (mark.past (quotedLines indent text)).along 1⟩) := by
  induction parted generalizing fuel done mark with
  | nil =>
      obtain ⟨fuel, rfl⟩ : ∃ less, fuel = less + 1 := ⟨fuel - 1, by omega⟩
      rw [List.append_nil]
      exact takeQuoted_end other
  | @solid c text blank lineEnd parted ih =>
      obtain ⟨fuel, rfl⟩ : ∃ less, fuel = less + 1 := ⟨fuel - 1, by omega⟩
      have filled : 0 < (quoteChar c).length := by
        unfold quoteChar
        split <;> exact Nat.succ_pos _
      rw [quotedLines_solid lineEnd, List.length_append] at enough
      rw [quotedLines_solid lineEnd, List.append_assoc, takeQuoted_quoteChar blank lineEnd,
        ih (by omega), Mark.past_append, List.reverse_cons, List.append_assoc]
      rfl
  | @spaces count text solid parted ih =>
      obtain ⟨fuel, rfl⟩ : ∃ less, fuel = less + 1 := ⟨fuel - 1, by omega⟩
      rw [quotedLines_spaces, List.length_append, length_spaces] at enough
      rw [quotedLines_spaces, List.append_assoc, takeQuoted_spaces (isSolid_quotedLines solid indent),
        ih (by omega), Mark.past_append, Mark.past_spaces]
      simp [spaces, List.append_assoc]
  | @breaks c ends text breaks feed solid parted ih =>
      obtain ⟨fuel, rfl⟩ : ∃ less, fuel = less + 1 := ⟨fuel - 1, by omega⟩
      rw [quotedLines_breaks breaks (List.cons_ne_nil _ _) solid] at enough ⊢
      rw [List.length_append, List.length_append, List.length_cons] at enough
      rw [List.append_assoc, List.append_assoc,
        takeQuoted_lines breaks feed (isSolid_quotedLines solid indent) positive, ih (by omega),
        Mark.past_append, Mark.past_append, Mark.past_spaces, List.reverse_append, List.reverse_reverse,
        List.append_assoc]

end Quoted

/-! ### Whole scalars -/

/-- An escape stands in one line. -/
theorem isInline_escapeChar (c : Char) : IsInline (escapeChar c) := by
  cases stands : standsInQuotes c with
  | true =>
      rw [escapeChar_stands stands]
      simp only [standsInQuotes, Bool.and_eq_true, Bool.not_eq_true'] at stands
      intro d member
      obtain rfl := List.mem_singleton.1 member
      exact stands.1.1
  | false =>
      obtain ⟨letter, digits, written, -, inline, -⟩ := escapes_escapeChar stands
      exact inline

theorem length_escapeChar_le (c : Char) : (escapeChar c).length ≤ 6 := by
  cases stands : standsInQuotes c with
  | true =>
      rw [escapeChar_stands stands, List.length_singleton]
      decide
  | false =>
      obtain ⟨letter, digits, written, few, -⟩ := escapes_escapeChar stands
      rw [written, List.length_cons, List.length_cons]
      omega

/-- A text in double quotes is on one line. -/
theorem isInline_doubleQuotedChars (text : List Char) : IsInline (doubleQuotedChars text) := by
  have inner : IsInline (text.flatMap escapeChar) := by
    intro c member
    obtain ⟨d, -, member⟩ := List.mem_flatMap.1 member
    exact isInline_escapeChar d c member
  have quote : IsInline ['"'] := by decide
  exact quote.append (inner.append quote)

variable {rest : List Char} {mark : Mark}

/-- A text in double quotes is read back. -/
theorem takeQuotedScalar_double (text rest : List Char) (mark : Mark) :
    takeQuotedScalar true ⟨doubleQuotedChars text ++ rest, mark⟩ =
      .ok (text, ⟨rest, mark.past (doubleQuotedChars text)⟩) := by
  have written : doubleQuotedChars text ++ rest =
      '"' :: (text.flatMap escapeChar ++ '"' :: rest) := by
    simp [doubleQuotedChars]
  have apart : atDocumentMarker ⟨text.flatMap escapeChar ++ '"' :: rest, mark.along 1⟩ = false := by
    simp [atDocumentMarker]
  rw [(isInline_doubleQuotedChars text).past, takeQuotedScalar, written, skip_one]
  simp only [apart, Bool.false_eq_true, if_false]
  rw [takeQuoted_flatMap_escapeChar _ rest text (by simp; omega), Mark.along_along]
  simp [doubleQuotedChars, Nat.add_comm]

/-- A text in single quotes is read back. -/
theorem takeQuotedScalar_single {indent : Nat} (positive : 0 < indent) {text : List Char}
    (allowed : singleAllowed text = true) (feed : '\n' ∉ text) (other : rest.head? ≠ some '\'') :
    takeQuotedScalar false ⟨singleQuotedChars indent text ++ rest, mark⟩ =
      .ok (text, ⟨rest, mark.past (singleQuotedChars indent text)⟩) := by
  have written : singleQuotedChars indent text ++ rest =
      '\'' :: (quotedLines indent text ++ '\'' :: rest) := by
    simp [singleQuotedChars_eq]
  have apart : atDocumentMarker ⟨quotedLines indent text ++ '\'' :: rest, mark.along 1⟩ = false := by
    simp [atDocumentMarker]
  rw [takeQuotedScalar, written, skip_one]
  simp only [apart, Bool.false_eq_true, if_false]
  rw [takeQuoted_quotedLines (isParted_of_singleAllowed allowed feed) positive other
    (by simp; omega), singleQuotedChars_eq, Mark.past_cons_solid rfl, Mark.past_append,
    Mark.past_cons_solid rfl]
  rfl

end DocPress.Yaml
