import DocPress.Yaml.Value
import DocPress.Proofs.Result

/-!
Places stay inside of the text. Whatever the reader of YAML does, the lines that it has counted and those
that are still to come are no more than the lines of the text, and so is every place that it remembers or
stops at.
-/

namespace DocPress.Yaml

/-! ### Lines -/

/-- Whether a line ends with the character, in front of `rest`. A carriage return leaves it to the line
feed behind it. -/
def endsLineAt (c : Char) (rest : List Char) : Bool :=
  isBreak c && !(c = '\r' && rest.head? = some '\n')

/-- The number of lines of a text that starts in a column: those that end in it, and what follows the
last end. -/
def linesFrom (column : Nat) : List Char → Nat
  | [] => if column = 0 then 0 else 1
  | c :: rest => if endsLineAt c rest then linesFrom 0 rest + 1 else linesFrom (column + 1) rest

theorem linesFrom_le_succ (text : List Char) (column column' : Nat) :
    linesFrom column text ≤ linesFrom column' text + 1 := by
  induction text generalizing column column' with
  | nil =>
      rw [linesFrom, linesFrom]
      split <;> split <;> omega
  | cons c rest ih =>
      rw [linesFrom, linesFrom]
      split
      · exact Nat.le_succ _
      · exact ih _ _

/-- A text that is gone over from its start has the most lines behind the start of a line. -/
theorem linesFrom_tail_le (column : Nat) (c : Char) (rest : List Char) :
    linesFrom (column + 1) rest ≤ linesFrom column (c :: rest) := by
  rw [linesFrom]
  split
  · exact linesFrom_le_succ rest _ _
  · exact Nat.le_refl _

/-- Of a column it only counts whether it is the first one. -/
theorem linesFrom_succ (column : Nat) (text : List Char) :
    linesFrom (column + 1) text = linesFrom 1 text := by
  induction text generalizing column with
  | nil => rfl
  | cons c rest ih => rw [linesFrom, linesFrom, ih (column + 1), ih 1]

theorem linesFrom_zero_le (column : Nat) (text : List Char) :
    linesFrom 0 text ≤ linesFrom column text := by
  cases text with
  | nil => exact Nat.zero_le _
  | cons c rest => exact Nat.le_of_eq (by rw [linesFrom, linesFrom, linesFrom_succ column])

/-! ### Cursors -/

variable {total : Nat}

namespace Cursor

variable {cursor : Cursor}

/-- Whether the lines in front of a cursor and those behind it are at most `total`. -/
def Within (total : Nat) (cursor : Cursor) : Prop :=
  cursor.mark.line + linesFrom cursor.mark.column cursor.rest ≤ total

theorem within_ofText (text : List Char) : (ofText text).Within (linesFrom 0 text) := by
  rw [Within]
  exact Nat.le_of_eq (Nat.zero_add _)

theorem Within.line_le (inside : cursor.Within total) : cursor.mark.line ≤ total :=
  Nat.le_of_add_right_le inside

/-- Characters of the same line can be skipped without leaving the text. -/
theorem Within.skip {count : Nat} (inside : cursor.Within total) (bound : count ≤ cursor.rest.length) :
    (cursor.skip count).Within total := by
  induction count generalizing cursor with
  | zero => exact inside
  | succ count ih =>
      obtain ⟨rest, mark⟩ := cursor
      cases rest with
      | nil => cases bound
      | cons c rest =>
          have one : (⟨rest, ⟨mark.index + 1, mark.line, mark.column + 1⟩⟩ : Cursor).Within total :=
            Nat.le_trans (Nat.add_le_add_left (linesFrom_tail_le _ c rest) _) inside
          have more := ih one (Nat.le_of_succ_le_succ bound)
          rw [Cursor.skip] at more ⊢
          rw [List.drop_succ_cons, Nat.add_comm count 1, ← Nat.add_assoc, ← Nat.add_assoc]
          exact more

theorem Within.skip_one {c : Char} {rest : List Char} (inside : cursor.Within total)
    (next : cursor.rest = c :: rest) : (cursor.skip 1).Within total :=
  inside.skip (by simp [next])

/-- The end of a line is counted as it is skipped. -/
theorem Within.skipBreak (inside : cursor.Within total) : cursor.skipBreak.Within total := by
  obtain ⟨rest, mark⟩ := cursor
  rw [Within] at inside
  rw [Cursor.skipBreak]
  dsimp only at inside ⊢
  split
  case _ rest =>
    have pair : linesFrom mark.column ('\r' :: '\n' :: rest) = linesFrom 0 rest + 1 := rfl
    rw [pair] at inside
    exact Nat.le_trans (Nat.le_of_eq (by rw [Nat.add_right_comm, Nat.add_assoc])) inside
  case _ c rest single =>
    split
    case isTrue lineEnd =>
      have ends : endsLineAt c rest = true := by
        have alone : ¬(c = '\r' ∧ rest.head? = some '\n') := by
          rintro ⟨rfl, feed⟩
          obtain ⟨more, rfl⟩ := List.head?_eq_some_iff.1 feed
          exact single more rfl rfl
        rw [endsLineAt, lineEnd, Bool.true_and, Bool.not_eq_true', ← Bool.decide_and,
          decide_eq_false alone]
      rw [linesFrom, if_pos ends] at inside
      exact Nat.le_trans (Nat.le_of_eq (by rw [Nat.add_right_comm, Nat.add_assoc])) inside
    case isFalse => exact inside
  case _ => exact inside

theorem Within.takeWhile (inside : cursor.Within total) (p : Char → Bool) :
    (cursor.takeWhile p).2.Within total :=
  inside.skip (List.takeWhile_prefix p).length_le

theorem Within.skipLine (inside : cursor.Within total) : cursor.skipLine.Within total :=
  inside.takeWhile _

theorem Within.skipSpaces (inside : cursor.Within total) : cursor.skipSpaces.Within total :=
  inside.takeWhile _

theorem exists_rest_of_next? {c : Char} (next : cursor.next? = some c) :
    ∃ rest, cursor.rest = c :: rest :=
  (List.head?_eq_some_iff.1 next)

/-- Skipping the next character stays inside of the text. -/
theorem Within.skip_next {c : Char} (inside : cursor.Within total) (next : cursor.next? = some c) :
    (cursor.skip 1).Within total :=
  have ⟨_, same⟩ := exists_rest_of_next? next
  inside.skip_one same

/-- A comment ends inside of the text. -/
theorem Within.skipComment (inside : cursor.Within total) : cursor.skipComment.Within total := by
  rw [Cursor.skipComment]
  split
  · exact inside.skipLine
  · exact inside

/-- Skipping an order mark stays inside of the text. -/
theorem Within.skipOrderMark (inside : cursor.Within total) : cursor.skipOrderMark.Within total := by
  rw [Cursor.skipOrderMark]
  split
  case isTrue marked =>
    cases next : cursor.next? with
    | none => simp [next] at marked
    | some c => exact inside.skip_next next
  case isFalse => exact inside

end Cursor

/-! ### Steps -/

/-- Whether the text breaks off inside of it. -/
def Break.Within (total : Nat) (reason : Break) : Prop :=
  reason.mark.line ≤ total

section Fail

variable {α β : Type} {wanted : α → Prop} {wanted' : β → Prop} {cursor : Cursor}

/-- A break at the place of a cursor is inside of the text. -/
theorem Cursor.Within.fail (inside : cursor.Within total) (problem : Problem)
    (context : Option (Activity × Mark)) :
    Meets (Break.Within total) wanted (cursor.fail problem context) :=
  inside.line_le

theorem Cursor.Within.fail_bind (inside : cursor.Within total) (problem : Problem)
    (context : Option (Activity × Mark)) (next : α → Except Break β) :
    Meets (Break.Within total) wanted' (cursor.fail problem context >>= next) :=
  inside.line_le

end Fail

/-! ### Scalars -/

section Scalar

variable {cursor : Cursor} {start : Mark} {fuel : Nat}

/-- Whether a step takes something and goes on inside of the text. -/
abbrev Advances {α : Type} (total : Nat) (step : Except Break (α × Cursor)) : Prop :=
  Meets (Break.Within total) (fun taken => taken.2.Within total) step

/-- The blanks and breaks between two words are passed inside of the text, if the check on each line is.
-/
theorem advances_takeGap {check : Cursor → Except Break Unit} {gap : Gap}
    (checks : ∀ cursor, cursor.Within total → Meets (Break.Within total) (fun _ => True) (check cursor))
    (inside : cursor.Within total) : Advances total (takeGap check fuel gap cursor) := by
  induction fuel generalizing gap cursor with
  | zero => exact inside
  | succ fuel ih =>
      rw [takeGap.eq_def]
      dsimp only
      split
      case _ => exact inside
      case _ c rest next =>
        have skipped := inside.skip_one next
        split
        · split
          · exact ih skipped
          · exact (checks cursor inside).bind fun _ _ => ih skipped
        · split
          · split
            · exact ih inside.skipBreak
            · exact ih inside.skipBreak
          · exact inside

theorem le_length_of_hexNumber? {count code : Nat} {text : List Char}
    (read : hexNumber? count text = some code) : count ≤ text.length := by
  rw [hexNumber?] at read
  split at read
  case isTrue => cases read
  case isFalse enough =>
    rw [List.length_take] at enough
    omega

/-- An escape is read inside of the text. -/
theorem advances_takeEscape {c : Char} {rest : List Char} (inside : cursor.Within total)
    (here : cursor.rest = c :: rest) : Advances total (takeEscape start cursor rest) := by
  rw [takeEscape.eq_def]
  dsimp only
  split
  case _ => exact inside.fail _ _
  case _ next digits =>
    have after : (cursor.skip 2).Within total := inside.skip (by simp [here])
    split
    · exact after
    · split
      · exact inside.fail _ _
      · split
        case _ => exact after.fail _ _
        case _ read =>
          split
          · exact after.fail _ _
          · refine after.skip ?_
            rw [Cursor.skip, here]
            exact le_length_of_hexNumber? read

/-- Behind a gap in quotes the text in them goes on, unless a marker of documents stands there. -/
theorem advances_behindGap {double : Bool} {done : List Char}
    (goesOn : ∀ {done : List Char} {cursor : Cursor}, cursor.Within total →
      Advances total (takeQuoted double start fuel done cursor))
    (first : Gap) (inside : cursor.Within total) :
    Advances total (do
      let (gap, cursor) ← takeGap (fun _ => .ok ()) (cursor.rest.length + 1) first cursor
      if cursor.atDocumentMarker then
        cursor.fail .documentIndicator (some (.quotedScalar, start))
      else takeQuoted double start fuel (gap.fold.reverse ++ done) cursor) := by
  refine (advances_takeGap (fun _ _ => .ok True.intro) inside).bind fun taken inside => ?_
  dsimp only
  split
  · exact inside.fail _ _
  · exact goesOn inside

/-- A text in quotes is read inside of the text, or reading stops there. -/
theorem advances_takeQuoted {double : Bool} {done : List Char} (inside : cursor.Within total) :
    Advances total (takeQuoted double start fuel done cursor) := by
  induction fuel generalizing done cursor with
  | zero => exact inside.fail _ _
  | succ fuel ih =>
      rw [takeQuoted]
      dsimp only
      split
      case _ => exact inside.fail _ _
      case _ c rest here =>
        have skipped := inside.skip_one here
        split
        · exact advances_behindGap ih _ inside
        · split
          · split
            · exact skipped
            · split
              · split
                · split
                  · exact advances_behindGap ih _ skipped.skipBreak
                  · exact (advances_takeEscape inside here).bind fun taken inside => ih inside
                · exact (advances_takeEscape inside here).bind fun taken inside => ih inside
              · exact ih skipped
          · split
            · exact ih (inside.skip (by simp [here]))
            · exact skipped
            · exact ih skipped

/-- Taking a quoted scalar goes on inside of the text. -/
theorem advances_takeQuotedScalar {double : Bool} {c : Char} {rest : List Char}
    (inside : cursor.Within total) (here : cursor.rest = c :: rest) :
    Advances total (takeQuotedScalar double cursor) := by
  rw [takeQuotedScalar]
  split
  · exact (inside.skip_one here).fail _ _
  · exact advances_takeQuoted (inside.skip_one here)

/-- A word, or what is in front of a colon that may not stand there, is inside of the text. -/
theorem plainLength_le {flow : Bool} {text : List Char} {outcome : Except Nat Nat}
    (read : plainLength flow text = outcome) :
    (match outcome with | .ok length | .error length => length) ≤ text.length := by
  induction text generalizing outcome with
  | nil =>
      subst read
      exact Nat.zero_le _
  | cons c rest ih =>
      rw [plainLength] at read
      split at read
      · subst read
        exact Nat.zero_le _
      · split at read
        · subst read
          exact Nat.zero_le _
        · split at read
          · subst read
            exact Nat.zero_le _
          · cases inner : plainLength flow rest with
            | ok length | error length =>
                rw [inner] at read
                subst read
                exact Nat.succ_le_succ (ih inner)

/-- A plain scalar is read inside of the text, from any word on. -/
theorem meets_takePlain {flow : Bool} {indent : Int} {done : List Char} {gap : Option Gap}
    (inside : cursor.Within total) :
    Meets (Break.Within total) (fun scalar => scalar.cursor.Within total)
      (takePlain flow indent start fuel done gap cursor) := by
  induction fuel generalizing done gap cursor with
  | zero => exact inside
  | succ fuel ih =>
      rw [takePlain]
      dsimp only
      split
      · exact inside
      · split
        case _ seen refused => exact (inside.skip (plainLength_le refused)).fail _ _
        case _ length word =>
          have after := inside.skip (plainLength_le word)
          split
          case _ => exact after
          case _ =>
            split
            · exact after
            · refine (advances_takeGap (fun cursor inside => ?_) after).bind fun taken inside => ?_
              · split
                · exact inside.fail _ _
                · exact .ok True.intro
              · split
                · exact inside
                · exact ih inside

/-- Taking a plain scalar stays inside of the text, and so does the place where it fails. -/
theorem meets_takePlainScalar {flow : Bool} {indent : Int} (inside : cursor.Within total) :
    Meets (Break.Within total) (fun scalar => scalar.cursor.Within total)
      (takePlainScalar flow indent cursor) :=
  meets_takePlain inside

theorem Cursor.Within.chomped {chomping : Chomping} (inside : cursor.Within total)
    (found : (match cursor.next? with
      | some '+' => some Chomping.keep
      | some '-' => some .strip
      | _ => none) = some chomping) : (cursor.skip 1).Within total := by
  split at found
  case _ next => exact inside.skip_next next
  case _ next => exact inside.skip_next next
  case _ => cases found

/-- Where a digit hints at the indentation of a block, it can be skipped. -/
theorem Cursor.Within.hinted (inside : cursor.Within total) :
    Meets (Break.Within total)
      (fun hint : Option Nat => ∀ count, hint = some count → (cursor.skip 1).Within total)
      (match cursor.next? with
      | some c =>
        if c = '0' then cursor.fail .zeroIndent (some (.blockScalar, start))
        else if c.isDigit then .ok (some (c.toNat - 48))
        else .ok none
      | none => .ok none) := by
  split
  case _ c next =>
    split
    · exact inside.fail _ _
    · split
      · exact fun _ _ => inside.skip_next next
      · rintro _ ⟨⟩
  case _ => rintro _ ⟨⟩

/-- The hints behind the sign of a block scalar are read inside of the text. -/
theorem meets_takeBlockHints (inside : cursor.Within total) :
    Meets (Break.Within total) (fun taken => taken.2.2.Within total) (takeBlockHints start cursor) := by
  rw [takeBlockHints]
  dsimp only
  split
  case _ found =>
    have skipped := inside.chomped found
    refine skipped.hinted.bind fun hint more => ?_
    cases hint with
    | none => exact skipped
    | some count => exact more count rfl
  case _ =>
    refine inside.hinted.bind fun hint more => ?_
    cases hint with
    | none => exact inside
    | some count =>
        have skipped := more count rfl
        dsimp only
        split
        case _ found => exact skipped.chomped found
        case _ => exact skipped

/-- The empty lines of a block scalar are passed inside of the text. -/
theorem meets_takeBlockBreaks {indent : Option Nat} {widest : Nat} {breaks : List Char}
    (inside : cursor.Within total) :
    Meets (Break.Within total) (fun taken => taken.2.2.Within total)
      (takeBlockBreaks start indent fuel widest breaks cursor) := by
  induction fuel generalizing widest breaks cursor with
  | zero => exact inside
  | succ fuel ih =>
      have spaces : (cursor.rest.takeWhile (· = ' ')).length ≤ cursor.rest.length :=
        (List.takeWhile_prefix _).length_le
      rw [takeBlockBreaks.eq_def]
      cases indent with
      | none =>
          have after := inside.skip spaces
          dsimp only
          split
          · exact after.fail _ _
          · split
            · exact ih after.skipBreak
            · exact after
      | some indent =>
          have after := inside.skip
            (Nat.le_trans (Nat.min_le_left _ (indent - cursor.mark.column)) spaces)
          dsimp only
          split
          · exact after.fail _ _
          · split
            · exact ih after.skipBreak
            · exact after

/-- The lines of a block scalar are read inside of the text. -/
theorem advances_takeBlockLines {literal : Bool} {indent : Nat} {block : BlockText}
    (inside : cursor.Within total) :
    Advances total (takeBlockLines literal start indent fuel block cursor) := by
  induction fuel generalizing block cursor with
  | zero => exact inside
  | succ fuel ih =>
      rw [takeBlockLines]
      split
      · exact (meets_takeBlockBreaks (inside.takeWhile _).skipBreak).bind fun taken inside => ih inside
      · exact inside

/-- A block scalar is read inside of the text, or reading stops there. -/
theorem advances_takeBlockScalar {literal : Bool} {parent : Int} {c : Char} {rest : List Char}
    (inside : cursor.Within total) (here : cursor.rest = c :: rest) :
    Advances total (takeBlockScalar literal parent cursor) := by
  rw [takeBlockScalar]
  refine (meets_takeBlockHints (inside.skip_one here)).bind fun (chomping, hint, cursor) inside => ?_
  have atEnd := inside.skipSpaces.skipComment
  dsimp only
  split
  · exact atEnd.fail_bind _ _ _
  · refine (meets_takeBlockBreaks atEnd.skipBreak).bind fun taken inside => ?_
    exact (advances_takeBlockLines inside).bind fun taken inside => inside

end Scalar

/-! ### Tokens -/

/-- Whether a kind of tokens says that the text cannot be read on. -/
def TokenKind.isBroken : TokenKind → Bool
  | .broken _ => true
  | _ => false

/-- A token that was read is not a broken one. -/
theorem TokenKind.ne_broken {kind : TokenKind} (read : kind.isBroken = false) (reason : Break) :
    kind ≠ .broken reason := by
  rintro rfl
  cases read

/-- Whether the places of a token are inside of the text. -/
structure Token.Within (total : Nat) (token : Token) : Prop where
  start : token.start.line ≤ total
  stop : token.stop.line ≤ total
  reason : ∀ reason, token.kind = .broken reason → reason.mark.line ≤ total

/-- Whether a place where a key may have started, if there is one, is inside of the text. -/
def PlaceWithin (total : Nat) (place : Option KeyPlace) : Prop :=
  ∀ key, place = some key → key.mark.line ≤ total

namespace Lexer

variable {lexer : Lexer} {kind : TokenKind} {start stop : Mark}

/-- Whether all places that a lexer knows are inside of the text. -/
structure Within (total : Nat) (lexer : Lexer) : Prop where
  cursor : lexer.cursor.Within total
  tokens : ∀ token ∈ lexer.tokens, token.Within total
  place : PlaceWithin total lexer.place
  outer : ∀ place ∈ lexer.outerPlaces, PlaceWithin total place

/-- A lexer at the start of a text is inside of it. -/
theorem within_ofText (text : List Char) : (ofText text).Within (linesFrom 0 text) where
  cursor := Cursor.within_ofText text
  tokens := nofun
  place := nofun
  outer := nofun

theorem Within.mark_le (inside : lexer.Within total) : lexer.mark.line ≤ total :=
  inside.cursor.line_le

theorem Within.moveTo {cursor : Cursor} (inside : lexer.Within total) (moved : cursor.Within total) :
    { lexer with cursor }.Within total :=
  ⟨moved, inside.tokens, inside.place, inside.outer⟩

/-- A token that starts and stops inside of the text may come behind the others. -/
theorem Within.push (inside : lexer.Within total) (kind : TokenKind) (read : kind.isBroken = false)
    (starts : start.line ≤ total)
    (stops : stop.line ≤ total) : (lexer.push kind start stop).Within total :=
  ⟨inside.cursor,
    List.forall_mem_cons.2
      ⟨⟨starts, stops, fun reason broken => absurd broken (TokenKind.ne_broken read reason)⟩,
        inside.tokens⟩,
    inside.place, inside.outer⟩

/-- A token inside of the text may come in between the others. -/
theorem Within.insertAt (inside : lexer.Within total) (count : Nat) (kind : TokenKind)
    (read : kind.isBroken = false) {mark : Mark} (there : mark.line ≤ total) :
    (lexer.insertAt count kind mark).Within total := by
  refine ⟨inside.cursor, fun token member => ?_, inside.place, inside.outer⟩
  rcases List.mem_append.1 member with before | behind
  · exact inside.tokens token (List.mem_of_mem_take before)
  · rcases List.mem_cons.1 behind with rfl | behind
    · exact ⟨there, there, fun reason broken => absurd broken (TokenKind.ne_broken read reason)⟩
    · exact inside.tokens token (List.mem_of_mem_drop behind)

/-- Pushing an indicator stays inside of the text. -/
theorem Within.pushIndicator (inside : lexer.Within total) (kind : TokenKind)
    (read : kind.isBroken = false) {length : Nat} (bound : length ≤ lexer.cursor.rest.length) :
    (lexer.pushIndicator kind length).Within total :=
  have skipped := inside.cursor.skip bound
  (inside.push kind read inside.mark_le skipped.line_le).moveTo skipped

/-- A place for a key is given up only inside of the text. -/
theorem meets_checkPlace {place : Option KeyPlace} (inside : lexer.Within total)
    (there : PlaceWithin total place) :
    Meets (Break.Within total) (PlaceWithin total) (lexer.checkPlace place) := by
  cases place with
  | none => exact there
  | some place =>
      rw [checkPlace]
      split
      · split
        · exact inside.mark_le
        · exact nofun
      · exact there

/-- The places for keys that have gone stale are dropped inside of the text. -/
theorem meets_dropStale (inside : lexer.Within total) :
    Meets (Break.Within total) (Within total) lexer.dropStale := by
  refine (Meets.mapM fun place member =>
    meets_checkPlace inside (inside.outer place (List.mem_reverse.1 member))).bind fun outer more => ?_
  refine (meets_checkPlace inside inside.place).bind fun place here => ?_
  exact ⟨inside.cursor, inside.tokens, here, fun place member => more place (List.mem_reverse.1 member)⟩

/-- Whether a lexer is where another one is, inside of the text. -/
structure Stays (total : Nat) (lexer next : Lexer) : Prop where
  within : next.Within total
  cursor : next.cursor = lexer.cursor

theorem Stays.rest {next : Lexer} {text : List Char} (stays : lexer.Stays total next)
    (here : lexer.cursor.rest = text) : next.cursor.rest = text := by
  rw [stays.cursor, here]

/-- The place for a key is dropped without moving the cursor. -/
theorem meets_dropPlace (inside : lexer.Within total) :
    Meets (Break.Within total) (lexer.Stays total) lexer.dropPlace := by
  rw [dropPlace]
  split
  · split
    · exact inside.mark_le
    · exact ⟨⟨inside.cursor, inside.tokens, nofun, inside.outer⟩, rfl⟩
  · exact ⟨inside, rfl⟩

/-- The place for a key is remembered without moving the cursor. -/
theorem meets_savePlace (inside : lexer.Within total) :
    Meets (Break.Within total) (lexer.Stays total) lexer.savePlace := by
  rw [savePlace]
  split
  · refine (meets_dropPlace inside).bind fun dropped stays => ?_
    have more := stays.within
    refine ⟨⟨more.cursor, more.tokens, fun key same => ?_, more.outer⟩, stays.cursor⟩
    obtain rfl := Option.some.inj same
    exact inside.mark_le
  · exact ⟨inside, rfl⟩

/-- A block collection is opened without moving the cursor. -/
theorem stays_indentTo (inside : lexer.Within total) (column count : Nat) (kind : TokenKind)
    (read : kind.isBroken = false) {mark : Mark} (there : mark.line ≤ total) :
    lexer.Stays total (lexer.indentTo column count kind mark) := by
  rw [indentTo]
  split
  · have opened := inside.insertAt count kind read there
    exact ⟨⟨opened.cursor, opened.tokens, opened.place, opened.outer⟩, rfl⟩
  · exact ⟨inside, rfl⟩

/-- Block collections are closed without moving the cursor. -/
theorem stays_dedent (inside : lexer.Within total) (column : Int) (indents : List Int) :
    lexer.Stays total (dedent column indents lexer) := by
  induction indents generalizing lexer with
  | nil => exact ⟨inside, rfl⟩
  | cons next outer ih =>
      rw [dedent]
      split
      · have closed := inside.push .blockEnd rfl inside.mark_le inside.mark_le
        obtain ⟨more, same⟩ := @ih { lexer.push .blockEnd lexer.mark lexer.mark with indent := next, outer }
          ⟨closed.cursor, closed.tokens, closed.place, closed.outer⟩
        exact ⟨more, same⟩
      · exact ⟨inside, rfl⟩

/-- Closing blocks moves no cursor. -/
theorem stays_dedentTo (inside : lexer.Within total) (column : Int) :
    lexer.Stays total (lexer.dedentTo column) := by
  rw [dedentTo]
  split
  · exact ⟨inside, rfl⟩
  · exact stays_dedent inside column _

/-- Ending all block collections and forgetting the innermost place. -/
theorem meets_close (inside : lexer.Within total) :
    Meets (Break.Within total) (lexer.Stays total) (lexer.dedentTo (-1)).dropPlace := by
  obtain ⟨closed, same⟩ := stays_dedentTo inside (-1)
  exact (meets_dropPlace closed).mono fun _ stays => ⟨stays.within, stays.cursor.trans same⟩

/-! ### Directives and properties of nodes -/

section Take

variable {cursor : Cursor} {context : Option (Activity × Mark)}

/-- A part of a version number is read inside of the text. -/
theorem advances_takeVersionNumber (inside : cursor.Within total) :
    Advances total (takeVersionNumber start cursor) := by
  rw [takeVersionNumber]
  dsimp only
  split
  case isTrue long =>
    have bound : 9 ≤ cursor.rest.length :=
      Nat.le_trans (Nat.le_of_lt long) (List.takeWhile_prefix _).length_le
    exact (inside.skip bound).fail _ _
  case isFalse =>
    split
    · exact inside.fail _ _
    · exact inside.takeWhile _

/-- The handle of a tag is read inside of the text. -/
theorem advances_takeHandle {directive : Bool} (inside : cursor.Within total) :
    Advances total (takeHandle directive start cursor) := by
  rw [takeHandle]
  split
  case isTrue next =>
    have after := (inside.skip_next next).takeWhile isNameChar
    dsimp only
    split
    case isTrue closes => exact after.skip_next closes
    case isFalse =>
      split
      · exact after.fail _ _
      · exact after
  case isFalse => exact inside.fail _ _

/-- An octet of an escaped character is read inside of the text. -/
theorem meets_takeOctet (inside : cursor.Within total) :
    Meets (Break.Within total) (fun _ => (cursor.skip 3).Within total) (takeOctet context cursor) := by
  rw [takeOctet]
  split
  case _ rest here =>
    split
    case _ octet read =>
      refine inside.skip ?_
      rw [here]
      exact Nat.succ_le_succ (le_length_of_hexNumber? read)
    case _ => exact inside.fail _ _
  case _ => exact inside.fail _ _

/-- Taking the further bytes of a character goes on inside of the text. -/
theorem advances_takeTrailing {count code : Nat} (inside : cursor.Within total) :
    Advances total (takeTrailing context count code cursor) := by
  induction count generalizing code cursor with
  | zero => exact inside
  | succ count ih =>
      rw [takeTrailing]
      refine (meets_takeOctet inside).bind fun octet after => ?_
      dsimp only
      split
      · exact inside.fail_bind _ _ _
      · exact ih after

/-- An escaped character of a tag is read inside of the text. -/
theorem advances_takeEscapedChar (inside : cursor.Within total) :
    Advances total (takeEscapedChar context cursor) := by
  rw [takeEscapedChar]
  refine (meets_takeOctet inside).bind fun octet after => ?_
  split
  · exact inside.fail _ _
  · exact (advances_takeTrailing after).bind fun taken inside => inside

/-- The characters of a tag are read inside of the text. -/
theorem advances_takeTagChars {verbatim : Bool} {fuel : Nat} {done : List Char}
    (inside : cursor.Within total) :
    Advances total (takeTagChars verbatim context fuel done cursor) := by
  induction fuel generalizing done cursor with
  | zero => exact inside
  | succ fuel ih =>
      rw [takeTagChars]
      split
      case _ c rest here =>
        split
        · exact (advances_takeEscapedChar inside).bind fun taken inside => ih inside
        · split
          · exact ih (inside.skip_one here)
          · exact inside
      case _ => exact inside

/-- Taking the address of a tag goes on inside of the text. -/
theorem advances_takeTagUri {verbatim directive : Bool} {head : List Char}
    (inside : cursor.Within total) :
    Advances total (takeTagUri verbatim directive head start cursor) := by
  rw [takeTagUri]
  refine (advances_takeTagChars inside).bind fun taken after => ?_
  dsimp only
  split
  · exact after.fail_bind _ _ _
  · exact after

/-- The value of a directive is read inside of the text, and it is no broken token. -/
theorem meets_takeDirectiveValue {name : List Char} (inside : cursor.Within total) :
    Meets (Break.Within total) (fun taken => taken.1.isBroken = false ∧ taken.2.Within total)
      (takeDirectiveValue name start cursor) := by
  rw [takeDirectiveValue]
  split
  case isTrue =>
    refine (advances_takeVersionNumber inside.skipSpaces).bind fun (major, cursor) inside => ?_
    dsimp only
    split
    case isTrue => exact inside.fail_bind _ _ _
    case isFalse point =>
      have next : cursor.next? = some '.' := by simpa using point
      refine (advances_takeVersionNumber (inside.skip_next next)).bind fun minor inside => ?_
      exact ⟨rfl, inside⟩
  case isFalse =>
    split
    case isTrue =>
      refine (advances_takeHandle inside.skipSpaces).bind fun handle inside => ?_
      dsimp only
      split
      case isTrue => exact inside.fail_bind _ _ _
      case isFalse =>
        refine (advances_takeTagUri inside.skipSpaces).bind fun uri inside => ?_
        split
        · exact inside.fail_bind _ _ _
        · exact ⟨rfl, inside⟩
    case isFalse => exact inside.fail _ _

/-- A tag is read inside of the text. -/
theorem meets_takeTag (inside : cursor.Within total) :
    Meets (Break.Within total) (fun taken => taken.2.2.Within total) (takeTag start cursor) := by
  rw [takeTag]
  split
  case isTrue verbatim =>
    have bound : 2 ≤ cursor.rest.length := by
      obtain ⟨more, same⟩ := List.head?_eq_some_iff.1 verbatim
      have length := congrArg List.length same
      rw [List.length_drop, List.length_cons] at length
      omega
    refine (advances_takeTagUri (inside.skip bound)).bind fun (uri, cursor) inside => ?_
    dsimp only
    split
    case isTrue => exact inside.fail_bind _ _ _
    case isFalse closes =>
      have next : cursor.next? = some '>' := by simpa using closes
      exact inside.skip_next next
  case isFalse =>
    refine (advances_takeHandle inside).bind fun handle inside => ?_
    dsimp only
    split
    · exact (advances_takeTagUri inside).bind fun uri inside => inside
    · refine (advances_takeTagUri inside).bind fun uri inside => ?_
      split
      · exact inside
      · exact inside

end Take

/-! ### Reading tokens -/

variable {c : Char} {rest : List Char}

/-- Pushing a token with its ends inside of the text stays there. -/
theorem Within.pushTo {cursor after : Cursor} (inside : lexer.Within total) (kind : TokenKind)
    (read : kind.isBroken = false)
    (starts : start.line ≤ total) (ends : cursor.Within total)
    (moved : after.Within total) (keyAllowed : Bool) :
    { lexer.push kind start cursor.mark with cursor := after, keyAllowed }.Within total :=
  have pushed := inside.push kind read starts ends.line_le
  ⟨moved, pushed.tokens, pushed.place, pushed.outer⟩

/-- Pushing an indicator stays inside of the text, whether a key may follow or not. -/
theorem Within.indicator (inside : lexer.Within total) (kind : TokenKind) (read : kind.isBroken = false)
    {length : Nat} (bound : length ≤ lexer.cursor.rest.length) (keyAllowed : Bool) :
    { lexer.pushIndicator kind length with keyAllowed }.Within total :=
  have pushed := inside.pushIndicator kind read bound
  ⟨pushed.cursor, pushed.tokens, pushed.place, pushed.outer⟩

/-- A directive is read inside of the text, or reading stops there. -/
theorem meets_readDirective (inside : lexer.Within total) (here : lexer.cursor.rest = c :: rest) :
    Meets (Break.Within total) (Within total) lexer.readDirective := by
  rw [readDirective]
  refine (meets_close inside).bind fun closed stays => ?_
  have inside := stays.within
  have named := (inside.cursor.skip_one (stays.rest here)).takeWhile isNameChar
  dsimp only
  split
  · exact named.fail_bind _ _ _
  · split
    · exact named.fail_bind _ _ _
    · refine (meets_takeDirectiveValue named).bind fun (kind, cursor) ⟨read, taken⟩ => ?_
      have after := taken.skipSpaces.skipComment
      dsimp only
      split
      · exact after.fail_bind _ _ _
      · exact inside.pushTo kind read inside.mark_le taken after.skipBreak _

/-- An anchor or an alias is read inside of the text, or reading stops there. -/
theorem meets_readAnchor {isAlias : Bool} (inside : lexer.Within total)
    (here : lexer.cursor.rest = c :: rest) :
    Meets (Break.Within total) (Within total) (lexer.readAnchor isAlias) := by
  rw [readAnchor]
  refine (meets_savePlace inside).bind fun saved stays => ?_
  have inside := stays.within
  have named := (inside.cursor.skip_one (stays.rest here)).takeWhile isNameChar
  dsimp only
  split
  · exact named.fail_bind _ _ _
  · refine inside.pushTo _ ?_ inside.mark_le named named _
    split
    · exact rfl
    · exact rfl

/-- Reading a tag stays inside of the text. -/
theorem meets_readTag (inside : lexer.Within total) :
    Meets (Break.Within total) (Within total) lexer.readTag := by
  rw [readTag]
  refine (meets_savePlace inside).bind fun saved stays => ?_
  have inside := stays.within
  refine (meets_takeTag inside.cursor).bind fun (handle, uri, cursor) taken => ?_
  dsimp only
  split
  · exact taken.fail_bind _ _ _
  · exact inside.pushTo (.tag _ _) rfl inside.mark_le taken taken _

/-- The end of the text is read inside of it. -/
theorem meets_readEnd (inside : lexer.Within total) (here : lexer.cursor.rest = []) :
    Meets (Break.Within total) (Within total) lexer.readEnd := by
  have atEnd : ({ lexer.cursor with
      mark := if lexer.mark.column = 0 then lexer.mark else ⟨lexer.mark.index, lexer.mark.line + 1, 0⟩ } :
        Cursor).Within total := by
    have bound : lexer.mark.line + linesFrom lexer.mark.column [] ≤ total := by
      have bound := inside.cursor
      rwa [Cursor.Within, here] at bound
    rw [Cursor.Within, here]
    split
    case isTrue => exact bound
    case isFalse later =>
      rw [linesFrom, if_neg later] at bound
      exact bound
  rw [readEnd]
  refine (meets_close (inside.moveTo atEnd)).bind fun closed stays => ?_
  have pushed := stays.within.push .endOfText rfl atEnd.line_le atEnd.line_le
  exact ⟨pushed.cursor, pushed.tokens, pushed.place, pushed.outer⟩

/-- The mark of a document is read inside of the text. -/
theorem meets_readDocumentMarker (inside : lexer.Within total) (read : kind.isBroken = false)
    (here : lexer.cursor.atDocumentMarker = true) :
    Meets (Break.Within total) (Within total) (lexer.readDocumentMarker kind) := by
  rw [readDocumentMarker]
  refine (meets_close inside).bind fun closed stays => ?_
  refine stays.within.indicator kind read ?_ _
  rw [stays.cursor]
  rw [Cursor.atDocumentMarker, Bool.and_eq_true_iff] at here
  have marked := here.2
  split at marked
  case _ same => simp [same]
  case _ same => simp [same]
  case _ => cases marked

/-- Reading an opening bracket stays inside of the text. -/
theorem meets_readOpening (inside : lexer.Within total) (read : kind.isBroken = false)
    (here : lexer.cursor.rest = c :: rest) :
    Meets (Break.Within total) (Within total) (lexer.readOpening kind) := by
  rw [readOpening]
  refine (meets_savePlace inside).bind fun saved stays => ?_
  have inside := stays.within
  have pushed : (saved.pushIndicator kind 1).Within total :=
    inside.pushIndicator kind read (by simp [stays.rest here])
  exact ⟨pushed.cursor, pushed.tokens, nofun, List.forall_mem_cons.2 ⟨inside.place, inside.outer⟩⟩

/-- Reading a closing bracket stays inside of the text. -/
theorem meets_readClosing (inside : lexer.Within total) (read : kind.isBroken = false)
    (here : lexer.cursor.rest = c :: rest) :
    Meets (Break.Within total) (Within total) (lexer.readClosing kind) := by
  rw [readClosing]
  refine (meets_dropPlace inside).bind fun dropped stays => ?_
  have pushed : (dropped.pushIndicator kind 1).Within total :=
    stays.within.pushIndicator kind read (by simp [stays.rest here])
  dsimp only
  split
  case _ place outer same =>
    have outer := pushed.outer
    rw [same] at outer
    obtain ⟨first, more⟩ := List.forall_mem_cons.1 outer
    exact ⟨pushed.cursor, pushed.tokens, first, more⟩
  case _ => exact ⟨pushed.cursor, pushed.tokens, pushed.place, pushed.outer⟩

/-- Reading a comma between items stays inside of the text. -/
theorem meets_readFlowEntry (inside : lexer.Within total) (here : lexer.cursor.rest = c :: rest) :
    Meets (Break.Within total) (Within total) lexer.readFlowEntry := by
  rw [readFlowEntry]
  refine (meets_dropPlace inside).bind fun dropped stays => ?_
  exact stays.within.indicator .flowEntry rfl (by simp [stays.rest here]) _

/-- The dash of an item is read inside of the text, or reading stops there. -/
theorem meets_readBlockEntry (inside : lexer.Within total) (here : lexer.cursor.rest = c :: rest) :
    Meets (Break.Within total) (Within total) lexer.readBlockEntry := by
  rw [readBlockEntry]
  dsimp only
  split
  · exact inside.cursor.fail_bind _ _ _
  · have opened :=
      stays_indentTo inside lexer.mark.column lexer.tokens.length .sequenceStart rfl inside.mark_le
    refine (meets_dropPlace opened.within).bind fun dropped stays => ?_
    exact stays.within.indicator .blockEntry rfl (by simp [stays.rest (opened.rest here)]) _

/-- The sign of a key is read inside of the text, or reading stops there. -/
theorem meets_readKey (inside : lexer.Within total) (here : lexer.cursor.rest = c :: rest) :
    Meets (Break.Within total) (Within total) lexer.readKey := by
  rw [readKey]
  dsimp only
  split
  · exact inside.cursor.fail_bind _ _ _
  · have opened :=
      stays_indentTo inside lexer.mark.column lexer.tokens.length .mappingStart rfl inside.mark_le
    refine (meets_dropPlace opened.within).bind fun dropped stays => ?_
    exact stays.within.indicator .key rfl (by simp [stays.rest (opened.rest here)]) _

/-- The sign of a value is read inside of the text, or reading stops there. -/
theorem meets_readValue (inside : lexer.Within total) (here : lexer.cursor.rest = c :: rest) :
    Meets (Break.Within total) (Within total) lexer.readValue := by
  rw [readValue]
  split
  case _ place found =>
    have there := inside.place place found
    have opened := stays_indentTo (inside.insertAt place.count .key rfl there) place.mark.column
      place.count .mappingStart rfl there
    have pushed := @Within.pushIndicator _ _ opened.within .value rfl 1 (by simp [opened.rest here])
    exact ⟨pushed.cursor, pushed.tokens, nofun, pushed.outer⟩
  case _ =>
    dsimp only
    split
    · exact inside.cursor.fail_bind _ _ _
    · have opened :=
        stays_indentTo inside lexer.mark.column lexer.tokens.length .mappingStart rfl inside.mark_le
      exact opened.within.indicator .value rfl (by simp [opened.rest here]) _

/-- Reading a block scalar stays inside of the text. -/
theorem meets_readBlockScalar {literal : Bool} (inside : lexer.Within total)
    (here : lexer.cursor.rest = c :: rest) :
    Meets (Break.Within total) (Within total) (lexer.readBlockScalar literal) := by
  rw [readBlockScalar]
  refine (meets_dropPlace inside).bind fun dropped stays => ?_
  have inside := stays.within
  refine (advances_takeBlockScalar inside.cursor (stays.rest here)).bind fun (text, cursor) taken => ?_
  exact inside.pushTo (.scalar _ _) rfl inside.mark_le taken taken _

/-- Reading a quoted scalar stays inside of the text. -/
theorem meets_readQuoted {double : Bool} (inside : lexer.Within total)
    (here : lexer.cursor.rest = c :: rest) :
    Meets (Break.Within total) (Within total) (lexer.readQuoted double) := by
  rw [readQuoted]
  refine (meets_savePlace inside).bind fun saved stays => ?_
  have inside := stays.within
  refine (advances_takeQuotedScalar inside.cursor (stays.rest here)).bind fun (text, cursor) taken => ?_
  exact inside.pushTo (.scalar _ _) rfl inside.mark_le taken taken _

/-- Reading a plain scalar stays inside of the text. -/
theorem meets_readPlain (inside : lexer.Within total) :
    Meets (Break.Within total) (Within total) lexer.readPlain := by
  rw [readPlain]
  refine (meets_savePlace inside).bind fun saved stays => ?_
  have inside := stays.within
  refine (meets_takePlainScalar inside.cursor).bind fun scalar taken => ?_
  exact inside.pushTo (.scalar _ _) rfl inside.mark_le taken taken _

/-- What stands between tokens is passed inside of the text. -/
theorem Within.skipBetween {fuel : Nat} (inside : lexer.Within total) :
    (lexer.skipBetween fuel).Within total := by
  induction fuel generalizing lexer with
  | zero => exact inside
  | succ fuel ih =>
      rw [Lexer.skipBetween]
      have after := (inside.cursor.skipOrderMark.takeWhile
        fun c => c = ' ' || ((lexer.inFlow || !lexer.keyAllowed) && c = '\t')).skipComment
      dsimp only
      split
      · exact ih ⟨after.skipBreak, inside.tokens, inside.place, inside.outer⟩
      · exact inside.moveTo after

/-- A token is read inside of the text, or the break is there. -/
theorem meets_readToken (inside : lexer.Within total) :
    Meets (Break.Within total) (Within total) lexer.readToken := by
  rw [readToken]
  split
  case _ here => exact meets_readEnd inside here
  case _ c rest here =>
    refine .ite (fun _ => meets_readDirective inside here) fun _ => ?_
    refine .ite (fun marker => meets_readDocumentMarker inside ?_ marker) fun _ => ?_
    · split
      · exact rfl
      · exact rfl
    refine .ite (fun _ => meets_readOpening inside rfl here) fun _ => ?_
    refine .ite (fun _ => meets_readOpening inside rfl here) fun _ => ?_
    refine .ite (fun _ => meets_readClosing inside rfl here) fun _ => ?_
    refine .ite (fun _ => meets_readClosing inside rfl here) fun _ => ?_
    refine .ite (fun _ => meets_readFlowEntry inside here) fun _ => ?_
    refine .ite (fun _ => meets_readBlockEntry inside here) fun _ => ?_
    refine .ite (fun _ => meets_readKey inside here) fun _ => ?_
    refine .ite (fun _ => meets_readValue inside here) fun _ => ?_
    refine .ite (fun _ => meets_readAnchor inside here) fun _ => ?_
    refine .ite (fun _ => meets_readAnchor inside here) fun _ => ?_
    refine .ite (fun _ => meets_readTag inside) fun _ => ?_
    refine .ite (fun _ => meets_readBlockScalar inside here) fun _ => ?_
    refine .ite (fun _ => meets_readBlockScalar inside here) fun _ => ?_
    refine .ite (fun _ => meets_readQuoted inside here) fun _ => ?_
    refine .ite (fun _ => meets_readQuoted inside here) fun _ => ?_
    exact .ite (fun _ => meets_readPlain inside) fun _ => inside.cursor.fail _ _

/-- What is prepared for the next token, and that token, is inside of the text. -/
theorem meets_step (inside : lexer.Within total) :
    Meets (Break.Within total) (Within total) lexer.step := by
  rw [step]
  refine (meets_dropStale inside.skipBetween).bind fun settled inside => ?_
  refine (meets_readToken (stays_dedentTo inside _).within).bind fun read inside => ?_
  exact meets_dropStale inside

/-- All tokens of a run are inside of the text. -/
theorem within_run {fuel : Nat} (inside : lexer.Within total) :
    ∀ token ∈ run fuel lexer, token.Within total := by
  have decided {lexer : Lexer} (inside : lexer.Within total) :
      ∀ token ∈ lexer.decided, token.Within total :=
    fun token member => inside.tokens token (List.mem_reverse.1 (List.mem_of_mem_take member))
  induction fuel generalizing lexer with
  | zero => exact decided inside
  | succ fuel ih =>
      have next := meets_step inside
      rw [run]
      split
      case _ reason broken =>
        rw [broken] at next
        intro token member
        rcases List.mem_append.1 member with before | last
        · exact decided inside token before
        · obtain rfl := List.mem_singleton.1 last
          exact ⟨next, next, fun reason' same => by cases same; exact next⟩
      case _ read more =>
        rw [more] at next
        split
        · exact fun token member => next.tokens token (List.mem_reverse.1 member)
        · exact ih next

end Lexer

/-- The places of all tokens of a text are inside of it. -/
theorem within_tokens (text : List Char) : ∀ token ∈ tokens text, token.Within (linesFrom 0 text) :=
  Lexer.within_run (Lexer.within_ofText text)

end DocPress.Yaml
