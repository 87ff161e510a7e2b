import DocPress.Proofs.Yaml.Block

/-!
Steps of the lexer over written YAML. A step first moves over what stands between tokens; between two
steps a written map leaves the lexer in front of a token, with no place at which a key is undecided.
-/

namespace DocPress.Yaml.Lexer

open Cursor

variable {lexer : Lexer} {rest : List Char} {mark : Mark} {fuel : Nat}

/-! ### Steps and runs -/

/-- The first part of a step: moving over what stands between tokens. -/
def settle (lexer : Lexer) : Except Break Lexer :=
  (lexer.skipBetween (lexer.cursor.rest.length + 1)).dropStale

/-- The second part of a step: ending collections and reading a token. -/
def advance (lexer : Lexer) : Except Break Lexer := do
  (← (lexer.dedentTo lexer.mark.column).readToken).dropStale

theorem step_eq (lexer : Lexer) : lexer.step = lexer.settle.bind advance := rfl

/-- The kinds of the tokens of a text. -/
def kindsOf (tokens : List Token) : List TokenKind :=
  tokens.map (·.kind)

/-- The tokens that a lexer which stands in front of a token has in the end. -/
def Yields (lexer : Lexer) (kinds : List TokenKind) : Prop :=
  ∀ fuel, lexer.cursor.rest.length ≤ fuel → ∃ next, lexer.advance = .ok next ∧
    kindsOf (if next.atEnd then next.tokens.reverse else run fuel next) = kinds

/-- Whether one token leads from one such place to another. -/
def Leads (lexer settled : Lexer) : Prop :=
  ∃ next, lexer.advance = .ok next ∧ next.atEnd = false ∧ next.settle = .ok settled ∧
    settled.cursor.rest.length < lexer.cursor.rest.length

variable {kinds : List TokenKind}

/-- Once settled, the lexer yields the tokens that the settled one yields. -/
theorem kindsOf_run {settled : Lexer} (settles : lexer.settle = .ok settled)
    (yields : settled.Yields kinds) (enough : settled.cursor.rest.length ≤ fuel) :
    kindsOf (run (fuel + 1) lexer) = kinds := by
  obtain ⟨next, advanced, same⟩ := yields fuel enough
  have step : lexer.step = .ok next := by
    rw [step_eq, settles]
    exact advanced
  rw [run, step]
  exact same

/-- A lexer that leads to another yields the same tokens. -/
theorem Leads.yields {settled : Lexer} (leads : lexer.Leads settled)
    (yields : settled.Yields kinds) : lexer.Yields kinds := by
  obtain ⟨next, advanced, goesOn, settles, less⟩ := leads
  intro fuel enough
  obtain ⟨fuel, rfl⟩ : ∃ less, fuel = less + 1 := ⟨fuel - 1, by omega⟩
  refine ⟨next, advanced, ?_⟩
  rw [goesOn]
  exact kindsOf_run settles yields (by omega)

/-! ### Between tokens -/

/-- Whether a text goes on with a token, or has ended. -/
def Opens (rest : List Char) : Prop :=
  ∀ c, rest.head? = some c → isSpace c = false ∧ isBreak c = false ∧ c ≠ '#' ∧ c.toNat ≠ 0xFEFF

theorem Opens.solid (opens : Opens rest) : IsSolid rest := fun c first =>
  ⟨(opens c first).1, (opens c first).2.1⟩

theorem skipOrderMark_of_ne (other : ∀ c, rest.head? = some c → c.toNat ≠ 0xFEFF) :
    skipOrderMark ⟨rest, mark⟩ = ⟨rest, mark⟩ := by
  have noMark : ((⟨rest, mark⟩ : Cursor).next?.any (·.toNat = 0xFEFF)) = false := by
    cases rest with
    | nil => rfl
    | cons c rest => simpa [next?] using other c rfl
  simp [skipOrderMark, noMark]

/-- Between tokens the lexer skips the spaces up to a text that opens one. -/
theorem skipBetween_spaces {count : Nat} (opens : Opens rest)
    (place : lexer.cursor = ⟨spaces count ++ rest, mark⟩) :
    lexer.skipBetween (fuel + 1) = { lexer with cursor := ⟨rest, mark.along count⟩ } := by
  have noMark : skipOrderMark ⟨spaces count ++ rest, mark⟩ = ⟨spaces count ++ rest, mark⟩ := by
    refine skipOrderMark_of_ne fun c first => ?_
    cases count with
    | zero => exact (opens c first).2.2.2
    | succ count =>
        obtain rfl := Option.some.inj first
        decide
  have taken (tabs : Bool) : takeWhile (fun c => c = ' ' || (tabs && c = '\t'))
      ⟨spaces count ++ rest, mark⟩ = (spaces count, ⟨rest, mark.along count⟩) := by
    have stops : rest.head?.any (fun c => c = ' ' || (tabs && c = '\t')) = false := by
      cases rest with
      | nil => rfl
      | cons c rest =>
          have blank := (opens c rfl).1
          simp only [isSpace, Bool.or_eq_false_iff, decide_eq_false_iff_not] at blank
          simp [blank.1, blank.2]
    rw [takeWhile_append (fun c member => ?_) stops, length_spaces]
    rw [List.eq_of_mem_replicate member]
    rfl
  have noComment : skipComment ⟨rest, mark.along count⟩ = ⟨rest, mark.along count⟩ := by
    refine if_neg fun first => ?_
    exact (opens '#' first).2.2.1 rfl
  have noBreak : (⟨rest, mark.along count⟩ : Cursor).next?.any isBreak = false := by
    cases rest with
    | nil => rfl
    | cons c rest => exact (opens c rfl).2.1
  rw [skipBetween]
  simp only [place, noMark, taken, noComment, noBreak, Bool.false_eq_true, if_false]

/-- Between tokens the lexer skips a line end and the spaces of the next line. -/
theorem skipBetween_line {count : Nat} (opens : Opens rest) (block : lexer.outerPlaces = [])
    (place : lexer.cursor = ⟨'\n' :: (spaces count ++ rest), mark⟩) :
    lexer.skipBetween (fuel + 2) =
      { lexer with cursor := ⟨rest, mark.newLine.along count⟩, keyAllowed := true } := by
  have taken (tabs : Bool) : takeWhile (fun c => c = ' ' || (tabs && c = '\t'))
      ⟨'\n' :: (spaces count ++ rest), mark⟩ = ([], ⟨'\n' :: (spaces count ++ rest), mark⟩) := by
    cases tabs <;> rfl
  have noMark : skipOrderMark ⟨'\n' :: (spaces count ++ rest), mark⟩ =
      ⟨'\n' :: (spaces count ++ rest), mark⟩ :=
    skipOrderMark_of_ne fun c first => by
      obtain rfl := Option.some.inj first
      decide
  have noComment : skipComment ⟨'\n' :: (spaces count ++ rest), mark⟩ =
      ⟨'\n' :: (spaces count ++ rest), mark⟩ := rfl
  rw [skipBetween]
  simp only [place, noMark, taken, noComment, next?, List.head?_cons, Option.any_some,
    show isBreak '\n' = true from rfl, if_true]
  rw [skipBreak_cons rfl rfl, skipBetween_spaces opens rfl]
  simp [inFlow, block]

/-! ### Places of keys -/

/-- Whether no line depends on the key that may have started at a place. -/
def IsIdle (place : Option KeyPlace) : Prop :=
  ∀ p, place = some p → p.required = false

theorem isIdle_none : IsIdle none := by
  intro p same
  cases same

/-- In block context the only place that may be stale is the lexer's own. -/
theorem dropStale_block (block : lexer.outerPlaces = []) :
    lexer.dropStale = (lexer.checkPlace lexer.place).map fun place => { lexer with place } := by
  obtain ⟨cursor, tokens, indent, outer, place, outerPlaces, keyAllowed⟩ := lexer
  obtain rfl : outerPlaces = [] := block
  rw [dropStale]
  cases checkPlace _ place <;> rfl

/-- A place that no line depends on is kept or forgotten. -/
theorem dropStale_idle (block : lexer.outerPlaces = []) (idle : IsIdle lexer.place) :
    ∃ place, lexer.dropStale = .ok { lexer with place } ∧
      ∀ p, place = some p → lexer.place = some p ∧ lexer.mark.line ≤ p.mark.line := by
  rw [dropStale_block block]
  cases found : lexer.place with
  | none => exact ⟨none, rfl, fun p same => by cases same⟩
  | some place =>
      cases stale : lexer.isStale place with
      | true =>
          refine ⟨none, ?_, fun p same => by cases same⟩
          rw [checkPlace, stale, idle place found]
          rfl
      | false =>
          refine ⟨some place, ?_, fun p same => ⟨same, ?_⟩⟩
          · rw [checkPlace, stale]
            rfl
          · obtain rfl := Option.some.inj same
            simp only [isStale, Bool.or_eq_false_iff, decide_eq_false_iff_not] at stale
            omega

/-- On a later line no place is left. -/
theorem dropStale_later (block : lexer.outerPlaces = []) (idle : IsIdle lexer.place)
    (later : ∀ p, lexer.place = some p → p.mark.line < lexer.mark.line) :
    lexer.dropStale = .ok { lexer with place := none } := by
  obtain ⟨place, dropped, kept⟩ := dropStale_idle block idle
  cases place with
  | none => exact dropped
  | some p =>
      obtain ⟨found, line⟩ := kept p rfl
      exact absurd (later p found) (Nat.not_lt.2 line)

/-- Without a place for a key there is none to drop. -/
theorem dropStale_none (block : lexer.outerPlaces = []) (none : lexer.place = none) :
    lexer.dropStale = .ok lexer := by
  rw [dropStale_block block, none]
  obtain ⟨cursor, tokens, indent, outer, place, outerPlaces, keyAllowed⟩ := lexer
  obtain rfl : place = .none := none
  rfl

/-- Saving a place inside a line keeps at most an idle place, at the lexer's own mark. -/
theorem savePlace_idle (none : lexer.place = none) (inner : lexer.indent ≠ lexer.mark.column) :
    ∃ place, lexer.savePlace = .ok { lexer with place } ∧ IsIdle place ∧
      ∀ p, place = some p → p.mark = lexer.mark := by
  rw [savePlace]
  split
  case isTrue allowed =>
      have dropped : lexer.dropPlace = .ok lexer := by rw [dropPlace, none]
      refine ⟨_, by rw [dropped]; rfl, ?_, ?_⟩
      · intro p same
        obtain rfl := Option.some.inj same
        simp [inner]
      · intro p same
        obtain rfl := Option.some.inj same
        rfl
  case isFalse =>
      refine ⟨lexer.place, rfl, none ▸ isIdle_none, fun p same => ?_⟩
      rw [none] at same
      cases same

/-! ### In front of a token -/

/-- What a lexer is in front of, and what it has read. The indentations of the collections around are
given from the inside out. -/
structure Stands (lexer : Lexer) (rest : List Char) (column : Nat) (keyAllowed : Bool)
    (indents : List Int) (kinds : List TokenKind) : Prop where
  rest_eq : lexer.cursor.rest = rest
  column_eq : lexer.mark.column = column
  keyAllowed_eq : lexer.keyAllowed = keyAllowed
  indents_eq : lexer.indent :: lexer.outer = indents
  kinds_eq : kindsOf lexer.tokens.reverse = kinds
  noPlace : lexer.place = none
  block : lexer.outerPlaces = []

/-- The lexer settles behind spaces, in the same line. -/
theorem settle_spaces {count : Nat} (opens : Opens rest) (block : lexer.outerPlaces = [])
    (none : lexer.place = none) (place : lexer.cursor = ⟨spaces count ++ rest, mark⟩) :
    lexer.settle = .ok { lexer with cursor := ⟨rest, mark.along count⟩ } := by
  rw [settle, skipBetween_spaces opens place]
  exact dropStale_none block none

/-- The lexer settles behind a line end, at the text of the next line. -/
theorem settle_line {count : Nat} (opens : Opens rest) (block : lexer.outerPlaces = [])
    (idle : IsIdle lexer.place) (before : ∀ p, lexer.place = some p → p.mark.line ≤ mark.line)
    (place : lexer.cursor = ⟨'\n' :: (spaces count ++ rest), mark⟩) :
    lexer.settle = .ok { lexer with
      cursor := ⟨rest, mark.newLine.along count⟩, keyAllowed := true, place := none } := by
  have length : lexer.cursor.rest.length + 1 = (spaces count ++ rest).length + 2 := by
    rw [place]
    rfl
  rw [settle, length, skipBetween_line opens block place, dropStale_later]
  · exact block
  · exact idle
  · intro p same
    exact Nat.lt_succ_of_le (before p same)

/-- A column that is not left of the indentation closes no block. -/
theorem dedentTo_of_le {column : Int} (inner : lexer.indent ≤ column) :
    lexer.dedentTo column = lexer := by
  rw [dedentTo]
  split
  · rfl
  · cases lexer.outer with
    | nil => rfl
    | cons next outer => exact if_neg (Int.not_lt.2 inner)

/-- Where a scalar that is not a key may leave the cursor: at the end of its line, or on a later line, in
front of what comes next. -/
inductive LeavesLine (line : Nat) (rest : List Char) (column : Nat) : Cursor → Bool → Prop where
  | ahead {mark : Mark} {keyAllowed : Bool} (line_le : line ≤ mark.line) :
      LeavesLine line rest column ⟨'\n' :: (spaces column ++ rest), mark⟩ keyAllowed
  | reached {mark : Mark} (line_lt : line < mark.line) (column_eq : mark.column = column) :
      LeavesLine line rest column ⟨rest, mark⟩ true

variable {text : List Char} {column next : Nat} {keyAllowed : Bool} {indents : List Int}

theorem kindsOf_push (kind : TokenKind) (start stop : Mark) (tokens : List Token) :
    kindsOf (⟨kind, start, stop⟩ :: tokens).reverse = kindsOf tokens.reverse ++ [kind] := by
  simp [kindsOf]

theorem atEnd_cons {token : Token} {tokens : List Token} (read : lexer.tokens = token :: tokens)
    (notEnd : token.kind ≠ .endOfText) : lexer.atEnd = false := by
  rw [atEnd, read]
  split
  case h_1 same =>
      obtain ⟨rfl, -⟩ := List.cons.inj same
      exact absurd rfl notEnd
  case h_2 => rfl

/-- A scalar that is not a key, and the way to the next line. -/
theorem Stands.leads_scalar (stands : lexer.Stands text column keyAllowed indents kinds)
    (inner : lexer.indent ≤ column) {kind : TokenKind} (notEnd : kind ≠ .endOfText) {start stop : Mark}
    {cursor : Cursor} {allowed : Bool} {place : Option KeyPlace}
    (read : lexer.readToken = .ok { lexer.push kind start stop with
      cursor := cursor, keyAllowed := allowed, place := place })
    (idle : IsIdle place) (here : ∀ p, place = some p → p.mark = lexer.mark)
    (leaves : LeavesLine lexer.mark.line rest next cursor allowed) (opens : Opens rest)
    (shorter : rest.length < text.length) :
    ∃ settled, lexer.Leads settled ∧ settled.Stands rest next true indents (kinds ++ [kind]) := by
  obtain ⟨place', dropped, kept⟩ := @dropStale_idle { lexer.push kind start stop with
    cursor := cursor, keyAllowed := allowed, place := place } stands.block idle
  have advanced : lexer.advance = .ok { lexer.push kind start stop with
      cursor := cursor, keyAllowed := allowed, place := place' } := by
    rw [advance, stands.column_eq, dedentTo_of_le inner, read]
    exact dropped
  have length : rest.length < lexer.cursor.rest.length := by rwa [stands.rest_eq]
  have kinds' : kindsOf (⟨kind, start, stop⟩ :: lexer.tokens).reverse = kinds ++ [kind] := by
    rw [kindsOf_push, stands.kinds_eq]
  cases leaves with
  | @ahead mark _ line_le =>
      have settles := @settle_line { lexer.push kind start stop with
          cursor := ⟨'\n' :: (spaces next ++ rest), mark⟩, keyAllowed := allowed, place := place' }
        rest mark next opens stands.block (fun p same => idle p (kept p same).1)
        (fun p same => (here p (kept p same).1) ▸ line_le) rfl
      exact ⟨_, ⟨_, advanced, atEnd_cons rfl notEnd, settles, length⟩, rfl, Nat.zero_add next, rfl,
        stands.indents_eq, kinds', rfl, stands.block⟩
  | @reached mark line_lt column_eq =>
      have gone : place' = none := by
        cases place' with
        | none => rfl
        | some p =>
            obtain ⟨same, line⟩ := kept p rfl
            exact absurd line_lt (Nat.not_lt.2 (here p same ▸ line))
      subst gone
      have settles := @settle_spaces { lexer.push kind start stop with
          cursor := ⟨rest, mark⟩, keyAllowed := true, place := none } rest mark 0 opens stands.block rfl rfl
      exact ⟨_, ⟨_, advanced, atEnd_cons rfl notEnd, settles, length⟩, rfl, column_eq, rfl,
        stands.indents_eq, kinds', rfl, stands.block⟩

/-! ### Which token comes next -/

/-- The first character of a plain scalar is none of those that start another token. -/
theorem not_indicator {c : Char} {text : List Char} (starts : startsAsIndicator (c :: text) = false) :
    c ∉ ['#', ',', '[', ']', '&', '*', '!', '|', '>', '\'', '"', '%', '@'] ∧
      c.toNat ≠ 123 ∧ c.toNat ≠ 125 ∧ c.toNat ≠ 96 ∧
      (c = '?' ∨ c = ':' ∨ c = '-' → blankOrEnd text = false) := by
  have general : ("#,[]&*!|>'\"%@".toList.contains c || c.toNat = 123 || c.toNat = 125 ||
      c.toNat = 96 || ((c = '?' || c = ':' || c = '-') && blankOrEnd text)) = false := by
    unfold startsAsIndicator at starts
    split at starts
    case h_1 => cases starts
    case h_2 => cases starts
    case h_3 same =>
        obtain ⟨rfl, rfl⟩ := List.cons.inj same
        exact starts
    case h_4 same => cases same
  have letters : "#,[]&*!|>'\"%@".toList =
      ['#', ',', '[', ']', '&', '*', '!', '|', '>', '\'', '"', '%', '@'] := rfl
  rw [letters] at general
  simp only [Bool.or_eq_false_iff, Bool.and_eq_false_iff, decide_eq_false_iff_not] at general
  obtain ⟨⟨⟨⟨mark, brace⟩, brace'⟩, tick⟩, dash⟩ := general
  refine ⟨by simpa using mark, brace, brace', tick, fun same => dash.resolve_left fun other => ?_⟩
  rcases same with rfl | rfl | rfl <;> simp at other

theorem blankOrEnd_append {text after : List Char} (goesOn : blankOrEnd text = false) :
    blankOrEnd (text ++ after) = false := by
  cases text with
  | nil => cases goesOn
  | cons c text => exact goesOn

variable {after : List Char} {cursor : Cursor} {endsLine : Bool} {indent : Int}

/-- A text starts a plain scalar if it starts as no indicator and its first character goes on. -/
theorem startsPlain_of_marks {c : Char} {text rest : List Char}
    (starts : startsAsIndicator (c :: text) = false) (blank : isSpace c = false)
    (lineEnd : isBreak c = false) (goesOn : c = '?' ∨ c = ':' ∨ c = '-' → blankOrEnd rest = false) :
    startsPlain false c rest = true := by
  obtain ⟨marks, brace, brace', tick, -⟩ := not_indicator starts
  have letters : "-?:,[]#&*!|>'\"%@".toList =
      ['-', '?', ':', ',', '[', ']', '#', '&', '*', '!', '|', '>', '\'', '"', '%', '@'] := rfl
  rw [startsPlain, letters]
  by_cases sign : c = '?' ∨ c = ':' ∨ c = '-'
  · have next := goesOn sign
    cases rest with
    | nil => cases next
    | cons d rest =>
        simp only [blankOrEnd, Bool.or_eq_false_iff] at next
        rcases sign with rfl | rfl | rfl <;> simp [blankOrEnd, next.1, next.2]
  · simp only [not_or] at sign
    simp only [List.mem_cons, List.not_mem_nil, or_false, not_or] at marks
    simp [blank, lineEnd, brace, brace', tick, sign, marks]

/-- At a plain text the lexer reads a plain scalar. -/
theorem readToken_plain (block : lexer.outerPlaces = []) (plain : IsPlain text) {place : Mark}
    (ends : PlainEnd indent after place cursor endsLine) (found : lexer.cursor = ⟨text ++ after, mark⟩) :
    lexer.readToken = lexer.readPlain := by
  have apart := plain.apart mark ends
  have starts := plain.starts
  have inline := plain.inline
  cases text with
  | nil => exact absurd rfl plain.filled
  | cons c text =>
      obtain ⟨marks, brace, brace', tick, dash⟩ := not_indicator starts
      simp only [List.mem_cons, List.not_mem_nil, or_false, not_or] at marks
      obtain ⟨-, comma, opening, closing, anchor, star, tag, literal, folded, single, double,
        percent, -⟩ := marks
      obtain ⟨printable, lineEnd⟩ := inline c List.mem_cons_self
      have blank : isSpace c = false := by
        cases blank : isSpace c with
        | false => rfl
        | true =>
            exact absurd (eq_space_of_isSpace printable blank) (by simpa using plain.first)
      have flow : lexer.inFlow = false := by simp [inFlow, block]
      have goesOn (same : c = '?' ∨ c = ':' ∨ c = '-') : blankOrEnd (text ++ after) = false :=
        blankOrEnd_append (dash same)
      have isPlain : startsPlain false c (text ++ after) = true :=
        startsPlain_of_marks starts blank lineEnd goesOn
      have notEntry : (decide (c = '-') && blankOrEnd (text ++ after)) = false := by
        by_cases same : c = '-'
        · simp [goesOn (.inr (.inr same))]
        · simp [same]
      have notKey : (decide (c = '?') && blankOrEnd (text ++ after)) = false := by
        by_cases same : c = '?'
        · simp [goesOn (.inl same)]
        · simp [same]
      have notValue : (decide (c = ':') && blankOrEnd (text ++ after)) = false := by
        by_cases same : c = ':'
        · simp [goesOn (.inr (.inl same))]
        · simp [same]
      rw [readToken, found]
      simp only [List.cons_append] at apart ⊢
      simp only [percent, apart, opening, brace, closing, brace', comma, notEntry, notKey, notValue, star,
        anchor, tag, literal, folded, single, double, flow, isPlain, decide_false, Bool.and_false,
        Bool.false_and, Bool.false_or, Bool.false_eq_true, if_false, if_true]

theorem readToken_single (found : lexer.cursor.rest = '\'' :: rest) :
    lexer.readToken = lexer.readQuoted false := by
  simp [readToken, found, atDocumentMarker, blankOrEnd]

theorem readToken_double (found : lexer.cursor.rest = '"' :: rest) :
    lexer.readToken = lexer.readQuoted true := by
  simp [readToken, found, atDocumentMarker, blankOrEnd]

theorem readToken_literal (block : lexer.outerPlaces = []) (found : lexer.cursor.rest = '|' :: rest) :
    lexer.readToken = lexer.readBlockScalar true := by
  simp [readToken, found, atDocumentMarker, blankOrEnd, inFlow, block]

/-! ### Written scalars -/

/-- How a text is written, and what may be relied on then. -/
inductive Styled (simpleKey : Bool) (text : String) : ScalarStyle → Prop where
  | plain (plain : IsPlain text.toList) (clear : isAmbiguous text = false) : Styled simpleKey text .plain
  | single (allowed : singleAllowed text.toList = true) (feed : '\n' ∉ text.toList) :
      Styled simpleKey text .singleQuoted
  | double : Styled simpleKey text .doubleQuoted
  | literal (allowed : blockAllowed text.toList = true) (value : simpleKey = false) :
      Styled simpleKey text .literal

/-- The style that the emitter chooses for a text is one the text can be written in. -/
theorem styled_styleOf (simpleKey : Bool) (text : String) :
    Styled simpleKey text (styleOf simpleKey text) := by
  rw [styleOf]
  split
  · exact .double
  · split
    case isTrue =>
        split
        case isTrue allowed =>
            simp only [Bool.and_eq_true, Bool.not_eq_true'] at allowed
            exact .literal allowed.1 allowed.2
        case isFalse => exact .double
    case isFalse feed =>
        have feed : '\n' ∉ text.toList := by simpa using feed
        split
        case isTrue allowed =>
            simp only [Bool.and_eq_true, Bool.not_eq_true'] at allowed
            refine .plain (isPlain_of_plainAllowed allowed.2 ?_) allowed.1
            intro empty
            obtain rfl : text = "" := String.toList_inj.1 empty
            exact absurd allowed.1 (by simp [isAmbiguous, Plain.ofText])
        case isFalse =>
            split
            case isTrue allowed => exact .single allowed feed
            case isFalse => exact .double

/-- What reading a scalar that is not a key comes to: its token, and the way to what comes next. -/
def ReadsLine (lexer : Lexer) (kind : TokenKind) (rest : List Char) (next : Nat) : Prop :=
  ∃ start stop cursor allowed place, lexer.readToken = .ok { lexer.push kind start stop with
      cursor := cursor, keyAllowed := allowed, place := place } ∧
    IsIdle place ∧ (∀ p, place = some p → p.mark = lexer.mark) ∧
    LeavesLine lexer.mark.line rest next cursor allowed

/-- Reading a plain scalar pushes its text, at the place saved in front of it. -/
theorem readPlain_eq {place : Option KeyPlace} {scalar : PlainScalar}
    (saved : lexer.savePlace = .ok { lexer with place })
    (taken : takePlainScalar lexer.inFlow (lexer.indent + 1) lexer.cursor = .ok scalar) :
    lexer.readPlain = .ok
      { lexer.push (.scalar .plain (String.ofList scalar.text)) lexer.mark scalar.cursor.mark with
        cursor := scalar.cursor, keyAllowed := scalar.endsLine, place := place } := by
  rw [readPlain, saved]
  simp only [bind, Except.bind]
  rw [show takePlainScalar (inFlow { lexer with place := place }) (lexer.indent + 1) lexer.cursor =
    .ok scalar from taken]
  rfl

/-- Reading a quoted scalar pushes its text, at the place saved in front of it. -/
theorem readQuoted_eq {double : Bool} {place : Option KeyPlace} {text : List Char} {cursor : Cursor}
    (saved : lexer.savePlace = .ok { lexer with place })
    (taken : takeQuotedScalar double lexer.cursor = .ok (text, cursor)) :
    lexer.readQuoted double = .ok
      { lexer.push (.scalar (if double then .doubleQuoted else .singleQuoted) (String.ofList text))
          lexer.mark cursor.mark with
        cursor := cursor, keyAllowed := false, place := place } := by
  rw [readQuoted, saved]
  simp only [bind, Except.bind]
  rw [taken]
  rfl

/-- Reading a block scalar pushes its text and leaves no place for a key. -/
theorem readBlockScalar_eq {literal : Bool} {text : List Char} {cursor : Cursor}
    (noPlace : lexer.place = none)
    (taken : takeBlockScalar literal lexer.indent lexer.cursor = .ok (text, cursor)) :
    lexer.readBlockScalar literal = .ok
      { lexer.push (.scalar (if literal then .literal else .folded) (String.ofList text)) lexer.mark
          cursor.mark with
        cursor := cursor, keyAllowed := true, place := none } := by
  have dropped : lexer.dropPlace = .ok lexer := by rw [dropPlace, noPlace]
  rw [readBlockScalar, dropped]
  simp only [bind, Except.bind]
  rw [taken, ← noPlace]
  rfl

/-- An inline text has its line ended by one line feed. -/
theorem endLine_inline {text : List Char} (inline : IsInline text) : endLine text = text ++ ['\n'] := by
  refine if_neg fun ended => ?_
  cases final : text.getLast? with
  | none => rw [final] at ended; cases ended
  | some c =>
      rw [final] at ended
      exact absurd ended (by rw [Option.any_some, (inline c (List.mem_of_getLast? final)).2]; decide)

/-- A text in single quotes has its line ended by one line feed. -/
theorem endLine_singleQuotedChars (indent : Nat) (text : List Char) :
    endLine (singleQuotedChars indent text) = singleQuotedChars indent text ++ ['\n'] := by
  rw [singleQuotedChars_eq, ← List.cons_append, endLine_append _ (by decide)]
  rw [List.append_assoc]
  rfl

/-- A plain scalar that is not a key, up to the next line. -/
theorem readsLine_plain {value : String} {indent : Nat} (block : lexer.outerPlaces = [])
    (noPlace : lexer.place = none) (here : lexer.indent = indent)
    (inner : indent < lexer.mark.column) (outside : next ≤ indent) (opens : Opens rest)
    (plain : IsPlain value.toList)
    (found : lexer.cursor.rest = value.toList ++ '\n' :: (spaces next ++ rest)) :
    lexer.ReadsLine (.scalar .plain value) rest next := by
  obtain ⟨place, saved, idle, before⟩ := savePlace_idle noPlace (by omega)
  have flow : lexer.inFlow = false := by simp [inFlow, block]
  have whole : lexer.cursor = ⟨lexer.cursor.rest, lexer.mark⟩ := rfl
  have ends : PlainEnd ((indent : Int) + 1) ('\n' :: (spaces next ++ rest))
      (lexer.mark.along value.toList.length) _ _ := .line opens.solid (by omega)
  have taken := takePlainScalar_text plain lexer.mark (by omega) ends
  rw [found] at whole
  have read := readPlain_eq saved (by rw [flow, here, whole]; exact taken)
  rw [String.ofList_toList, ← readToken_plain block plain ends whole] at read
  exact ⟨_, _, _, _, place, read, idle, before, .reached (Nat.lt_succ_self _) (Nat.zero_add _)⟩

/-- A quoted scalar that is not a key, up to the end of its last line. -/
theorem readsLine_quoted {double : Bool} {value : String} {quoted : List Char}
    (noPlace : lexer.place = none) (inner : lexer.indent ≠ lexer.mark.column)
    (found : lexer.cursor.rest = quoted ++ '\n' :: (spaces next ++ rest))
    (taken : takeQuotedScalar double ⟨quoted ++ '\n' :: (spaces next ++ rest), lexer.mark⟩ =
      .ok (value.toList, ⟨'\n' :: (spaces next ++ rest), lexer.mark.past quoted⟩))
    (token : lexer.readToken = lexer.readQuoted double) :
    lexer.ReadsLine (.scalar (if double then .doubleQuoted else .singleQuoted) value) rest next := by
  obtain ⟨place, saved, idle, before⟩ := savePlace_idle noPlace inner
  have whole : lexer.cursor = ⟨lexer.cursor.rest, lexer.mark⟩ := rfl
  rw [found] at whole
  have read := readQuoted_eq saved (by rw [whole]; exact taken)
  rw [String.ofList_toList, ← token] at read
  exact ⟨_, _, _, _, place, read, idle, before, .ahead (Mark.line_le_past _ _)⟩

/-- A block scalar, up to the line behind its last one. -/
theorem readsLine_block {value : String} {indent : Nat} (block : lexer.outerPlaces = [])
    (noPlace : lexer.place = none) (here : lexer.indent = indent) (outside : next ≤ indent)
    (opens : Opens rest) (allowed : blockAllowed value.toList = true)
    (found : lexer.cursor.rest =
      endLine (blockChars (indent + 2) value.toList) ++ (spaces next ++ rest)) :
    lexer.ReadsLine (.scalar .literal value) rest next := by
  have whole : lexer.cursor = ⟨lexer.cursor.rest, lexer.mark⟩ := rfl
  have taken := @takeBlockScalar_blockChars indent next rest value.toList lexer.mark allowed
    (by omega) opens.solid
  rw [found] at whole
  have filled : value.toList ≠ [] := by
    intro empty
    rw [empty] at allowed
    cases allowed
  have read := readBlockScalar_eq noPlace (by rw [here, whole]; exact taken)
  have bar := found
  rw [endLine_blockChars filled, List.cons_append] at bar
  rw [String.ofList_toList, ← readToken_literal block bar] at read
  have ended := getLast?_endLine (blockChars (indent + 2) value.toList)
  have later :
      lexer.mark.line < (lexer.mark.past (endLine (blockChars (indent + 2) value.toList))).line := by
    refine Mark.line_lt_past ?_ _
    rw [endLine_blockChars filled]
    exact ⟨'\n', by simp, rfl⟩
  have start : ((lexer.mark.past (endLine (blockChars (indent + 2) value.toList))).along next).column =
      next := by
    rw [Mark.column_along, Mark.column_past ended, Nat.zero_add]
  refine ⟨_, _, _, _, none, read, isIdle_none, ?_, .reached later start⟩
  intro p same
  cases same

/-- A text that is not a key, on lines of its own, up to the next line. -/
theorem readsLine_text {value : String} {indent : Nat} (block : lexer.outerPlaces = [])
    (noPlace : lexer.place = none) (here : lexer.indent = indent)
    (inner : indent < lexer.mark.column) (outside : next ≤ indent) (opens : Opens rest)
    (found : lexer.cursor.rest =
      endLine (scalarChars (indent + 2) false value) ++ (spaces next ++ rest)) :
    lexer.ReadsLine (.scalar (styleOf false value) value) rest next := by
  rw [scalarChars] at found
  have styled := styled_styleOf false value
  generalize styleOf false value = style at styled found ⊢
  have apart : lexer.indent ≠ lexer.mark.column := by omega
  cases styled with
  | plain plain clear =>
      dsimp only at found
      rw [endLine_inline plain.inline, List.append_assoc, List.singleton_append] at found
      exact readsLine_plain block noPlace here inner outside opens plain found
  | single allowed feed =>
      dsimp only at found
      rw [endLine_singleQuotedChars, List.append_assoc, List.singleton_append] at found
      exact @readsLine_quoted _ _ _ false _ _ noPlace apart found
        (takeQuotedScalar_single (Nat.succ_pos _) allowed feed (by simp))
        (readToken_single (by rw [found]; rfl))
  | double =>
      dsimp only at found
      rw [endLine_inline (isInline_doubleQuotedChars _), List.append_assoc, List.singleton_append]
        at found
      exact @readsLine_quoted _ _ _ true _ _ noPlace apart found
        (takeQuotedScalar_double value.toList _ lexer.mark) (readToken_double (by rw [found]; rfl))
  | literal allowed => exact readsLine_block block noPlace here outside opens allowed found

/-- A lexer that stands in front of one line of a single token stands in front of the next behind it. -/
theorem Stands.leads_line {kind : TokenKind} (stands : lexer.Stands text column keyAllowed indents kinds)
    (inner : lexer.indent ≤ column) (notEnd : kind ≠ .endOfText) (reads : lexer.ReadsLine kind rest next)
    (opens : Opens rest) (shorter : rest.length < text.length) :
    ∃ settled, lexer.Leads settled ∧ settled.Stands rest next true indents (kinds ++ [kind]) := by
  obtain ⟨start, stop, cursor, allowed, place, read, idle, before, leaves⟩ := reads
  exact stands.leads_scalar inner notEnd read idle before leaves opens shorter

/-- A plain scalar that is not a key leads to the next line. -/
theorem Stands.leads_plain {value : String} {indent : Nat} {outer : List Int}
    (stands : lexer.Stands (value.toList ++ '\n' :: (spaces next ++ rest)) column keyAllowed
      (indent :: outer) kinds)
    (inner : indent < column) (outside : next ≤ indent) (opens : Opens rest)
    (plain : IsPlain value.toList) :
    ∃ settled, lexer.Leads settled ∧ settled.Stands rest next true (indent :: outer)
      (kinds ++ [.scalar .plain value]) := by
  obtain ⟨here, -⟩ := List.cons.inj stands.indents_eq
  have reads := readsLine_plain stands.block stands.noPlace here
    (by rwa [stands.column_eq]) outside opens plain stands.rest_eq
  exact stands.leads_line (by omega) (by simp) reads opens (by simp; omega)

/-- A text that is not a key leads to the next line. -/
theorem Stands.leads_text {value : String} {indent : Nat} {outer : List Int}
    (stands : lexer.Stands (endLine (scalarChars (indent + 2) false value) ++ (spaces next ++ rest))
      column keyAllowed (indent :: outer) kinds)
    (inner : indent < column) (outside : next ≤ indent) (opens : Opens rest) :
    ∃ settled, lexer.Leads settled ∧ settled.Stands rest next true (indent :: outer)
      (kinds ++ [.scalar (styleOf false value) value]) := by
  obtain ⟨here, -⟩ := List.cons.inj stands.indents_eq
  have reads := readsLine_text stands.block stands.noPlace here
    (by rwa [stands.column_eq]) outside opens stands.rest_eq
  have shorter : rest.length <
      (endLine (scalarChars (indent + 2) false value) ++ (spaces next ++ rest)).length := by
    have ended := getLast?_endLine (scalarChars (indent + 2) false value)
    cases written : endLine (scalarChars (indent + 2) false value) with
    | nil => rw [written] at ended; cases ended
    | cons c text => simp; omega
  exact stands.leads_line (by omega) (by simp) reads opens shorter

/-! ### Indicators -/

/-- A token behind which a blank, or nothing, stands in front of the next one. -/
theorem leads_of_read {next : Lexer} {count : Nat} (inner : lexer.indent ≤ lexer.mark.column)
    (read : lexer.readToken = .ok next) (noPlace : next.place = none) (block : next.outerPlaces = [])
    (found : next.cursor = ⟨spaces count ++ rest, mark⟩) (notEnd : next.atEnd = false)
    (opens : Opens rest) (shorter : rest.length < lexer.cursor.rest.length) :
    lexer.Leads { next with cursor := ⟨rest, mark.along count⟩ } := by
  refine ⟨next, ?_, notEnd, settle_spaces opens block noPlace found, shorter⟩
  rw [advance, dedentTo_of_le inner, read]
  exact dropStale_none block noPlace

theorem dropPlace_none (noPlace : lexer.place = none) : lexer.dropPlace = .ok lexer := by
  rw [dropPlace, noPlace]

theorem indentTo_same {column count : Nat} (same : lexer.indent = column) (kind : TokenKind)
    (mark : Mark) : lexer.indentTo column count kind mark = lexer := by
  simp [indentTo, same]

/-- A collection that starts where the lexer stands. -/
theorem Stands.indentTo_deeper {outer : List Int} {inner : Int}
    (stands : lexer.Stands text column keyAllowed (inner :: outer) kinds) (deeper : inner < column)
    (kind : TokenKind) :
    (lexer.indentTo lexer.mark.column lexer.tokens.length kind lexer.mark).Stands text column keyAllowed
      (column :: inner :: outer) (kinds ++ [kind]) := by
  obtain ⟨here, around⟩ := List.cons.inj stands.indents_eq
  have opened : lexer.indentTo lexer.mark.column lexer.tokens.length kind lexer.mark =
      { lexer.push kind lexer.mark lexer.mark with
        indent := lexer.mark.column, outer := lexer.indent :: lexer.outer } := by
    rw [stands.column_eq]
    simp [indentTo, inFlow, stands.block, here, deeper, insertAt, push]
  rw [opened]
  refine ⟨stands.rest_eq, stands.column_eq, stands.keyAllowed_eq, ?_, ?_, stands.noPlace, stands.block⟩
  · rw [here, around, stands.column_eq]
  · rw [← stands.kinds_eq]
    exact kindsOf_push _ _ _ _

/-- An indicator in front of a blank; `opened` is the lexer after it has started a collection for it. -/
theorem Stands.leads_indicator {opened : Lexer} {c : Char} {kind : TokenKind} {indents' : List Int}
    {kinds' : List TokenKind} (stands : lexer.Stands (c :: ' ' :: rest) column true indents kinds)
    (inner : lexer.indent ≤ column)
    (read : lexer.readToken = .ok { opened.pushIndicator kind 1 with keyAllowed := true })
    (starts : opened.Stands (c :: ' ' :: rest) column true indents' kinds')
    (notEnd : kind ≠ .endOfText) (opens : Opens rest) :
    ∃ settled, lexer.Leads settled ∧
      settled.Stands rest (column + 2) true indents' (kinds' ++ [kind]) := by
  have found : opened.cursor.skip 1 = ⟨spaces 1 ++ rest, opened.mark.along 1⟩ := by
    have whole : opened.cursor = ⟨opened.cursor.rest, opened.mark⟩ := rfl
    rw [whole, starts.rest_eq]
    rfl
  have leads := leads_of_read (by rwa [stands.column_eq]) read starts.noPlace starts.block found
    (atEnd_cons rfl notEnd) opens (by rw [stands.rest_eq, List.length_cons, List.length_cons]; omega)
  refine ⟨_, leads, rfl, ?_, rfl, starts.indents_eq, ?_, starts.noPlace, starts.block⟩
  · rw [← starts.column_eq]
    rfl
  · rw [← starts.kinds_eq]
    exact kindsOf_push _ _ _ _

theorem readToken_dash (found : lexer.cursor.rest = '-' :: ' ' :: rest) :
    lexer.readToken = lexer.readBlockEntry := by
  simp [readToken, found, atDocumentMarker, blankOrEnd, isSpace]

/-- Reading the start of an item opens the list, pushes the dash and allows a key behind it. -/
theorem readBlockEntry_eq (allowed : lexer.keyAllowed = true) {opened : Lexer}
    (starts : lexer.indentTo lexer.mark.column lexer.tokens.length .sequenceStart lexer.mark = opened)
    (noPlace : opened.place = none) :
    lexer.readBlockEntry = .ok { opened.pushIndicator .blockEntry 1 with keyAllowed := true } := by
  rw [readBlockEntry]
  simp only [allowed, Bool.not_true, Bool.and_false, Bool.false_eq_true, if_false, starts,
    dropPlace_none noPlace]
  rfl

/-- The dash of an item of the innermost list, or of one that may stand where a map does. -/
theorem Stands.leads_dash {outer : List Int}
    (stands : lexer.Stands ('-' :: ' ' :: rest) column true (column :: outer) kinds) (opens : Opens rest) :
    ∃ settled, lexer.Leads settled ∧
      settled.Stands rest (column + 2) true (column :: outer) (kinds ++ [.blockEntry]) := by
  obtain ⟨here, -⟩ := List.cons.inj stands.indents_eq
  have read := readBlockEntry_eq stands.keyAllowed_eq
    (by rw [stands.column_eq, indentTo_same here]) stands.noPlace
  rw [← readToken_dash stands.rest_eq] at read
  exact stands.leads_indicator (by omega) read stands (by simp) opens

/-- The dash of the first item of a list that is further in. -/
theorem Stands.leads_first_dash {inner : Int} {outer : List Int}
    (stands : lexer.Stands ('-' :: ' ' :: rest) column true (inner :: outer) kinds)
    (deeper : inner < column) (opens : Opens rest) :
    ∃ settled, lexer.Leads settled ∧ settled.Stands rest (column + 2) true (column :: inner :: outer)
      (kinds ++ [.sequenceStart] ++ [.blockEntry]) := by
  obtain ⟨here, -⟩ := List.cons.inj stands.indents_eq
  have starts := stands.indentTo_deeper deeper .sequenceStart
  have read := readBlockEntry_eq stands.keyAllowed_eq rfl starts.noPlace
  rw [← readToken_dash stands.rest_eq] at read
  exact stands.leads_indicator (by omega) read starts (by simp) opens

/-! ### Keys -/

/-- Whether a lexer stands in front of an entry of the map of a document, and the tokens that come before
its key. The map starts with the first entry. -/
inductive AtEntry (lexer : Lexer) (text : List Char) : List TokenKind → Prop where
  | first {kinds : List TokenKind} (stands : lexer.Stands text 0 true [-1] kinds) :
      AtEntry lexer text (kinds ++ [.mappingStart])
  | later {kinds : List TokenKind} (stands : lexer.Stands text 0 true [0, -1] kinds) :
      AtEntry lexer text kinds

/-- A lexer in front of an entry stands in front of its text, at the first column. -/
theorem AtEntry.exists_stands (atEntry : lexer.AtEntry text kinds) :
    ∃ indents kinds', lexer.Stands text 0 true indents kinds' ∧ lexer.indent ≤ 0 := by
  cases atEntry with
  | first stands => exact ⟨_, _, stands, by rw [(List.cons.inj stands.indents_eq).1]; decide⟩
  | later stands => exact ⟨_, _, stands, Int.le_of_eq (List.cons.inj stands.indents_eq).1⟩

/-- A lexer in front of an entry stands inside the map that the entry opens. -/
theorem AtEntry.opened (atEntry : lexer.AtEntry text kinds) :
    (lexer.indentTo lexer.mark.column lexer.tokens.length .mappingStart lexer.mark).Stands text 0 true
      [0, -1] kinds := by
  cases atEntry with
  | first stands => exact stands.indentTo_deeper (by decide) .mappingStart
  | later stands =>
      rwa [stands.column_eq, indentTo_same (List.cons.inj stands.indents_eq).1]

/-- The question mark in front of a key that is on lines of its own. -/
theorem AtEntry.leads_question (atEntry : lexer.AtEntry ('?' :: ' ' :: rest) kinds)
    (opens : Opens rest) :
    ∃ settled, lexer.Leads settled ∧ settled.Stands rest 2 true [0, -1] (kinds ++ [.key]) := by
  obtain ⟨indents, kinds', stands, inner⟩ := atEntry.exists_stands
  have starts := atEntry.opened
  have flow : lexer.inFlow = false := by simp [inFlow, stands.block]
  have flow' : inFlow (lexer.indentTo lexer.mark.column lexer.tokens.length .mappingStart lexer.mark) =
      false := by simp [inFlow, starts.block]
  have read : lexer.readToken = .ok
      { (lexer.indentTo lexer.mark.column lexer.tokens.length .mappingStart lexer.mark).pushIndicator
          .key 1 with keyAllowed := true } := by
    have dispatch : lexer.readToken = lexer.readKey := by
      simp [readToken, stands.rest_eq, atDocumentMarker, blankOrEnd, isSpace]
    rw [dispatch, readKey]
    simp only [stands.keyAllowed_eq, Bool.not_true, Bool.and_false, Bool.false_eq_true, if_false,
      dropPlace_none starts.noPlace, flow', Bool.not_false]
    rfl
  exact stands.leads_indicator inner read starts (by simp) opens

/-- The colon on a line of its own. -/
theorem Stands.leads_colon (stands : lexer.Stands (':' :: ' ' :: rest) 0 true [0, -1] kinds)
    (opens : Opens rest) :
    ∃ settled, lexer.Leads settled ∧ settled.Stands rest 2 true [0, -1] (kinds ++ [.value]) := by
  obtain ⟨here, -⟩ := List.cons.inj stands.indents_eq
  have flow : lexer.inFlow = false := by simp [inFlow, stands.block]
  have read : lexer.readToken = .ok { lexer.pushIndicator .value 1 with keyAllowed := true } := by
    have dispatch : lexer.readToken = lexer.readValue := by
      simp [readToken, stands.rest_eq, atDocumentMarker, blankOrEnd, isSpace]
    rw [dispatch, readValue, stands.noPlace]
    simp only [stands.keyAllowed_eq, Bool.not_true, Bool.and_false, Bool.false_eq_true, if_false,
      stands.column_eq, indentTo_same here, flow, Bool.not_false]
    rfl
  exact stands.leads_indicator (by omega) read stands (by simp) opens

end DocPress.Yaml.Lexer
