import DocPress.Proofs.Result
import DocPress.Proofs.Text
import DocPress.Proofs.Yaml.Token

/-!
Tokens of the keys and the values of written maps. A key that stands in front of its colon is known as one
only there; a list may start on the line behind its key, and is then not indented.
-/

namespace DocPress.Yaml

open Cursor Lexer

/-! ### Keys in front of their colons -/

/-- A character is written inline in single quotes. -/
theorem isInline_quoteChar {c : Char} (printable : isPrintable c = true) (lineEnd : isBreak c = false) :
    IsInline (quoteChar c) := by
  by_cases quote : c = '\''
  · subst quote
    decide
  · rw [quoteChar_of_ne quote]
    exact List.forall_mem_singleton.2 ⟨printable, lineEnd⟩

/-- A text of one line is on one line in single quotes. -/
theorem inline_quotedLines {text : List Char} (inline : IsInline text) (indent : Nat) :
    IsInline (quotedLines indent text) ∧ (quotedLines indent text).length ≤ 2 * text.length := by
  induction text with
  | nil => exact ⟨fun _ member => absurd member List.not_mem_nil, Nat.le_refl _⟩
  | cons c rest ih =>
      obtain ⟨here, behind⟩ := List.forall_mem_cons.1 inline
      obtain ⟨lines, length⟩ := ih behind
      have short : (quoteChar c).length ≤ 2 := by
        rw [quoteChar]
        split <;> simp
      rw [quotedLines_solid here.2]
      refine ⟨(isInline_quoteChar here.1 here.2).append lines, ?_⟩
      rw [List.length_append, List.length_cons]
      omega

theorem length_flatMap_escapeChar_le (text : List Char) :
    (text.flatMap escapeChar).length ≤ 6 * text.length := by
  induction text with
  | nil => exact Nat.le_refl _
  | cons c rest ih =>
      have here := length_escapeChar_le c
      rw [List.flatMap_cons, List.length_append, List.length_cons]
      omega

/-- A key that may stand in front of its colon is on one line, and not too long for it. -/
theorem inline_key {key : String} (simple : isSimpleKey key = true) :
    IsInline (scalarChars 2 true key) ∧ (scalarChars 2 true key).length ≤ 1024 := by
  simp only [isSimpleKey, Bool.and_eq_true, Bool.not_eq_true', List.any_eq_false,
    decide_eq_true_eq] at simple
  obtain ⟨lineEnd, size⟩ := simple
  have short : key.toList.length ≤ 128 := Nat.le_trans (Text.length_le_utf8ByteSize key) size
  have styled := styled_styleOf true key
  rw [scalarChars]
  generalize styleOf true key = style at styled ⊢
  cases styled with
  | plain plain clear => exact ⟨plain.inline, Nat.le_trans short (by decide)⟩
  | single allowed feed =>
      simp only [singleAllowed, Bool.and_eq_true, List.all_eq_true] at allowed
      have inline : IsInline key.toList := fun c member =>
        ⟨allowed.1 c member, by simpa using lineEnd c member⟩
      obtain ⟨lines, length⟩ := inline_quotedLines inline 2
      have quote : IsInline ['\''] := by decide
      dsimp only
      rw [singleQuotedChars_eq]
      refine ⟨quote.append (lines.append quote), ?_⟩
      rw [List.length_cons, List.length_append, List.length_singleton]
      omega
  | double =>
      have length := length_flatMap_escapeChar_le key.toList
      refine ⟨isInline_doubleQuotedChars _, ?_⟩
      dsimp only
      rw [doubleQuotedChars, List.length_append, List.length_cons, List.length_singleton]
      omega
  | literal allowed value => cases value

theorem scalarChars_ne_nil (indent : Nat) (simpleKey : Bool) (text : String) :
    scalarChars indent simpleKey text ≠ [] := by
  have styled := styled_styleOf simpleKey text
  rw [scalarChars]
  generalize styleOf simpleKey text = style at styled ⊢
  cases styled with
  | plain plain clear => exact plain.filled
  | single | double | literal => exact List.cons_ne_nil _ _

theorem Lexer.Opens.append {text : List Char} (opens : Opens text) (filled : text ≠ [])
    (rest : List Char) : Opens (text ++ rest) := by
  cases text with
  | nil => exact absurd rfl filled
  | cons c text => exact opens

/-- What a scalar is written as starts a token. -/
theorem opens_scalarChars (indent : Nat) (simpleKey : Bool) (text : String) (rest : List Char) :
    Opens (scalarChars indent simpleKey text ++ rest) := by
  refine Opens.append ?_ (scalarChars_ne_nil indent simpleKey text) rest
  have mark {c : Char} {text : List Char} (sign : c = '"' ∨ c = '\'' ∨ c = '|') : Opens (c :: text) := by
    intro d first
    obtain rfl := Option.some.inj first
    rcases sign with rfl | rfl | rfl <;> decide
  have styled := styled_styleOf simpleKey text
  rw [scalarChars]
  generalize styleOf simpleKey text = style at styled ⊢
  cases styled with
  | plain plain clear =>
      intro c first
      obtain ⟨printable, lineEnd⟩ := plain.inline c (List.mem_of_mem_head? first)
      refine ⟨?_, lineEnd, ?_, ?_⟩
      · cases blank : isSpace c with
        | false => rfl
        | true =>
            obtain rfl := eq_space_of_isSpace printable blank
            exact absurd first plain.first
      · rintro rfl
        exact plain.number first
      · intro same
        simp [isPrintable, same] at printable
  | single => exact mark (.inr (.inl rfl))
  | double => exact mark (.inl rfl)
  | literal => exact mark (.inr (.inr rfl))

/-- What opens a token still does with its line ended. -/
theorem opens_endLine {text : List Char} (opens : Opens text) (filled : text ≠ []) (rest : List Char) :
    Opens (endLine text ++ rest) := by
  rw [endLine]
  split
  · exact opens.append filled rest
  · rw [List.append_assoc]
    exact opens.append filled _

/-- A scalar with its line ended opens a token. -/
theorem opens_endLine_scalarChars (indent : Nat) (simpleKey : Bool) (text : String)
    (rest : List Char) : Opens (endLine (scalarChars indent simpleKey text) ++ rest) := by
  refine opens_endLine ?_ (scalarChars_ne_nil indent simpleKey text) rest
  rw [← List.append_nil (scalarChars indent simpleKey text)]
  exact opens_scalarChars indent simpleKey text []

/-! ### Written values -/

variable {rest : List Char}

/-- The text of a list from its first dash on, with what comes behind it. -/
def listText (indent : Nat) : List String → List Char → List Char
  | [], rest => rest
  | item :: more, rest =>
    '-' :: ' ' :: (endLine (scalarChars (indent + 2) false item) ++
      (spaces (if more.isEmpty then 0 else indent) ++ listText indent more rest))

/-- The tokens of the items of a list. -/
def itemKinds (items : List String) : List TokenKind :=
  items.flatMap fun item => [.blockEntry, .scalar (styleOf false item) item]

/-- A list opens a token when what follows it does. -/
theorem opens_listText {indent : Nat} {items : List String} (opens : Opens rest) :
    Opens (listText indent items rest) := by
  cases items with
  | nil => exact opens
  | cons item more =>
      intro c first
      obtain rfl := Option.some.inj first
      decide

/-- The word for a truth value. -/
def flagText (value : Bool) : String :=
  if value then "true" else "false"

/-- The tokens of a value. -/
def valueKinds (simple : Bool) : Flat → List TokenKind
  | .text value => [.scalar (styleOf false value) value]
  | .flag value => [.scalar .plain (flagText value)]
  | .list [] => [.flowSequenceStart, .flowSequenceEnd]
  | .list (item :: more) =>
    if simple then itemKinds (item :: more)
    else .sequenceStart :: (itemKinds (item :: more) ++ [.blockEnd])

/-- What stands behind the colon, or behind the blank after it, of a value that is no list of lines. -/
def shortText : Flat → List Char
  | .text value => endLine (scalarChars 2 false value)
  | .flag value => (flagText value).toList ++ ['\n']
  | .list _ => ['[', ']', '\n']

/-- Whether a value is not written on the lines behind its key. -/
def Flat.isShort : Flat → Bool
  | .list (_ :: _) => false
  | _ => true

/-- A short value opens a token. -/
theorem opens_shortText (value : Flat) (rest : List Char) : Opens (shortText value ++ rest) := by
  cases value with
  | text value => exact opens_endLine_scalarChars 2 false value rest
  | flag value =>
      intro c first
      cases value <;>
      · obtain rfl := Option.some.inj first
        decide
  | list items =>
      intro c first
      obtain rfl := Option.some.inj first
      decide

namespace Lexer

variable {lexer : Lexer} {kinds : List TokenKind} {key : String} {c : Char} {tail : List Char}

/-- Whether what is read from one place in the end is what is read from another one. -/
def Comes (lexer settled : Lexer) : Prop :=
  ∀ kinds, settled.Yields kinds → lexer.Yields kinds

/-- What a lexer leads to comes of it. -/
theorem Leads.comes {settled : Lexer} (leads : lexer.Leads settled) : lexer.Comes settled :=
  fun _ => leads.yields

theorem Comes.trans {middle settled : Lexer} (first : lexer.Comes middle)
    (second : middle.Comes settled) : lexer.Comes settled :=
  fun kinds yields => first kinds (second kinds yields)

/-- Where a key is allowed its place is saved. -/
theorem savePlace_allowed (allowed : lexer.keyAllowed = true) (noPlace : lexer.place = none) :
    ∃ required, lexer.savePlace =
      .ok { lexer with place := some ⟨lexer.tokens.length, required, lexer.mark⟩ } := by
  rw [savePlace, if_pos allowed, dropPlace_none noPlace]
  exact ⟨_, rfl⟩

/-- The lexer behind a key, in front of `text`, with the place where the key starts. -/
def behindKey (lexer : Lexer) (key : String) (required : Bool) (stop : Mark) (text : List Char) : Lexer :=
  { lexer.push (.scalar (styleOf true key) key) lexer.mark stop with
    cursor := ⟨text, lexer.mark.along (scalarChars 2 true key).length⟩
    keyAllowed := false
    place := some ⟨lexer.tokens.length, required, lexer.mark⟩ }

/-- A key that may stand in front of its colon is read up to there, and its place is remembered. -/
theorem readsKey (block : lexer.outerPlaces = []) (noPlace : lexer.place = none)
    (allowed : lexer.keyAllowed = true) (inner : lexer.indent ≤ lexer.mark.column)
    (simple : isSimpleKey key = true) (blank : isSpace c = true ∨ isBreak c = true)
    (found : lexer.cursor.rest = scalarChars 2 true key ++ ':' :: c :: tail) :
    ∃ required stop,
      lexer.readToken = .ok (lexer.behindKey key required stop (':' :: c :: tail)) := by
  obtain ⟨required, saved⟩ := savePlace_allowed allowed noPlace
  refine ⟨required, ?_⟩
  have flow : lexer.inFlow = false := by simp [inFlow, block]
  have whole : lexer.cursor = ⟨lexer.cursor.rest, lexer.mark⟩ := rfl
  have inline := (inline_key simple).1
  have apart : (':' :: c :: tail).head? ≠ some '\'' := by simp
  rw [found] at whole
  rw [scalarChars] at found whole inline
  simp only [behindKey, scalarChars]
  have styled := styled_styleOf true key
  generalize styleOf true key = style at styled found whole inline ⊢
  cases styled with
  | plain plain clear =>
      have ends : PlainEnd (lexer.indent + 1) (':' :: c :: tail)
          (lexer.mark.along key.toList.length) _ _ := .colon blank
      have taken := takePlainScalar_text plain lexer.mark (by omega) ends
      have read := readPlain_eq saved (by rw [flow, whole]; exact taken)
      rw [String.ofList_toList, ← readToken_plain block plain ends whole] at read
      exact ⟨_, read⟩
  | single allowed feed =>
      have taken := @takeQuotedScalar_single (':' :: c :: tail) lexer.mark 2 (by decide) _ allowed feed
        apart
      rw [inline.past] at taken
      have read := readQuoted_eq saved (by rw [whole]; exact taken)
      rw [String.ofList_toList, ← readToken_single (by rw [found]; rfl)] at read
      exact ⟨_, read⟩
  | double =>
      have taken := takeQuotedScalar_double key.toList (':' :: c :: tail) lexer.mark
      rw [inline.past] at taken
      have read := readQuoted_eq saved (by rw [whole]; exact taken)
      rw [String.ofList_toList, ← readToken_double (by rw [found]; rfl)] at read
      exact ⟨_, read⟩
  | literal allowed value => cases value

/-- A place that is not stale is kept. -/
theorem checkPlace_fresh {place : Option KeyPlace}
    (fresh : ∀ p, place = some p → lexer.isStale p = false) :
    lexer.checkPlace place = .ok place := by
  cases place with
  | none => rfl
  | some place =>
      rw [checkPlace, fresh place rfl]
      rfl

/-- Places that a key may still start at stay. -/
theorem dropStale_fresh (inner : ∀ p, lexer.place = some p → lexer.isStale p = false)
    (outer : ∀ place ∈ lexer.outerPlaces, ∀ p, place = some p → lexer.isStale p = false) :
    lexer.dropStale = .ok lexer := by
  have around : lexer.outerPlaces.reverse.mapM lexer.checkPlace = .ok lexer.outerPlaces.reverse :=
    mapM_eq_self fun place member => checkPlace_fresh (outer place (List.mem_reverse.1 member))
  rw [dropStale, around, checkPlace_fresh inner]
  simp only [bind, Except.bind, List.reverse_reverse]
  rfl

/-- Whether a lexer stands in front of the colon of a key; behind the colon there is `text`. -/
def AtColon (lexer : Lexer) (text : List Char) (kinds : List TokenKind) : Prop :=
  ∃ next column, lexer.advance = .ok next ∧ next.atEnd = false ∧
    next.Stands text (column + 1) false [0, -1] kinds ∧ text.length < lexer.cursor.rest.length

/-- At a colon with a blank behind it the lexer reads the mark of a value. -/
theorem readToken_colon (blank : isSpace c = true ∨ isBreak c = true)
    (found : lexer.cursor.rest = ':' :: c :: tail) : lexer.readToken = lexer.readValue := by
  have ends : blankOrEnd (c :: tail) = true := by simpa [blankOrEnd] using blank
  simp [readToken, found, atDocumentMarker, ends]

/-- The key that a value belongs to, and the map if this is the first entry of it, start at the place
that has been remembered. -/
theorem AtEntry.opened_key {text : List Char} (atEntry : lexer.AtEntry text kinds) (token : Token)
    (cursor : Cursor) (place : KeyPlace) (count : place.count = lexer.tokens.length)
    (mark : place.mark = lexer.mark) :
    ∃ opened, (insertAt place.count .key place.mark
        { lexer with
          tokens := token :: lexer.tokens
          cursor := cursor
          keyAllowed := false
          place := some place }).indentTo place.mark.column place.count .mappingStart place.mark = opened ∧
      opened.cursor = cursor ∧ opened.indent :: opened.outer = [0, -1] ∧
      kindsOf opened.tokens.reverse = kinds ++ [.key, token.kind] ∧ opened.outerPlaces = [] := by
  have column : place.mark.column = 0 := by
    obtain ⟨indents, kinds', stands, -⟩ := atEntry.exists_stands
    rw [mark]
    exact stands.column_eq
  rw [column, count]
  have behind : lexer.tokens.length + 1 + 1 - lexer.tokens.length = 2 := by omega
  cases atEntry with
  | @first kinds stands =>
      obtain ⟨here, around⟩ := List.cons.inj stands.indents_eq
      refine ⟨_, rfl, ?_⟩
      simp [indentTo, inFlow, stands.block, here, around, insertAt, kindsOf, behind, ← stands.kinds_eq]
  | later stands =>
      obtain ⟨here, around⟩ := List.cons.inj stands.indents_eq
      refine ⟨_, rfl, ?_⟩
      simp [indentTo, inFlow, stands.block, here, around, insertAt, kindsOf, ← stands.kinds_eq]

/-- A key may still start where one that stands in front of its colon does. -/
theorem dropStale_behindKey (simple : isSimpleKey key = true) (block : lexer.outerPlaces = [])
    (required : Bool) (stop : Mark) (text : List Char) :
    (lexer.behindKey key required stop text).dropStale =
      .ok (lexer.behindKey key required stop text) := by
  refine dropStale_fresh (fun p same => ?_) fun outer member => ?_
  · obtain rfl := Option.some.inj same
    have short := (inline_key simple).2
    simp [isStale, behindKey, Lexer.mark]
    omega
  · rw [show (lexer.behindKey key required stop text).outerPlaces = lexer.outerPlaces from rfl,
      block] at member
    cases member

/-- Behind a key comes its colon, for which the key, and the map if this is the first entry of it, start
where the key was read. -/
theorem AtEntry.atColon_behindKey (blank : isSpace c = true ∨ isBreak c = true) {text : List Char}
    (atEntry : lexer.AtEntry text kinds) (required : Bool) (stop : Mark) :
    (lexer.behindKey key required stop (':' :: c :: tail)).AtColon (c :: tail)
      (kinds ++ [.key, .scalar (styleOf true key) key] ++ [.value]) := by
  let count := (scalarChars 2 true key).length
  let colon := lexer.behindKey key required stop (':' :: c :: tail)
  obtain ⟨indents, kinds', stands, inner⟩ := atEntry.exists_stands
  obtain ⟨opened, starts, cursor, indents, tokens, block⟩ := atEntry.opened_key
    ⟨.scalar (styleOf true key) key, lexer.mark, stop⟩ ⟨':' :: c :: tail, lexer.mark.along count⟩
    ⟨lexer.tokens.length, required, lexer.mark⟩ rfl rfl
  let value : Lexer := { opened.pushIndicator .value 1 with place := none, keyAllowed := false }
  have read : colon.readToken = .ok value := by
    rw [readToken_colon blank rfl]
    simp only [value, ← starts]
    rfl
  have column : colon.mark.column = count := by
    rw [← Nat.zero_add count, ← stands.column_eq]
    rfl
  have advanced : colon.advance = .ok value := by
    rw [advance, dedentTo_of_le, read]
    · exact dropStale_none block rfl
    · exact Int.le_trans inner (Int.natCast_nonneg _)
  have notEnd : value.atEnd = false := @atEnd_cons value _ _ rfl (by simp)
  refine ⟨value, count, advanced, notEnd, ⟨?_, ?_, rfl, indents, ?_, rfl, block⟩, Nat.lt_succ_self _⟩
  · change (opened.cursor.skip 1).rest = c :: tail
    rw [cursor]
    rfl
  · change (opened.cursor.skip 1).mark.column = count + 1
    rw [cursor]
    exact congrArg (· + 1) column
  · change kindsOf (_ :: opened.tokens).reverse = _
    rw [kindsOf_push, tokens]

/-- A key that may stand in front of its colon leads to the colon. -/
theorem AtEntry.leads_key (simple : isSimpleKey key = true) (blank : isSpace c = true ∨ isBreak c = true)
    (atEntry : lexer.AtEntry (scalarChars 2 true key ++ ':' :: c :: tail) kinds) :
    ∃ colon, lexer.Leads colon ∧
      colon.AtColon (c :: tail) (kinds ++ [.key, .scalar (styleOf true key) key] ++ [.value]) := by
  obtain ⟨indents, kinds', stands, start⟩ := atEntry.exists_stands
  have inner : lexer.indent ≤ lexer.mark.column := by rw [stands.column_eq]; exact start
  obtain ⟨required, stop, read⟩ := readsKey stands.block stands.noPlace stands.keyAllowed_eq inner
    simple blank stands.rest_eq
  let colon := lexer.behindKey key required stop (':' :: c :: tail)
  have kept : colon.dropStale = .ok colon := dropStale_behindKey simple stands.block required stop _
  have opens : Opens (':' :: c :: tail) := by
    intro d first
    obtain rfl := Option.some.inj first
    decide
  have settles : colon.settle = .ok colon := by
    rw [settle, @skipBetween_spaces colon _ _ _ 0 opens rfl]
    exact kept
  have advanced : lexer.advance = .ok colon := by
    rw [advance, dedentTo_of_le inner, read]
    exact kept
  have filled := List.length_pos_iff.2 (scalarChars_ne_nil 2 true key)
  refine ⟨colon, ⟨colon, advanced, atEnd_cons rfl (by simp), settles, ?_⟩,
    atEntry.atColon_behindKey blank required stop⟩
  rw [stands.rest_eq, List.length_append]
  exact Nat.lt_add_of_pos_left filled

/-! ### Behind the colon -/

/-- A value on the line of its key. -/
theorem AtColon.leads_space (colon : lexer.AtColon (' ' :: rest) kinds) (opens : Opens rest) :
    ∃ settled column, lexer.Leads settled ∧
      settled.Stands rest (column + 2) false [0, -1] kinds := by
  obtain ⟨next, column, advanced, notEnd, stands, shorter⟩ := colon
  have whole : next.cursor = ⟨spaces 1 ++ rest, next.mark⟩ := by
    rw [show spaces 1 ++ rest = next.cursor.rest from stands.rest_eq.symm]
    rfl
  have settles := settle_spaces opens stands.block stands.noPlace whole
  refine ⟨_, column, ⟨next, advanced, notEnd, settles, ?_⟩, rfl, ?_, stands.keyAllowed_eq,
    stands.indents_eq, stands.kinds_eq, stands.noPlace, stands.block⟩
  · exact Nat.lt_trans (Nat.lt_succ_self _) shorter
  · exact congrArg (· + 1) stands.column_eq

/-- A value on the lines behind its key. -/
theorem AtColon.leads_line (colon : lexer.AtColon ('\n' :: rest) kinds) (opens : Opens rest) :
    ∃ settled, lexer.Leads settled ∧ settled.Stands rest 0 true [0, -1] kinds := by
  obtain ⟨next, column, advanced, notEnd, stands, shorter⟩ := colon
  have whole : next.cursor = ⟨'\n' :: (spaces 0 ++ rest), next.mark⟩ := by
    rw [show '\n' :: (spaces 0 ++ rest) = next.cursor.rest from stands.rest_eq.symm]
    rfl
  have idle : IsIdle next.place := by
    rw [stands.noPlace]
    exact isIdle_none
  have settles := settle_line opens stands.block idle
    (fun p same => by rw [stands.noPlace] at same; cases same) whole
  exact ⟨_, ⟨next, advanced, notEnd, settles, Nat.lt_trans (Nat.lt_succ_self _) shorter⟩, rfl,
    Nat.zero_add 0, rfl, stands.indents_eq, stands.kinds_eq, rfl, stands.block⟩

/-! ### Lists -/

variable {column : Nat} {keyAllowed : Bool}

/-- What a lexer between the brackets of an empty list is in front of, and what it has read; `place` is
where a key may have started in front of the brackets. -/
structure InBrackets (lexer : Lexer) (place : Option KeyPlace) (text : List Char) (indents : List Int)
    (kinds : List TokenKind) : Prop where
  rest_eq : lexer.cursor.rest = text
  indents_eq : lexer.indent :: lexer.outer = indents
  kinds_eq : kindsOf lexer.tokens.reverse = kinds
  noPlace : lexer.place = none
  outer_eq : lexer.outerPlaces = [place]
  idle : IsIdle place
  near : ∀ p, place = some p → p.mark.line = lexer.mark.line ∧ lexer.mark.index = p.mark.index + 1

/-- The place of a key stays fresh while the lexer goes on along its line. -/
theorem InBrackets.fresh {place : Option KeyPlace} {text : List Char} {indents : List Int}
    (inside : lexer.InBrackets place text indents kinds) {later : Lexer}
    (line : later.mark.line = lexer.mark.line) (index : later.mark.index ≤ lexer.mark.index + 1) :
    ∀ p, place = some p → later.isStale p = false := by
  intro p same
  obtain ⟨here, next⟩ := inside.near p same
  simp only [isStale, Bool.or_eq_false_iff, decide_eq_false_iff_not]
  omega

/-- At an opening bracket the lexer leads into the brackets. -/
theorem Stands.leads_bracket {text : List Char} {inner : Int} {outer : List Int}
    (stands : lexer.Stands ('[' :: text) column keyAllowed (inner :: outer) kinds)
    (deeper : inner < column) (opens : Opens text) :
    ∃ inside place, lexer.Leads inside ∧
      inside.InBrackets place text (inner :: outer) (kinds ++ [.flowSequenceStart]) := by
  obtain ⟨here, around⟩ := List.cons.inj stands.indents_eq
  obtain ⟨place, saved, idle, mark⟩ :=
    savePlace_idle stands.noPlace (by rw [here, stands.column_eq]; omega)
  have ahead : lexer.cursor.skip 1 = ⟨text, lexer.mark.along 1⟩ := by
    rw [show lexer.cursor = ⟨lexer.cursor.rest, lexer.mark⟩ from rfl, stands.rest_eq]
    rfl
  -- The place that a key around the brackets may start at is put aside until they are closed.
  let inside : Lexer := { { lexer with place }.pushIndicator .flowSequenceStart 1 with
    place := none, outerPlaces := place :: lexer.outerPlaces, keyAllowed := true }
  have read : lexer.readToken = .ok inside := by
    have dispatch : lexer.readToken = lexer.readOpening .flowSequenceStart := by
      simp [readToken, stands.rest_eq, atDocumentMarker]
    rw [dispatch, readOpening, saved]
    rfl
  have between : inside.InBrackets place text (inner :: outer) (kinds ++ [.flowSequenceStart]) :=
    { rest_eq := congrArg Cursor.rest ahead
      indents_eq := stands.indents_eq
      kinds_eq := by
        rw [← stands.kinds_eq]
        exact kindsOf_push _ _ _ _
      noPlace := rfl
      outer_eq := congrArg (place :: ·) stands.block
      idle := idle
      near := fun p same => by
        rw [mark p same]
        exact ⟨rfl, rfl⟩ }
  have kept : inside.dropStale = .ok inside := by
    refine dropStale_fresh (fun p same => by cases same) fun outer member p same => ?_
    rw [between.outer_eq, List.mem_singleton] at member
    exact between.fresh rfl (Nat.le_succ _) p (member ▸ same)
  refine ⟨inside, place, ⟨inside, ?_, atEnd_cons rfl (by simp), ?_, ?_⟩, between⟩
  · rw [advance, dedentTo_of_le (by rw [here, stands.column_eq]; omega), read]
    exact kept
  · rw [settle, @skipBetween_spaces inside text _ _ 0 opens ahead]
    exact (congrArg (fun cursor => dropStale { inside with cursor }) ahead.symm).trans kept
  · rw [stands.rest_eq, between.rest_eq]
    exact Nat.lt_succ_self _

/-- At a closing bracket the lexer leads to the next line. -/
theorem InBrackets.leads_closing {place : Option KeyPlace} {indents : List Int}
    (inside : lexer.InBrackets place (']' :: '\n' :: rest) indents kinds) (opens : Opens rest) :
    ∃ settled, lexer.Leads settled ∧ settled.Stands rest 0 true indents (kinds ++ [.flowSequenceEnd]) := by
  have ahead : lexer.cursor.skip 1 = ⟨'\n' :: (spaces 0 ++ rest), lexer.mark.along 1⟩ := by
    rw [show lexer.cursor = ⟨lexer.cursor.rest, lexer.mark⟩ from rfl, inside.rest_eq]
    rfl
  let behind : Lexer := { lexer.pushIndicator .flowSequenceEnd 1 with
    place := place, outerPlaces := [], keyAllowed := false }
  have read : lexer.readToken = .ok behind := by
    have dispatch : lexer.readToken = lexer.readClosing .flowSequenceEnd := by
      simp [readToken, inside.rest_eq, atDocumentMarker]
    have around : (lexer.pushIndicator .flowSequenceEnd 1).outerPlaces = [place] := inside.outer_eq
    rw [dispatch, readClosing, dropPlace_none inside.noPlace]
    simp only [bind, Except.bind]
    rw [around]
    rfl
  have kept : behind.dropStale = .ok behind := by
    refine dropStale_fresh (inside.fresh rfl (Nat.le_refl _)) fun _ member => ?_
    exact absurd member List.not_mem_nil
  have settles := @settle_line behind rest (lexer.mark.along 1) 0 opens rfl inside.idle
    (fun p same => Nat.le_of_eq (inside.near p same).1) ahead
  refine ⟨_, ⟨behind, ?_, atEnd_cons rfl (by simp), settles, ?_⟩, rfl, rfl, rfl, inside.indents_eq, ?_,
    rfl, rfl⟩
  · have flow : lexer.inFlow = true := by simp [inFlow, inside.outer_eq]
    rw [advance, dedentTo, if_pos flow, read]
    exact kept
  · rw [inside.rest_eq]
    exact Nat.lt_trans (Nat.lt_succ_self _) (Nat.lt_succ_self _)
  · rw [← inside.kinds_eq]
    exact kindsOf_push _ _ _ _

/-- A list without items leads to the next line. -/
theorem Stands.comes_empty {inner : Int} {outer : List Int}
    (stands : lexer.Stands ('[' :: ']' :: '\n' :: rest) column keyAllowed (inner :: outer) kinds)
    (deeper : inner < column) (opens : Opens rest) :
    ∃ settled, lexer.Comes settled ∧ settled.Stands rest 0 true (inner :: outer)
      (kinds ++ [.flowSequenceStart, .flowSequenceEnd]) := by
  have closes : Opens (']' :: '\n' :: rest) := by
    intro c same
    obtain rfl := Option.some.inj same
    decide
  obtain ⟨inside, place, first, between⟩ := stands.leads_bracket deeper closes
  obtain ⟨settled, second, behind⟩ := between.leads_closing opens
  rw [List.append_assoc] at behind
  exact ⟨settled, first.comes.trans second.comes, behind⟩

/-- The end of a list that is further in than what comes behind it. -/
theorem Stands.comes_dedent {inner next : Int} {outer : List Int}
    (stands : lexer.Stands rest column keyAllowed (inner :: next :: outer) kinds)
    (out : (column : Int) < inner) (within : next ≤ column) :
    ∃ settled, lexer.Comes settled ∧
      settled.Stands rest column keyAllowed (next :: outer) (kinds ++ [.blockEnd]) := by
  obtain ⟨here, around⟩ := List.cons.inj stands.indents_eq
  let closed : Lexer :=
    { lexer.push .blockEnd lexer.mark lexer.mark with indent := next, outer := outer }
  have closes : lexer.dedentTo column = closed := by
    have flow : lexer.inFlow = false := by simp [inFlow, stands.block]
    have stays : closed.dedentTo column = closed := dedentTo_of_le within
    rw [dedentTo, if_neg (by rw [show closed.inFlow = false from flow]; decide)] at stays
    rw [dedentTo, if_neg (by rw [flow]; decide), around, dedent, if_pos (by rw [here]; exact out)]
    exact stays
  have same : lexer.advance = closed.advance := by
    rw [advance, advance, stands.column_eq, closes, show closed.mark = lexer.mark from rfl,
      stands.column_eq, @dedentTo_of_le closed _ within]
  refine ⟨closed, fun kinds yields => ?_, stands.rest_eq, stands.column_eq, stands.keyAllowed_eq, rfl, ?_,
    stands.noPlace, stands.block⟩
  · rw [Yields, same]
    exact yields
  · rw [← stands.kinds_eq]
    exact kindsOf_push _ _ _ _

/-- Items behind the dash of the first one, up to the next line behind all of them. -/
theorem Stands.comes_items {indent : Nat} {outer : List Int} {item : String} {more : List String}
    (stands : lexer.Stands (endLine (scalarChars (indent + 2) false item) ++
      (spaces (if more.isEmpty then 0 else indent) ++ listText indent more rest)) (indent + 2) true
      (indent :: outer) kinds) (opens : Opens rest) :
    ∃ settled, lexer.Comes settled ∧ settled.Stands rest 0 true (indent :: outer)
      (kinds ++ [.scalar (styleOf false item) item] ++ itemKinds more) := by
  induction more generalizing lexer item kinds with
  | nil =>
      obtain ⟨settled, leads, behind⟩ := stands.leads_text (by omega) (Nat.zero_le _) opens
      refine ⟨settled, leads.comes, ?_⟩
      rw [itemKinds, List.flatMap_nil, List.append_nil]
      exact behind
  | cons next more ih =>
      obtain ⟨dash, first, atDash⟩ :=
        stands.leads_text (by omega) (Nat.le_refl _) (opens_listText opens)
      obtain ⟨inside, second, behind⟩ := atDash.leads_dash (opens_endLine_scalarChars _ _ _ _)
      obtain ⟨settled, others, done⟩ := ih behind
      refine ⟨settled, (first.comes.trans second.comes).trans others, ?_⟩
      rw [itemKinds, List.flatMap_cons, ← itemKinds]
      simpa using done

/-! ### Values -/

/-- A value on one line, or a text, leads to the next line. -/
theorem Stands.comes_short {value : Flat} (short : value.isShort = true) (simple : Bool)
    (stands : lexer.Stands (shortText value ++ rest) column keyAllowed [0, -1] kinds)
    (inside : 0 < column) (opens : Opens rest) :
    ∃ settled, lexer.Comes settled ∧
      settled.Stands rest 0 true [0, -1] (kinds ++ valueKinds simple value) := by
  cases value with
  | text value =>
      obtain ⟨settled, leads, behind⟩ :=
        @Stands.leads_text lexer rest kinds _ 0 _ value 0 [-1] stands inside (Nat.le_refl 0) opens
      exact ⟨settled, leads.comes, behind⟩
  | flag value =>
      have plain : IsPlain (flagText value).toList := by
        cases value <;> exact isPlain_of_plainAllowed (by decide) (by decide)
      rw [shortText, List.append_assoc, List.singleton_append] at stands
      obtain ⟨settled, leads, behind⟩ :=
        @Stands.leads_plain lexer rest kinds _ 0 _ (flagText value) 0 [-1] stands inside (Nat.le_refl 0)
          opens plain
      exact ⟨settled, leads.comes, behind⟩
  | list items =>
      cases items with
      | nil => exact stands.comes_empty (by omega) opens
      | cons item more => cases short

end Lexer

end DocPress.Yaml
