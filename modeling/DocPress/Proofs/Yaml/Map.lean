import DocPress.Proofs.Yaml.Entry

/-!
Tokens of written maps. Every entry is read as its key and its value, in the styles in which they are
written, and the map ends where the text does.
-/

namespace DocPress.Yaml

open Lexer

/-! ### Written entries -/

theorem itemChars_cons (indent : Nat) (item : String) (more : List String) :
    itemChars indent (item :: more) = spaces indent ++ ('-' :: ' ' ::
      (endLine (scalarChars (indent + 2) false item) ++ itemChars indent more)) := by
  have front : spaces indent ++ '-' :: ' ' :: scalarChars (indent + 2) false item =
      (spaces indent ++ ['-', ' ']) ++ scalarChars (indent + 2) false item := by
    rw [List.append_assoc]
    rfl
  rw [itemChars, List.flatMap_cons, front, endLine_append _ (scalarChars_ne_nil _ _ _)]
  simp [itemChars]

/-- The items of a list, and what comes behind them. -/
theorem itemChars_append (indent : Nat) (items : List String) (rest : List Char) :
    itemChars indent items ++ rest =
      spaces (if items.isEmpty then 0 else indent) ++ listText indent items rest := by
  induction items with
  | nil => rfl
  | cons item more ih =>
      rw [itemChars_cons]
      simp [listText, ih]

theorem ended_append (front : List Char) {text : List Char} (ended : text.getLast?.any isBreak = true) :
    (front ++ text).getLast?.any isBreak = true := by
  rw [List.getLast?_append]
  cases last : text.getLast? with
  | none => rw [last] at ended; cases ended
  | some c => rwa [last] at ended

/-- Items end with the end of a line. -/
theorem ended_itemChars (indent : Nat) (item : String) (more : List String) :
    (itemChars indent (item :: more)).getLast?.any isBreak = true := by
  induction more generalizing item with
  | nil =>
      have chars : itemChars indent [item] =
          (spaces indent ++ ['-', ' ']) ++ endLine (scalarChars (indent + 2) false item) := by
        rw [itemChars_cons]
        simp [itemChars]
      rw [chars]
      exact ended_append _ (getLast?_endLine _)
  | cons next more ih =>
      have chars : itemChars indent (item :: next :: more) = (spaces indent ++ ['-', ' '] ++
          endLine (scalarChars (indent + 2) false item)) ++ itemChars indent (next :: more) := by
        rw [itemChars_cons]
        simp
      rw [chars]
      exact ended_append _ (ih next)

theorem endLine_short {value : Flat} (short : value.isShort = true) (simple : Bool) :
    endLine (valueChars simple value) = ' ' :: shortText value := by
  cases value with
  | text value => exact endLine_append [' '] (scalarChars_ne_nil 2 false value)
  | flag value => cases value <;> rfl
  | list items =>
      cases items with
      | nil => rfl
      | cons item more => cases short

theorem Flat.exists_of_not_isShort (value : Flat) (long : value.isShort = false) :
    ∃ item more, value = .list (item :: more) := by
  cases value with
  | list items =>
      cases items with
      | nil => cases long
      | cons item more => exact ⟨item, more, rfl⟩
  | _ => cases long

/-- The items of a list behind a key on its line. -/
theorem endLine_list_simple (item : String) (more : List String) (rest : List Char) :
    endLine (valueChars true (.list (item :: more))) ++ rest =
      '\n' :: listText 0 (item :: more) rest := by
  have chars : valueChars true (.list (item :: more)) = ['\n'] ++ itemChars 0 (item :: more) := rfl
  rw [chars, endLine, if_pos (ended_append _ (ended_itemChars 0 item more)), List.append_assoc,
    itemChars_append]
  rfl

/-- The items of a list behind a key on lines of its own. -/
theorem endLine_list_long (item : String) (more : List String) (rest : List Char) :
    endLine (valueChars false (.list (item :: more))) ++ rest =
      ' ' :: listText 2 (item :: more) rest := by
  let text := '-' :: ' ' :: (endLine (scalarChars 4 false item) ++ itemChars 2 more)
  have items : itemChars 2 (item :: more) = spaces 2 ++ text := itemChars_cons 2 item more
  have chars : valueChars false (.list (item :: more)) = [' '] ++ text := by
    change ' ' :: (itemChars 2 (item :: more)).drop 2 = _
    rw [items]
    rfl
  have ended : text.getLast?.any isBreak = true := by
    have whole := ended_itemChars 2 item more
    rwa [items, List.getLast?_append_of_ne_nil _ (List.cons_ne_nil _ _)] at whole
  rw [chars, endLine, if_pos (ended_append _ ended)]
  simp only [text, List.cons_append, List.nil_append, List.append_assoc, itemChars_append]
  rfl

theorem valueChars_ne_nil (simple : Bool) (value : Flat) : valueChars simple value ≠ [] := by
  cases value with
  | text value => exact List.cons_ne_nil _ _
  | flag value => cases value <;> exact List.cons_ne_nil _ _
  | list items =>
      cases items with
      | nil => exact List.cons_ne_nil _ _
      | cons item more => cases simple <;> exact List.cons_ne_nil _ _

theorem entryChars_simple {key : String} (simple : isSimpleKey key = true) (value : Flat) :
    entryChars key value = scalarChars 2 true key ++ ':' :: endLine (valueChars true value) := by
  have front : scalarChars 2 true key ++ ':' :: valueChars true value =
      (scalarChars 2 true key ++ [':']) ++ valueChars true value := by
    rw [List.append_assoc]
    rfl
  rw [entryChars, if_pos simple, front, endLine_append _ (valueChars_ne_nil true value),
    List.append_assoc]
  rfl

theorem entryChars_long {key : String} (long : isSimpleKey key = false) (value : Flat) :
    entryChars key value = '?' :: ' ' :: (endLine (scalarChars 2 false key) ++
      ':' :: endLine (valueChars false value)) := by
  have question : endLine ('?' :: ' ' :: scalarChars 2 false key) =
      ['?', ' '] ++ endLine (scalarChars 2 false key) :=
    endLine_append ['?', ' '] (scalarChars_ne_nil 2 false key)
  have colon : endLine (':' :: valueChars false value) = [':'] ++ endLine (valueChars false value) :=
    endLine_append [':'] (valueChars_ne_nil false value)
  rw [entryChars, long, if_neg Bool.false_ne_true, question, colon]
  simp

/-- The tokens of an entry. -/
def entryKinds (key : String) (value : Flat) : List TokenKind :=
  [.key, .scalar (styleOf (isSimpleKey key) key) key, .value] ++ valueKinds (isSimpleKey key) value

namespace Lexer

variable {lexer : Lexer} {kinds : List TokenKind} {rest : List Char} {key : String} {value : Flat}

/-- An entry whose key stands in front of its colon. -/
theorem AtEntry.comes_simple (simple : isSimpleKey key = true)
    (atEntry : lexer.AtEntry (entryChars key value ++ rest) kinds) (opens : Opens rest) :
    ∃ settled, lexer.Comes settled ∧
      settled.Stands rest 0 true [0, -1] (kinds ++ entryKinds key value) := by
  rw [entryChars_simple simple, List.append_assoc, List.cons_append] at atEntry
  rw [entryKinds, simple]
  cases short : value.isShort with
  | true =>
      rw [endLine_short short, List.cons_append] at atEntry
      obtain ⟨colon, first, atColon⟩ := atEntry.leads_key simple (.inl rfl)
      obtain ⟨inside, column, second, stands⟩ := atColon.leads_space (opens_shortText value rest)
      obtain ⟨settled, third, behind⟩ := stands.comes_short short true (Nat.succ_pos _) opens
      refine ⟨settled, (first.comes.trans second.comes).trans third, ?_⟩
      simpa using behind
  | false =>
      obtain ⟨item, more, rfl⟩ := value.exists_of_not_isShort short
      rw [endLine_list_simple] at atEntry
      obtain ⟨colon, first, atColon⟩ := atEntry.leads_key simple (.inr rfl)
      obtain ⟨list, second, stands⟩ := atColon.leads_line (opens_listText opens)
      obtain ⟨inside, third, atItem⟩ :=
        @Stands.leads_dash list _ _ _ [-1] stands (opens_endLine_scalarChars _ _ _ _)
      obtain ⟨settled, fourth, behind⟩ := @Stands.comes_items rest inside _ 0 [-1] item more atItem opens
      refine ⟨settled, ((first.comes.trans second.comes).trans third.comes).trans fourth, ?_⟩
      simpa [valueKinds, itemKinds] using behind

/-- An entry whose key stands on lines of its own. -/
theorem AtEntry.comes_long (long : isSimpleKey key = false)
    (atEntry : lexer.AtEntry (entryChars key value ++ rest) kinds) (opens : Opens rest) :
    ∃ settled, lexer.Comes settled ∧
      settled.Stands rest 0 true [0, -1] (kinds ++ entryKinds key value) := by
  rw [entryChars_long long, List.cons_append, List.cons_append, List.append_assoc, List.cons_append]
    at atEntry
  rw [entryKinds, long]
  have colonOpens (text : List Char) : Opens (':' :: text) := by
    intro c first
    obtain rfl := Option.some.inj first
    decide
  obtain ⟨atKey, first, behindMark⟩ := atEntry.leads_question (opens_endLine_scalarChars _ _ _ _)
  obtain ⟨atColon, second, behindKey⟩ :=
    @Stands.leads_text atKey _ _ _ 0 _ key 0 [-1] behindMark (by decide) (Nat.le_refl 0) (colonOpens _)
  have keyed : lexer.Comes atColon := first.comes.trans second.comes
  cases short : value.isShort with
  | true =>
      rw [endLine_short short, List.cons_append] at behindKey
      obtain ⟨inside, third, stands⟩ := behindKey.leads_colon (opens_shortText value rest)
      obtain ⟨settled, fourth, behind⟩ := stands.comes_short short false (by decide) opens
      refine ⟨settled, (keyed.trans third.comes).trans fourth, ?_⟩
      simpa using behind
  | false =>
      obtain ⟨item, more, rfl⟩ := value.exists_of_not_isShort short
      rw [endLine_list_long] at behindKey
      obtain ⟨list, third, stands⟩ := behindKey.leads_colon (opens_listText opens)
      obtain ⟨inside, fourth, atItem⟩ :=
        @Stands.leads_first_dash list _ _ 2 0 [-1] stands (by decide) (opens_endLine_scalarChars _ _ _ _)
      obtain ⟨out, fifth, behindList⟩ :=
        @Stands.comes_items rest inside _ 2 [0, -1] item more atItem opens
      obtain ⟨settled, sixth, behind⟩ := behindList.comes_dedent (by decide) (by decide)
      refine ⟨settled, (((keyed.trans third.comes).trans fourth.comes).trans fifth).trans sixth, ?_⟩
      simpa [valueKinds, itemKinds] using behind

/-- An entry leads to the next line. -/
theorem AtEntry.comes_entry (atEntry : lexer.AtEntry (entryChars key value ++ rest) kinds)
    (opens : Opens rest) :
    ∃ settled, lexer.Comes settled ∧
      settled.Stands rest 0 true [0, -1] (kinds ++ entryKinds key value) := by
  cases simple : isSimpleKey key with
  | true => exact atEntry.comes_simple simple opens
  | false => exact atEntry.comes_long simple opens

end Lexer

/-! ### Whole maps -/

/-- An entry starts with its key, or with the mark in front of it. -/
theorem opens_entryChars (key : String) (value : Flat) (rest : List Char) :
    Opens (entryChars key value ++ rest) := by
  cases simple : isSimpleKey key with
  | true =>
      rw [entryChars_simple simple, List.append_assoc]
      exact opens_scalarChars 2 true key _
  | false =>
      rw [entryChars_long simple]
      intro c first
      obtain rfl := Option.some.inj first
      decide

/-- The text of a map. -/
def mapChars (entries : List (String × Flat)) : List Char :=
  entries.flatMap fun entry => entryChars entry.1 entry.2

/-- The tokens between the start and the end of a map. -/
def mapKinds (entries : List (String × Flat)) : List TokenKind :=
  entries.flatMap fun entry => entryKinds entry.1 entry.2

theorem opens_mapChars (entries : List (String × Flat)) : Opens (mapChars entries) := by
  cases entries with
  | nil =>
      intro c first
      cases first
  | cons entry more => exact opens_entryChars entry.1 entry.2 (mapChars more)

namespace Lexer

variable {lexer : Lexer} {kinds : List TokenKind}

/-- The end of the text ends the map. -/
theorem Stands.yields_end (stands : lexer.Stands [] 0 true [0, -1] kinds) :
    lexer.Yields (kinds ++ [.blockEnd, .endOfText]) := by
  obtain ⟨here, around⟩ := List.cons.inj stands.indents_eq
  have flow : lexer.inFlow = false := by simp [inFlow, stands.block]
  let closed : Lexer :=
    { lexer.push .blockEnd lexer.mark lexer.mark with indent := -1, outer := [] }
  let done : Lexer := { closed.push .endOfText lexer.mark lexer.mark with keyAllowed := false }
  have closes : lexer.dedentTo (-1) = closed := by
    rw [dedentTo, if_neg (by rw [flow]; decide), around, dedent, if_pos (by rw [here]; decide)]
    rfl
  have read : lexer.readToken = .ok done := by
    have mark : { lexer with cursor := { lexer.cursor with mark := lexer.mark } } = lexer := rfl
    have dispatch : lexer.readToken = lexer.readEnd := by rw [readToken, stands.rest_eq]
    rw [dispatch, readEnd, if_pos stands.column_eq]
    simp only [mark, closes, dropPlace_none (show closed.place = none from stands.noPlace)]
    rfl
  have advanced : lexer.advance = .ok done := by
    rw [advance, stands.column_eq, @dedentTo_of_le lexer (0 : Nat) (Int.le_of_eq here), read]
    exact dropStale_none stands.block stands.noPlace
  intro fuel enough
  refine ⟨done, advanced, ?_⟩
  rw [if_pos (show done.atEnd = true from rfl), ← stands.kinds_eq]
  simp [done, closed, push, kindsOf]

/-- The entries of a map, to its end. -/
theorem AtEntry.yields_map {entry : String × Flat} {more : List (String × Flat)}
    (atEntry : lexer.AtEntry (mapChars (entry :: more)) kinds) :
    lexer.Yields (kinds ++ mapKinds (entry :: more) ++ [.blockEnd, .endOfText]) := by
  induction more generalizing lexer entry kinds with
  | nil =>
      obtain ⟨settled, comes, stands⟩ := atEntry.comes_entry (opens_mapChars [])
      refine comes _ ?_
      simpa [mapKinds] using stands.yields_end
  | cons next more ih =>
      obtain ⟨settled, comes, stands⟩ := atEntry.comes_entry (opens_mapChars (next :: more))
      refine comes _ ?_
      simpa [mapKinds] using ih (.later stands)

/-- Between the start of a text and its first token there may be nothing. -/
theorem settle_ofText {text : List Char} (opens : Opens text) :
    (Lexer.ofText text).settle = .ok (.ofText text) :=
  @settle_spaces (.ofText text) text .start 0 opens rfl rfl rfl

end Lexer

/-- The tokens of a written map. -/
theorem kindsOf_tokens_mapChars {entries : List (String × Flat)} (filled : entries ≠ []) :
    kindsOf (tokens (mapChars entries)) =
      .mappingStart :: (mapKinds entries ++ [.blockEnd, .endOfText]) := by
  cases entries with
  | nil => exact absurd rfl filled
  | cons entry more =>
      have start : (Lexer.ofText (mapChars (entry :: more))).Stands (mapChars (entry :: more)) 0 true
          [-1] [] := ⟨rfl, rfl, rfl, rfl, rfl, rfl, rfl⟩
      have enough : (Lexer.ofText (mapChars (entry :: more))).cursor.rest.length ≤
          2 * (mapChars (entry :: more)).length + 1 := by
        change (mapChars (entry :: more)).length ≤ _
        omega
      exact kindsOf_run (settle_ofText (opens_mapChars _)) (AtEntry.first start).yields_map enough

end DocPress.Yaml
