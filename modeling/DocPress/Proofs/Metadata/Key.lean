import DocPress.Proofs.Metadata.Refusal

/-!
Keys at the start of lines. The readers of the two formats take a key off the start of a line, plain or
in quotes. In a line that does not need unescaping the key then stands as it is, and a search for its text
finds it. In a header with a line for each field, a field whose value is refused is looked for in this
way: it is reported at its own line unless an earlier line looks like the field, or its own does not.
-/

namespace DocPress

namespace Header

/-- Texts that begin, quotes apart, with a key, and go on with `rest` behind blanks. -/
inductive Begins (key rest : List Char) : List Char → Prop where
  | intro {front behind blanks : List Char} (quotes : ∀ c ∈ front ++ behind, isQuote c = true)
      (blank : ∀ c ∈ blanks, Text.isBlank c = true) :
      Begins key rest (front ++ key ++ behind ++ blanks ++ rest)

/-- Lines that the search for a key takes to declare it: quotes apart, they begin with the key and a colon
or an equals sign. -/
structure LooksLike (key line : List Char) : Prop where
  bare : ∀ c, key.head? = some c → isQuote c = false
  begins : ∃ sign rest, (sign = ':' ∨ sign = '=') ∧ Begins key (sign :: rest) line

/-- Lines whose first character is neither a blank nor a byte order mark. -/
def IsFlush (line : List Char) : Prop :=
  ∀ c, line.head? = some c → Text.isBlank c = false ∧ c.toNat ≠ 0xFEFF

/-- What begins with a key and blanks begins with the key. -/
theorem Begins.of_blanks {key blanks rest line : List Char}
    (begins : Begins key (blanks ++ rest) line) (blank : ∀ c ∈ blanks, Text.isBlank c = true) :
    Begins key rest line := by
  obtain @⟨front, behind, between, quotes, first⟩ := begins
  rw [← List.append_assoc, List.append_assoc _ between blanks]
  exact .intro quotes fun c member => (List.mem_append.1 member).elim (first c) (blank c)

theorem isQuote_of_isBlank {c : Char} (blank : Text.isBlank c = true) : isQuote c = false := by
  cases quote : isQuote c with
  | false => rfl
  | true =>
      simp only [isQuote, Bool.or_eq_true, decide_eq_true_eq] at quote
      rcases quote with rfl | rfl <;> cases blank

theorem isQuote_of_sign {sign : Char} (ends : sign = ':' ∨ sign = '=') : isQuote sign = false := by
  rcases ends with rfl | rfl <;> rfl

theorem isBlank_of_sign {sign : Char} (ends : sign = ':' ∨ sign = '=') : Text.isBlank sign = false := by
  rcases ends with rfl | rfl <;> rfl

/-! ### Lines with a key -/

variable {header : Header} {key line : List Char}

/-- A line that declares a key looks like one that does. -/
theorem looksLike_of_declares (found : declares key line = true) : LooksLike key line := by
  rw [declares] at found
  split at found
  case _ => cases found
  case _ rest stripped =>
    obtain ⟨front, quotes, outer⟩ := Text.exists_dropWhile isQuote line
    obtain ⟨behind, more, inner⟩ := Text.exists_dropWhile isQuote rest
    obtain ⟨blanks, blank, last⟩ := Text.exists_dropWhile Text.isBlank (rest.dropWhile isQuote)
    have bare := List.head?_dropWhile_not isQuote line
    rw [Text.stripStart?_eq_some_iff] at stripped
    rw [stripped] at bare outer
    split at found
    case _ sign tail ends =>
      rw [← Text.trimStart, ends] at last
      rw [last] at inner
      have parts : line = front ++ key ++ behind ++ blanks ++ sign :: tail := by
        simpa [inner] using outer
      refine ⟨fun c first => ?_, sign, tail, by simpa using found, ?_⟩
      · rw [List.head?_append, first] at bare
        exact bare
      · rw [parts]
        exact .intro (fun c member => (List.mem_append.1 member).elim (quotes c) (more c)) blank
    case _ => cases found

/-- Blanks and a sign begin with no quote. -/
theorem isQuote_of_head? {blanks rest : List Char} {sign : Char}
    (blank : ∀ c ∈ blanks, Text.isBlank c = true) (ends : sign = ':' ∨ sign = '=') :
    ∀ c, (blanks ++ sign :: rest).head? = some c → isQuote c = false := by
  intro c first
  cases blanks with
  | nil =>
      obtain rfl := Option.some.inj first
      exact isQuote_of_sign ends
  | cons d blanks =>
      obtain rfl := Option.some.inj first
      exact isQuote_of_isBlank (blank d List.mem_cons_self)

/-- The quotes in front of a key are dropped, and with them those behind a key without characters. -/
theorem exists_dropWhile_isQuote {front behind rest : List Char}
    (quotes : ∀ c ∈ front ++ behind, isQuote c = true)
    (bare : ∀ c, key.head? = some c → isQuote c = false)
    (solid : ∀ c, rest.head? = some c → isQuote c = false) :
    ∃ left, (∀ c ∈ left, isQuote c = true) ∧
      (front ++ key ++ behind ++ rest).dropWhile isQuote = key ++ (left ++ rest) := by
  cases key with
  | nil =>
      refine ⟨[], by simp, ?_⟩
      rw [List.append_nil, Text.dropWhile_append quotes solid]
      rfl
  | cons first key =>
      refine ⟨behind, fun c member => quotes c (List.mem_append_right _ member), ?_⟩
      rw [List.append_assoc, List.append_assoc]
      exact Text.dropWhile_append (fun c member => quotes c (List.mem_append_left _ member)) bare

/-- The search for a key finds the lines that look like it. -/
theorem declares_iff : declares key line = true ↔ LooksLike key line := by
  refine ⟨looksLike_of_declares, ?_⟩
  rintro ⟨bare, sign, rest, ends, @⟨front, behind, blanks, quotes, blank⟩⟩
  have solid := @isQuote_of_head? blanks rest sign blank ends
  obtain ⟨left, more, outer⟩ := exists_dropWhile_isQuote quotes bare solid
  rw [declares, List.append_assoc _ blanks, outer, Text.stripStart?_eq_some_iff.2 rfl]
  dsimp only
  rw [Text.dropWhile_append more solid, Text.trimStart, Text.dropWhile_append blank (fun c first => ?_)]
  · simpa using ends
  · obtain rfl := Option.some.inj first
    exact isBlank_of_sign ends

instance (key line : List Char) : Decidable (LooksLike key line) :=
  decidable_of_iff _ declares_iff

/-- A key is found at a line if that is the first one to look like it; the first line of the header is
also found if none does. -/
theorem keyLine_eq_iff {key : String} {index : Nat}
    (there : (Text.lines header.text)[index]? = some line) :
    header.keyLine key = firstLine + index ↔
      (∀ earlier ∈ (Text.lines header.text).take index, ¬LooksLike key.toList earlier) ∧
        (LooksLike key.toList line ∨
          index = 0 ∧ ∀ other ∈ Text.lines header.text, ¬LooksLike key.toList other) := by
  obtain ⟨bound, rfl⟩ := List.getElem?_eq_some_iff.1 there
  rw [keyLine]
  split
  case _ place found =>
    obtain ⟨inside, here, before⟩ := List.findIdx?_eq_some_iff_getElem.1 found
    rw [Nat.add_left_cancel_iff]
    constructor
    · rintro rfl
      refine ⟨fun earlier member => ?_, .inl (declares_iff.1 here)⟩
      obtain ⟨other, less, rfl⟩ := List.mem_take_iff_getElem.1 member
      exact fun looks => before other (by omega) (declares_iff.2 looks)
    · rintro ⟨first, looks⟩
      have looksHere := declares_iff.1 here
      rcases Nat.lt_trichotomy place index with less | same | more
      · exact absurd looksHere (first _ (List.mem_take_iff_getElem.2 ⟨_, by omega, rfl⟩))
      · exact same
      · rcases looks with looks | ⟨-, none⟩
        · exact absurd (declares_iff.2 looks) (before index more)
        · exact absurd looksHere (none _ (List.getElem_mem inside))
  case _ none =>
    have noLine : ∀ other ∈ Text.lines header.text, ¬LooksLike key.toList other :=
      fun other member looks => Bool.eq_false_iff.1 (List.findIdx?_eq_none_iff.1 none other member) (declares_iff.2 looks)
    constructor
    · intro same
      have first : index = 0 := by omega
      exact ⟨fun earlier member => noLine earlier (List.mem_of_mem_take member), .inr ⟨first, noLine⟩⟩
    · rintro ⟨-, looks | ⟨rfl, -⟩⟩
      · exact absurd looks (noLine _ (List.getElem_mem bound))
      · rfl

/-- A field that is refused is one of the header, and is reported where its key is found. -/
theorem Refuses.line_of_field {error : MetadataError} {key : String} (refuses : header.Refuses error)
    (about : error.fault.field? = some key) : key ∈ header.keys ∧ error.line = header.keyLine key := by
  cases refuses with
  | yaml | toml | notMapping | keyNotText => cases about
  | field member about' =>
      obtain rfl := Option.some.inj (about'.symm.trans about)
      exact ⟨member, rfl⟩

end Header

/-! ### YAML -/

namespace Yaml

variable {cursor after : Cursor} {fuel : Nat} {start : Mark}

/-- Takes the scalar that a key without an indicator is: plain, or in quotes. -/
def takeKeyScalar? (cursor : Cursor) : Option (List Char × Cursor) :=
  match cursor.rest with
  | [] => none
  | c :: rest =>
    if c = '"' || c = '\'' then (takeQuotedScalar (c = '"') cursor).toOption
    else if Lexer.startsPlain false c rest then
      (takePlainScalar false 0 cursor).toOption.map fun scalar => (scalar.text, scalar.cursor)
    else none

/-- The key that a line starts with: a scalar that ends on the line, and a colon behind it. -/
def keyOf? (line : List Char) : Option String :=
  let start := ((Cursor.ofText line).skipOrderMark.takeWhile (· = ' ')).2
  (takeKeyScalar? start).bind fun (key, after) =>
    match after.skipSpaces.rest with
    | ':' :: rest =>
      if after.mark.line = 0 && blankOrEnd rest then some (String.ofList key) else none
    | _ => none

/-- Whether a text has neither line ends nor backslashes. -/
def IsLiteral (text : List Char) : Prop :=
  ∀ c ∈ text, isBreak c = false ∧ c ≠ '\\'

instance (text : List Char) : Decidable (IsLiteral text) :=
  inferInstanceAs (Decidable (∀ c ∈ text, _))

theorem IsLiteral.right {front rest : List Char} (literal : IsLiteral (front ++ rest)) :
    IsLiteral rest :=
  fun c member => literal c (List.mem_append_right _ member)

theorem IsLiteral.drop {text : List Char} (literal : IsLiteral text) (count : Nat) :
    IsLiteral (text.drop count) :=
  fun c member => literal c (List.mem_of_mem_drop member)

/-- A gap of a line is made of its blanks. -/
theorem exists_of_takeGap {check : Cursor → Except Break Unit} {text : List Char} {gap : Gap}
    (literal : IsLiteral cursor.rest)
    (taken : takeGap check fuel (.spaces text) cursor = .ok (gap, after)) :
    ∃ more, gap = .spaces (text ++ more) ∧ cursor.rest = more ++ after.rest ∧
      ∀ c ∈ more, isSpace c = true := by
  induction fuel generalizing text cursor with
  | zero =>
      cases taken
      exact ⟨[], by rw [List.append_nil], rfl, by simp⟩
  | succ fuel ih =>
      rw [takeGap] at taken
      split at taken
      case _ =>
        cases taken
        exact ⟨[], by rw [List.append_nil], rfl, by simp⟩
      case _ c rest whole =>
        split at taken
        case isTrue blank =>
          have behind : cursor.rest = c :: (cursor.skip 1).rest := by
            rw [whole]
            simp [Cursor.skip, whole]
          obtain ⟨more, rfl, same, blanks⟩ := ih (literal.drop 1) taken
          refine ⟨c :: more, by simp, by rw [behind, same]; rfl, ?_⟩
          exact List.forall_mem_cons.2 ⟨blank, blanks⟩
        case isFalse solid =>
          have inLine : isBreak c = false := (literal c (by simp [whole])).1
          rw [if_neg (by simp [inLine])] at taken
          cases taken
          exact ⟨[], by rw [List.append_nil], rfl, by simp⟩

/-- Gaps that are blanks of one line, if they are there. -/
inductive IsLineGap : Option Gap → Prop where
  | none : IsLineGap none
  | spaces {text : List Char} (blank : ∀ c ∈ text, isSpace c = true) : IsLineGap (some (.spaces text))

section LineGap

variable {gap : Option Gap}

/-- A gap within a line is blank. -/
theorem IsLineGap.blank (onLine : IsLineGap gap) : ∀ c ∈ gapText gap, isSpace c = true := by
  cases onLine with
  | none => simp [gapText]
  | spaces blank => exact blank

/-- A gap that goes on in a line takes blanks of the line. -/
theorem IsLineGap.of_takeGap {check : Cursor → Except Break Unit} {next : Gap}
    (onLine : IsLineGap gap) (literal : IsLiteral cursor.rest)
    (taken : takeGap check fuel (gap.getD (.spaces [])) cursor = .ok (next, after)) :
    IsLineGap (some next) ∧ IsLiteral after.rest ∧
      gapText gap ++ cursor.rest = gapText (some next) ++ after.rest := by
  obtain ⟨text, starts, stands⟩ : ∃ text, gap.getD (.spaces []) = .spaces text ∧ gapText gap = text := by
    cases onLine with
    | none => exact ⟨[], rfl, rfl⟩
    | spaces blank => exact ⟨_, rfl, rfl⟩
  rw [starts] at taken
  obtain ⟨more, rfl, same, blanks⟩ := exists_of_takeGap literal taken
  refine ⟨.spaces fun c member => ?_, (same ▸ literal : IsLiteral (more ++ after.rest)).right, ?_⟩
  · exact (List.mem_append.1 member).elim (fun front => onLine.blank c (stands ▸ front)) (blanks c)
  · rw [stands, same, ← List.append_assoc]
    rfl

/-- The part that comes next is added to what is done with the gap in front of it; if there is none, the
gap is left. -/
theorem part_append (length : Nat) (done : List Char) (gap : Option Gap) (cursor : Cursor) :
    (if length = 0 then done else done ++ gapText gap ++ cursor.rest.take length) ++
        gapText (if length = 0 then gap else none) ++ (cursor.skip length).rest =
      done ++ gapText gap ++ cursor.rest := by
  rw [Cursor.skip]
  split
  case isTrue empty => rw [empty, List.drop_zero]
  case isFalse => simp [gapText]

end LineGap

/-- A plain scalar of a line is what stands there, up to the blanks behind it. -/
theorem exists_of_takePlain {flow : Bool} {indent : Int} {done : List Char} {gap : Option Gap}
    {scalar : PlainScalar} (literal : IsLiteral cursor.rest) (onLine : IsLineGap gap)
    (taken : takePlain flow indent start fuel done gap cursor = .ok scalar) :
    ∃ blanks, (∀ c ∈ blanks, isSpace c = true) ∧
      done ++ gapText gap ++ cursor.rest = scalar.text ++ blanks ++ scalar.cursor.rest := by
  -- what is done, the gap and what is left make up the line throughout; the gap is what remains in the end
  induction fuel generalizing done gap cursor with
  | zero =>
      cases taken
      exact ⟨gapText gap, onLine.blank, rfl⟩
  | succ fuel ih =>
      rw [takePlain] at taken
      split at taken
      case isTrue =>
        cases taken
        exact ⟨gapText gap, onLine.blank, rfl⟩
      case isFalse =>
        split at taken
        case _ => cases taken
        case _ length _ =>
          dsimp only at taken
          rw [← gapText] at taken
          have onLine' : IsLineGap (if length = 0 then gap else none) := by
            split
            · exact onLine
            · exact .none
          rw [← part_append length done gap cursor]
          generalize (if length = 0 then done else done ++ gapText gap ++ cursor.rest.take length) =
            done' at taken
          generalize (if length = 0 then gap else none) = left at taken onLine'
          split at taken
          case _ none =>
            cases taken
            exact ⟨gapText left, onLine'.blank, by rw [none]⟩
          case _ c rest more =>
            split at taken
            case isTrue =>
              cases taken
              exact ⟨gapText left, onLine'.blank, rfl⟩
            case isFalse =>
              obtain ⟨⟨next, behind⟩, gapped, taken⟩ := bind_eq_ok_iff.1 taken
              obtain ⟨onNext, literal', same⟩ := onLine'.of_takeGap (literal.drop length) gapped
              rw [List.append_assoc, same, ← List.append_assoc]
              dsimp only at taken
              split at taken
              case isTrue =>
                cases taken
                exact ⟨gapText (some next), onNext.blank, rfl⟩
              case isFalse => exact ih literal' onNext taken

/-- A quoted scalar without escapes is what stands between the quotes. -/
theorem exists_of_takeQuoted {double : Bool} {done text : List Char} (literal : IsLiteral cursor.rest)
    (unquoted : ∀ c ∈ text, Header.isQuote c = false)
    (taken : takeQuoted double start fuel done cursor = .ok (text, after)) :
    ∃ body quote, Header.isQuote quote = true ∧ text = done.reverse ++ body ∧
      cursor.rest = body ++ quote :: after.rest := by
  induction fuel generalizing done cursor with
  | zero => cases taken
  | succ fuel ih =>
      -- Every branch that keeps what it passes goes on alike.
      have goesOn (part : List Char) {count : Nat} (passed : cursor.rest.take count = part)
          (taken : takeQuoted double start fuel (part.reverse ++ done) (cursor.skip count) =
            .ok (text, after)) :
          ∃ body quote, Header.isQuote quote = true ∧ text = done.reverse ++ body ∧
            cursor.rest = body ++ quote :: after.rest := by
        obtain ⟨body, quote, isQuote, rfl, same⟩ := ih (literal.drop count) taken
        refine ⟨part ++ body, quote, isQuote, by simp, ?_⟩
        rw [← List.take_append_drop count cursor.rest, passed, List.append_assoc, ← same]
        rfl
      rw [takeQuoted] at taken
      dsimp only at taken
      split at taken
      case _ => cases taken
      case _ c rest whole =>
        obtain ⟨inLine, noEscape⟩ := literal c (by simp [whole])
        split at taken
        case isTrue blank =>
          obtain ⟨⟨gap, behind⟩, gapped, taken⟩ := bind_eq_ok_iff.1 taken
          obtain ⟨blanks, rfl, same, -⟩ := exists_of_takeGap literal gapped
          dsimp only at taken
          split at taken
          case isTrue => cases taken
          case isFalse =>
            obtain ⟨body, quote, isQuote, rfl, rest⟩ :=
              ih (same ▸ literal : IsLiteral (blanks ++ behind.rest)).right taken
            exact ⟨blanks ++ body, quote, isQuote, by simp [Gap.fold],
              by rw [same, rest, List.append_assoc]⟩
        case isFalse =>
          split at taken
          case isTrue =>
            split at taken
            case isTrue closes =>
              cases taken
              exact ⟨[], c, by rw [closes]; rfl, by simp, by simp [Cursor.skip, whole]⟩
            case isFalse =>
              exact goesOn [c] (by simp [whole]) taken
          case isFalse =>
            split at taken
            case _ next =>
              obtain ⟨body, quote, -, rfl, -⟩ := ih (literal.drop 2) taken
              -- A doubled quote would leave a quote in the key.
              have quoted := unquoted '\'' (by simp)
              cases quoted
            case _ =>
              cases taken
              exact ⟨[], '\'', rfl, by simp, by simp [Cursor.skip, whole]⟩
            case _ => exact goesOn [c] (by simp [whole]) taken

theorem Cursor.takeWhile_append_rest (p : Char → Bool) (cursor : Cursor) :
    cursor.rest.takeWhile p ++ (cursor.takeWhile p).2.rest = cursor.rest := by
  have front := List.prefix_iff_eq_take.1 (List.takeWhile_prefix p (l := cursor.rest))
  calc cursor.rest.takeWhile p ++ cursor.rest.drop (cursor.rest.takeWhile p).length
    _ = cursor.rest.take (cursor.rest.takeWhile p).length ++
        cursor.rest.drop (cursor.rest.takeWhile p).length := by rw [← front]
    _ = cursor.rest := List.take_append_drop _ _

theorem isBlank_of_isSpace {c : Char} (space : isSpace c = true) : Text.isBlank c = true := by
  simp only [isSpace, Bool.or_eq_true, decide_eq_true_eq] at space
  rcases space with rfl | rfl <;> rfl

/-- A key that is taken and holds no quotes begins the line. -/
theorem begins_of_takeKeyScalar? {text : List Char} (literal : IsLiteral cursor.rest)
    (unquoted : ∀ c ∈ text, Header.isQuote c = false)
    (taken : takeKeyScalar? cursor = some (text, after)) :
    Header.Begins text after.rest cursor.rest := by
  rw [takeKeyScalar?] at taken
  split at taken
  case _ => cases taken
  case _ c rest whole =>
    split at taken
    case isTrue quoted =>
      cases scalar : takeQuotedScalar (c = '"') cursor with
      | error => rw [scalar] at taken; cases taken
      | ok result =>
          rw [scalar] at taken
          cases taken
          rw [takeQuotedScalar] at scalar
          split at scalar
          case isTrue => cases scalar
          case isFalse =>
            obtain ⟨body, quote, isQuote, same, rest⟩ :=
              exists_of_takeQuoted (literal.drop 1) unquoted scalar
            obtain rfl : text = body := same
            have opens : Header.isQuote c = true := by simpa [Header.isQuote] using quoted
            have parts : cursor.rest = [c] ++ text ++ [quote] ++ [] ++ after.rest := by
              rw [Cursor.skip, whole] at rest
              simpa [whole] using rest
            rw [parts]
            exact .intro (by simp [opens, isQuote]) (by simp)
    case isFalse =>
      split at taken
      case isFalse => cases taken
      case isTrue =>
        cases scalar : takePlainScalar false 0 cursor with
        | error => rw [scalar] at taken; cases taken
        | ok result =>
            rw [scalar] at taken
            cases taken
            rw [takePlainScalar] at scalar
            obtain ⟨blanks, blank, parts⟩ := exists_of_takePlain literal .none scalar
            have parts : cursor.rest = [] ++ result.text ++ [] ++ blanks ++ result.cursor.rest := by
              simpa [gapText] using parts
            rw [parts]
            exact .intro (by simp) fun c member => isBlank_of_isSpace (blank c member)

/-- A key that a line starts with stands there, unless it is written with escapes. -/
theorem looksLike_of_keyOf? {line : List Char} {key : String} (found : keyOf? line = some key)
    (flush : Header.IsFlush line) (literal : IsLiteral line)
    (unquoted : ∀ c ∈ key.toList, Header.isQuote c = false) :
    Header.LooksLike key.toList line := by
  have start : ((Cursor.ofText line).skipOrderMark.takeWhile (· = ' ')).2 = Cursor.ofText line := by
    cases line with
    | nil => rfl
    | cons c rest =>
        obtain ⟨solid, noMark⟩ := flush c rfl
        have noSpace : c ≠ ' ' := by rintro rfl; cases solid
        simp [Cursor.ofText, Cursor.skipOrderMark, Cursor.next?, noMark, Cursor.takeWhile, noSpace,
          Cursor.skip]
  rw [keyOf?, start] at found
  obtain ⟨⟨text, after⟩, taken, found⟩ := Option.bind_eq_some_iff.1 found
  dsimp only at found
  split at found
  case _ rest colon =>
    split at found
    case isTrue =>
      cases found
      rw [String.toList_ofList] at unquoted ⊢
      have begins := begins_of_takeKeyScalar? (show IsLiteral (Cursor.ofText line).rest from literal)
        unquoted taken
      refine ⟨fun c first => unquoted c (List.mem_of_mem_head? first), ':', rest, .inl rfl, ?_⟩
      have behind := after.takeWhile_append_rest isSpace
      rw [← Cursor.skipSpaces, colon] at behind
      rw [← behind] at begins
      exact begins.of_blanks fun c member =>
        isBlank_of_isSpace (List.all_eq_true.1 List.all_takeWhile c member)
    case isFalse => cases found
  case _ => cases found

end Yaml

/-! ### TOML -/

namespace Toml

variable {text rest : List Char}

/-- The key that a line starts with: a key of one part, and an equals sign behind it. -/
def keyOf? (line : List Char) : Option String :=
  match takeKey (Text.withoutMark line) with
  | .ok (([], key), '=' :: _) => some key
  | _ => none

theorem isBlank_of_isSpace {c : Char} (space : isSpace c = true) : Text.isBlank c = true := by
  simp only [isSpace, Bool.or_eq_true, decide_eq_true_eq] at space
  rcases space with rfl | rfl <;> rfl

/-- The blanks that are moved over, and what is behind them. -/
theorem exists_skipSpaces (text : List Char) :
    ∃ blanks, (∀ c ∈ blanks, Text.isBlank c = true) ∧ text = blanks ++ skipSpaces text :=
  (Text.exists_dropWhile isSpace text).imp fun _ parts =>
    ⟨fun c member => isBlank_of_isSpace (parts.1 c member), parts.2⟩

/-- A basic string without escapes is what stands in front of its closing quote. -/
theorem exists_of_takeBasic {fuel : Nat} {done value : List Char} (literal : '\\' ∉ text)
    (taken : takeBasic fuel done text = .ok (value, rest)) :
    ∃ body, value = done.reverse ++ body ∧ text = body ++ '"' :: rest := by
  induction fuel generalizing done text with
  | zero => cases taken
  | succ fuel ih =>
      rw [takeBasic.eq_def] at taken
      dsimp only at taken
      split at taken
      case _ =>
        cases taken
        exact ⟨[], by simp, rfl⟩
      case _ => exact absurd List.mem_cons_self literal
      case _ c behind _ _ =>
        split at taken
        case isTrue =>
          obtain ⟨body, rfl, rfl⟩ := ih (fun member => literal (List.mem_cons_of_mem _ member)) taken
          exact ⟨c :: body, by simp, rfl⟩
        case isFalse => cases taken
      case _ => cases taken

theorem exists_of_takeLiteral {value : List Char} (taken : takeLiteral text = .ok (value, rest)) :
    text = value ++ '\'' :: rest := by
  have whole := @List.takeWhile_append_dropWhile _ isLiteralChar text
  rw [takeLiteral] at taken
  split at taken
  case _ closes =>
    cases taken
    rw [← closes, whole]
  case _ => cases taken

/-- A part of a key without escapes stands as it is, but for quotes around it. -/
theorem exists_of_takeSimpleKey {key : String} (literal : '\\' ∉ text)
    (taken : takeSimpleKey text = .ok (key, rest)) :
    ∃ front behind, (∀ c ∈ front ++ behind, Header.isQuote c = true) ∧
      text = front ++ key.toList ++ behind ++ rest := by
  rw [takeSimpleKey.eq_def] at taken
  dsimp only at taken
  split at taken
  case _ inner =>
    obtain ⟨⟨value, after⟩, found, same⟩ := map_eq_ok_iff.1 taken
    cases same
    obtain ⟨body, rfl, rfl⟩ :=
      exists_of_takeBasic (fun member => literal (List.mem_cons_of_mem _ member)) found
    exact ⟨['"'], ['"'], by simp [Header.isQuote], by simp⟩
  case _ inner =>
    obtain ⟨⟨value, after⟩, found, same⟩ := map_eq_ok_iff.1 taken
    cases same
    obtain rfl := exists_of_takeLiteral found
    exact ⟨['\''], ['\''], by simp [Header.isQuote], by simp⟩
  case _ =>
    split at taken
    case isTrue => cases taken
    case isFalse =>
      cases taken
      exact ⟨[], [], by simp, by simp⟩

/-- A key without a second part goes up to where its first part ends. -/
theorem eq_of_takeMoreKeys {fuel : Nat} (taken : takeMoreKeys fuel text = .ok ([], rest)) :
    rest = text := by
  cases fuel with
  | zero => cases taken; rfl
  | succ fuel =>
      rw [takeMoreKeys.eq_def] at taken
      dsimp only at taken
      split at taken
      case _ =>
        split at taken
        case _ =>
          obtain ⟨_, -, taken⟩ := bind_eq_ok_iff.1 taken
          cases taken
        case _ => split at taken <;> cases taken; rfl
      case _ => cases taken; rfl

/-- A key of one part stands as it is, unless it is written with escapes. -/
theorem begins_of_takeKey {key : String} (literal : '\\' ∉ text) (flush : skipSpaces text = text)
    (taken : takeKey text = .ok (([], key), rest)) : Header.Begins key.toList rest text := by
  rw [takeKey] at taken
  obtain ⟨⟨first, after⟩, simple, taken⟩ := bind_eq_ok_iff.1 taken
  rw [mapError_eq_ok_iff, flush] at simple
  obtain ⟨⟨more, left⟩, others, taken⟩ := bind_eq_ok_iff.1 taken
  rw [mapError_eq_ok_iff] at others
  dsimp only at taken
  split at taken
  case isTrue => cases taken
  case isFalse =>
    split at taken
    case _ => cases taken
    case _ none =>
      cases taken
      rw [List.getLast?_eq_none_iff.1 none] at others
      obtain rfl := eq_of_takeMoreKeys others
      obtain ⟨front, behind, quotes, whole⟩ := exists_of_takeSimpleKey literal simple
      obtain ⟨blanks, blank, between⟩ := exists_skipSpaces after
      have parts : text = front ++ key.toList ++ behind ++ blanks ++ skipSpaces after := by
        rw [List.append_assoc _ blanks, ← between, whole]
      rw [parts]
      exact .intro quotes blank

/-- A key that a line starts with stands there, unless it is written with escapes. -/
theorem looksLike_of_keyOf? {line : List Char} {key : String} (found : keyOf? line = some key)
    (flush : Header.IsFlush line) (literal : '\\' ∉ line)
    (unquoted : ∀ c ∈ key.toList, Header.isQuote c = false) :
    Header.LooksLike key.toList line := by
  have front : Text.withoutMark line = line ∧ skipSpaces line = line := by
    cases line with
    | nil => exact ⟨rfl, rfl⟩
    | cons c rest =>
        obtain ⟨solid, noMark⟩ := flush c rfl
        have noSpace : isSpace c = false := by
          cases space : isSpace c with
          | false => rfl
          | true => rw [isBlank_of_isSpace space] at solid; cases solid
        refine ⟨by rw [Text.withoutMark, if_neg noMark], ?_⟩
        rw [skipSpaces, List.dropWhile_cons_of_neg (by simp [noSpace])]
  rw [keyOf?, front.1] at found
  split at found
  case _ name rest taken =>
    cases found
    exact ⟨fun c first => unquoted c (List.mem_of_mem_head? first), '=', rest, .inr rfl,
      begins_of_takeKey literal front.2 taken⟩
  case _ => cases found

end Toml

/-! ### Lines of refused fields -/

/-- The key that a line starts with, as the reader of the format takes it. -/
def HeaderFormat.keyOf? : HeaderFormat → List Char → Option String
  | .yaml => Yaml.keyOf?
  | .toml => Toml.keyOf?

open Header

/-- Whether each field of a header starts one of its lines and no other, as it does when it is written on
a line of its own. -/
def Header.IsLineByLine (header : Header) : Prop :=
  ∀ key ∈ header.keys,
    (Text.lines header.text).countP (fun line => header.format.keyOf? line = some key) = 1

instance (header : Header) : Decidable header.IsLineByLine :=
  inferInstanceAs (Decidable (∀ key ∈ header.keys, _))

/-- A line that starts with a key looks like it, unless it is written with escapes. -/
theorem Header.looksLike_of_keyOf? {format : HeaderFormat} {key : String} {line : List Char}
    (found : format.keyOf? line = some key)
    (flush : IsFlush line) (literal : Yaml.IsLiteral line)
    (unquoted : ∀ c ∈ key.toList, isQuote c = false) : LooksLike key.toList line := by
  cases format with
  | yaml => exact Yaml.looksLike_of_keyOf? found flush literal unquoted
  | toml => exact Toml.looksLike_of_keyOf? found flush (fun member => (literal _ member).2 rfl) unquoted

/-- When the value of a field is refused in a header with a line for each field, the line that is reported
is that of the field exactly when no earlier line looks like the field, and its own line does or, as the
first of the header, is the one to fall back to. The line of a field does look like it if it starts with the
key, in quotes or not, and the key is written without escapes. -/
theorem line_of_refused_field {schema : Schema} {source : String} {header : Header}
    {error : MetadataError} {key : String} (split : Header.split source.toList = .ok (some header))
    (lineByLine : header.IsLineByLine) (refused : extract schema source = .error error)
    (about : error.fault.field? = some key) :
    ∃ index line, (Text.lines header.text)[index]? = some line ∧
      header.format.keyOf? line = some key ∧
      (error.line = firstLine + index ↔
        (∀ earlier ∈ (Text.lines header.text).take index, ¬LooksLike key.toList earlier) ∧
          (LooksLike key.toList line ∨
            index = 0 ∧ ∀ other ∈ Text.lines header.text, ¬LooksLike key.toList other)) ∧
      (IsFlush line → Yaml.IsLiteral line → (∀ c ∈ key.toList, isQuote c = false) →
        LooksLike key.toList line) := by
  obtain ⟨member, place⟩ := (refuses_of_extract split refused).line_of_field about
  obtain ⟨line, inside, starts⟩ :=
    List.countP_pos_iff.1 ((lineByLine key member).symm ▸ Nat.one_pos :
      0 < (Text.lines header.text).countP fun line => header.format.keyOf? line = some key)
  have starts : header.format.keyOf? line = some key := of_decide_eq_true starts
  obtain ⟨index, there⟩ := List.mem_iff_getElem?.1 inside
  refine ⟨index, line, there, starts, ?_, looksLike_of_keyOf? starts⟩
  rw [place]
  exact keyLine_eq_iff there

/-- A post with a date behind another field. -/
def datedPost (field date : String) : String :=
  "---\n" ++ field ++ "\n" ++ date ++ "\n---\n"

/-- The header of such a post. -/
def datedHeader (field date : String) : Header :=
  ⟨.yaml, (field ++ "\n" ++ date ++ "\n").toList, 4, []⟩

set_option maxRecDepth 10000 in
/-- A date is refused at its line, with quotes around its key and a blank behind it. -/
theorem line_of_refused_field_quoted :
    Header.split (datedPost "title: T" "\"date\" : soon").toList =
        .ok (some (datedHeader "title: T" "\"date\" : soon")) ∧
      (datedHeader "title: T" "\"date\" : soon").IsLineByLine ∧
      extract .blog (datedPost "title: T" "\"date\" : soon") =
        .error ⟨firstLine + 1, .invalidDate "date" "soon"⟩ ∧
      ∃ index line, (Text.lines (datedHeader "title: T" "\"date\" : soon").text)[index]? = some line ∧
        Yaml.keyOf? line = some "date" ∧ firstLine + 1 = firstLine + index ∧
        ∀ earlier ∈ (Text.lines (datedHeader "title: T" "\"date\" : soon").text).take index,
          ¬LooksLike "date".toList earlier := by
  have split : Header.split (datedPost "title: T" "\"date\" : soon").toList =
      .ok (some (datedHeader "title: T" "\"date\" : soon")) := rfl
  have lineByLine : (datedHeader "title: T" "\"date\" : soon").IsLineByLine := by decide +kernel
  have refused : extract .blog (datedPost "title: T" "\"date\" : soon") =
      .error ⟨firstLine + 1, .invalidDate "date" "soon"⟩ := by decide +kernel
  refine ⟨split, lineByLine, refused, ?_⟩
  obtain ⟨index, line, there, starts, place, -⟩ := line_of_refused_field split lineByLine refused rfl
  match index, there, place with
  | 0, there, _ =>
      have first : some "title: T".toList = some line := there
      cases first
      exact absurd starts (by decide +kernel)
  | 1, there, place => exact ⟨1, line, there, starts, rfl, (place.1 rfl).1⟩
  | index + 2, there, _ => cases there

set_option maxRecDepth 10000 in
/-- A field whose key goes on with a colon behind the word `date` takes the refusal of the date. -/
theorem line_of_refused_field_misled :
    Header.split (datedPost "date:x: 1" "date: soon").toList =
        .ok (some (datedHeader "date:x: 1" "date: soon")) ∧
      (datedHeader "date:x: 1" "date: soon").IsLineByLine ∧
      (Text.lines (datedHeader "date:x: 1" "date: soon").text).map Yaml.keyOf? =
        [some "date:x", some "date"] ∧
      extract .blog (datedPost "date:x: 1" "date: soon") =
        .error ⟨firstLine, .invalidDate "date" "soon"⟩ ∧
      firstLine ≠ firstLine + 1 :=
  ⟨rfl, by decide +kernel, by decide +kernel, by decide +kernel, by decide⟩

end DocPress
