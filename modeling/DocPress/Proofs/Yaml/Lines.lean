import DocPress.Proofs.Text
import DocPress.Proofs.Yaml.Map

/-!
Characters and lines of written maps. All characters are printable, and no line begins like a delimiter.
The last line ends in a line feed, unless the last text is a block that ends in a line end of another
kind.
-/

namespace DocPress.Yaml

open Lexer

/-! ### Lines that begin with dashes -/

/-- What the delimiter of a header begins with. -/
def dashes : List Char := ['-', '-', '-']

/-- Whether no dash stands right behind a line feed. -/
def Hangs (text : List Char) : Prop :=
  text.IsChain fun first next => ¬(first = '\n' ∧ next = '-')

/-- Whether no line begins with three dashes; `atStart` says whether the text is at the start of one. -/
def IsUnmarked : Bool → List Char → Prop
  | _, [] => True
  | atStart, c :: rest => (atStart = true → ¬dashes <+: c :: rest) ∧ IsUnmarked (c = '\n') rest

variable {front rest text : List Char} {atStart : Bool}

theorem Hangs.append {first second : List Char} (head : Hangs first) (tail : Hangs second)
    (meets : first.getLast? = some '\n' → second.head? ≠ some '-') : Hangs (first ++ second) := by
  refine List.isChain_append.2 ⟨head, tail, ?_⟩
  rintro last final next first ⟨rfl, rfl⟩
  exact meets final first

theorem hangs_of_not_mem (absent : '\n' ∉ text) : Hangs text := by
  induction text with
  | nil => exact .nil
  | cons c rest ih =>
      rw [List.mem_cons, not_or] at absent
      refine List.isChain_cons.2 ⟨fun next _ both => absent.1 both.1.symm, ih absent.2⟩

theorem Hangs.cons (hangs : Hangs text) {c : Char} (other : c ≠ '\n') : Hangs (c :: text) :=
  List.isChain_cons.2 ⟨fun _ _ both => other both.1, hangs⟩

theorem hangs_spaces (count : Nat) : Hangs (spaces count) := by
  refine hangs_of_not_mem fun member => ?_
  have same := List.eq_of_mem_replicate member
  simp at same

/-- An inline text hangs. -/
theorem hangs_of_isInline (inline : IsInline text) : Hangs text := by
  refine hangs_of_not_mem fun member => ?_
  have lineEnd := (inline '\n' member).2
  cases lineEnd

/-- A text without a marker at a line's start has none if it stands inside a line either. -/
theorem IsUnmarked.later (unmarked : IsUnmarked true text) (atStart : Bool) :
    IsUnmarked atStart text := by
  cases text with
  | nil => trivial
  | cons c rest => exact ⟨fun _ => unmarked.1 rfl, unmarked.2⟩

/-- A piece in front of a text without marked lines. -/
theorem isUnmarked_append (filled : front ≠ []) (hangs : Hangs front)
    (begins : atStart = true → ¬dashes <+: front ++ rest)
    (behind : IsUnmarked (front.getLast? = some '\n') rest) : IsUnmarked atStart (front ++ rest) := by
  induction front generalizing atStart with
  | nil => exact absurd rfl filled
  | cons c front ih =>
      refine ⟨begins, ?_⟩
      cases front with
      | nil => simpa using behind
      | cons d front =>
          obtain ⟨meets, hangs⟩ := List.isChain_cons_cons.1 hangs
          refine ih (List.cons_ne_nil _ _) hangs (fun feed marked => meets ⟨by simpa using feed, ?_⟩) ?_
          · exact ((List.cons_prefix_cons.1 marked).1).symm
          · rwa [List.getLast?_cons_cons] at behind

/-- Spaces in front keep a text free of markers. -/
theorem isUnmarked_spaces (unmarked : IsUnmarked true rest) (count : Nat) :
    IsUnmarked true (spaces count ++ rest) := by
  induction count with
  | zero => exact unmarked
  | succ count ih =>
      refine ⟨fun _ marked => ?_, ih.later _⟩
      have same := (List.cons_prefix_cons.1 marked).1
      simp at same

/-- A text free of markers does not start with three dashes. -/
theorem IsUnmarked.not_prefix (unmarked : IsUnmarked true text) : ¬dashes <+: text := by
  cases text with
  | nil => simp [dashes]
  | cons c rest => exact unmarked.1 rfl

/-- What stands behind a line end in a text free of markers is free of them too. -/
theorem IsUnmarked.behind (unmarked : IsUnmarked atStart (front ++ rest))
    (ended : front.getLast? = some '\n') : IsUnmarked true rest := by
  induction front generalizing atStart with
  | nil => cases ended
  | cons c front ih =>
      cases front with
      | nil =>
          obtain rfl := Option.some.inj ended
          exact unmarked.2
      | cons d front => exact ih unmarked.2 (by rwa [List.getLast?_cons_cons] at ended)

/-- No line of a text without marked lines is marked. -/
theorem IsUnmarked.lines (unmarked : IsUnmarked true text) :
    ∀ line ∈ Text.linesWithEnds text, ¬dashes <+: line := by
  generalize lines : Text.linesWithEnds text = all
  induction all generalizing text with
  | nil => exact fun _ no => absurd no List.not_mem_nil
  | cons line more ih =>
      have whole : line ++ more.flatten = text := by
        rw [← List.flatten_cons, ← lines, Text.flatten_linesWithEnds]
      subst whole
      obtain ⟨-, later, ended⟩ := Text.linesWithEnds_of_cons lines
      refine List.forall_mem_cons.2 ⟨fun marked => ?_, ?_⟩
      · exact unmarked.not_prefix (marked.trans (List.prefix_append _ _))
      · rcases ended with rfl | feed
        · exact fun _ no => absurd no List.not_mem_nil
        · exact ih (unmarked.behind feed) later

/-! ### Written texts -/

/-- Indenting adds nothing but spaces. -/
theorem mem_indentLines {indent : Nat} {c : Char} (member : c ∈ indentLines indent atStart text) :
    c = ' ' ∨ c ∈ text := by
  induction text generalizing atStart with
  | nil => cases member
  | cons d rest ih =>
      have behind {start : Bool} (member : c ∈ d :: indentLines indent start rest) :
          c = ' ' ∨ c ∈ d :: rest := by
        rcases List.mem_cons.1 member with rfl | member
        · exact .inr List.mem_cons_self
        · exact (ih member).imp_right (List.mem_cons_of_mem d)
      rw [indentLines] at member
      split at member
      · exact behind member
      · split at member
        · rcases List.mem_append.1 member with blank | member
          · exact .inl (List.eq_of_mem_replicate blank)
          · exact behind member
        · exact behind member

/-- Indented lines begin with blanks, and empty ones with their line ends. -/
theorem hangs_indentLines {indent : Nat} (positive : 0 < indent) (atStart : Bool) (text : List Char) :
    Hangs (indentLines indent atStart text) ∧
      (atStart = true → (indentLines indent atStart text).head? ≠ some '-') := by
  induction text generalizing atStart with
  | nil => exact ⟨.nil, fun _ no => by cases no⟩
  | cons c rest ih =>
      rw [indentLines]
      split
      case isTrue lineEnd =>
          obtain ⟨hangs, begins⟩ := ih true
          refine ⟨List.isChain_cons.2 ⟨fun next first both => ?_, hangs⟩, fun _ first => ?_⟩
          · exact begins rfl (both.2 ▸ first)
          · obtain rfl := Option.some.inj first
            cases lineEnd
      case isFalse inLine =>
          obtain ⟨hangs, -⟩ := ih false
          have other : c ≠ '\n' := by
            rintro rfl
            exact inLine rfl
          split
          case isTrue start =>
              obtain ⟨count, rfl⟩ : ∃ count, indent = count + 1 := ⟨indent - 1, by omega⟩
              refine ⟨(hangs_spaces _).append (hangs.cons other) fun final => ?_, fun _ first => ?_⟩
              · have blank := List.eq_of_mem_replicate (List.mem_of_getLast? final)
                simp at blank
              · have blank := Option.some.inj first
                simp at blank
          case isFalse start => exact ⟨hangs.cons other, fun same => absurd same start⟩

theorem isInline_blockHints (text : List Char) : IsInline (blockHints text) := by
  rw [blockHints_eq]
  cases hidesIndent text <;> cases chompingOf text <;> decide

/-- A block scalar that is indented hangs. -/
theorem hangs_blockChars {indent : Nat} (positive : 0 < indent) (text : List Char) :
    Hangs (blockChars indent text) := by
  obtain ⟨hangs, begins⟩ := hangs_indentLines positive true text
  have bar : IsInline ['|'] := by decide
  have front := bar.append (isInline_blockHints text)
  refine (hangs_of_isInline front).append ?_ fun final => ?_
  · exact List.isChain_cons.2 ⟨fun next first both => begins rfl (both.2 ▸ first), hangs⟩
  · have lineEnd := (front _ (List.mem_of_getLast? final)).2
    cases lineEnd

/-- The lines of a quoted scalar hold nothing but its text, spaces and quotes. -/
theorem mem_quotedLines {indent : Nat} {c : Char} (member : c ∈ quotedLines indent text) :
    c = ' ' ∨ c = '\'' ∨ c ∈ text := by
  rcases List.mem_append.1 member with member | member
  · refine (mem_indentLines member).imp_right fun member => ?_
    obtain ⟨d, inside, member⟩ := List.mem_flatMap.1 member
    rw [quoteChar] at member
    split at member
    · simp_all
    · obtain rfl := List.mem_singleton.1 member
      exact .inr inside
  · split at member
    · exact .inl (List.eq_of_mem_replicate member)
    · cases member

theorem mem_singleQuotedChars {indent : Nat} {c : Char} (member : c ∈ singleQuotedChars indent text) :
    c = ' ' ∨ c = '\'' ∨ c ∈ text := by
  rw [singleQuotedChars_eq] at member
  rcases List.mem_cons.1 member with rfl | member
  · exact .inr (.inl rfl)
  · rcases List.mem_append.1 member with member | member
    · exact mem_quotedLines member
    · exact .inr (.inl (List.mem_singleton.1 member))

/-- A scalar that is indented hangs in whichever style it is written. -/
theorem hangs_scalarChars {indent : Nat} (positive : 0 < indent) (simpleKey : Bool) (text : String) :
    Hangs (scalarChars indent simpleKey text) := by
  have styled := styled_styleOf simpleKey text
  rw [scalarChars]
  generalize styleOf simpleKey text = style at styled ⊢
  cases styled with
  | plain plain clear => exact hangs_of_isInline plain.inline
  | single allowed feed =>
      refine hangs_of_not_mem fun member => ?_
      rcases mem_singleQuotedChars member with same | same | member
      · simp at same
      · simp at same
      · exact feed member
  | double => exact hangs_of_isInline (isInline_doubleQuotedChars _)
  | literal => exact hangs_blockChars positive _

/-- A scalar is written in printable characters. -/
theorem printable_scalarChars (indent : Nat) (simpleKey : Bool) (text : String) :
    ∀ c ∈ scalarChars indent simpleKey text, isPrintable c = true := by
  intro c member
  have styled := styled_styleOf simpleKey text
  rw [scalarChars] at member
  generalize styleOf simpleKey text = style at styled member
  cases styled with
  | plain plain clear => exact (plain.inline c member).1
  | single allowed feed =>
      rcases mem_singleQuotedChars member with rfl | rfl | member
      · rfl
      · rfl
      · simp only [singleAllowed, Bool.and_eq_true, List.all_eq_true] at allowed
        exact allowed.1 c member
  | double => exact (isInline_doubleQuotedChars _ c member).1
  | literal allowed =>
      simp only [blockAllowed, Bool.and_eq_true, List.all_eq_true] at allowed
      dsimp only at member
      rw [blockChars, List.cons_append] at member
      rcases List.mem_cons.1 member with rfl | member
      · rfl
      · rcases List.mem_append.1 member with hint | member
        · exact (isInline_blockHints _ c hint).1
        · rcases List.mem_cons.1 member with rfl | member
          · rfl
          · rcases mem_indentLines member with rfl | member
            · rfl
            · exact allowed.1.1.2 c member

/-- A scalar does not begin like a delimiter, even with what may come behind it. -/
theorem not_dashes_scalarChars (indent : Nat) (simpleKey : Bool) (text : String)
    (other : rest.head? ≠ some '-') : ¬dashes <+: scalarChars indent simpleKey text ++ rest := by
  have quoted {c : Char} {inner : List Char} (mark : c ≠ '-') : ¬dashes <+: (c :: inner) ++ rest :=
    fun marked => mark ((List.cons_prefix_cons.1 marked).1).symm
  have styled := styled_styleOf simpleKey text
  rw [scalarChars]
  generalize styleOf simpleKey text = style at styled ⊢
  cases styled with
  | plain plain clear =>
      rintro ⟨tail, same⟩
      obtain ⟨more, chars⟩ := exists_of_append_eq other plain.filled same.symm
      have starts := plain.starts
      rw [chars] at starts
      simp [startsAsIndicator] at starts
  | single => exact quoted (by decide)
  | double => exact quoted (by decide)
  | literal => exact quoted (by decide)

/-! ### The end of a written text -/

/-- Whether a text is written as a block that ends in a line end which is no line feed. -/
def endsInSeparator (text : String) : Bool :=
  styleOf false text = .literal && text.toList.getLast? != some '\n' && text.toList.getLast?.any isBreak

/-- The line of a text that is no key ends in a line feed, with that one exception. -/
theorem getLast?_endLine_scalarChars (indent : Nat) (text : String) :
    (endLine (scalarChars indent false text)).getLast? = some '\n' ↔ endsInSeparator text = false := by
  have styled := styled_styleOf false text
  rw [scalarChars, endsInSeparator]
  generalize styleOf false text = style at styled ⊢
  cases styled with
  | plain plain clear => simp [endLine_inline plain.inline]
  | single => simp [endLine_singleQuotedChars]
  | double => simp [endLine_inline (isInline_doubleQuotedChars _)]
  | literal allowed =>
      have filled : text.toList ≠ [] := by
        intro empty
        rw [empty] at allowed
        cases allowed
      have last : (endLine (blockChars indent text.toList)).getLast? = (endLine text.toList).getLast? := by
        have inner : endLine text.toList ≠ [] := by
          intro empty
          have ended := getLast?_endLine text.toList
          rw [empty] at ended
          cases ended
        have written := getLast?_indentLines indent true (endLine text.toList)
        have lines : indentLines indent true (endLine text.toList) ≠ [] := by
          intro empty
          rw [empty, List.getLast?_nil] at written
          exact inner (List.getLast?_eq_none_iff.1 written.symm)
        rw [endLine_blockChars filled, ← List.cons_append, List.append_cons,
          List.getLast?_append_of_ne_nil _ lines, written]
      dsimp only
      rw [last, endLine]
      split
      case isTrue ended => simp [ended]
      case isFalse open' => simp [open']

/-! ### Lines of values and entries -/

variable {value : Flat} {items : List String} {entries : List (String × Flat)}

/-- A text that hangs still does with its last line ended. -/
theorem Hangs.endLine (hangs : Hangs text) : Hangs (endLine text) := by
  rw [Yaml.endLine]
  split
  · exact hangs
  · exact hangs.append (List.isChain_singleton _) fun _ => by simp

/-- The last text that is written for a value. -/
def Flat.lastText? : Flat → Option String
  | .text value => some value
  | .flag _ => none
  | .list items => items.getLast?

/-- Whether what is written for a value ends in a line feed. -/
def Flat.endsLine (value : Flat) : Bool :=
  value.lastText?.all fun text => !endsInSeparator text

theorem endLine_ne_nil (text : List Char) : endLine text ≠ [] := by
  intro empty
  have ended := getLast?_endLine text
  rw [empty] at ended
  cases ended

theorem shortText_ne_nil (value : Flat) : shortText value ≠ [] := by
  cases value with
  | text => exact endLine_ne_nil _
  | flag => simp [shortText]
  | list => exact List.cons_ne_nil _ _

/-- A short value hangs. -/
theorem hangs_shortText (value : Flat) : Hangs (shortText value) := by
  cases value with
  | text value => exact (hangs_scalarChars (by decide) false value).endLine
  | flag value => cases value <;> simp [shortText, flagText, Hangs]
  | list => simp [shortText, Hangs]

theorem getLast?_shortText (short : value.isShort = true) :
    ((shortText value).getLast? = some '\n') = (value.endsLine = true) := by
  cases value with
  | text value => simp [shortText, getLast?_endLine_scalarChars, Flat.endsLine, Flat.lastText?]
  | flag value => simp [shortText, Flat.endsLine, Flat.lastText?]
  | list items =>
      cases items with
      | nil => simp [shortText, Flat.endsLine, Flat.lastText?]
      | cons item more => cases short

/-- The piece of an item between its dash and the next line. -/
theorem isUnmarked_listText {indent : Nat}
    (behind : IsUnmarked (Flat.list items).endsLine rest) :
    IsUnmarked true (listText indent items rest) := by
  induction items with
  | nil => exact behind
  | cons item more ih =>
      have hangs : Hangs ('-' :: ' ' :: endLine (scalarChars (indent + 2) false item)) :=
        ((hangs_scalarChars (by omega) false item).endLine.cons (by decide)).cons (by decide)
      rw [listText, ← List.cons_append, ← List.cons_append]
      refine isUnmarked_append (List.cons_ne_nil _ _) hangs (fun _ marked => ?_) ?_
      · obtain ⟨-, second⟩ := List.cons_prefix_cons.1 marked
        have same := (List.cons_prefix_cons.1 second).1
        simp at same
      · cases more with
        | nil =>
            have last : (('-' :: ' ' :: endLine (scalarChars (indent + 2) false item)).getLast? =
                some '\n') = ((Flat.list [item]).endsLine = true) := by
              rw [List.getLast?_cons_cons, ← List.singleton_append,
                List.getLast?_append_of_ne_nil _ (endLine_ne_nil _)]
              simp [getLast?_endLine_scalarChars, Flat.endsLine, Flat.lastText?]
            simp only [last, Bool.decide_eq_true]
            exact behind
        | cons next more => exact (isUnmarked_spaces (ih behind) _).later _

/-- The line of a value behind its colon, and those behind it. -/
theorem isUnmarked_valueChars (simple : Bool) (behind : IsUnmarked value.endsLine rest) :
    IsUnmarked false (endLine (valueChars simple value) ++ rest) := by
  cases short : value.isShort with
  | true =>
      have last : ((' ' :: shortText value).getLast? = some '\n') = (value.endsLine = true) := by
        rw [← getLast?_shortText short, ← List.singleton_append,
          List.getLast?_append_of_ne_nil _ (shortText_ne_nil value)]
      rw [endLine_short short]
      refine isUnmarked_append (List.cons_ne_nil _ _) ((hangs_shortText value).cons (by decide))
        (fun no => by cases no) ?_
      simpa only [last, Bool.decide_eq_true] using behind
  | false =>
      obtain ⟨item, more, rfl⟩ := value.exists_of_not_isShort short
      cases simple with
      | true =>
          rw [endLine_list_simple]
          exact ⟨(fun no => by cases no), isUnmarked_listText behind⟩
      | false =>
          rw [endLine_list_long]
          exact ⟨(fun no => by cases no), (isUnmarked_listText behind).later _⟩

/-- What stands in front of a value. -/
def keyChars (key : String) : List Char :=
  if isSimpleKey key then scalarChars 2 true key ++ [':']
  else '?' :: ' ' :: (endLine (scalarChars 2 false key) ++ [':'])

/-- An entry is its key and then its value, with the line ended. -/
theorem entryChars_eq (key : String) (value : Flat) :
    entryChars key value = keyChars key ++ endLine (valueChars (isSimpleKey key) value) := by
  cases simple : isSimpleKey key with
  | true => simp [entryChars_simple simple, keyChars, simple]
  | false => simp [entryChars_long simple, keyChars, simple]

theorem getLast?_keyChars (key : String) : (keyChars key).getLast? = some ':' := by
  rw [keyChars]
  split <;> simp [List.getLast?_cons]

/-- A key hangs. -/
theorem hangs_keyChars (key : String) : Hangs (keyChars key) := by
  have colon : Hangs [':'] := List.isChain_singleton _
  rw [keyChars]
  split
  · exact (hangs_scalarChars (by decide) true key).append colon fun _ => by simp
  · have inner := (hangs_scalarChars (by decide : 0 < 2) false key).endLine.append colon fun _ => by simp
    exact (inner.cons (by decide)).cons (by decide)

/-- A line that starts with a key does not start with three dashes. -/
theorem not_dashes_keyChars (key : String) (rest : List Char) : ¬dashes <+: keyChars key ++ rest := by
  rw [keyChars]
  split
  · rw [List.append_assoc]
    exact not_dashes_scalarChars 2 true key (by simp)
  · intro marked
    have same := (List.cons_prefix_cons.1 marked).1
    simp at same

/-- The lines of an entry, in front of others. -/
theorem isUnmarked_entryChars (key : String) (behind : IsUnmarked value.endsLine rest) :
    IsUnmarked true (entryChars key value ++ rest) := by
  have filled : keyChars key ≠ [] := by
    intro empty
    have last := getLast?_keyChars key
    rw [empty] at last
    cases last
  rw [entryChars_eq, List.append_assoc]
  refine isUnmarked_append filled (hangs_keyChars key) (fun _ => not_dashes_keyChars key _) ?_
  rw [getLast?_keyChars]
  exact isUnmarked_valueChars _ behind

/-- Whether the lines of a map are all ended by line feeds. -/
def endsLine (entries : List (String × Flat)) : Bool :=
  entries.getLast?.all fun entry => entry.2.endsLine

/-- The lines of a map, in front of what comes behind it. -/
theorem isUnmarked_mapChars (behind : IsUnmarked (endsLine entries) rest) :
    IsUnmarked true (mapChars entries ++ rest) := by
  induction entries with
  | nil => exact behind
  | cons entry more ih =>
      rw [mapChars, List.flatMap_cons, ← mapChars, List.append_assoc]
      refine isUnmarked_entryChars entry.1 ?_
      cases more with
      | nil => exact behind
      | cons next more => exact (ih behind).later _

/-! ### The last line -/

/-- A list ends its own line exactly when its last item does. -/
theorem getLast?_listText {indent : Nat} (filled : items ≠ []) :
    (listText indent items []).getLast? = some '\n' ↔ (Flat.list items).endsLine = true := by
  induction items with
  | nil => exact absurd rfl filled
  | cons item more ih =>
      rw [listText, ← List.cons_append, ← List.cons_append]
      cases more with
      | nil =>
          have last : ('-' :: ' ' :: endLine (scalarChars (indent + 2) false item)).getLast? =
              (endLine (scalarChars (indent + 2) false item)).getLast? := by
            rw [List.getLast?_cons_cons, ← List.singleton_append,
              List.getLast?_append_of_ne_nil _ (endLine_ne_nil _)]
          rw [show spaces (if ([] : List String).isEmpty then 0 else indent) ++ listText indent [] [] = []
            from rfl, List.append_nil, last, getLast?_endLine_scalarChars]
          simp [Flat.endsLine, Flat.lastText?]
      | cons next more =>
          have behind : listText indent (next :: more) [] ≠ [] := List.cons_ne_nil _ _
          rw [← List.append_assoc, List.getLast?_append_of_ne_nil _ behind, ih (List.cons_ne_nil _ _)]
          simp [Flat.endsLine, Flat.lastText?]

/-- A value ends its own line exactly when it is said to. -/
theorem getLast?_valueChars (simple : Bool) :
    (endLine (valueChars simple value)).getLast? = some '\n' ↔ value.endsLine = true := by
  cases short : value.isShort with
  | true =>
      rw [endLine_short short, ← List.singleton_append,
        List.getLast?_append_of_ne_nil _ (shortText_ne_nil value), getLast?_shortText short]
  | false =>
      obtain ⟨item, more, rfl⟩ := value.exists_of_not_isShort short
      have filled (indent : Nat) : listText indent (item :: more) [] ≠ [] := List.cons_ne_nil _ _
      rw [← List.append_nil (endLine _)]
      cases simple with
      | true =>
          rw [endLine_list_simple, ← List.singleton_append,
            List.getLast?_append_of_ne_nil _ (filled 0), getLast?_listText (List.cons_ne_nil _ _)]
      | false =>
          rw [endLine_list_long, ← List.singleton_append,
            List.getLast?_append_of_ne_nil _ (filled 2), getLast?_listText (List.cons_ne_nil _ _)]

theorem mapChars_ne_nil (filled : entries ≠ []) : mapChars entries ≠ [] := by
  cases entries with
  | nil => exact absurd rfl filled
  | cons entry more =>
      rw [mapChars, List.flatMap_cons, entryChars_eq]
      simp [endLine_ne_nil]

/-- The text of a map that holds anything ends in a line feed exactly when the last value does. -/
theorem getLast?_mapChars (filled : entries ≠ []) :
    (mapChars entries).getLast? = some '\n' ↔ endsLine entries = true := by
  induction entries with
  | nil => exact absurd rfl filled
  | cons entry more ih =>
      rw [mapChars, List.flatMap_cons, ← mapChars]
      cases more with
      | nil =>
          rw [show mapChars [] = [] from rfl, List.append_nil, entryChars_eq,
            List.getLast?_append_of_ne_nil _ (endLine_ne_nil _), getLast?_valueChars]
          simp [endsLine]
      | cons next more =>
          rw [List.getLast?_append_of_ne_nil _ (mapChars_ne_nil (List.cons_ne_nil _ _)),
            ih (List.cons_ne_nil _ _)]
          simp [endsLine]

/-! ### Characters -/

/-- A short value is written in printable characters. -/
theorem printable_shortText (value : Flat) : ∀ c ∈ shortText value, isPrintable c = true := by
  cases value with
  | text value => exact printable_endLine (printable_scalarChars 2 false value)
  | flag value => cases value <;> exact List.all_eq_true.1 rfl
  | list =>
      have chars : ∀ c ∈ ['[', ']', '\n'], isPrintable c = true := List.all_eq_true.1 rfl
      exact chars

/-- A list is written in printable characters. -/
theorem printable_listText (indent : Nat) (items : List String) :
    ∀ c ∈ listText indent items [], isPrintable c = true := by
  induction items with
  | nil => exact fun _ no => absurd no List.not_mem_nil
  | cons item more ih =>
      have blanks (count : Nat) : ∀ c ∈ spaces count, isPrintable c = true := fun c member => by
        rw [List.eq_of_mem_replicate member]
        rfl
      refine List.forall_mem_cons.2 ⟨rfl, List.forall_mem_cons.2 ⟨rfl, ?_⟩⟩
      refine List.forall_mem_append.2 ⟨?_, List.forall_mem_append.2 ⟨blanks _, ih⟩⟩
      exact printable_endLine (printable_scalarChars (indent + 2) false item)

/-- A value is written in printable characters. -/
theorem printable_valueChars (simple : Bool) (value : Flat) :
    ∀ c ∈ endLine (valueChars simple value), isPrintable c = true := by
  cases short : value.isShort with
  | true =>
      rw [endLine_short short]
      exact List.forall_mem_cons.2 ⟨rfl, printable_shortText value⟩
  | false =>
      obtain ⟨item, more, rfl⟩ := value.exists_of_not_isShort short
      rw [← List.append_nil (endLine _)]
      cases simple with
      | true =>
          rw [endLine_list_simple]
          exact List.forall_mem_cons.2 ⟨rfl, printable_listText 0 _⟩
      | false =>
          rw [endLine_list_long]
          exact List.forall_mem_cons.2 ⟨rfl, printable_listText 2 _⟩

/-- A key is written in printable characters. -/
theorem printable_keyChars (key : String) : ∀ c ∈ keyChars key, isPrintable c = true := by
  have colon : ∀ c ∈ [':'], isPrintable c = true := List.all_eq_true.1 rfl
  rw [keyChars]
  split
  · exact List.forall_mem_append.2 ⟨printable_scalarChars 2 true key, colon⟩
  · refine List.forall_mem_cons.2 ⟨rfl, List.forall_mem_cons.2 ⟨rfl, List.forall_mem_append.2 ⟨?_, colon⟩⟩⟩
    exact printable_endLine (printable_scalarChars 2 false key)

/-- All characters of a written map are printable. -/
theorem printable_mapChars (entries : List (String × Flat)) :
    ∀ c ∈ mapChars entries, isPrintable c = true := by
  intro c member
  obtain ⟨entry, -, member⟩ := List.mem_flatMap.1 member
  rw [entryChars_eq] at member
  rcases List.mem_append.1 member with member | member
  · exact printable_keyChars entry.1 c member
  · exact printable_valueChars _ entry.2 c member

end DocPress.Yaml
