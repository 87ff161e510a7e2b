import DocPress.Html
import DocPress.Proofs.Node
import DocPress.Proofs.Template
import DocPress.Recognizer

/-!
The markup of a tree as parts of a template, one for each piece. The pieces keep clear of opening
braces, apart from those of the expressions, so that the parts can be told from the source.
-/

namespace DocPress.Html

/-! ### Escaping -/

/-- No brace is left in an escaped text. -/
theorem not_mem_escapeChars (text : List Char) : '{' ∉ escapeChars text := by
  intro member
  obtain ⟨c, -, inside⟩ := List.mem_flatMap.1 member
  by_cases brace : c = '{'
  · subst brace
    exact absurd inside (by decide)
  · unfold escapeChar at inside
    repeat' split at inside
    all_goals first
      | exact absurd inside (by decide)
      | exact brace (List.mem_singleton.1 inside).symm

theorem guardChars_cons_of_ne {first : Char} (different : first ≠ '{') (rest : List Char) :
    guardChars (first :: rest) = first :: guardChars rest := by
  have code : first.toNat ≠ 123 := fun same => different (Char.toNat_inj.1 same)
  cases rest with
  | nil => rfl
  | cons next rest => simp [guardChars, code]

/-- Guarding keeps a text that holds no opening brace. -/
theorem guardChars_eq_self {text : List Char} (absent : '{' ∉ text) : guardChars text = text := by
  induction text with
  | nil => rfl
  | cons first rest ih =>
      rw [List.mem_cons, not_or] at absent
      rw [guardChars_cons_of_ne (Ne.symm absent.1), ih absent.2]

/-- Guarding leaves no two braces side by side. -/
theorem isApart_guardChars (text : List Char) : Text.IsApart '{' (guardChars text) := by
  fun_induction guardChars text with
  | case1 => exact .nil
  | case2 last => exact .singleton last
  | case3 first next rest both ih =>
      exact Text.IsApart.append (Text.isClear_iff.1 (Text.isClear_of_not_mem (by decide))).1 ih
        fun last => absurd last (by decide)
  | case4 first next rest apart ih =>
      refine Text.IsApart.append (.singleton first) ih fun brace => ?_
      obtain rfl : first = '{' := Option.some.inj brace
      have different : next ≠ '{' := by
        rintro rfl
        exact apart (by decide)
      rw [guardChars_cons_of_ne different]
      exact fun same => different (Option.some.inj same)

theorem getLast?_guardChars (text : List Char) : (guardChars text).getLast? = text.getLast? := by
  fun_induction guardChars text with
  | case1 | case2 => rfl
  | case3 first next rest both ih | case4 first next rest apart ih =>
      simp [List.getLast?_cons, ih]

/-- Guarded HTML is clear of opening braces unless it ends in one. -/
theorem isClear_guardChars {text : List Char} (closed : text.getLast? ≠ some '{') :
    Text.IsClear '{' (guardChars text) :=
  Text.isClear_iff.2 ⟨isApart_guardChars text, by rwa [getLast?_guardChars]⟩

/-! ### Pieces as parts of a template -/

/-- The part of a template that a piece is. -/
def Markup.segment : Markup → Segment
  | .placeholder name => .placeholder name.toList true
  | piece => .literal piece.chars

/-- The source of a piece is the source of its part. -/
theorem Markup.segmentSource_segment (piece : Markup) :
    Template.segmentSource piece.segment = piece.chars := by
  cases piece with
  | placeholder name =>
      simp [segment, Template.segmentSource, chars, placeholderChars, Template.opening,
        Template.closing, Template.optionalMark]
  | _ => rfl

/-- Whether an attribute has a name without braces. -/
def Attribute.IsPlain (a : Attribute) : Prop :=
  '{' ∉ a.name.toList

/-- Whether the names of attributes hold no brace. -/
def ArePlain (attributes : List Attribute) : Prop :=
  ∀ a ∈ attributes, a.IsPlain

@[simp] theorem arePlain_nil : ArePlain [] := by
  simp [ArePlain]

@[simp] theorem arePlain_cons {a : Attribute} {rest : List Attribute} :
    ArePlain (a :: rest) ↔ a.IsPlain ∧ ArePlain rest := by
  simp [ArePlain]

@[simp] theorem arePlain_append {first second : List Attribute} :
    ArePlain (first ++ second) ↔ ArePlain first ∧ ArePlain second := by
  simp [ArePlain, or_imp, forall_and]

@[simp] theorem attr_isPlain {name value : String} :
    (attr name value).IsPlain ↔ '{' ∉ name.toList := Iff.rfl

theorem arePlain_optionalAttribute {name : String} (free : '{' ∉ name.toList)
    (value : Option String) : ArePlain (optionalAttribute name value) := by
  cases value <;> simp [optionalAttribute, free]

theorem arePlain_titleAttribute (title : String) : ArePlain (titleAttribute title) := by
  by_cases untitled : title = "" <;> simp [titleAttribute, untitled]

/-- Whether a piece brings no brace along: names of elements and attributes and the layout hold
none, raw HTML does not end in one, and a placeholder has the name of an expression. -/
def Markup.IsPlain : Markup → Prop
  | .opening name attributes | .empty name attributes =>
    '{' ∉ name.toList ∧ ArePlain attributes
  | .closing name => '{' ∉ name.toList
  | .text _ => True
  | .layout value => '{' ∉ value.toList
  | .raw value => value.toList.getLast? ≠ some '{'
  | .placeholder name => Recognizer.isName name.toList = true

theorem Attribute.IsPlain.not_mem_chars {a : Attribute} (plain : a.IsPlain) : '{' ∉ a.chars := by
  obtain ⟨name, value⟩ := a
  unfold IsPlain at plain
  cases value with
  | none => simpa [chars] using plain
  | some value =>
      have escaped := not_mem_escapeChars value.toList
      simp [chars, plain, escaped]

/-- The characters of names are letters, digits and three signs. -/
theorem toNat_of_isNameChar {c : Char} (nameChar : Recognizer.isNameChar c = true) :
    (c.toNat = 45 ∨ c.toNat = 46 ∨ c.toNat = 95) ∨ (48 ≤ c.toNat ∧ c.toNat ≤ 57) ∨
      (65 ≤ c.toNat ∧ c.toNat ≤ 90) ∨ (97 ≤ c.toNat ∧ c.toNat ≤ 122) := by
  delta Recognizer.isNameChar Char.isAlphanum Char.isAlpha Char.isUpper Char.isLower at nameChar
  simp only [Char.isDigit, Bool.or_eq_true, Bool.and_eq_true, decide_eq_true_eq, ge_iff_le,
    UInt32.le_iff_toNat_le] at nameChar
  rcases nameChar with (((((upper | lower) | digit) | rfl) | rfl) | rfl)
  · exact .inr (.inr (.inl upper))
  · exact .inr (.inr (.inr lower))
  · exact .inr (.inl digit)
  all_goals exact .inl (by decide)

/-- The name of an expression can stand in a placeholder. -/
theorem isPlainName_of_isName {name : List Char} (named : Recognizer.isName name = true) :
    Template.IsPlainName name := by
  simp only [Recognizer.isName, Bool.and_eq_true, Bool.not_eq_true', List.isEmpty_eq_false_iff,
    List.all_eq_true] at named
  refine ⟨named.1, fun c member => ?_⟩
  have code := toNat_of_isNameChar (named.2 c member)
  refine ⟨?_, ?_, ?_, ?_⟩
  · rw [Text.isBlank, Bool.eq_false_iff]
    simp only [ne_eq, Bool.or_eq_true, Bool.and_eq_true, decide_eq_true_eq, beq_iff_eq]
    omega
  all_goals
    rintro rfl
    exact absurd code (by decide)

theorem ArePlain.not_mem_chars {attributes : List Attribute} (plain : ArePlain attributes) :
    '{' ∉ attributes.flatMap Attribute.chars := by
  intro member
  obtain ⟨a, inside, brace⟩ := List.mem_flatMap.1 member
  exact (plain a inside).not_mem_chars brace

/-- The part of a plain piece can be told from its source. -/
theorem Markup.IsPlain.isWritable {piece : Markup} (plain : piece.IsPlain) :
    Template.IsWritable piece.segment := by
  cases piece with
  | opening name attributes =>
      refine Text.isClear_of_not_mem ?_
      simp [chars, plain.1, ArePlain.not_mem_chars plain.2]
  | closing name =>
      refine Text.isClear_of_not_mem ?_
      have absent : '{' ∉ name.toList := plain
      simp [chars, absent]
  | empty name attributes =>
      refine Text.isClear_of_not_mem ?_
      simp [chars, plain.1, ArePlain.not_mem_chars plain.2]
  | text value => exact Text.isClear_of_not_mem (not_mem_escapeChars value.toList)
  | layout value => exact Text.isClear_of_not_mem plain
  | raw value => exact isClear_guardChars plain
  | placeholder name => exact isPlainName_of_isName plain

/-! ### The markup of a tree -/

/-- Whether the kind of a node brings no brace along: an expression has a name that the recognizer
accepts, and raw HTML does not end in a brace. -/
def IsPlainKind : NodeKind → Prop
  | .expression name => Recognizer.isName name.toList = true
  | .html value => value.toList.getLast? ≠ some '{'
  | _ => True

/-- Whether all pieces of a page are plain. -/
def IsPlainPage (page : List Markup) : Prop :=
  ∀ piece ∈ page, piece.IsPlain

@[simp] theorem isPlainPage_nil : IsPlainPage [] := by
  simp [IsPlainPage]

@[simp] theorem isPlainPage_cons {piece : Markup} {rest : List Markup} :
    IsPlainPage (piece :: rest) ↔ piece.IsPlain ∧ IsPlainPage rest := by
  simp [IsPlainPage]

@[simp] theorem isPlainPage_append {first second : List Markup} :
    IsPlainPage (first ++ second) ↔ IsPlainPage first ∧ IsPlainPage second := by
  simp [IsPlainPage, or_imp, forall_and]

/-- An element is plain when its name, the names of its attributes and its content are. -/
@[simp] theorem isPlainPage_wrap {name : String} {attributes : List Attribute}
    {content : List Markup} :
    IsPlainPage (wrap name attributes content) ↔
      ('{' ∉ name.toList ∧ ArePlain attributes) ∧ IsPlainPage content := by
  simp only [wrap, isPlainPage_append, isPlainPage_cons, isPlainPage_nil, Markup.IsPlain, and_true]
  constructor
  · rintro ⟨start, -⟩
    exact start
  · intro start
    exact ⟨start, start.1.1⟩

theorem not_mem_toString (n : Nat) : '{' ∉ (toString n).toList := by
  intro member
  rw [Nat.toString_eq_ofList_toDigits, String.toList_ofList] at member
  exact absurd (Nat.isDigit_of_mem_toDigits (by decide) (by decide) member) (by decide)

theorem not_mem_of_isElementName {name : String} (element : isElementName name = true) :
    '{' ∉ name.toList := by
  intro member
  unfold isElementName at element
  cases letters : name.toList with
  | nil => simp [letters] at member
  | cons first rest =>
      rw [letters] at element member
      simp only [Bool.and_eq_true, List.all_eq_true] at element
      rcases List.mem_cons.1 member with same | behind
      · exact absurd (same ▸ element.1) (by decide)
      · exact absurd (element.2 '{' behind) (by decide)

/-- The markup of a node is plain when the markup of its children is. -/
theorem isPlainPage_kindMarkup {kind : NodeKind} {children : List Node} {content : List Markup}
    (plain : IsPlainKind kind) (inside : IsPlainPage content) :
    IsPlainPage (kindMarkup ⟨kind, children⟩ content) := by
  cases kind with
  | heading level id =>
      have free := not_mem_toString level.toNat
      simpa [kindMarkup, wrapLine, Markup.IsPlain, arePlain_optionalAttribute, inside] using free
  | codeBlock language info code =>
      cases children <;>
        simp [kindMarkup, codeMarkup, languageClass, Markup.IsPlain, arePlain_optionalAttribute,
          inside]
  | codeBlockWithTitle title language code =>
      cases children <;>
        simp [kindMarkup, wrapLine, codeMarkup, languageClass, Markup.IsPlain,
          arePlain_optionalAttribute, inside]
  | list ordered start =>
      cases ordered with
      | false => simp [kindMarkup, wrapLines, wrapLine, Markup.IsPlain, inside]
      | true =>
          simp only [kindMarkup, wrapLines, wrapLine]
          cases start with
          | none => simp [Markup.IsPlain, inside]
          | some n => by_cases first : n = 1 <;> simp [Markup.IsPlain, first, inside]
  | listItem checked =>
      rcases checked with _ | _ | _ <;>
        simp [kindMarkup, wrapLine, checkbox, attr, Markup.IsPlain, Attribute.IsPlain, inside]
  | tableCell header align =>
      cases header <;> simp [kindMarkup, arePlain_optionalAttribute, inside]
  | custom name attributes =>
      by_cases element : isElementName name = true
      · have kept : ArePlain ((attributes.entries.filter fun entry => isElementName entry.1).map
            fun entry => attr entry.1 entry.2) := by
          intro a member
          obtain ⟨entry, inEntries, rfl⟩ := List.mem_map.1 member
          exact not_mem_of_isElementName (List.mem_filter.1 inEntries).2
        simp [kindMarkup, element, not_mem_of_isElementName element, kept, inside]
      · simpa [kindMarkup, element] using inside
  | html value => simpa [kindMarkup, Markup.IsPlain, IsPlainKind] using plain
  | expression name => simpa [kindMarkup, Markup.IsPlain, IsPlainKind] using plain
  | _ =>
      simp [kindMarkup, wrapLine, wrapLines, Markup.IsPlain, arePlain_optionalAttribute,
        arePlain_titleAttribute, inside]

mutual

/-- The markup of a tree of plain kinds is plain. -/
theorem isPlainPage_markup : ∀ {node : Node}, Node.Every IsPlainKind node →
    IsPlainPage (markup node)
  | ⟨kind, children⟩, plain => by
      obtain ⟨here, below⟩ := Node.every_mk.1 plain
      rw [markup]
      exact isPlainPage_kindMarkup here (isPlainPage_markupAll below)

theorem isPlainPage_markupAll : ∀ {nodes : List Node}, Node.EveryAll IsPlainKind nodes →
    IsPlainPage (markupAll nodes)
  | [], _ => isPlainPage_nil
  | node :: rest, plain => by
      obtain ⟨first, others⟩ := Node.everyAll_cons.1 plain
      exact isPlainPage_append.2 ⟨isPlainPage_markup first, isPlainPage_markupAll others⟩

end

end DocPress.Html
