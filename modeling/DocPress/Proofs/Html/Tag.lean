import DocPress.Proofs.Html.Expression

/-!
The tags of a page, as they are read off its text: a tag starts at every `<`, and ends at the first `>`
that is not in quotes. The text of a document is escaped and its attributes are quoted, so that the
tags in the text of a page are those of its pieces.
-/

namespace DocPress.Html

/-- A tag of a page. -/
inductive Tag where
  | opening (name : String)
  | closing (name : String)
  /-- A tag that ends in a slash and is closed by itself. -/
  | empty (name : String)
  deriving DecidableEq

/-! ### Reading tags -/

/-- Where a reader of tags is in a text. -/
inductive Place where
  /-- Outside tags. -/
  | outside
  /-- In the name of a tag, of which these letters have been read. -/
  | name (ends : Bool) (letters : List Char)
  /-- Behind the name, and maybe behind a slash. -/
  | attributes (ends : Bool) (letters : List Char) (slash : Bool)
  /-- In a value that is in quotes. -/
  | quoted (ends : Bool) (letters : List Char) (mark : Char)
  deriving DecidableEq

/-- The tag with a name that ends at a `>`. -/
def tagOf (ends : Bool) (letters : List Char) (slash : Bool) : Tag :=
  if ends then .closing (String.ofList letters)
  else if slash then .empty (String.ofList letters)
  else .opening (String.ofList letters)

/-- The place behind a character and the tag that ends with it. -/
def Place.step : Place → Char → Place × Option Tag
  | .outside, c => if c = '<' then (.name false [], none) else (.outside, none)
  | .name ends letters, c =>
    if c = '>' then (.outside, some (tagOf ends letters false))
    else if c = '/' then
      if letters.isEmpty then (.name true [], none) else (.attributes ends letters true, none)
    else if Text.isBlank c then (.attributes ends letters false, none)
    else (.name ends (letters ++ [c]), none)
  | .attributes ends letters slash, c =>
    if c = '>' then (.outside, some (tagOf ends letters slash))
    else if c = '"' || c = '\'' then (.quoted ends letters c, none)
    else (.attributes ends letters (c = '/'), none)
  | .quoted ends letters mark, c =>
    if c = mark then (.attributes ends letters false, none) else (.quoted ends letters mark, none)

/-- The tags in a text, read from a place on. -/
def tagsFrom : Place → List Char → List Tag
  | _, [] => []
  | place, c :: rest => (place.step c).2.toList ++ tagsFrom (place.step c).1 rest

/-- The tags of a page. -/
def tags (page : String) : List Tag :=
  tagsFrom .outside page.toList

/-- Whether a text leads from a place to another one, and has the tags in it. -/
def Leads (text : List Char) (place : Place) (found : List Tag) (next : Place) : Prop :=
  ∀ rest, tagsFrom place (text ++ rest) = found ++ tagsFrom next rest

variable {text first second : List Char} {place next last : Place} {found others : List Tag}
  {ends : Bool} {letters : List Char} {c : Char}

theorem leads_nil (place : Place) : Leads [] place [] place :=
  fun _ => rfl

/-- What leads on leads on from there. -/
theorem Leads.append (head : Leads first place found next) (tail : Leads second next others last) :
    Leads (first ++ second) place (found ++ others) last := by
  intro rest
  rw [List.append_assoc, head, tail, List.append_assoc]

/-- A character leads where its step does. -/
theorem leads_step (place : Place) (c : Char) :
    Leads [c] place (place.step c).2.toList (place.step c).1 :=
  fun _ => rfl

/-- A character that ends nothing leads on to what follows. -/
theorem Leads.cons (tail : Leads text (place.step c).1 found next) (quiet : (place.step c).2 = none) :
    Leads (c :: text) place found next := by
  have whole := (leads_step place c).append tail
  rwa [quiet] at whole

/-- A text stays at a place when each character of it does. -/
theorem leads_stay (stays : ∀ c ∈ text, place.step c = (place, none)) : Leads text place [] place := by
  induction text with
  | nil => exact leads_nil place
  | cons c rest ih =>
      rw [List.forall_mem_cons] at stays
      refine Leads.cons ?_ (by rw [stays.1])
      rw [stays.1]
      exact ih stays.2

/-- No tag is in a text without `<`. -/
theorem leads_outside (absent : '<' ∉ text) : Leads text .outside [] .outside := by
  refine leads_stay fun c member => ?_
  rw [Place.step, if_neg]
  rintro rfl
  exact absent member

/-- A quoted text leads to its end without ending there. -/
theorem leads_quoted {mark : Char} (absent : mark ∉ text) :
    Leads text (.quoted ends letters mark) [] (.quoted ends letters mark) := by
  refine leads_stay fun c member => ?_
  rw [Place.step, if_neg]
  rintro rfl
  exact absent member

/-! ### Names -/

/-- Whether a character may be in the name of an element or an attribute. -/
def isLetter (c : Char) : Bool :=
  c.isAlphanum || c = '-'

/-- The name of an element is made of letters. -/
theorem isLetter_of_isElementName {name : String} (legal : isElementName name = true) :
    name.toList ≠ [] ∧ ∀ c ∈ name.toList, isLetter c = true := by
  unfold isElementName at legal
  cases letters : name.toList with
  | nil =>
      rw [letters] at legal
      cases legal
  | cons start rest =>
      rw [letters, Bool.and_eq_true, List.all_eq_true] at legal
      refine ⟨List.cons_ne_nil start rest, List.forall_mem_cons.2 ⟨?_, legal.2⟩⟩
      simp [isLetter, Char.isAlphanum, legal.1]

theorem ne_of_isLetter {d : Char} (letter : isLetter c = true) (other : isLetter d = false) :
    c ≠ d := by
  rintro rfl
  rw [letter] at other
  cases other

theorem isBlank_of_isLetter (letter : isLetter c = true) : Text.isBlank c = false := by
  have named : Recognizer.isName [c] = true := by
    rw [isLetter, Bool.or_eq_true, decide_eq_true_eq] at letter
    rcases letter with letter | rfl
    · simp [Recognizer.isName, Recognizer.isNameChar, letter]
    · decide
  exact ((isPlainName_of_isName named).2 c (List.mem_singleton_self c)).1

/-- Letters are added to the name that is read. -/
theorem leads_letters {more : List Char} (legal : ∀ c ∈ more, isLetter c = true) :
    Leads more (.name ends letters) [] (.name ends (letters ++ more)) := by
  induction more generalizing letters with
  | nil =>
      rw [List.append_nil]
      exact leads_nil _
  | cons c rest ih =>
      rw [List.forall_mem_cons] at legal
      have step : Place.step (.name ends letters) c = (.name ends (letters ++ [c]), none) := by
        rw [Place.step, if_neg (ne_of_isLetter legal.1 (by decide)),
          if_neg (ne_of_isLetter legal.1 (by decide)), isBlank_of_isLetter legal.1]
        rfl
      refine Leads.cons ?_ (by rw [step])
      rw [step]
      have behind := @ih (letters ++ [c]) legal.2
      rwa [List.append_assoc] at behind

/-- The name of an attribute is passed over. -/
theorem leads_attributeName {slash : Bool} (filled : text ≠ [])
    (legal : ∀ c ∈ text, isLetter c = true) :
    Leads text (.attributes ends letters slash) [] (.attributes ends letters false) := by
  have step (slash : Bool) (c : Char) (letter : isLetter c = true) :
      Place.step (.attributes ends letters slash) c = (.attributes ends letters false, none) := by
    rw [Place.step, if_neg (ne_of_isLetter letter (by decide))]
    have mark : ¬(decide (c = '"') || decide (c = '\'')) = true := by
      simp [ne_of_isLetter letter (show isLetter '"' = false by decide),
        ne_of_isLetter letter (show isLetter '\'' = false by decide)]
    rw [if_neg mark, decide_eq_false (ne_of_isLetter letter (by decide))]
  cases text with
  | nil => exact absurd rfl filled
  | cons c rest =>
      rw [List.forall_mem_cons] at legal
      refine Leads.cons ?_ (by rw [step slash c legal.1])
      rw [step slash c legal.1]
      exact leads_stay fun d member => step false d (legal.2 d member)

/-! ### Pieces -/

theorem not_mem_mark_escapeChars (text : List Char) : '"' ∉ escapeChars text ∧ '<' ∉ escapeChars text := by
  have own (c : Char) : '"' ∉ escapeChar c ∧ '<' ∉ escapeChar c := by
    unfold escapeChar
    repeat' split
    all_goals first
      | decide
      | simp_all [eq_comm]
  constructor <;>
  · intro member
    obtain ⟨c, -, inside⟩ := List.mem_flatMap.1 member
    simp [own c] at inside

/-- A place behind the name of a tag that starts. -/
inductive IsBehind (letters : List Char) : Place → Prop where
  | name (filled : letters ≠ []) : IsBehind letters (.name false letters)
  | attributes : IsBehind letters (.attributes false letters false)

/-- A blank ends a name. -/
theorem IsBehind.step_blank (behind : IsBehind letters place) :
    place.step ' ' = (.attributes false letters false, none) := by
  cases behind <;> rfl

/-- The end of a tag opens its element. -/
theorem IsBehind.leads_end (behind : IsBehind letters place) :
    Leads ['>'] place [.opening (String.ofList letters)] .outside := by
  cases behind <;> exact leads_step _ '>'

/-- The end of an empty tag leaves its element empty. -/
theorem IsBehind.leads_slash (behind : IsBehind letters place) :
    Leads [' ', '/', '>'] place [.empty (String.ofList letters)] .outside := by
  refine Leads.cons ?_ (by rw [behind.step_blank])
  rw [behind.step_blank]
  exact Leads.cons (leads_step (.attributes false letters true) '>') rfl

/-- An attribute leads on to the next one. -/
theorem IsBehind.leads_attribute (behind : IsBehind letters place) {a : Attribute}
    (legal : isElementName a.name = true) :
    Leads a.chars place [] (.attributes false letters false) := by
  obtain ⟨name, value⟩ := a
  obtain ⟨filled, legal⟩ := isLetter_of_isElementName legal
  have named : Leads (' ' :: name.toList) place [] (.attributes false letters false) := by
    refine Leads.cons ?_ (by rw [behind.step_blank])
    rw [behind.step_blank]
    exact leads_attributeName filled legal
  cases value with
  | none => exact named.append (leads_nil _)
  | some value =>
      have opened : Leads ['=', '"'] (.attributes false letters false) [] (.quoted false letters '"') :=
        Leads.cons (leads_step (.attributes false letters false) '"') rfl
      have inside : Leads _ (.quoted false letters '"') [] _ :=
        leads_quoted (not_mem_mark_escapeChars value.toList).1
      have closed := leads_step (.quoted false letters '"') '"'
      exact named.append ((opened.append inside).append closed)

/-- Attributes with proper names lead to the end of the tag. -/
theorem IsBehind.leads_attributes (behind : IsBehind letters place) {attributes : List Attribute}
    (legal : ∀ a ∈ attributes, isElementName a.name = true) :
    ∃ next, IsBehind letters next ∧ Leads (attributes.flatMap Attribute.chars) place [] next := by
  induction attributes generalizing place with
  | nil => exact ⟨place, behind, leads_nil place⟩
  | cons a rest ih =>
      rw [List.forall_mem_cons] at legal
      obtain ⟨next, later, leads⟩ := ih .attributes legal.2
      exact ⟨next, later, (behind.leads_attribute legal.1).append leads⟩

/-- Whether the names of an element and of its attributes are names. -/
def IsLegal (name : String) (attributes : List Attribute) : Prop :=
  isElementName name = true ∧ ∀ a ∈ attributes, isElementName a.name = true

/-- The start of an element leads behind its attributes. -/
theorem leads_start {name : String} {attributes : List Attribute} (legal : IsLegal name attributes) :
    ∃ next, IsBehind name.toList next ∧
      Leads ('<' :: name.toList ++ attributes.flatMap Attribute.chars) .outside [] next := by
  obtain ⟨filled, letters⟩ := isLetter_of_isElementName legal.1
  have named : Leads ('<' :: name.toList) .outside [] (.name false name.toList) :=
    Leads.cons (leads_letters letters) rfl
  obtain ⟨next, behind, leads⟩ := (IsBehind.name filled).leads_attributes legal.2
  exact ⟨next, behind, named.append leads⟩

/-- The tag that a piece is. -/
def Markup.tag? : Markup → Option Tag
  | .opening name _ => some (.opening name)
  | .closing name => some (.closing name)
  | .empty name _ => some (.empty name)
  | _ => none

/-- Whether a piece is a tag with legal names or has no `<` in its source. -/
def Markup.IsRegular : Markup → Prop
  | .opening name attributes | .empty name attributes => IsLegal name attributes
  | .closing name => isElementName name = true
  | piece => '<' ∉ piece.chars

/-- The source of a regular piece has the tag in it that the piece is. -/
theorem Markup.IsRegular.leads {piece : Markup} (regular : piece.IsRegular) :
    Leads piece.chars .outside piece.tag?.toList .outside := by
  cases piece with
  | opening name attributes =>
      obtain ⟨next, behind, leads⟩ := leads_start regular
      have whole := leads.append behind.leads_end
      rwa [String.ofList_toList] at whole
  | empty name attributes =>
      obtain ⟨next, behind, leads⟩ := leads_start regular
      have whole := leads.append behind.leads_slash
      rwa [String.ofList_toList] at whole
  | closing name =>
      obtain ⟨-, letters⟩ := isLetter_of_isElementName regular
      have opened : Leads ['<', '/'] .outside [] (.name true []) :=
        Leads.cons (leads_step (.name false []) '/') rfl
      have whole := (opened.append (leads_letters letters)).append
        (leads_step (.name true name.toList) '>')
      change Leads (['<', '/'] ++ name.toList ++ ['>']) .outside [.closing (String.ofList name.toList)] _
        at whole
      rwa [String.ofList_toList] at whole
  | text _ | layout _ | raw _ | placeholder _ => exact leads_outside regular

/-- The tags of the pieces of a page. -/
def tagsOf (page : List Markup) : List Tag :=
  page.filterMap Markup.tag?

/-- The tags in the text of a page are those of its pieces. -/
theorem tags_write {page : List Markup} (regular : ∀ piece ∈ page, piece.IsRegular) :
    tags (write page) = tagsOf page := by
  have leads : Leads (page.flatMap Markup.chars) .outside (tagsOf page) .outside := by
    induction page with
    | nil => exact leads_nil _
    | cons piece rest ih =>
        rw [List.forall_mem_cons] at regular
        have whole := regular.1.leads.append (ih regular.2)
        rw [tagsOf, List.filterMap_cons]
        cases own : piece.tag? with
        | none => rwa [own] at whole
        | some tag => rwa [own] at whole
  rw [tags, write, String.toList_ofList]
  have whole := leads []
  rwa [List.append_nil, tagsFrom, List.append_nil] at whole

end DocPress.Html
