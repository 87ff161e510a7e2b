import DocPress.Template
import DocPress.Proofs.Text
import DocPress.Proofs.Result

/-!
Reading and writing templates. The source of parts that keep clear of opening braces is read as these
parts again, up to joining literal parts that stand side by side, and joining them does not change what
the template shows. Parts in normal form are read back just as they are, and the source of a template that
has been read is read as that template. Not every source is written again as it was: blanks inside of
braces are not kept.
-/

namespace DocPress.Template

/-- Whether a text may stand as a name between the braces of a placeholder. -/
def IsPlainName (name : List Char) : Prop :=
  name ≠ [] ∧ ∀ c ∈ name, Text.isBlank c = false ∧ c ≠ '{' ∧ c ≠ '}' ∧ c ≠ '?'

/-- The mark behind the name of a placeholder whose value may be missing. -/
def optionalMark (optional : Bool) : List Char :=
  if optional then ['?'] else []

/-- The source of a part. -/
def segmentSource : Segment → List Char
  | .literal text => text
  | .placeholder name optional =>
    opening ++ (' ' :: (name ++ optionalMark optional) ++ [' ']) ++ closing

/-- Whether a part can be told from its source. -/
def IsWritable : Segment → Prop
  | .literal text => Text.IsClear '{' text
  | .placeholder name _ => IsPlainName name

/-- The parts with literal parts side by side joined; `before` is literal text in front of them. -/
def joinLiterals (before : List Char) : List Segment → List Segment
  | [] => literal before
  | .literal text :: rest => joinLiterals (before ++ text) rest
  | .placeholder name optional :: rest =>
    literal before ++ .placeholder name optional :: joinLiterals [] rest

/-! ### Placeholders -/

/-- A text between blanks is what is left when they are trimmed. -/
theorem trim_padded {text : List Char} (nonempty : text ≠ [])
    (solid : ∀ c ∈ text, Text.isBlank c = false) : Text.trim (' ' :: text ++ [' ']) = text := by
  obtain ⟨first, rest, rfl⟩ := List.exists_cons_of_ne_nil nonempty
  have blank : Text.isBlank ' ' = true := by decide
  have start : Text.trimStart (' ' :: (first :: rest) ++ [' ']) = (first :: rest) ++ [' '] := by
    simp [Text.trimStart, blank, solid first List.mem_cons_self]
  rw [Text.trim, start, Text.trimEnd, Text.dropEndWhile_concat_of_pos blank]
  exact Text.dropEndWhile_eq_self solid

variable {name : List Char}

/-- Whether a text is read back as a name from between the braces of a placeholder. -/
structure IsName (optional : Bool) (name : List Char) : Prop where
  nonempty : name ≠ []
  solid : ∀ c ∈ name, Text.isBlank c = false ∧ c ≠ '{'
  apart : Text.IsApart '}' name
  unmarked : optional = false → name.getLast? ≠ some '?'

/-- A plain name is one that can be written. -/
theorem IsPlainName.isName (plain : IsPlainName name) (optional : Bool) : IsName optional name where
  nonempty := plain.1
  solid c member := ⟨(plain.2 c member).1, (plain.2 c member).2.1⟩
  apart := by
    refine (Text.isClear_iff.1 (Text.isClear_of_not_mem fun member => ?_)).1
    exact (plain.2 '}' member).2.2.1 rfl
  unmarked _ last := (plain.2 '?' (List.mem_of_getLast? last)).2.2.2 rfl

variable {optional : Bool}

/-- A name holds neither blanks nor braces. -/
theorem IsName.any_eq_false (named : IsName optional name) :
    name.any (fun c => Text.isBlank c || c.toNat = 123) = false := by
  refine List.any_eq_false.2 fun c member => ?_
  obtain ⟨solid, brace⟩ := named.solid c member
  have code : c.toNat ≠ 123 := fun same => brace (Char.toNat_inj.1 same)
  simp [solid, code]

/-- What stands between the braces of a placeholder is read as this placeholder. -/
theorem readPlaceholder_source (named : IsName optional name) :
    readPlaceholder (' ' :: (name ++ optionalMark optional) ++ [' ']) =
      .ok (.placeholder name optional) := by
  have solid : ∀ c ∈ name ++ optionalMark optional, Text.isBlank c = false := by
    intro c member
    rcases List.mem_append.1 member with member | member
    · exact (named.solid c member).1
    · cases optional <;> simp [optionalMark] at member
      exact member ▸ by decide
  have filled : name.isEmpty = false := by simpa using named.nonempty
  have trimmed := trim_padded (by simp [named.nonempty]) solid
  unfold readPlaceholder
  rw [trimmed]
  cases optional with
  | true =>
      have whole : Text.trimEnd name.reverse.reverse = name := by
        rw [List.reverse_reverse]
        exact Text.dropEndWhile_eq_self fun c member => (named.solid c member).1
      have marked : (name ++ optionalMark true).reverse = '?' :: name.reverse := by
        simp [optionalMark]
      simp only [marked, whole, filled, named.any_eq_false, Bool.or_self, Bool.false_eq_true,
        if_false]
  | false =>
      have whole : name ++ optionalMark false = name := List.append_nil name
      rw [whole]
      cases reversed : name.reverse with
      | nil => exact absurd (List.reverse_eq_nil_iff.1 reversed) named.nonempty
      | cons last before =>
          -- The mark at the end would be taken for that of an optional name.
          have different : last ≠ '?' := by
            rintro rfl
            refine named.unmarked rfl ?_
            rw [List.getLast?_eq_head?_reverse, reversed]
            rfl
          simp [reversed, different, filled, named.any_eq_false]

/-! ### Whole templates -/

/-- A placeholder is found behind literal text and read back. -/
theorem readSegments_placeholder {before : List Char} (clear : Text.IsClear '{' before)
    (named : IsName optional name) (fuel : Nat) (rest : List Char) :
    readSegments (fuel + 1) (before ++ (segmentSource (.placeholder name optional) ++ rest)) =
      (readSegments fuel rest).map fun segments =>
        literal before ++ .placeholder name optional :: segments := by
  have inside : Text.IsClear '}' (' ' :: (name ++ optionalMark optional) ++ [' ']) := by
    have marks : Text.IsApart '}' (optionalMark optional) := by
      cases optional with
      | false => exact .nil
      | true => exact .singleton '?'
    have padded : Text.IsApart '}' (name ++ optionalMark optional) := by
      refine named.apart.append marks fun _ => ?_
      cases optional <;> decide
    refine Text.isClear_iff.2 ⟨?_, by rw [List.getLast?_concat]; decide⟩
    rw [List.cons_append]
    exact Text.IsApart.append (.singleton ' ')
      (padded.append (.singleton ' ') fun _ => by simp) fun no => by simp at no
  have opens : Text.splitAtMark? opening
      (before ++ (segmentSource (.placeholder name optional) ++ rest)) =
      some (before, ' ' :: (name ++ optionalMark optional) ++ [' '] ++ (closing ++ rest)) := by
    simpa [segmentSource, opening, closing] using Text.splitAtMark?_mark clear _
  have closes : Text.splitAtMark? closing
      (' ' :: (name ++ optionalMark optional) ++ [' '] ++ (closing ++ rest)) =
      some (' ' :: (name ++ optionalMark optional) ++ [' '], rest) := by
    exact Text.splitAtMark?_mark inside rest
  rw [readSegments, opens]
  dsimp only
  rw [closes]
  dsimp only
  rw [readPlaceholder_source named]
  cases readSegments fuel rest <;> rfl

/-- Whether parts can be told from their source, in which `before` is literal text in front of them:
no placeholder opens inside of literal text, and none where it meets that of a placeholder. -/
def AreReadable (before : List Char) : List Segment → Prop
  | [] => Text.IsApart '{' before
  | .literal text :: rest => AreReadable (before ++ text) rest
  | .placeholder name _ :: rest =>
    Text.IsClear '{' before ∧ IsPlainName name ∧ AreReadable [] rest

/-- Parts that can be told from their sources one by one can be told from them together. -/
theorem areReadable_of_isWritable {segments : List Segment}
    (writable : ∀ segment ∈ segments, IsWritable segment) {before : List Char}
    (clear : Text.IsClear '{' before) : AreReadable before segments := by
  induction segments generalizing before with
  | nil => exact (Text.isClear_iff.1 clear).1
  | cons segment rest ih =>
      obtain ⟨head, tail⟩ := List.forall_mem_cons.1 writable
      cases segment with
      | literal text => exact ih tail (clear.append head)
      | placeholder name optional => exact ⟨clear, head, ih tail trivial⟩

/-- The source of readable parts is read as these parts with literal ones joined. -/
theorem readSegments_source {segments : List Segment} {before : List Char}
    (readable : AreReadable before segments) {fuel : Nat}
    (enough : (segments.flatMap segmentSource).length < fuel) :
    readSegments fuel (before ++ segments.flatMap segmentSource) =
      .ok (joinLiterals before segments) := by
  induction segments generalizing before fuel with
  | nil =>
      cases fuel with
      | zero => simp at enough
      | succ fuel =>
          have none : Text.splitAtMark? opening before = none :=
            Text.splitAtMark?_eq_none_of_isApart readable
          simp only [List.flatMap_nil, List.append_nil, readSegments, none, joinLiterals]
  | cons segment rest ih =>
      rw [List.flatMap_cons, List.length_append] at enough
      rw [List.flatMap_cons]
      cases segment with
      | literal text =>
          rw [segmentSource, ← List.append_assoc, joinLiterals]
          exact ih readable (by omega)
      | placeholder name optional =>
          obtain ⟨clear, plain, tail⟩ := readable
          have longer : 0 < (segmentSource (.placeholder name optional)).length := by
            simp only [segmentSource, List.length_append, List.length_cons]
            omega
          cases fuel with
          | zero => simp at enough
          | succ fuel =>
              rw [readSegments_placeholder clear (plain.isName optional)]
              have fits : (rest.flatMap segmentSource).length < fuel := by omega
              have behind : readSegments fuel (rest.flatMap segmentSource) =
                  .ok (joinLiterals [] rest) := ih tail fits
              rw [behind]
              rfl

/-- The names of the placeholders among parts in order. -/
def namesOf (segments : List Segment) : List String :=
  placeholders ⟨segments⟩

theorem namesOf_literal (text : List Char) (rest : List Segment) :
    namesOf (literal text ++ rest) = namesOf rest := by
  cases text <;> rfl

/-- Joining literal parts changes no placeholder. -/
theorem namesOf_joinLiterals (before : List Char) (segments : List Segment) :
    namesOf (joinLiterals before segments) = namesOf segments := by
  induction segments generalizing before with
  | nil => simpa [joinLiterals] using namesOf_literal before []
  | cons segment rest ih =>
      cases segment with
      | literal text => exact ih (before ++ text)
      | placeholder name optional =>
          rw [joinLiterals, namesOf_literal]
          simpa [namesOf, placeholders] using ih []

/-- A literal part in front shows its text. -/
theorem renderSegments_literal (props : Props) (text : List Char) (rest : List Segment) :
    renderSegments props (literal text ++ rest) =
      (renderSegments props rest).map (text ++ ·) := by
  cases text with
  | nil => cases shown : renderSegments props rest <;> simp [literal, shown, Except.map]
  | cons first tail =>
      cases shown : renderSegments props rest <;>
        simp [literal, renderSegments, renderSegment, shown, Except.map, bind, Except.bind, pure,
          Except.pure]

/-- Joining literal parts does not change what is shown. -/
theorem renderSegments_joinLiterals (props : Props) (before : List Char)
    (segments : List Segment) :
    renderSegments props (joinLiterals before segments) =
      (renderSegments props segments).map (before ++ ·) := by
  induction segments generalizing before with
  | nil => simpa [joinLiterals] using renderSegments_literal props before []
  | cons segment rest ih =>
      cases segment with
      | literal text =>
          rw [joinLiterals, ih]
          cases shown : renderSegments props rest <;>
            simp [renderSegments, renderSegment, shown, Except.map, bind, Except.bind, pure,
              Except.pure]
      | placeholder name optional =>
          rw [joinLiterals, renderSegments_literal, renderSegments, ih]
          cases shown : renderSegments props rest <;>
            simp [renderSegments, shown, Except.map]

/-- What a part shows when missing values show nothing. -/
def segmentText (props : Props) : Segment → List Char
  | .literal text => text
  | .placeholder name _ => ((props.get? (String.ofList name)).getD "").toList

/-- Parts that need no value are always shown. -/
theorem renderSegments_optional (props : Props) {segments : List Segment}
    (optional : ∀ name, .placeholder name false ∉ segments) :
    renderSegments props segments = .ok (segments.flatMap (segmentText props)) := by
  induction segments with
  | nil => rfl
  | cons segment rest ih =>
      have shown : renderSegment props segment = .ok (segmentText props segment) := by
        cases segment with
        | literal text => rfl
        | placeholder name needless =>
            cases needless with
            | false => exact absurd List.mem_cons_self (optional name)
            | true =>
                cases value : props.get? (String.ofList name) <;>
                  simp [renderSegment, segmentText, value]
      have behind := ih fun name member => optional name (List.mem_cons_of_mem _ member)
      rw [renderSegments, shown, behind]
      rfl

/-! ### Templates -/

variable {segments : List Segment}

/-- The source of readable parts is a template, whose placeholders are those of the parts. -/
theorem parse_source (readable : AreReadable [] segments) :
    parse (String.ofList (segments.flatMap segmentSource)) = .ok ⟨joinLiterals [] segments⟩ := by
  have whole : readSegments ((segments.flatMap segmentSource).length + 1)
      (segments.flatMap segmentSource) = .ok (joinLiterals [] segments) :=
    readSegments_source readable (Nat.lt_succ_self _)
  rw [parse, String.toList_ofList, whole]
  rfl

/-- A template shows what its parts show one by one. -/
theorem render_source (props : Props) (optional : ∀ name, .placeholder name false ∉ segments) :
    render ⟨joinLiterals [] segments⟩ props =
      .ok (String.ofList (segments.flatMap (segmentText props))) := by
  rw [render, renderSegments_joinLiterals, renderSegments_optional props optional]
  rfl

/-! ### Normal forms -/

/-- The source of parts in order. -/
def source (segments : List Segment) : String :=
  String.ofList (segments.flatMap segmentSource)

/-- Parts in normal form: no literal part is empty, holds opening braces, stands next to another one or
ends in a brace in front of a placeholder, and names are solid, hold no braces and do not end in the
mark of a placeholder whose value may be missing. -/
structure IsNormal (segments : List Segment) : Prop where
  literals : ∀ text, .literal text ∈ segments → text ≠ [] ∧ ¬opening <:+: text
  apart : segments.IsChain fun
    | .literal _, .literal _ => False
    | .literal text, .placeholder _ _ => text.getLast? ≠ some '{'
    | .placeholder _ _, _ => True
  names : ∀ name optional, .placeholder name optional ∈ segments → name ≠ [] ∧
    (∀ c ∈ name, Text.isBlank c = false ∧ c ≠ '{' ∧ c ≠ '}') ∧ name.getLast? ≠ some '?'

/-- The parts that reading gives: literal text that keeps clear of opening braces, and placeholders with
names that are read back. There may be a closing brace in such a name, and a question mark at its end if
the placeholder has a mark of its own. -/
inductive IsRegular : List Segment → Prop where
  | literal {text : List Char} (apart : Text.IsApart '{' text) : IsRegular (literal text)
  | placeholder {before name : List Char} {optional : Bool} {segments : List Segment}
      (clear : Text.IsClear '{' before) (named : IsName optional name)
      (behind : IsRegular segments) :
      IsRegular (literal before ++ .placeholder name optional :: segments)

variable {fuel : Nat}

/-! ### From sources to parts -/

/-- What is read from between braces has a name that is read back. -/
theorem exists_isName_of_readPlaceholder {inner : List Char} {segment : Segment}
    (apart : Text.IsApart '}' inner) (read : readPlaceholder inner = .ok segment) :
    ∃ name optional, segment = .placeholder name optional ∧ IsName optional name := by
  have trimmed : Text.IsApart '}' (Text.trim inner) := apart.infix (Text.trim_infix inner)
  have named {name : List Char} {optional : Bool} (inside : name <:+: Text.trim inner)
      (unmarked : optional = false → name.getLast? ≠ some '?')
      (read : (if name.isEmpty || name.any (fun c => Text.isBlank c || c.toNat = 123) then
          .error (.badPlaceholder (String.ofList (Text.trim inner)))
        else .ok (.placeholder name optional) : Except TemplateError Segment) = .ok segment) :
      ∃ name optional, segment = .placeholder name optional ∧ IsName optional name := by
    split at read
    case isTrue => cases read
    case isFalse good =>
      simp only [Bool.or_eq_true, List.isEmpty_iff, List.any_eq_true, not_or, not_exists,
        not_and, Bool.not_eq_true, decide_eq_true_eq] at good
      obtain rfl := Except.ok.inj read
      refine ⟨name, optional, rfl, good.1, fun c member => ?_, trimmed.infix inside, unmarked⟩
      refine ⟨(good.2 c member).1, ?_⟩
      rintro rfl
      exact (good.2 '{' member).2 rfl
  unfold readPlaceholder at read
  dsimp only at read
  split at read
  case _ before reversed =>
    have whole : Text.trim inner = before.reverse ++ ['?'] := by
      rw [← List.reverse_reverse (Text.trim inner), reversed, List.reverse_cons]
    refine named ?_ (fun no => by cases no) read
    rw [whole]
    exact (Text.dropEndWhile_isPrefix _ _).isInfix.trans (List.prefix_append _ _).isInfix
  case _ unmarked =>
    refine named List.infix_rfl (fun _ last => ?_) read
    obtain ⟨before, whole⟩ := List.getLast?_eq_some_iff.1 last
    exact unmarked before.reverse (by rw [whole]; simp)

/-- The parts that are read from a source are regular. -/
theorem isRegular_of_readSegments {text : List Char} (enough : text.length < fuel)
    (read : readSegments fuel text = .ok segments) : IsRegular segments := by
  induction fuel generalizing text segments with
  | zero => omega
  | succ fuel ih =>
      rw [readSegments] at read
      split at read
      case _ none =>
        obtain rfl := Except.ok.inj read
        exact .literal (Text.splitAtMark?_eq_none_iff.1 none)
      case _ before after opens =>
        obtain ⟨rfl, clear⟩ := Text.splitAtMark?_eq_some_iff.1 opens
        split at read
        case _ => cases read
        case _ inner rest closes =>
          obtain ⟨rfl, inside⟩ := Text.splitAtMark?_eq_some_iff.1 closes
          obtain ⟨segment, placeholder, read⟩ := bind_eq_ok_iff.1 read
          obtain ⟨behind, more, read⟩ := bind_eq_ok_iff.1 read
          obtain rfl := Except.ok.inj read
          obtain ⟨name, optional, rfl, named⟩ :=
            exists_isName_of_readPlaceholder (Text.isClear_iff.1 inside).1 placeholder
          refine .placeholder clear named (ih ?_ more)
          simp only [List.length_append, List.length_cons] at enough
          omega

/-- A template that is read is regular. -/
theorem isRegular_of_parse {text : String} {template : Template}
    (read : parse text = .ok template) : IsRegular template.segments := by
  obtain ⟨segments, parts, rfl⟩ := map_eq_ok_iff.1 read
  exact isRegular_of_readSegments (Nat.lt_succ_self _) parts

/-! ### From parts to sources -/

/-- Literal text is written as it is. -/
theorem flatMap_segmentSource_literal (text : List Char) :
    (literal text).flatMap segmentSource = text := by
  cases text with
  | nil => rfl
  | cons c rest => simp [literal, segmentSource]

/-- Regular parts are read back from their source. -/
theorem readSegments_of_isRegular (regular : IsRegular segments)
    (enough : (segments.flatMap segmentSource).length < fuel) :
    readSegments fuel (segments.flatMap segmentSource) = .ok segments := by
  induction regular generalizing fuel with
  | @literal text apart =>
      rw [flatMap_segmentSource_literal] at enough ⊢
      have unmarked : Text.splitAtMark? opening text = none := Text.splitAtMark?_eq_none_iff.2 apart
      cases fuel with
      | zero => omega
      | succ fuel => simp only [readSegments, unmarked]
  | @placeholder before name optional segments clear named behind ih =>
      rw [List.flatMap_append, List.flatMap_cons, flatMap_segmentSource_literal] at enough ⊢
      simp only [List.length_append] at enough
      cases fuel with
      | zero => omega
      | succ fuel =>
          have braces : 0 < (segmentSource (.placeholder name optional)).length := by
            simp only [segmentSource, List.length_append, List.length_cons]
            omega
          rw [readSegments_placeholder clear named, ih (by omega)]
          rfl

/-- The source of regular parts is read as these parts. -/
theorem parse_source_of_isRegular (regular : IsRegular segments) :
    parse (source segments) = .ok ⟨segments⟩ := by
  rw [parse, source, String.toList_ofList,
    readSegments_of_isRegular regular (Nat.lt_succ_self _)]
  rfl

/-! ### Parts in normal form -/

/-- What follows a segment in normal form is in normal form. -/
theorem IsNormal.tail {segment : Segment} (normal : IsNormal (segment :: segments)) :
    IsNormal segments where
  literals text member := normal.literals text (List.mem_cons_of_mem _ member)
  apart := normal.apart.tail
  names name optional member := normal.names name optional (List.mem_cons_of_mem _ member)

/-- The name of a placeholder in normal form can be written. -/
theorem IsNormal.isName {name : List Char} {optional : Bool}
    (normal : IsNormal (.placeholder name optional :: segments)) : IsName optional name := by
  obtain ⟨nonempty, solid, unmarked⟩ := normal.names name optional List.mem_cons_self
  refine ⟨nonempty, fun c member => ⟨(solid c member).1, (solid c member).2.1⟩, ?_,
    fun _ => unmarked⟩
  exact (Text.isClear_iff.1 (Text.isClear_of_not_mem fun member => (solid '}' member).2.2 rfl)).1

/-- A literal part of a normal form is read as it stands. -/
theorem IsNormal.literal_eq {text : List Char} (normal : IsNormal (.literal text :: segments)) :
    literal text = [.literal text] ∧ Text.IsApart '{' text := by
  obtain ⟨nonempty, absent⟩ := normal.literals text List.mem_cons_self
  exact ⟨by simp [literal, nonempty], Text.isApart_iff_infix.2 absent⟩

/-- Parts in normal form are regular: a literal part goes with the placeholder behind it, and one
without a placeholder behind it is the last part. -/
theorem IsNormal.isRegular : ∀ {segments : List Segment}, IsNormal segments → IsRegular segments
  | [], _ => .literal .nil
  | .placeholder _ _ :: _, normal =>
    @IsRegular.placeholder [] _ _ _ trivial normal.isName normal.tail.isRegular
  | [.literal text], normal => by
      obtain ⟨single, apart⟩ := normal.literal_eq
      exact single ▸ .literal apart
  | .literal _ :: .literal _ :: _, normal => (List.isChain_cons_cons.1 normal.apart).1.elim
  | .literal text :: .placeholder name optional :: segments, normal => by
      obtain ⟨single, apart⟩ := normal.literal_eq
      have meets := (List.isChain_cons_cons.1 normal.apart).1
      have regular := IsRegular.placeholder (Text.isClear_iff.2 ⟨apart, meets⟩) normal.tail.isName
        normal.tail.tail.isRegular
      rwa [single] at regular

/-- Parts in normal form are read back from their source. A template that has been read is read back
from the source of its parts, and so both sources show the same, or miss the same value. -/
theorem parse_source_inverse :
    (∀ segments, IsNormal segments → parse (source segments) = .ok ⟨segments⟩) ∧
      ∀ text template, parse text = .ok template →
        parse (source template.segments) = .ok template ∧
          ∀ props, (parse (source template.segments)).bind (·.render props) =
            (parse text).bind (·.render props) := by
  refine ⟨fun segments normal => parse_source_of_isRegular normal.isRegular, ?_⟩
  intro text template read
  have again : parse (source template.segments) = .ok template :=
    parse_source_of_isRegular (isRegular_of_parse read)
  exact ⟨again, fun props => by rw [again, read]⟩

/-- Parts that meet in single braces. -/
def bracedParts : List Segment :=
  [.literal ['a', ' ', '}'], .placeholder ['a', '?', 'b'] true, .literal ['}', '{', ' '],
    .placeholder ['x'] false, .literal ['{']]

/-- Segments with braces in literal text and in names are in normal form. -/
theorem isNormal_bracedParts : IsNormal bracedParts where
  literals text member := by
    simp only [bracedParts, List.mem_cons, List.not_mem_nil, Segment.literal.injEq, or_false,
      reduceCtorEq, false_or] at member
    rcases member with rfl | rfl | rfl <;> decide
  apart := by simp [bracedParts]
  names name optional member := by
    simp only [bracedParts, List.mem_cons, List.not_mem_nil, Segment.placeholder.injEq, or_false,
      reduceCtorEq, false_or] at member
    rcases member with ⟨rfl, -⟩ | ⟨rfl, -⟩
    · exact ⟨by decide, List.forall_iff_forall_mem.1 (by decide), by decide⟩
    · exact ⟨by decide, List.forall_iff_forall_mem.1 (by decide), by decide⟩

/-- A source with blanks inside of its braces, and with a closing brace for a name. -/
def bracedText : String :=
  String.ofList ['{', '{', ' ', ' ', 'a', ' ', '?', '}', '}', '}', '{', '{', '}', ' ', '}', '}', '{']

theorem parse_bracedText : parse bracedText =
    .ok ⟨[.placeholder ['a'] true, .literal ['}'], .placeholder ['}'] false, .literal ['{']]⟩ := by
  decide +kernel

/-- Both are read back from the sources of their parts. -/
theorem parse_source_inverse_braced :
    (IsNormal bracedParts ∧ parse (source bracedParts) = .ok ⟨bracedParts⟩) ∧
      ∃ template, parse bracedText = .ok template ∧
        parse (source template.segments) = .ok template :=
  ⟨⟨isNormal_bracedParts, parse_source_inverse.1 _ isNormal_bracedParts⟩,
    _, parse_bracedText, (parse_source_inverse.2 _ _ parse_bracedText).1⟩

end DocPress.Template
