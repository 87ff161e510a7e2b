import DocPress.Proofs.Text
import DocPress.Recognizer

/-!
What the recognizer of expressions makes of a text. Its nodes spell the text, and a piece of text that
it leaves is one in which it finds nothing, so that it can be run any number of times.
-/

namespace DocPress.Recognizer

open Node

/-- Whether a text is a name: letters and digits of ASCII, underscores, hyphens and points. -/
def IsExpressionName (name : List Char) : Prop :=
  name ≠ [] ∧ ∀ c ∈ name, ('a' ≤ c ∧ c ≤ 'z') ∨ ('A' ≤ c ∧ c ≤ 'Z') ∨ ('0' ≤ c ∧ c ≤ '9') ∨
    c = '_' ∨ c = '-' ∨ c = '.'

/-- How texts and expressions are spelled: a text as it stands, and an expression as its name between
double braces and any blanks. -/
inductive Spells : List Node → List Char → Prop where
  | nil : Spells [] []
  | text {value : String} {nodes : List Node} {chars : List Char} (behind : Spells nodes chars) :
      Spells (.text value :: nodes) (value.toList ++ chars)
  | expression {name left right : List Char} {nodes : List Node} {chars : List Char}
      (named : IsExpressionName name) (front : ∀ c ∈ left, Text.isBlank c = true)
      (back : ∀ c ∈ right, Text.isBlank c = true) (behind : Spells nodes chars) :
      Spells (.leaf (.expression (String.ofList name)) :: nodes)
        (opening ++ (left ++ name ++ right) ++ closing ++ chars)

/-- Texts in which there is nothing to find: what stands between the first double braces is not a name,
nor is it behind them. -/
inductive IsQuiet : List Char → Prop where
  | unclosed {text : List Char}
      (unclosed : ∀ before after, Text.splitAtMark? opening text = some (before, after) →
        Text.splitAtMark? closing after = none) : IsQuiet text
  | refused {before inner rest : List Char} (clear : Text.IsClear '{' before)
      (inside : Text.IsClear '}' inner) (unnamed : isName (Text.trim inner) = false)
      (behind : IsQuiet rest) : IsQuiet (before ++ opening ++ inner ++ closing ++ rest)

/-- How a text is split: at each expression, with a text in front of it in which there is nothing to
find. -/
inductive IsSplit : List Char → List Node → Prop where
  | quiet {text : List Char} (quiet : IsQuiet text) : IsSplit text (literal text)
  | expression {before inner rest : List Char} {nodes : List Node} (quiet : IsQuiet before)
      (named : isName (Text.trim inner) = true) (behind : IsSplit rest nodes) :
      IsSplit (before ++ opening ++ inner ++ closing ++ rest)
        (literal before ++ .leaf (.expression (String.ofList (Text.trim inner))) :: nodes)

variable {fuel : Nat} {text before : List Char} {nodes : List Node}

/-- A name in the first form is one of an expression. -/
theorem isExpressionName_of_isName {name : List Char} (named : isName name = true) :
    IsExpressionName name := by
  simp only [isName, Bool.and_eq_true, Bool.not_eq_true', List.isEmpty_eq_false_iff,
    List.all_eq_true] at named
  refine ⟨named.1, fun c member => ?_⟩
  have nameChar : isNameChar c = true := named.2 c member
  delta isNameChar Char.isAlphanum Char.isAlpha Char.isUpper Char.isLower at nameChar
  simp only [Char.isDigit, Bool.or_eq_true, Bool.and_eq_true, decide_eq_true_eq] at nameChar
  rcases nameChar with (((((upper | lower) | digit) | rfl) | rfl) | rfl)
  · exact .inr (.inl upper)
  · exact .inl lower
  · exact .inr (.inr (.inl digit))
  all_goals simp

/-! ### Quiet texts -/

/-- The scan of a quiet text finds nothing, whatever is pending in front of it. -/
theorem split_of_isQuiet (quiet : IsQuiet text) (enough : text.length < fuel) (before : List Char) :
    split fuel before text = (literal (before ++ text), false) := by
  induction quiet generalizing fuel before with
  | @unclosed text unclosed =>
      cases fuel with
      | zero => omega
      | succ fuel =>
          rw [split]
          split
          case _ => rfl
          case _ start after opens => simp only [unclosed start after opens]
  | @refused start inner rest clear inside unnamed behind ih =>
      cases fuel with
      | zero => omega
      | succ fuel =>
          have opens : Text.splitAtMark? opening (start ++ opening ++ inner ++ closing ++ rest) =
              some (start, inner ++ closing ++ rest) := by
            simpa [opening] using Text.splitAtMark?_mark clear (inner ++ closing ++ rest)
          have closes : Text.splitAtMark? closing (inner ++ closing ++ rest) = some (inner, rest) := by
            simpa [closing] using Text.splitAtMark?_mark inside rest
          simp only [List.length_append] at enough
          have fits : rest.length < fuel := by
            have : opening.length = 2 := rfl
            omega
          rw [split, opens]
          dsimp only
          rw [closes]
          dsimp only
          rw [unnamed, if_neg Bool.false_ne_true, ih fits]
          simp only [List.append_assoc]

/-- Nothing is recognized in a quiet text. -/
theorem recognize?_of_isQuiet (quiet : IsQuiet text) : expression.recognize? text = none := by
  simp [expression, split_of_isQuiet quiet (Nat.lt_succ_self _)]

/-- A text without an opening brace names nothing. -/
theorem isQuiet_of_isClear (clear : Text.IsClear '{' text) : IsQuiet text := by
  refine .unclosed fun before after opens => ?_
  rw [show opening = ['{', '{'] from rfl, Text.splitAtMark?_eq_none clear] at opens
  cases opens

/-- Whether a text in front does not change that there is nothing to find: so it is with what a scan has
refused. -/
def IsPending (before : List Char) : Prop :=
  ∀ {rest}, IsQuiet rest → IsQuiet (before ++ rest)

theorem isPending_nil : IsPending [] := id

/-- Text with braces that name nothing is still pending. -/
theorem IsPending.refuse {start inner : List Char} (pending : IsPending before)
    (clear : Text.IsClear '{' start) (inside : Text.IsClear '}' inner)
    (unnamed : isName (Text.trim inner) = false) :
    IsPending (before ++ start ++ opening ++ inner ++ closing) := by
  intro rest quiet
  have whole := pending (.refused clear inside unnamed quiet)
  simpa only [List.append_assoc] using whole

/-! ### Whole texts -/

/-- The scan of a text behind what is pending splits both. -/
theorem isSplit_split (pending : IsPending before) (enough : text.length < fuel) :
    IsSplit (before ++ text) (split fuel before text).1 := by
  fun_induction split fuel before text with
  | case1 => omega
  | case2 fuel before text unmarked =>
      refine .quiet (pending (.unclosed fun start after opens => ?_))
      rw [unmarked] at opens
      cases opens
  | case3 fuel before text start after opens unclosed =>
      refine .quiet (pending (.unclosed fun start' after' opens' => ?_))
      rw [opens] at opens'
      cases opens'
      exact unclosed
  | case4 fuel before text start after opens inner rest closes name named nodes found same ih =>
      obtain ⟨rfl, clear⟩ := Text.splitAtMark?_eq_some_iff.1 opens
      obtain ⟨rfl, -⟩ := Text.splitAtMark?_eq_some_iff.1 closes
      simp only [List.length_append, List.length_cons] at enough
      have behind := ih isPending_nil (by omega)
      rw [same] at behind
      have whole := IsSplit.expression (pending (isQuiet_of_isClear clear)) named behind
      simpa [opening, closing] using whole
  | case5 fuel before text start after opens inner rest closes name unnamed ih =>
      obtain ⟨rfl, clear⟩ := Text.splitAtMark?_eq_some_iff.1 opens
      obtain ⟨rfl, inside⟩ := Text.splitAtMark?_eq_some_iff.1 closes
      simp only [List.length_append, List.length_cons] at enough
      have whole := ih (pending.refuse clear inside (Bool.eq_false_iff.2 unnamed)) (by omega)
      simpa [opening, closing] using whole

/-- A scan that finds nothing leaves the text as it is. -/
theorem split_of_not_found (unfound : (split fuel before text).2 = false) :
    (split fuel before text).1 = literal (before ++ text) := by
  fun_induction split fuel before text with
  | case1 | case2 | case3 => rfl
  | case4 => cases unfound
  | case5 fuel before text start after opens inner rest closes name unnamed ih =>
      obtain ⟨rfl, -⟩ := Text.splitAtMark?_eq_some_iff.1 opens
      obtain ⟨rfl, -⟩ := Text.splitAtMark?_eq_some_iff.1 closes
      simpa [opening, closing] using ih unfound

/-! ### Split texts -/

theorem literal_of_ne_nil (filled : text ≠ []) : literal text = [.text (String.ofList text)] := by
  simp [literal, filled]

/-- Literal text in front spells out itself. -/
theorem Spells.literal {chars : List Char} (behind : Spells nodes chars) (text : List Char) :
    Spells (literal text ++ nodes) (text ++ chars) := by
  cases text with
  | nil => exact behind
  | cons c rest =>
      have whole : Spells (.text (String.ofList (c :: rest)) :: nodes)
          ((String.ofList (c :: rest)).toList ++ chars) := .text behind
      rwa [String.toList_ofList] at whole

/-- A split spells out the text. -/
theorem IsSplit.spells (split : IsSplit text nodes) : Spells nodes text := by
  induction split with
  | quiet _ => simpa using Spells.nil.literal _
  | @expression before inner rest nodes quiet named behind ih =>
      obtain ⟨left, right, front, back, whole⟩ := Text.exists_trim inner
      have spelled := Spells.expression (isExpressionName_of_isName named) front back ih
      rw [← whole] at spelled
      simpa only [List.append_assoc] using spelled.literal before

/-- What holds of texts in which there is nothing to find and of expressions holds of all nodes. -/
theorem IsSplit.forall_mem {p : Node → Prop} (split : IsSplit text nodes)
    (texts : ∀ piece, piece ≠ [] → IsQuiet piece → p (.text (String.ofList piece)))
    (expressions : ∀ name, p (.leaf (.expression name))) : ∀ node ∈ nodes, p node := by
  have pieces {piece : List Char} (quiet : IsQuiet piece) : ∀ node ∈ literal piece, p node := by
    rw [Recognizer.literal]
    split
    case isTrue => exact fun _ no => absurd no List.not_mem_nil
    case isFalse filled =>
      exact List.forall_mem_singleton.2 (texts piece (by simpa using filled) quiet)
  induction split with
  | quiet quiet => exact pieces quiet
  | expression quiet named behind ih =>
      exact List.forall_mem_append.2 ⟨pieces quiet, List.forall_mem_cons.2 ⟨expressions _, ih⟩⟩

/-- Between two texts there is an expression. -/
theorem IsSplit.isChain (split : IsSplit text nodes) :
    nodes.IsChain fun first next => ¬(first.kind.isText = true ∧ next.kind.isText = true) := by
  induction split with
  | @quiet text _ =>
      cases text with
      | nil => exact .nil
      | cons c rest => exact .singleton _
  | @expression before inner rest nodes quiet named behind ih =>
      have spaced : List.IsChain (fun first next => ¬(first.kind.isText = true ∧ next.kind.isText = true))
          (.leaf (.expression (String.ofList (Text.trim inner))) :: nodes) :=
        List.isChain_cons.2 ⟨fun next _ both => Bool.false_ne_true both.1, ih⟩
      cases before with
      | nil => exact spaced
      | cons c rest =>
          exact List.isChain_cons_cons.2 ⟨fun both => Bool.false_ne_true both.2, spaced⟩

/-- The recognizer leaves the nodes of a split text as they are. -/
theorem IsSplit.applyTo_eq (split : IsSplit text nodes) :
    ∀ node ∈ nodes, Recognizer.expression.applyTo node = [node] := by
  refine split.forall_mem (fun piece _ quiet => ?_) fun name => rfl
  simp [applyTo, Node.text, leaf, recognize?_of_isQuiet quiet]

/-! ### Runs -/

theorem applyAll_single (text : String) : applyAll [expression] text =
    (expression.recognize? text.toList).getD [.text text] := by
  simp [applyAll, applyTo, Node.text, leaf]

/-- A text that is not empty is split at its expressions. -/
theorem isSplit_applyAll {text : String} (filled : text ≠ "") :
    IsSplit text.toList (applyAll [expression] text) := by
  have scanned : IsSplit ([] ++ text.toList) (split (text.toList.length + 1) [] text.toList).1 :=
    isSplit_split isPending_nil (Nat.lt_succ_self _)
  rw [List.nil_append] at scanned
  rw [applyAll_single, expression]
  dsimp only
  split
  case isTrue => exact scanned
  case isFalse unfound =>
    rw [split_of_not_found (Bool.eq_false_iff.2 unfound), List.nil_append] at scanned
    rw [literal_of_ne_nil (by simpa using filled), String.ofList_toList] at scanned
    exact scanned

/-- Further runs of a recognizer that leaves all nodes as they are change nothing. -/
theorem foldl_replicate_eq_self {recognizer : Recognizer}
    (stable : ∀ node ∈ nodes, recognizer.applyTo node = [node]) (count : Nat) :
    (List.replicate count recognizer).foldl
      (fun nodes recognizer => nodes.flatMap recognizer.applyTo) nodes = nodes := by
  have once : nodes.flatMap recognizer.applyTo = nodes := by
    rw [List.flatMap_congr stable]
    simp
  induction count with
  | zero => rfl
  | succ count ih => rw [List.replicate_succ, List.foldl_cons, once, ih]

/-- The nodes of a text spell the text, no two texts among them stand side by side, and none of them is
empty unless the text is. Running the recognizer of expressions more than once changes nothing. -/
theorem applyAll_expression (text : String) :
    Spells (applyAll [expression] text) text.toList ∧
      ((applyAll [expression] text).IsChain fun first next =>
        ¬(first.kind.isText = true ∧ next.kind.isText = true)) ∧
      (text = "" ∨ ∀ node ∈ applyAll [expression] text, node.kind ≠ .text "") ∧
      ∀ count, applyAll (List.replicate (count + 1) expression) text = applyAll [expression] text := by
  have again (stable : ∀ node ∈ applyAll [expression] text, expression.applyTo node = [node])
      (count : Nat) :
      applyAll (List.replicate (count + 1) expression) text = applyAll [expression] text :=
    foldl_replicate_eq_self stable count
  rcases eq_or_ne text "" with rfl | filled
  · have empty : applyAll [expression] "" = [.text ""] := by rfl
    rw [empty] at again ⊢
    exact ⟨.text .nil, .singleton _, .inl rfl, again (List.forall_mem_singleton.2 rfl)⟩
  · have split := isSplit_applyAll filled
    refine ⟨split.spells, split.isChain, .inr ?_, again split.applyTo_eq⟩
    refine split.forall_mem (fun piece filled _ same => filled ?_) fun name => nofun
    rw [← String.toList_ofList (l := piece), NodeKind.text.inj same]
    rfl

/-- A text whose first braces hold no name. -/
def refusedText : String :=
  "\x7b\x7b x y \x7d\x7d and \x7b\x7bz \x7d\x7d"

/-- Its first node is what has been refused, and three runs find the one expression behind it. -/
theorem applyAll_expression_refused :
    applyAll (List.replicate 3 expression) refusedText =
        [.text "\x7b\x7b x y \x7d\x7d and ", .leaf (.expression "z")] ∧
      Spells (applyAll [expression] refusedText) refusedText.toList ∧
      NodeKind.text "\x7b\x7b x y \x7d\x7d and " ≠ .text "" := by
  have nodes : applyAll [expression] refusedText =
      [.text "\x7b\x7b x y \x7d\x7d and ", .leaf (.expression "z")] := by rfl
  obtain ⟨spelled, -, filled, again⟩ := applyAll_expression refusedText
  refine ⟨(again 2).trans nodes, spelled, ?_⟩
  rw [nodes] at filled
  exact filled.resolve_left (by decide) _ List.mem_cons_self

end DocPress.Recognizer
