import Mathlib.Data.List.Forall2
import DocPress.Caption
import DocPress.Proofs.Node
import DocPress.Proofs.Node.ReadBack

/-!
What captions change. Code blocks get titles; all other kinds of nodes, the shape of a tree and its
text stay as they are. Which titles the info strings of fences have: those behind a colon, those in
quotes behind `title=`, and names of files.
-/

namespace DocPress

open Markdown (Event Tag)
open Text (IsWord isBlank words)

namespace Node

theorem mapKindsAll_eq_map (f : NodeKind → NodeKind) (nodes : List Node) :
    mapKindsAll f nodes = nodes.map (mapKinds f) := by
  induction nodes with
  | nil => rfl
  | cons node rest ih => rw [mapKindsAll, ih, List.map_cons]

@[simp] theorem mapKinds_mk (f : NodeKind → NodeKind) (kind : NodeKind) (children : List Node) :
    mapKinds f ⟨kind, children⟩ = ⟨f kind, children.map (mapKinds f)⟩ := by
  rw [mapKinds, mapKindsAll_eq_map]

@[simp] theorem kind_mapKinds (f : NodeKind → NodeKind) (node : Node) :
    (node.mapKinds f).kind = f node.kind := by
  obtain ⟨kind, children⟩ := node
  rw [mapKinds_mk]

@[simp] theorem children_mapKinds (f : NodeKind → NodeKind) (node : Node) :
    (node.mapKinds f).children = node.children.map (mapKinds f) := by
  obtain ⟨kind, children⟩ := node
  rw [mapKinds_mk]

end Node

/-- Whether the kind is a code block without a title. -/
def NodeKind.isUntitledCode : NodeKind → Bool
  | .codeBlock .. => true
  | _ => false

namespace Caption

open Node

theorem titled_eq_self {kind : NodeKind} (other : kind.isUntitledCode = false) :
    titled kind = kind := by
  cases kind <;> simp [NodeKind.isUntitledCode] at other <;> rfl

/-- A code block keeps its code, with or without a title. -/
theorem titled_codeBlock (language info : Option String) (code : String) :
    titled (.codeBlock language info code) = .codeBlock language info code ∨
      ∃ title other, titled (.codeBlock language info code) =
        .codeBlockWithTitle title other code := by
  rw [titled]
  cases caption? language info with
  | none => exact .inl rfl
  | some found => exact .inr ⟨found.2, found.1, rfl⟩

/-- What is the same for all code blocks, with a title or without, does not depend on titles. -/
theorem congr_titled {α : Type} (f : NodeKind → α) {value : α}
    (untitled : ∀ language info code, f (.codeBlock language info code) = value)
    (titled : ∀ title language code, f (.codeBlockWithTitle title language code) = value)
    (kind : NodeKind) : f (Caption.titled kind) = f kind := by
  cases code : kind.isUntitledCode with
  | false => rw [titled_eq_self code]
  | true =>
      cases kind <;> simp [NodeKind.isUntitledCode] at code
      rw [untitled]
      rcases titled_codeBlock _ _ _ with same | ⟨title, other, same⟩
      · rw [same, untitled]
      · rw [same, titled]

@[simp] theorem isCode_titled (kind : NodeKind) : (titled kind).isCode = kind.isCode :=
  congr_titled NodeKind.isCode (fun _ _ _ => rfl) (fun _ _ _ => rfl) kind

theorem apply_mk (kind : NodeKind) (children : List Node) :
    apply ⟨kind, children⟩ = ⟨titled kind, children.map apply⟩ :=
  mapKinds_mk titled kind children

@[simp] theorem kind_apply (node : Node) : (apply node).kind = titled node.kind :=
  kind_mapKinds titled node

@[simp] theorem children_apply (node : Node) : (apply node).children = node.children.map apply :=
  children_mapKinds titled node

/-- A title adds nothing to a node's own text. -/
theorem ownText_titled (kind : NodeKind) (children : List Node) :
    ownText ⟨titled kind, children⟩ = ownText ⟨kind, children⟩ := by
  cases code : kind.isUntitledCode with
  | false => rw [titled_eq_self code]
  | true =>
      cases kind <;> simp [NodeKind.isUntitledCode] at code
      rcases titled_codeBlock _ _ _ with same | ⟨title, other, same⟩
      · rw [same]
      · rw [same]
        cases children <;> rfl

/-- What a node adds to the text of its tree depends on whether it has children, not on them. -/
theorem ownText_map (kind : NodeKind) (children : List Node) (f : Node → Node) :
    ownText ⟨kind, children.map f⟩ = ownText ⟨kind, children⟩ := by
  cases kind <;> cases children <;> rfl

mutual

/-- Titles are no text. -/
theorem textContent_apply : ∀ node : Node, (apply node).textContent = node.textContent
  | ⟨kind, children⟩ => by
      rw [apply_mk, textContent, textContent, ownText_titled, ownText_map,
        textContentAll_apply children]

theorem textContentAll_apply :
    ∀ nodes : List Node, textContentAll (nodes.map apply) = textContentAll nodes
  | [] => rfl
  | node :: rest => by
      rw [List.map_cons, textContentAll, textContentAll, textContent_apply node,
        textContentAll_apply rest]

end

/-! ### Nodes -/

/-- Whether a tree is another one in which some code blocks have got titles. -/
inductive IsTitled : Node → Node → Prop
  | block {language info newLanguage : Option String} {title code : String} {old new : List Node}
      (below : List.Forall₂ IsTitled old new) :
      IsTitled ⟨.codeBlock language info code, old⟩ ⟨.codeBlockWithTitle title newLanguage code, new⟩
  | other {kind : NodeKind} {old new : List Node} (below : List.Forall₂ IsTitled old new) :
      IsTitled ⟨kind, old⟩ ⟨kind, new⟩

/-- A kind with a title stays, and so does one that gets none. -/
theorem titled_titled (kind : NodeKind) : titled (titled kind) = titled kind := by
  cases code : kind.isUntitledCode with
  | false => rw [titled_eq_self code, titled_eq_self code]
  | true =>
      cases kind <;> cases code
      rcases titled_codeBlock _ _ _ with same | ⟨title, other, same⟩
      · rw [same, same]
      · rw [same]
        rfl

mutual

theorem apply_apply : ∀ node : Node, apply (apply node) = apply node
  | ⟨kind, children⟩ => by
      rw [apply_mk, apply_mk, titled_titled, List.map_map, map_apply_apply children]

theorem map_apply_apply : ∀ nodes : List Node, nodes.map (apply ∘ apply) = nodes.map apply
  | [] => rfl
  | node :: rest => by
      rw [List.map_cons, List.map_cons, map_apply_apply rest, Function.comp, apply_apply node]

end

mutual

/-- Every node of the result is the node before or its code block with a title. -/
theorem isTitled_apply : ∀ node : Node, IsTitled node (apply node)
  | ⟨kind, children⟩ => by
      have below := isTitled_map_apply children
      rw [apply_mk]
      cases code : kind.isUntitledCode with
      | false =>
          rw [titled_eq_self code]
          exact .other below
      | true =>
          cases kind <;> cases code
          rcases titled_codeBlock _ _ _ with same | ⟨title, language, same⟩
          · rw [same]
            exact .other below
          · rw [same]
            exact .block below

theorem isTitled_map_apply : ∀ nodes : List Node, List.Forall₂ IsTitled nodes (nodes.map apply)
  | [] => .nil
  | node :: rest => .cons (isTitled_apply node) (isTitled_map_apply rest)

end

mutual

theorem count_apply : ∀ node : Node, (apply node).count = node.count
  | ⟨kind, children⟩ => by rw [apply_mk, count, count, countAll_map_apply children]

theorem countAll_map_apply : ∀ nodes : List Node, countAll (nodes.map apply) = countAll nodes
  | [] => rfl
  | node :: rest => by
      rw [List.map_cons, countAll, countAll, count_apply node, countAll_map_apply rest]

end

/-! ### Fences -/

/-- The kind of a code block with a fence of the given info string. -/
def fence (info code : String) : NodeKind :=
  .codeBlock (splitInfo info).1 (splitInfo info).2 code

theorem ofTag_codeBlock (info : String) : NodeKind.ofTag (.codeBlock (some info)) = fence info "" :=
  rfl

/-- Texts inside of a fence go on its code. -/
theorem run_fence (recognizers : List Recognizer) (tag : Tag) (info : String) (children top : List Node)
    (texts : List String) (code : String) (later : List Event) :
    TreeBuilder.run ⟨recognizers, [⟨tag, fence info code, children⟩], top⟩ (texts.map .text ++ later) =
      TreeBuilder.run
        ⟨recognizers, [⟨tag, fence info (texts.foldl (· ++ ·) code), children⟩], top⟩ later := by
  induction texts generalizing code with
  | nil => rfl
  | cons text rest ih => exact ih (code ++ text)

/-- The document of a fence and its texts holds a code block with all of them. -/
theorem ofEvents_fence (recognizers : List Recognizer) (info : String) (texts : List String) :
    Node.ofEvents recognizers (Event.wrap (.codeBlock (some info)) (texts.map .text)) =
      .ok (.document [.leaf (fence info (String.join texts))]) := by
  have opened : TreeBuilder.run ⟨recognizers, [], []⟩
      (Event.wrap (.codeBlock (some info)) (texts.map .text)) =
        TreeBuilder.run ⟨recognizers, [⟨.codeBlock (some info), fence info "", []⟩], []⟩
          (texts.map .text ++ [.stop (.codeBlock (some info))]) := by
    rw [← ofTag_codeBlock]
    rfl
  have closed (code : String) : TreeBuilder.run
      ⟨recognizers, [⟨.codeBlock (some info), fence info code, []⟩], []⟩
        [.stop (.codeBlock (some info))] = .ok ⟨recognizers, [], [.leaf (fence info code)]⟩ := by
    rw [TreeBuilder.run, TreeBuilder.step]
    simp only [if_true]
    rfl
  rw [Node.ofEvents, opened, run_fence, closed]
  rfl

/-- Titles are given at every place of a tree. -/
theorem at?_apply (node : Node) (path : List Nat) :
    (apply node).at? path = (node.at? path).map apply := by
  induction path generalizing node with
  | nil => rfl
  | cons index path ih =>
      rw [at?, at?, children_apply, List.getElem?_map, Option.bind_map, Option.map_bind]
      exact congrArg _ (funext ih)

/-! ### Titles behind colons -/

theorem ofLanguage?_eq_none {language : List Char} (plain : ':' ∉ language) :
    ofLanguage? (String.ofList language) = none := by
  rw [ofLanguage?, String.toList_ofList, Text.splitOnce?_eq_none (Text.decide_eq_false_of_not_mem plain)]

/-- A language before a colon and one word names the word as the title. -/
theorem ofLanguage?_colon {language title : List Char} (filled : language ≠ []) (plain : ':' ∉ language)
    (word : IsWord title) :
    ofLanguage? (String.ofList (language ++ ':' :: title)) =
      some (some (String.ofList language), String.ofList title) := by
  have clear := Text.decide_eq_false_of_not_mem plain
  have trimmed := Text.trim_eq_self word.isTrimmed.starts word.isTrimmed.ends
  rw [ofLanguage?, String.toList_ofList, Text.splitOnce?_append clear (decide_eq_true rfl)]
  dsimp only
  rw [trimmed, List.isEmpty_eq_false_iff.2 word.filled, List.isEmpty_eq_false_iff.2 filled]
  rfl

/-! ### Titles as attributes -/

theorem isBlank_of_mem_titleWord : ∀ c ∈ titleWord, isBlank c = false := by
  simpa using (by decide : titleWord.all (!isBlank ·) = true)

/-- A text without blanks is at the start of another one when it is at the start of its first part. -/
theorem isPrefix_head_splitOn {start : List Char} (solid : ∀ c ∈ start, isBlank c = false)
    {text part : List Char} {more : List (List Char)} (parts : Text.splitOn isBlank text = part :: more) :
    start <+: text ↔ start <+: part := by
  induction start generalizing text part with
  | nil => exact iff_of_true List.nil_prefix List.nil_prefix
  | cons s start ih =>
      rw [List.forall_mem_cons] at solid
      cases text with
      | nil =>
          cases parts
          exact Iff.rfl
      | cons c rest =>
          rw [Text.splitOn] at parts
          split at parts
          case isTrue blank =>
            cases parts
            refine iff_of_false (fun starts => ?_) (fun starts => ?_)
            · obtain ⟨rfl, -⟩ := List.cons_prefix_cons.1 starts
              rw [solid.1] at blank
              cases blank
            · exact List.cons_ne_nil _ _ (List.prefix_nil.1 starts)
          case isFalse =>
            cases behind : Text.splitOn isBlank rest with
            | nil => exact absurd behind (Text.splitOn_ne_nil rest)
            | cons first others =>
                rw [behind] at parts
                cases parts
                rw [List.cons_prefix_cons, List.cons_prefix_cons, ih solid.2 behind]

/-- A part that does not start with the title's name has no title behind it. -/
theorem stripStart?_titleWord_eq_none {text part : List Char} {more : List (List Char)}
    (parts : Text.splitOn isBlank text = part :: more) (untitled : ¬titleWord <+: part) :
    Text.stripStart? titleWord text = none := by
  rw [Option.eq_none_iff_forall_ne_some]
  intro value found
  rw [Text.stripStart?_eq_some_iff] at found
  exact untitled ((isPrefix_head_splitOn isBlank_of_mem_titleWord parts).1 ⟨value, found.symm⟩)

/-- Whether none of the words starts with the one in front of a title. -/
def AreUntitled (words : List (List Char)) : Prop :=
  ∀ word ∈ words, ¬titleWord <+: word

instance (words : List (List Char)) : Decidable (AreUntitled words) :=
  inferInstanceAs (Decidable (∀ word ∈ words, ¬titleWord <+: word))

/-- Whether no title starts in a text; `atWord` says whether a word starts with it. -/
def IsUntitled (atWord : Bool) (text : List Char) : Prop :=
  ∃ part more, Text.splitOn isBlank text = part :: more ∧
    (atWord = true → ¬titleWord <+: part) ∧ AreUntitled more

/-- A text none of whose words gives a title gives none at any place. -/
theorem isUntitled_of_words {text : List Char} (untitled : AreUntitled (words text)) :
    IsUntitled true text := by
  have each : AreUntitled (Text.splitOn isBlank text) := by
    intro part member
    cases part with
    | nil => decide
    | cons c rest => exact untitled _ (List.mem_filter.2 ⟨member, rfl⟩)
  cases parts : Text.splitOn isBlank text with
  | nil => exact absurd parts (Text.splitOn_ne_nil text)
  | cons part more =>
      rw [parts] at each
      obtain ⟨first, others⟩ := List.forall_mem_cons.1 each
      exact ⟨part, more, parts, fun _ => first, others⟩

variable {atWord : Bool}

/-- A text that gives no title gives none behind its first character. -/
theorem IsUntitled.tail {c : Char} {rest : List Char} (untitled : IsUntitled atWord (c :: rest)) :
    IsUntitled (isBlank c) rest := by
  obtain ⟨part, more, parts, -, others⟩ := untitled
  cases behind : Text.splitOn isBlank rest with
  | nil => exact absurd behind (Text.splitOn_ne_nil rest)
  | cons next later =>
      rw [Text.splitOn, behind] at parts
      split at parts
      case isTrue space =>
        obtain ⟨-, rfl⟩ := List.cons.inj parts
        obtain ⟨first, others⟩ := List.forall_mem_cons.1 others
        exact ⟨next, later, behind, fun _ => first, others⟩
      case isFalse solid =>
        obtain ⟨-, rfl⟩ := List.cons.inj parts
        exact ⟨next, later, behind, fun space => absurd space solid, others⟩

/-- A text that gives no title does not start with the title's name at a word's start. -/
theorem IsUntitled.start {text : List Char} (untitled : IsUntitled atWord text) :
    (if atWord then Text.stripStart? titleWord text else none) = none := by
  obtain ⟨part, more, parts, first, -⟩ := untitled
  cases atWord with
  | false => rfl
  | true => exact stripStart?_titleWord_eq_none parts (first rfl)

/-- A blank ends the last word of a text, so that no title starts there that goes on behind the blank. -/
theorem IsUntitled.start_append {front : List Char} (untitled : IsUntitled atWord front) {b : Char}
    (blank : isBlank b = true) (text : List Char) :
    (if atWord then Text.stripStart? titleWord (front ++ b :: text) else none) = none := by
  obtain ⟨part, more, parts, first, -⟩ := untitled
  cases atWord with
  | false => rfl
  | true =>
      have whole : Text.splitOn isBlank (front ++ b :: text) =
          part :: (more ++ Text.splitOn isBlank text) := by
        rw [Text.splitOn_append_cons blank, parts, List.cons_append]
      exact stripStart?_titleWord_eq_none whole (first rfl)

/-- A text that gives no title has no attribute that does. -/
theorem findAttribute_eq_none {text : List Char} (untitled : IsUntitled atWord text) :
    findAttribute atWord text = none := by
  induction text generalizing atWord with
  | nil => rfl
  | cons c rest ih =>
      rw [findAttribute, untitled.start]
      exact ih untitled.tail

/-- A text in which no title starts is passed, up to a blank. -/
theorem findAttribute_append {front : List Char} (untitled : IsUntitled atWord front) {b : Char}
    (blank : isBlank b = true) (text : List Char) :
    findAttribute atWord (front ++ b :: text) = findAttribute true text := by
  induction front generalizing atWord with
  | nil =>
      have start := untitled.start_append blank text
      rw [List.nil_append] at start ⊢
      rw [findAttribute, start, blank]
  | cons c rest ih =>
      have start := untitled.start_append blank text
      rw [List.cons_append] at start ⊢
      rw [findAttribute, start]
      exact ih untitled.tail

/-- The title's name at a word's start is the attribute that is found. -/
theorem findAttribute_titleWord (value : List Char) :
    findAttribute true (titleWord ++ value) = some value := by
  have start : Text.stripStart? titleWord (titleWord ++ value) = some value :=
    Text.stripStart?_eq_some_iff.2 rfl
  rw [show titleWord ++ value = 't' :: ("itle=".toList ++ value) from rfl] at start ⊢
  rw [findAttribute, if_pos rfl, start]

/-- What may stand between the language and the title of a fence: words that start no title, with blanks
around them. -/
structure IsGap (gap : List Char) : Prop where
  starts : ∃ c ∈ gap.head?, isBlank c = true
  ends : ∃ c ∈ gap.getLast?, isBlank c = true
  untitled : AreUntitled (words gap)

/-- Behind a gap a title is found, also when the blanks in front of the gap are gone. -/
theorem IsGap.findAttribute {gap left inner : List Char} (isGap : IsGap gap)
    (before : ∀ c ∈ left, isBlank c = true) (whole : gap = left ++ inner) (value : List Char) :
    findAttribute true (inner ++ (titleWord ++ value)) = some value := by
  have untitled := isGap.untitled
  rw [whole, Text.words_blanks_append before] at untitled
  rcases List.eq_nil_or_concat inner with rfl | ⟨front, b, rfl⟩
  · exact findAttribute_titleWord value
  · obtain ⟨c, last, blank⟩ := isGap.ends
    rw [whole, List.concat_eq_append, ← List.append_assoc, List.getLast?_concat] at last
    cases last
    have apart : ∀ c, [b].head? = some c → isBlank c = true := by
      rintro c ⟨⟩
      exact blank
    rw [List.concat_eq_append, Text.words_append apart] at untitled
    have passed : IsUntitled true front :=
      isUntitled_of_words fun word member => untitled word (List.mem_append_left _ member)
    rw [List.concat_eq_append, List.append_assoc, List.singleton_append,
      findAttribute_append passed blank, findAttribute_titleWord]

/-- The quoted text at the start of a text is its title. -/
theorem quoted?_append {quote : Char} (isQuote : quote = '"' ∨ quote = '\'') {title : List Char}
    (plain : quote ∉ title) (filled : Text.trim title ≠ []) (rest : List Char) :
    quoted? (quote :: (title ++ quote :: rest)) = some (Text.trim title) := by
  have clear := Text.decide_eq_false_of_not_mem plain
  rw [quoted?, if_pos (by simpa using isQuote), Text.splitOnce?_append clear (decide_eq_true rfl)]
  dsimp only
  rw [List.isEmpty_eq_false_iff.2 filled]
  rfl

/-- A text in quotes and what is behind it. -/
def quotedText (quote : Char) (title rest : List Char) : List Char :=
  quote :: (title ++ quote :: rest)

theorem isBlank_quote {quote : Char} (isQuote : quote = '"' ∨ quote = '\'') : isBlank quote = false := by
  rcases isQuote with rfl | rfl <;> rfl

/-- Blanks around an info string with a title are at the start of its gap and behind the quotes. -/
theorem exists_trim_title (gap : List Char) {quote : Char} (solid : isBlank quote = false)
    (title rest : List Char) : ∃ left inner kept, (∀ c ∈ left, isBlank c = true) ∧ gap = left ++ inner ∧
      Text.IsTrimmed (inner ++ (titleWord ++ quotedText quote title kept)) ∧
      Text.trim (gap ++ (titleWord ++ quotedText quote title rest)) =
        inner ++ (titleWord ++ quotedText quote title kept) := by
  obtain ⟨left, before, whole⟩ := Text.exists_dropWhile isBlank gap
  obtain ⟨right, behind, whole'⟩ := Text.exists_dropEndWhile_append isBlank rest
  have trimmed : Text.IsTrimmed (gap.dropWhile isBlank ++
      (titleWord ++ quotedText quote title (Text.dropEndWhile isBlank rest))) := by
    constructor
    · intro c head
      cases inner : gap.dropWhile isBlank with
      | nil =>
          rw [inner] at head
          cases head
          rfl
      | cons d inner =>
          have stops := List.head?_dropWhile_not isBlank gap
          rw [inner] at head stops
          cases head
          exact stops
    · intro c last
      rw [quotedText, ← List.cons_append, ← List.append_assoc, ← List.append_assoc,
        List.getLast?_append_of_ne_nil _ (List.cons_ne_nil _ _)] at last
      cases kept : Text.dropEndWhile isBlank rest with
      | nil =>
          rw [kept] at last
          cases last
          exact solid
      | cons d kept =>
          rw [kept, List.getLast?_cons_cons, ← kept] at last
          exact Text.getLast?_dropEndWhile last
  refine ⟨left, gap.dropWhile isBlank, Text.dropEndWhile isBlank rest, before, whole, trimmed, ?_⟩
  rw [← Text.trim_append before trimmed behind]
  conv_lhs => rw [whole, whole']
  simp only [quotedText, List.append_assoc, List.cons_append]

/-- Behind the language of a fence and a gap, a quoted title is found and trimmed, whatever comes behind. -/
theorem ofInfo?_title {gap : List Char} (isGap : IsGap gap) {quote : Char}
    (isQuote : quote = '"' ∨ quote = '\'') {title : List Char} (plain : quote ∉ title)
    (filled : Text.trim title ≠ []) (rest : List Char) :
    (infoOf (gap ++ (titleWord ++ quotedText quote title rest))).bind ofInfo? =
      some (String.ofList (Text.trim title)) := by
  obtain ⟨left, inner, kept, before, whole, trimmed, core⟩ :=
    exists_trim_title gap (isBlank_quote isQuote) title rest
  have filled_core : inner ++ (titleWord ++ quotedText quote title kept) ≠ [] :=
    List.append_ne_nil_of_right_ne_nil inner (List.cons_ne_nil _ _)
  rw [infoOf, core, List.isEmpty_eq_false_iff.2 filled_core, if_neg Bool.false_ne_true, Option.bind_some, ofInfo?,
    String.toList_ofList, Text.trim_eq_self trimmed.starts trimmed.ends,
    isGap.findAttribute before whole, quotedText]
  dsimp only
  rw [quoted?_append isQuote plain filled]
  rfl

/-! ### File names -/

/-- Whether a text is the name of a file: a stem, a point and an extension of letters and digits, without
blanks, equals signs and braces. -/
structure IsFileName (text : List Char) : Prop where
  plain : ∀ c ∈ text, isBlank c = false ∧ c ≠ '=' ∧ c.toNat ≠ 123 ∧ c.toNat ≠ 125
  parts : ∃ stem extension, text = stem ++ '.' :: extension ∧ stem ≠ [] ∧ extension ≠ [] ∧
    ∀ c ∈ extension, c.isAlphanum = true

/-- The test for a file's name decides whether a text is one. -/
theorem isFileName_iff {text : List Char} : isFileName text = true ↔ IsFileName text := by
  have plain : (!text.any fun c => isBlank c || c = '=' || c.toNat = 123 || c.toNat = 125) = true ↔
      ∀ c ∈ text, isBlank c = false ∧ c ≠ '=' ∧ c.toNat ≠ 123 ∧ c.toNat ≠ 125 := by
    simp [and_assoc]
  rw [isFileName, Bool.and_eq_true, plain]
  constructor
  · rintro ⟨plain, parts⟩
    refine ⟨plain, ?_⟩
    cases cut : Text.splitOnce? (· = '.') text.reverse with
    | none =>
        rw [cut] at parts
        cases parts
    | some found =>
        obtain ⟨extension, stem⟩ := found
        obtain ⟨c, point, -, whole⟩ := Text.splitOnce?_eq_some cut
        obtain rfl : c = '.' := of_decide_eq_true point
        rw [cut] at parts
        refine ⟨stem.reverse, extension.reverse, ?_, ?_⟩
        · rw [← List.reverse_inj, whole]
          simp
        · simpa [and_assoc] using parts
  · rintro ⟨plain, stem, extension, rfl, some_stem, some_extension, each⟩
    refine ⟨plain, ?_⟩
    have clear : ∀ c ∈ extension.reverse, decide (c = '.') = false := by
      intro c member
      refine decide_eq_false ?_
      rintro rfl
      cases each '.' (List.mem_reverse.1 member)
    have whole : (stem ++ '.' :: extension).reverse = extension.reverse ++ '.' :: stem.reverse := by simp
    rw [whole, Text.splitOnce?_append clear (decide_eq_true rfl)]
    simpa [some_stem, some_extension] using each

/-- A file's name is one word. -/
theorem IsFileName.isWord {text : List Char} (file : IsFileName text) : IsWord text where
  filled := by
    obtain ⟨stem, extension, rfl, -⟩ := file.parts
    exact List.append_ne_nil_of_right_ne_nil stem (List.cons_ne_nil _ _)
  solid c member := (file.plain c member).1

/-- There is no title in the rest of an info string without one, unless it is a file name. -/
theorem ofInfo?_eq_none {more : List Char} (untitled : AreUntitled (words more))
    (noFile : ∀ word, words more = [word] → ¬IsFileName word) :
    (infoOf more).bind ofInfo? = none := by
  rw [infoOf]
  split
  · rfl
  · have trimmed := Text.isTrimmed_trim more
    rw [← Text.words_trim] at untitled noFile
    have noName : ¬isFileName (Text.trim more) = true := by
      rw [isFileName_iff]
      intro file
      exact noFile _ (Text.words_of_isWord file.isWord) file
    rw [Option.bind_some, ofInfo?, String.toList_ofList, Text.trim_eq_self trimmed.starts trimmed.ends,
      findAttribute_eq_none (isUntitled_of_words untitled)]
    exact if_neg noName

/-! ### Titles of fences -/

/-- A code block whose info holds a title becomes one with that title. -/
theorem titled_of_caption {language info newLanguage : Option String} {title : String}
    (found : caption? language info = some (newLanguage, title)) (code : String) :
    titled (.codeBlock language info code) = .codeBlockWithTitle title newLanguage code := by
  rw [titled, found]

variable {language : List Char} (word : IsWord language) (plain : ':' ∉ language)
include word plain

/-- A title behind a colon is found, whatever words follow. -/
theorem titled_colon {title more : List Char} (isTitle : IsWord title)
    (apart : ∀ c, more.head? = some c → isBlank c = true) (code : String) :
    titled (fence (String.ofList (language ++ ':' :: title ++ more)) code) =
      .codeBlockWithTitle (String.ofList title) (some (String.ofList language)) code := by
  have whole : IsWord (language ++ ':' :: title) := by
    refine ⟨List.append_ne_nil_of_left_ne_nil word.filled _, ?_⟩
    exact List.forall_mem_append.2 ⟨word.solid, List.forall_mem_cons.2 ⟨rfl, isTitle.solid⟩⟩
  rw [fence, splitInfo_word whole apart]
  refine titled_of_caption ?_ code
  rw [caption?, Option.bind_some, ofLanguage?_colon word.filled plain isTitle]

/-- A quoted title behind a gap is found, whatever is behind it. -/
theorem titled_title {gap : List Char} (isGap : IsGap gap) {quote : Char}
    (isQuote : quote = '"' ∨ quote = '\'') {title : List Char} (unquoted : quote ∉ title)
    (filled : Text.trim title ≠ []) (rest : List Char) (code : String) :
    titled (fence (String.ofList (language ++ (gap ++ (titleWord ++ quotedText quote title rest)))) code) =
      .codeBlockWithTitle (String.ofList (Text.trim title)) (some (String.ofList language)) code := by
  have apart : ∀ c, (gap ++ (titleWord ++ quotedText quote title rest)).head? = some c →
      isBlank c = true := by
    obtain ⟨d, starts, blank⟩ := isGap.starts
    intro c head
    rw [List.head?_append, starts] at head
    cases head
    exact blank
  rw [fence, splitInfo_word word apart]
  refine titled_of_caption ?_ code
  rw [caption?, Option.bind_some, ofLanguage?_eq_none plain, ofInfo?_title isGap isQuote unquoted filled]
  rfl

omit word plain

/-- A fence without a colon, a title and a file name stays untitled. -/
theorem titled_untitled {info : String}
    (plain : ∀ first, (words info.toList).head? = some first → ':' ∉ first)
    (untitled : AreUntitled (words info.toList).tail)
    (noFile : ∀ word, (words info.toList).tail = [word] → ¬IsFileName word) (code : String) :
    titled (fence info code) = fence info code := by
  obtain ⟨text, rfl⟩ : ∃ text, String.ofList text = info := ⟨_, String.ofList_toList⟩
  rw [String.toList_ofList] at plain untitled noFile
  rcases Text.isBlank_or_exists_word text with blank | ⟨left, first, more, rfl, before, word, apart⟩
  · rw [fence, splitInfo_blank blank]
    rfl
  · have parts : words (left ++ first ++ more) = first :: words more := by
      rw [Text.words_append apart, Text.words_blanks_append before, Text.words_of_isWord word]
      rfl
    rw [parts] at plain untitled noFile
    rw [fence, splitInfo_append before word apart, titled, caption?, Option.bind_some,
      ofLanguage?_eq_none (plain first rfl), ofInfo?_eq_none untitled noFile]
    rfl

end Caption

open Caption in
/-- Captions change code blocks to titled ones and nothing else, and a second time nothing at all; they do
so at every place of a tree. A fence becomes a code block, with the texts inside of it as its code. Behind
a word that is a language, a word behind a colon is the title of the block, and so is the first quoted text
behind `title=`; other blocks stay untitled, unless a file name is all that stands behind their first
word. -/
theorem Caption.apply_and_fences :
    (∀ node : Node, apply (apply node) = apply node ∧ IsTitled node (apply node) ∧
      (apply node).textContent = node.textContent ∧ (apply node).count = node.count ∧
      ∀ path, (apply node).at? path = (node.at? path).map apply) ∧
    (∀ recognizers info texts,
      Node.ofEvents recognizers (Event.wrap (.codeBlock (some info)) (texts.map .text)) =
        .ok (.document [.leaf (fence info (String.join texts))])) ∧
    (∀ language title more : List Char, ∀ code children, IsWord language → ':' ∉ language → IsWord title →
      (∀ c, more.head? = some c → isBlank c = true) →
      apply ⟨fence (String.ofList (language ++ ':' :: title ++ more)) code, children⟩ =
        ⟨.codeBlockWithTitle (String.ofList title) (some (String.ofList language)) code,
          children.map apply⟩) ∧
    (∀ language gap title rest : List Char, ∀ quote : Char, ∀ code children, IsWord language →
      ':' ∉ language → IsGap gap → (quote = '"' ∨ quote = '\'') → quote ∉ title → Text.trim title ≠ [] →
      apply ⟨fence (String.ofList (language ++ (gap ++ (titleWord ++ quotedText quote title rest)))) code,
          children⟩ =
        ⟨.codeBlockWithTitle (String.ofList (Text.trim title)) (some (String.ofList language)) code,
          children.map apply⟩) ∧
    ∀ info code children, (∀ first, (words info.toList).head? = some first → ':' ∉ first) →
      AreUntitled (words info.toList).tail →
      (∀ word, (words info.toList).tail = [word] → ¬IsFileName word) →
      apply ⟨fence info code, children⟩ = ⟨fence info code, children.map apply⟩ := by
  refine ⟨fun node => ?_, ofEvents_fence, ?_, ?_, ?_⟩
  · exact ⟨apply_apply node, isTitled_apply node, textContent_apply node, count_apply node,
      at?_apply node⟩
  · intro language title more code children word plain isTitle apart
    rw [apply_mk, titled_colon word plain isTitle apart]
  · intro language gap title rest quote code children word plain isGap isQuote unquoted filled
    rw [apply_mk, titled_title word plain isGap isQuote unquoted filled]
  · intro info code children plain untitled noFile
    rw [apply_mk, titled_untitled plain untitled noFile]

open Caption in
/-- Titles behind a colon and behind an attribute with a similar name, and a flag that is no title. The
first block is that of a fence with a line of code. -/
theorem Caption.apply_and_fences_flags :
    (Node.ofEvents [] (Event.wrap (.codeBlock (some "js:app.js hot")) [.text "run()"])).map apply =
      .ok (.document [.leaf (.codeBlockWithTitle "app.js" (some "js") "run()")]) ∧
    apply (.leaf (fence "py subtitle=\"x\" title=' run me' a" "")) =
      .leaf (.codeBlockWithTitle "run me" (some "py") "") ∧
    apply (.leaf (fence "rust ignore" "")) = .leaf (fence "rust ignore" "") := by
  obtain ⟨-, built, colon, quoted, plain⟩ := Caption.apply_and_fences
  refine ⟨?_, ?_, ?_⟩
  · have titled : apply (.leaf (fence "js:app.js hot" "run()")) =
        .leaf (.codeBlockWithTitle "app.js" (some "js") "run()") := by
      refine colon "js".toList "app.js".toList " hot".toList _ [] (by decide) (by decide) (by decide) ?_
      rintro c ⟨⟩
      rfl
    refine (congrArg (Except.map apply) (built [] _ ["run()"])).trans ?_
    rw [← titled]
    rfl
  · exact quoted "py".toList " subtitle=\"x\" ".toList " run me".toList " a".toList '\'' "" []
      (by decide) (by decide) ⟨⟨' ', rfl, rfl⟩, ⟨' ', rfl, rfl⟩, by decide +kernel⟩ (.inr rfl)
      (by decide +kernel) (by decide +kernel)
  · refine plain "rust ignore" "" [] ?_ (by decide +kernel) ?_
    · rintro first ⟨⟩
      decide
    · intro word single
      rw [← isFileName_iff]
      obtain rfl : "ignore".toList = word := List.head_eq_of_cons_eq single
      decide +kernel

end DocPress
