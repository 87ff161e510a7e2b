import DocPress.Node.Build
import DocPress.Proofs.Text

/-!
Trees read back as events. What is kept of a stream has the texts of each code block joined and each task
marker behind the start of its list item. Every kind of node that an element becomes tells the element, up
to the attributes that the kind does not keep.
-/

namespace DocPress

namespace Markdown

/-! ### Well-formed streams -/

/-- Whether an element is a list item. -/
def Tag.isItem : Tag → Bool
  | .item => true
  | _ => false

/-- Whether an element is a code block. -/
def Tag.isCode : Tag → Bool
  | .codeBlock _ => true
  | _ => false

/-- An open element of a stream, and whether there has been a task marker for it. -/
structure OpenTag where
  tag : Tag
  marked : Bool

/-- Marks the innermost open list item. There has to be one, and no marker for it yet. -/
def mark? : List OpenTag → Option (List OpenTag)
  | [] => none
  | top :: rest =>
    if top.tag.isItem then
      if top.marked then none else some ({ top with marked := true } :: rest)
    else (mark? rest).map (top :: ·)

/-- Whether the innermost open element is a code block. -/
def inCode : List OpenTag → Bool
  | [] => false
  | top :: _ => top.tag.isCode

/-- The open elements after an event, innermost one first. There are none if the event may not stand
here: it ends another element than the innermost one, is a task marker without an item of its own, or is
no text but stands in a code block. -/
def Event.admit? (stack : List OpenTag) : Event → Option (List OpenTag)
  | .start tag => if inCode stack then none else some (⟨tag, false⟩ :: stack)
  | .stop tag => if stack.head?.map (·.tag) = some tag then some stack.tail else none
  | .text _ => some stack
  | .taskMarker _ => if inCode stack then none else mark? stack
  | _ => if inCode stack then none else some stack

/-- The open elements after events in order. -/
def admitAll? : List OpenTag → List Event → Option (List OpenTag)
  | stack, [] => some stack
  | stack, event :: rest => (event.admit? stack).bind fun stack => admitAll? stack rest

/-- Whether a stream is balanced, has at most one task marker for each list item and none outside of
items, and holds nothing but texts in code blocks. -/
def IsWellFormed (events : List Event) : Prop :=
  (admitAll? [] events).map (·.isEmpty) = some true

instance (events : List Event) : Decidable (IsWellFormed events) :=
  inferInstanceAs (Decidable (_ = _))

/-! ### What trees keep of a stream -/

/-- An info string with a single blank behind its first word and no blanks around it, unless it is
blank. -/
def keptInfo (info : String) : Option String :=
  let text := Text.trim info.toList
  let rest := Text.trim (text.dropWhile (!Text.isBlank ·))
  if text.isEmpty then none
  else
    some (String.ofList
      (text.takeWhile (!Text.isBlank ·) ++ if rest.isEmpty then [] else ' ' :: rest))

/-- What is kept of an element: levels as bytes, the numbers of lists as words of eight bytes, and the
words of info strings. Blocks of metadata and of raw HTML are the same, and so are all block quotes. -/
def Tag.kept : Tag → Tag
  | .heading level id => .heading (level % UInt8.size) id
  | .list start => .list (start.map (· % UInt64.size))
  | .codeBlock info => .codeBlock (keptInfo (info.getD ""))
  | .metadataBlock _ => .htmlBlock
  | .blockQuote _ => .blockQuote none
  | tag => tag

/-- The first task marker for the list item that is left when `depth` items further inside have ended. -/
def markerAhead : Nat → List Event → Option Bool
  | _, [] => none
  | depth, event :: rest =>
    match event with
    | .start tag => markerAhead (depth + tag.isItem.toNat) rest
    | .stop tag =>
      if depth < tag.isItem.toNat then none else markerAhead (depth - tag.isItem.toNat) rest
    | .taskMarker checked => if depth = 0 then some checked else markerAhead depth rest
    | _ => markerAhead depth rest

/-- The texts at the start of a stream, joined. -/
def textsAhead : List Event → String
  | .text value :: rest => value ++ textsAhead rest
  | _ => ""

/-- The event of a code, if there is any. -/
def codeEvents (code : String) : List Event :=
  if code = "" then [] else [.text code]

/-- The event of the flag of a list item. -/
def markerEvents (flag : Option Bool) : List Event :=
  flag.toList.map .taskMarker

/-- What belongs to the start of an element: the task marker of a list item and the code of a code
block, taken from the events behind that start. -/
def Tag.notes (rest : List Event) : Tag → List Event
  | .item => markerEvents (markerAhead 0 rest)
  | .codeBlock _ => codeEvents (textsAhead rest)
  | _ => []

/-- What an event comes to when the events behind it are `rest`; `code` says whether it stands in a code
block. Markers and code stand behind the starts they belong to. -/
def Event.gathered (code : Bool) (rest : List Event) : Event → List Event
  | .start tag => .start tag.kept :: tag.notes rest
  | .stop tag => [.stop tag.kept]
  | .text value => if code then [] else [.text value]
  | .taskMarker _ => []
  | event => [event]

/-- Whether a code block is open behind an event. -/
def Event.inCode (code : Bool) : Event → Bool
  | .start tag => tag.isCode
  | .stop _ => false
  | _ => code

/-- A stream with what its tree keeps of each event. -/
def gather : Bool → List Event → List Event
  | _, [] => []
  | code, event :: rest => event.gathered code rest ++ gather (event.inCode code) rest

end Markdown

open Markdown (Event Tag ColumnAlign keptInfo)

/-! ### Reading trees back -/

/-- The column that an alignment comes from. -/
def columnOf : Option Align → ColumnAlign
  | none => .none
  | some .left => .left
  | some .center => .center
  | some .right => .right

/-- The info string that a language and what is behind it come from. -/
def fenceInfo? : Option String → Option String → Option (Option String)
  | none, none => some none
  | some language, none => some (some language)
  | some language, some info => some (some (language ++ " " ++ info))
  | none, some _ => none

/-- The element that a kind of node comes from. -/
def NodeKind.tag? : NodeKind → Option Tag
  | .paragraph => some .paragraph
  | .heading level id => some (.heading level.toNat id)
  | .blockQuote => some (.blockQuote none)
  | .codeBlock language info _ => (fenceInfo? language info).map .codeBlock
  | .fragment => some .htmlBlock
  | .list ordered start => if ordered = start.isSome then some (.list (start.map UInt64.toNat)) else none
  | .listItem _ => some .item
  | .footnoteDefinition label => some (.footnoteDefinition label)
  | .table alignments => some (.table (alignments.map columnOf))
  | .tableHead => some .tableHead
  | .tableRow => some .tableRow
  | .tableCell header align => if header || align.isSome then none else some .tableCell
  | .emphasis => some .emphasis
  | .strong => some .strong
  | .strikethrough => some .strikethrough
  | .link url title => some (.link url title)
  | .image url title => some (.image url title)
  | .custom name attributes =>
    if attributes = .empty then
      [("dl", Tag.definitionList), ("dt", .definitionTitle), ("dd", .definitionDetails),
        ("sup", .superscript), ("sub", .subscript)].lookup name
    else none
  | _ => none

/-- The event that a kind of node without children comes from. -/
def NodeKind.event? : NodeKind → Option Event
  | .text value => some (.text value)
  | .inlineCode value => some (.code value)
  | .html value => some (.html value)
  | .footnoteReference label => some (.footnoteReference label)
  | .softBreak => some .softBreak
  | .hardBreak => some .hardBreak
  | .thematicBreak => some .rule
  | _ => none

/-- The events that the flag of a list item and the code of a code block come from. -/
def NodeKind.notes : NodeKind → List Event
  | .listItem flag => Markdown.markerEvents flag
  | .codeBlock _ _ code => Markdown.codeEvents code
  | _ => []

mutual

/-- The events that a tree comes from, in document order. There are none for kinds of nodes that come
from no events. -/
def Node.events? : Node → Option (List Event)
  | ⟨kind, children⟩ =>
    match kind.event? with
    | some event => if children.isEmpty then some [event] else none
    | none => do
      let tag ← kind.tag?
      let inner ← eventsAll? children
      return Event.wrap tag (kind.notes ++ inner)

/-- The events that a list of trees comes from, in document order. -/
def Node.eventsAll? : List Node → Option (List Event)
  | [] => some []
  | node :: rest => do
    let first ← node.events?
    let others ← eventsAll? rest
    return first ++ others

end

mutual

/-- The nodes that recognizers make of a tree: those of its text if it is one. -/
def Node.respell (recognizers : List Recognizer) : Node → List Node
  | ⟨.text value, _⟩ => Recognizer.applyAll recognizers value
  | ⟨kind, children⟩ => [⟨kind, respellAll recognizers children⟩]

/-- The nodes that recognizers make of a list of trees. -/
def Node.respellAll (recognizers : List Recognizer) : List Node → List Node
  | [] => []
  | node :: rest => node.respell recognizers ++ respellAll recognizers rest

end

/-! ### Info strings -/

/-- What is left of an info string behind its first word. -/
def infoOf (more : List Char) : Option String :=
  if (Text.trim more).isEmpty then none else some (String.ofList (Text.trim more))

/-- An info string is its first word and what is left behind that, blanks around it apart. -/
theorem splitInfo_append {left first more : List Char} (before : ∀ c ∈ left, Text.isBlank c = true)
    (word : Text.IsWord first) (apart : ∀ c, more.head? = some c → Text.isBlank c = true) :
    splitInfo (String.ofList (left ++ first ++ more)) =
      (some (String.ofList first), infoOf more) := by
  obtain ⟨inner, right, front, behind, whole⟩ := Text.exists_trim more
  have trimmed := Text.isTrimmed_trim more
  rw [infoOf, splitInfo, String.toList_ofList]
  cases core : Text.trim more with
  | nil =>
      rw [core, List.append_nil] at whole
      have text : Text.trim (left ++ first ++ more) = first :=
        Text.trim_append before word.isTrimmed (whole ▸ List.forall_mem_append.2 ⟨front, behind⟩)
      rw [text, Text.splitOnce?_eq_none word.solid]
      dsimp only
      rw [List.isEmpty_eq_false_iff.2 word.filled]
      rfl
  | cons d rest =>
      rw [core] at whole trimmed
      have solid : Text.isBlank d = false := trimmed.starts d rfl
      cases inner with
      | nil =>
          have blank := apart d (by rw [whole]; rfl)
          rw [solid] at blank
          cases blank
      | cons c inner =>
          rw [List.forall_mem_cons] at front
          have ends : Text.IsTrimmed (first ++ c :: inner ++ d :: rest) :=
            word.isTrimmed.append word.filled trimmed (List.cons_ne_nil d rest) (c :: inner)
          have text : Text.trim (left ++ first ++ more) = first ++ c :: (inner ++ d :: rest) := by
            have cut := Text.trim_append before ends behind
            rw [whole]
            simpa only [List.append_assoc, List.cons_append] using cut
          have rest' : Text.trim (inner ++ d :: rest) = d :: rest := by
            have cut := @Text.trim_append inner (d :: rest) [] front.2 trimmed nofun
            rwa [List.append_nil] at cut
          rw [text, Text.splitOnce?_append word.solid front.1]
          dsimp only
          rw [rest']

theorem splitInfo_word {first more : List Char} (word : Text.IsWord first)
    (apart : ∀ c, more.head? = some c → Text.isBlank c = true) :
    splitInfo (String.ofList (first ++ more)) = (some (String.ofList first), infoOf more) :=
  @splitInfo_append [] first more nofun word apart

theorem splitInfo_blank {text : List Char} (blank : ∀ c ∈ text, Text.isBlank c = true) :
    splitInfo (String.ofList text) = (none, none) := by
  rw [splitInfo, String.toList_ofList, Text.trim_eq_nil blank]
  rfl

/-- The language and the rest of an info string tell what is kept of it. -/
theorem tag?_splitInfo (info code : String) :
    NodeKind.tag? (.codeBlock (splitInfo info).1 (splitInfo info).2 code) =
      some (.codeBlock (keptInfo info)) := by
  rw [splitInfo, keptInfo, Text.splitOnce?_eq]
  dsimp only
  cases behind : (Text.trim info.toList).dropWhile (!Text.isBlank ·) with
  | nil =>
      have whole : (Text.trim info.toList).takeWhile (!Text.isBlank ·) = Text.trim info.toList := by
        have parts := @List.takeWhile_append_dropWhile _ (!Text.isBlank ·) (Text.trim info.toList)
        rwa [behind, List.append_nil] at parts
      rw [whole, show Text.trim [] = [] from rfl, List.isEmpty_nil, if_pos rfl, List.append_nil]
      dsimp only
      split <;> rfl
  | cons c rest =>
      have blank : Text.isBlank c = true := by
        have stops := List.head?_dropWhile_not (!Text.isBlank ·) (Text.trim info.toList)
        rw [behind] at stops
        simpa using stops
      have filled : (Text.trim info.toList).isEmpty = false := by
        rw [List.isEmpty_eq_false_iff]
        intro empty
        rw [empty] at behind
        cases behind
      rw [filled, Text.trim_cons blank]
      dsimp only
      cases Text.trim rest with
      | nil =>
          rw [List.isEmpty_nil, if_pos rfl, if_pos rfl, if_neg Bool.false_ne_true, List.append_nil]
          rfl
      | cons d more =>
          rw [List.isEmpty_cons, if_neg Bool.false_ne_true, if_neg Bool.false_ne_true,
            if_neg Bool.false_ne_true, Text.ofList_append_blank]
          rfl

/-- What is kept of an info string is split as the string is. -/
theorem splitInfo_keptInfo (info : String) : splitInfo ((keptInfo info).getD "") = splitInfo info := by
  obtain ⟨text, rfl⟩ : ∃ text, String.ofList text = info := ⟨_, String.ofList_toList⟩
  have kept := tag?_splitInfo (String.ofList text) ""
  rcases Text.isBlank_or_exists_word text with blank | ⟨left, first, more, rfl, before, word, apart⟩
  · rw [splitInfo_blank blank] at kept ⊢
    rw [← Tag.codeBlock.inj (Option.some.inj kept)]
    rfl
  · rw [splitInfo_append before word apart] at kept ⊢
    cases rest : Text.trim more with
    | nil =>
        have nothing : infoOf more = none := by rw [infoOf, rest]; rfl
        rw [nothing] at kept ⊢
        rw [← Tag.codeBlock.inj (Option.some.inj kept), Option.getD_some]
        have alone := @splitInfo_word first [] word nofun
        rwa [List.append_nil] at alone
    | cons d behind =>
        have something : infoOf more = some (String.ofList (Text.trim more)) := by rw [infoOf, rest]; rfl
        have blank : ∀ c, (' ' :: Text.trim more).head? = some c → Text.isBlank c = true := by
          rintro c ⟨⟩
          rfl
        rw [something] at kept
        rw [← Tag.codeBlock.inj (Option.some.inj kept), Option.getD_some, ← Text.ofList_append_blank,
          splitInfo_word word blank, infoOf, infoOf, Text.trim_cons rfl, Text.trim_trim]

/-! ### Kinds -/

theorem columnOf_alignOf (column : ColumnAlign) : columnOf (alignOf column) = column := by
  cases column <;> rfl

/-- The kind of an element tells what is kept of it. -/
theorem tag?_ofTag (tag : Tag) : NodeKind.tag? (NodeKind.ofTag tag) = some tag.kept := by
  cases tag with
  | codeBlock info => exact tag?_splitInfo _ _
  | list start =>
      cases start with
      | none => rfl
      | some number => exact congrArg (fun number => some (Tag.list (some number))) UInt64.toNat_ofNat'
  | table columns =>
      have same : (columns.map alignOf).map columnOf = columns := by
        simp [Function.comp_def, columnOf_alignOf]
      exact congrArg (fun columns => some (Tag.table columns)) same
  | _ => rfl

theorem ofTag_kept (tag : Tag) : NodeKind.ofTag tag.kept = NodeKind.ofTag tag := by
  cases tag with
  | codeBlock info =>
      rw [Tag.kept, NodeKind.ofTag, NodeKind.ofTag, splitInfo_keptInfo]
  | list start =>
      cases start with
      | none => rfl
      | some number => exact congrArg (fun number => NodeKind.list true (some number)) UInt64.ofNat_mod_size
  | heading level id => exact congrArg (NodeKind.heading · id) UInt8.ofNat_mod_size
  | _ => rfl

/-- The same is kept of two elements when they become nodes of the same kind. -/
theorem kept_eq_iff {first second : Tag} :
    first.kept = second.kept ↔ NodeKind.ofTag first = NodeKind.ofTag second := by
  constructor
  · intro same
    rw [← ofTag_kept first, same, ofTag_kept]
  · intro same
    exact Option.some.inj (by rw [← tag?_ofTag, ← tag?_ofTag, same])

/-! ### Lists of trees -/

namespace Node

theorem eventsAll?_append (first second : List Node) :
    eventsAll? (first ++ second) = do
      let front ← eventsAll? first
      let behind ← eventsAll? second
      return front ++ behind := by
  induction first with
  | nil =>
      rw [List.nil_append, eventsAll?]
      cases eventsAll? second <;> rfl
  | cons node rest ih =>
      rw [List.cons_append, eventsAll?, eventsAll?, ih]
      cases node.events? with
      | none => rfl
      | some front =>
          cases eventsAll? rest with
          | none => rfl
          | some others =>
              cases eventsAll? second with
              | none => rfl
              | some behind => exact congrArg some (List.append_assoc front others behind).symm

theorem eventsAll?_singleton (node : Node) : eventsAll? [node] = node.events? := by
  rw [eventsAll?, eventsAll?]
  cases node.events? with
  | none => rfl
  | some front => exact congrArg some (List.append_nil front)

theorem respellAll_append (recognizers : List Recognizer) (first second : List Node) :
    respellAll recognizers (first ++ second) =
      respellAll recognizers first ++ respellAll recognizers second := by
  induction first with
  | nil => rfl
  | cons node rest ih => rw [List.cons_append, respellAll, respellAll, ih, List.append_assoc]

theorem respellAll_singleton (recognizers : List Recognizer) (node : Node) :
    respellAll recognizers [node] = node.respell recognizers :=
  List.append_nil _

end Node

end DocPress
