import Mathlib.Data.List.Forall2
import DocPress.Proofs.Node.ReadBack

/-!
Trees of well-formed streams. While a tree is built, what is read back from its parts is what is kept of
the events so far: a step adds what its event comes to, and nothing else changes.
-/

namespace DocPress

open Markdown

/-! ### Open elements -/

/-- A kind without the flag of a list item and the code of a code block. -/
def NodeKind.bare : NodeKind → NodeKind
  | .listItem _ => .listItem none
  | .codeBlock language info _ => .codeBlock language info ""
  | kind => kind

/-- The flag of a list item. -/
def NodeKind.flag? : NodeKind → Option Bool
  | .listItem flag => flag
  | _ => none

/-- Whether the kind is a list item. -/
def NodeKind.isItem : NodeKind → Bool
  | .listItem _ => true
  | _ => false

/-- The kind of an open element as it is going to be: `rest` are the events to come, and `depth` is the
number of list items further inside that are open. -/
def NodeKind.filled (depth : Nat) (rest : List Event) : NodeKind → NodeKind
  | .listItem flag => .listItem (flag.or (markerAhead depth rest))
  | .codeBlock language info code => .codeBlock language info (code ++ textsAhead rest)
  | kind => kind

/-- Whether an open element is that of a tag, up to its flag and its code. -/
structure OpenElement.StandsFor (element : OpenElement) (opened : OpenTag) : Prop where
  tag : element.tag = opened.tag
  kind : element.kind.bare = NodeKind.ofTag opened.tag
  unmarked : opened.marked = false → element.kind.flag? = none

namespace OpenElement.StandsFor

variable {element : OpenElement} {opened : OpenTag} (stands : element.StandsFor opened)
include stands

/-- The kind of an open element remembers the tag it was started with. -/
theorem tag? : element.kind.tag? = some opened.tag.kept := by
  rw [← tag?_ofTag, ← stands.kind]
  obtain ⟨tag, kind, children⟩ := element
  cases kind with
  | codeBlock language info code => cases language <;> cases info <;> rfl
  | _ => rfl

/-- The kind of an open element is none of those that stand for one event. -/
theorem event? : element.kind.event? = none := by
  have bare : element.kind.bare.event? = none := by
    rw [stands.kind]
    cases opened.tag <;> rfl
  obtain ⟨tag, kind, children⟩ := element
  cases kind <;> first | rfl | cases bare

/-- An open element is an item of a list exactly when it was started as one. -/
theorem isItem : element.kind.isItem = opened.tag.isItem := by
  have bare : element.kind.bare.isItem = opened.tag.isItem := by
    rw [stands.kind]
    cases opened.tag <;> rfl
  obtain ⟨tag, kind, children⟩ := element
  cases kind <;> exact bare

/-- An open element is code exactly when it was started as code. -/
theorem isCode : element.kind.isCode = opened.tag.isCode := by
  have bare : element.kind.bare.isCode = opened.tag.isCode := by
    rw [stands.kind]
    cases opened.tag <;> rfl
  obtain ⟨tag, kind, children⟩ := element
  cases kind <;> exact bare

/-- An element that was started as code is a code block. -/
theorem exists_code (code : opened.tag.isCode = true) :
    ∃ language info code, element.kind = .codeBlock language info code := by
  have same := stands.kind
  obtain ⟨tag, marked⟩ := opened
  cases tag <;> cases code
  obtain ⟨tag, kind, children⟩ := element
  cases kind <;> first | exact ⟨_, _, _, rfl⟩ | nomatch same

/-- An element that was started as an item is one, with a check mark or without. -/
theorem exists_item (item : opened.tag.isItem = true) : ∃ flag, element.kind = .listItem flag := by
  rw [← stands.isItem] at item
  obtain ⟨tag, kind, children⟩ := element
  cases kind <;> cases item
  exact ⟨_, rfl⟩

end OpenElement.StandsFor

/-- The tag tells what is noted of it ahead of its content. -/
theorem notes_filled_ofTag (rest : List Event) (tag : Tag) :
    ((NodeKind.ofTag tag).filled 0 rest).notes = tag.notes rest := by
  cases tag with
  | codeBlock info =>
      rw [NodeKind.ofTag, NodeKind.filled, String.empty_append]
      rfl
  | _ => rfl

/-! ### What is shown of an unfinished tree -/

namespace TreeBuilder

open Node

/-- The events that open elements come from, when `rest` are the events to come and `depth` list items
further inside are open. -/
def shownOpen? (rest : List Event) : Nat → List OpenElement → Option (List Event)
  | _, [] => some []
  | depth, element :: outer => do
    let before ← shownOpen? rest (depth + element.kind.isItem.toNat) outer
    let tag ← element.kind.tag?
    let inner ← eventsAll? element.children.reverse
    return before ++ .start tag :: ((element.kind.filled depth rest).notes ++ inner)

/-- The events that an unfinished tree comes from, together with the notes among those to come. -/
def shown? (rest : List Event) (builder : TreeBuilder) : Option (List Event) := do
  let before ← eventsAll? builder.children.reverse
  let inner ← shownOpen? rest 0 builder.elements
  return before ++ inner

/-- What is added is shown behind everything else. -/
theorem shown?_add (rest : List Event) (nodes : List Node) (builder : TreeBuilder) :
    (builder.add nodes).shown? rest = do
      let before ← builder.shown? rest
      let added ← eventsAll? nodes
      return before ++ added := by
  obtain ⟨recognizers, elements, children⟩ := builder
  cases elements with
  | nil =>
      simp only [add, shown?, shownOpen?, List.reverse_append, List.reverse_reverse, eventsAll?_append]
      cases eventsAll? children.reverse <;> cases eventsAll? nodes <;> simp
  | cons element outer =>
      simp only [add, shown?, shownOpen?, List.reverse_append, List.reverse_reverse, eventsAll?_append]
      cases eventsAll? children.reverse <;> cases shownOpen? rest (0 + element.kind.isItem.toNat) outer <;>
        cases element.kind.tag? <;> cases eventsAll? element.children.reverse <;>
        cases eventsAll? nodes <;> simp

/-- Where the same task markers are ahead, the same is shown. -/
theorem shownOpen?_congr {elements : List OpenElement} {rest rest' : List Event} {depth depth' : Nat}
    (plain : ∀ element ∈ elements, element.kind.isCode = false)
    (ahead : ∀ n, markerAhead (depth + n) rest = markerAhead (depth' + n) rest') :
    shownOpen? rest depth elements = shownOpen? rest' depth' elements := by
  induction elements generalizing depth depth' with
  | nil => rfl
  | cons element outer ih =>
      obtain ⟨here, others⟩ := List.forall_mem_cons.1 plain
      have filled : element.kind.filled depth rest = element.kind.filled depth' rest' := by
        obtain ⟨tag, kind, children⟩ := element
        cases kind with
        | listItem flag =>
            have same : markerAhead depth rest = markerAhead depth' rest' := ahead 0
            rw [NodeKind.filled, NodeKind.filled, same]
        | codeBlock language info code => cases here
        | _ => rfl
      have further : ∀ n, markerAhead (depth + element.kind.isItem.toNat + n) rest =
          markerAhead (depth' + element.kind.isItem.toNat + n) rest' := by
        intro n
        rw [Nat.add_assoc, Nat.add_assoc]
        exact ahead _
      rw [shownOpen?, shownOpen?, ih others further, filled]

/-- What holds of a builder without recognizers behind events that leave elements open. -/
structure Tracks (builder : TreeBuilder) (stack : List OpenTag) : Prop where
  recognizers : builder.recognizers = []
  elements : List.Forall₂ OpenElement.StandsFor builder.elements stack
  /-- Nothing is open inside of code blocks. -/
  outer : ∀ opened ∈ stack.tail, opened.tag.isCode = false

/-- What a step of a builder does: it shows what the event comes to behind everything else. -/
structure Advances (builder next : TreeBuilder) (event : Event) (stack after : List OpenTag) : Prop where
  tracks : next.Tracks after
  shown : ∀ rest, next.shown? rest =
    (builder.shown? (event :: rest)).map (· ++ event.gathered (inCode stack) rest)

variable {builder next : TreeBuilder} {stack after : List OpenTag} {event : Event}

/-- No code block is open where no tag is that of one. -/
theorem isCode_of_standsFor {elements : List OpenElement}
    (each : List.Forall₂ OpenElement.StandsFor elements stack)
    (tags : ∀ opened ∈ stack, opened.tag.isCode = false) :
    ∀ element ∈ elements, element.kind.isCode = false := by
  induction each with
  | nil => exact fun _ member => absurd member List.not_mem_nil
  | cons stands _ ih =>
      rw [List.forall_mem_cons] at tags
      exact List.forall_mem_cons.2 ⟨stands.isCode.trans tags.1, ih tags.2⟩

/-- Outside of code no open element is code. -/
theorem Tracks.plain (tracks : builder.Tracks stack) (outside : inCode stack = false) :
    ∀ element ∈ builder.elements, element.kind.isCode = false := by
  refine isCode_of_standsFor tracks.elements ?_
  cases stack with
  | nil => exact nofun
  | cons top rest => exact List.forall_mem_cons.2 ⟨outside, tracks.outer⟩

/-- Adding nodes to the innermost open element leaves the builder in step with the open tags. -/
theorem Tracks.add (tracks : builder.Tracks stack) (nodes : List Node) :
    (builder.add nodes).Tracks stack := by
  obtain ⟨recognizers, elements, children⟩ := builder
  obtain ⟨alone, each, outer⟩ := tracks
  cases each with
  | nil => exact ⟨alone, .nil, outer⟩
  | cons stands each => exact ⟨alone, .cons ⟨stands.tag, stands.kind, stands.unmarked⟩ each, outer⟩

/-! ### Starts and ends -/

/-- The element that a tag opens stands for it. -/
theorem standsFor_ofTag (tag : Tag) : OpenElement.StandsFor ⟨tag, NodeKind.ofTag tag, []⟩ ⟨tag, false⟩ where
  tag := rfl
  kind := by cases tag <;> rfl
  unmarked _ := by cases tag <;> rfl

/-- Outside of code blocks an element may start: its tag is opened, and nothing is shown of it yet but its
start. -/
theorem Tracks.start (tracks : builder.Tracks stack) (outside : inCode stack = false) (tag : Tag) :
    Advances builder { builder with elements := ⟨tag, NodeKind.ofTag tag, []⟩ :: builder.elements }
      (.start tag) stack (⟨tag, false⟩ :: stack) where
  tracks :=
    { recognizers := tracks.recognizers
      elements := .cons (standsFor_ofTag tag) tracks.elements
      outer := by
        cases stack with
        | nil => exact nofun
        | cons top rest => exact List.forall_mem_cons.2 ⟨outside, tracks.outer⟩ }
  shown rest := by
    have item : (NodeKind.ofTag tag).isItem = tag.isItem := (standsFor_ofTag tag).isItem
    have around : shownOpen? rest (0 + (NodeKind.ofTag tag).isItem.toNat) builder.elements =
        shownOpen? (.start tag :: rest) 0 builder.elements := by
      refine shownOpen?_congr (tracks.plain outside) fun n => ?_
      rw [item, markerAhead]
      congr 1
      omega
    simp only [shown?, shownOpen?, around, tag?_ofTag, notes_filled_ofTag, List.reverse_nil, eventsAll?]
    cases eventsAll? builder.children.reverse <;>
      cases shownOpen? (.start tag :: rest) 0 builder.elements <;> simp [Event.gathered]

/-- The node of an element is read back as its start and its end around its notes and its content. -/
theorem events?_close {element : OpenElement} {opened : OpenTag} (stands : element.StandsFor opened) :
    element.close.events? = do
      let inner ← eventsAll? element.children.reverse
      return Event.wrap opened.tag.kept (element.kind.notes ++ inner) := by
  rw [OpenElement.close, Node.events?, stands.event?, stands.tag?]
  rfl

/-- Nothing is ahead of the end of an element that belongs to it. -/
theorem filled_stop {element : OpenElement} {opened : OpenTag} (stands : element.StandsFor opened)
    (rest : List Event) : element.kind.filled 0 (.stop opened.tag :: rest) = element.kind := by
  have item := stands.isItem
  obtain ⟨tag, kind, children⟩ := element
  cases kind with
  | listItem flag =>
      have none : markerAhead 0 (.stop opened.tag :: rest) = none := by
        rw [markerAhead, ← item]
        rfl
      rw [NodeKind.filled, none, Option.or_none]
  | codeBlock language info code => exact congrArg _ String.append_empty
  | _ => rfl

theorem markerAhead_stop (n : Nat) (tag : Tag) (rest : List Event) :
    markerAhead (n + tag.isItem.toNat) (.stop tag :: rest) = markerAhead n rest := by
  rw [markerAhead, if_neg (Nat.not_lt.2 (Nat.le_add_left _ n)), Nat.add_sub_cancel]

/-- The innermost open element may end. -/
theorem Tracks.stop {top : OpenTag} (tracks : builder.Tracks (top :: stack)) :
    ∃ next, builder.step (.stop top.tag) = .ok next ∧
      Advances builder next (.stop top.tag) (top :: stack) stack := by
  obtain ⟨recognizers, elements, children⟩ := builder
  obtain ⟨alone, each, outer⟩ := tracks
  cases each with
  | @cons element _ around _ stands each =>
      have below : Tracks ⟨recognizers, around, children⟩ stack :=
        ⟨alone, each, fun opened member => outer opened (List.mem_of_mem_tail member)⟩
      refine ⟨_, if_pos (congrArg Tag.ending stands.tag), below.add _, fun rest => ?_⟩
      have same : shownOpen? (.stop top.tag :: rest) (0 + element.kind.isItem.toNat) around =
          shownOpen? rest 0 around := by
        refine shownOpen?_congr (isCode_of_standsFor each outer) fun n => ?_
        rw [stands.isItem, Nat.add_right_comm]
        exact markerAhead_stop (0 + n) top.tag rest
      rw [shown?_add, eventsAll?_singleton, events?_close stands]
      simp only [shown?, shownOpen?, same, stands.tag?, filled_stop stands]
      cases eventsAll? children.reverse <;> cases shownOpen? rest 0 around <;>
        cases eventsAll? element.children.reverse <;> simp [Event.gathered, Event.wrap]

/-! ### Events inside of elements -/

/-- Nothing but its node is added by an event that stands for itself. -/
theorem Tracks.addLeaf (tracks : builder.Tracks stack) (outside : inCode stack = false) {kind : NodeKind}
    (reads : kind.event? = some event) (alone : ∀ rest, event.gathered (inCode stack) rest = [event])
    (passed : ∀ depth rest, markerAhead depth (event :: rest) = markerAhead depth rest) :
    Advances builder (builder.add [.leaf kind]) event stack stack where
  tracks := tracks.add _
  shown rest := by
    have same : shownOpen? (event :: rest) 0 builder.elements = shownOpen? rest 0 builder.elements :=
      shownOpen?_congr (tracks.plain outside) fun n => passed (0 + n) rest
    have added : eventsAll? [Node.leaf kind] = some [event] := by
      rw [eventsAll?_singleton, Node.leaf, Node.events?, reads]
      rfl
    rw [shown?_add, added, alone, shown?, shown?, same]
    cases eventsAll? builder.children.reverse <;> cases shownOpen? rest 0 builder.elements <;> rfl

/-- Outside of code blocks a text is a node of its own. -/
theorem addText_of_plain (alone : builder.recognizers = [])
    (plain : ∀ element ∈ builder.elements, element.kind.isCode = false) (value : String) :
    builder.addText value = builder.add [.leaf (.text value)] := by
  have nodes : builder.textNodes value = [.leaf (.text value)] := by
    rw [textNodes, alone]
    rfl
  rw [addText, nodes]
  split
  · next element outer same =>
      split
      · next kind =>
          have here := plain element (same ▸ List.mem_cons_self)
          rw [kind] at here
          cases here
      · rfl
  · rfl

/-- A text in a code block goes on with its code. -/
theorem Tracks.textInCode (tracks : builder.Tracks stack) (code : inCode stack = true) (value : String) :
    Advances builder (builder.addText value) (.text value) stack stack := by
  obtain ⟨recognizers, elements, children⟩ := builder
  obtain ⟨alone, each, outer⟩ := tracks
  cases each with
  | nil => cases code
  | @cons element opened around others stands each =>
      obtain ⟨language, info, before, same⟩ := stands.exists_code code
      obtain ⟨tag, kind, inner⟩ := element
      cases same
      have later : OpenElement.StandsFor ⟨tag, .codeBlock language info (before ++ value), inner⟩ opened :=
        ⟨stands.tag, stands.kind, fun _ => rfl⟩
      refine ⟨⟨alone, .cons later each, outer⟩, fun rest => ?_⟩
      have elsewhere : shownOpen? (.text value :: rest) 0 around = shownOpen? rest 0 around :=
        shownOpen?_congr (isCode_of_standsFor each outer) fun _ => rfl
      have joined : before ++ textsAhead (.text value :: rest) = before ++ value ++ textsAhead rest :=
        String.append_assoc.symm
      have first : NodeKind.tag? (.codeBlock language info before) = some opened.tag.kept := stands.tag?
      have second : NodeKind.tag? (.codeBlock language info (before ++ value)) = some opened.tag.kept :=
        later.tag?
      simp only [addText, shown?, shownOpen?, NodeKind.isItem, Bool.toNat_false, Nat.add_zero, elsewhere,
        NodeKind.filled, joined, first, second, code, Event.gathered]
      cases eventsAll? children.reverse <;> cases shownOpen? rest 0 around <;>
        cases eventsAll? inner.reverse <;> simp

/-- A text is added to the builder as the event for it. -/
theorem Tracks.text (tracks : builder.Tracks stack) (value : String) :
    Advances builder (builder.addText value) (.text value) stack stack := by
  cases code : inCode stack with
  | false =>
      rw [addText_of_plain tracks.recognizers (tracks.plain code)]
      exact tracks.addLeaf code rfl (fun rest => by rw [Event.gathered, code]; rfl) fun _ _ => rfl
  | true => exact tracks.textInCode code value

/-! ### Task markers -/

/-- Checking an item changes no tag. -/
theorem map_tag_mark? {elements : List OpenTag} (marks : mark? elements = some after) :
    after.map (·.tag) = elements.map (·.tag) := by
  induction elements generalizing after with
  | nil => cases marks
  | cons top rest ih =>
      rw [mark?] at marks
      split at marks
      · split at marks
        · cases marks
        · cases marks
          rfl
      · obtain ⟨others, found, rfl⟩ := Option.map_eq_some_iff.1 marks
        rw [List.map_cons, List.map_cons, ih found]

/-- A marker for an item is its flag, and that of no other item. -/
theorem checkItem_advances {elements : List OpenElement}
    (each : List.Forall₂ OpenElement.StandsFor elements stack)
    (plain : ∀ element ∈ elements, element.kind.isCode = false) (marks : mark? stack = some after)
    (checked : Bool) : List.Forall₂ OpenElement.StandsFor (checkItem checked elements) after ∧
      ∀ rest, shownOpen? rest 0 (checkItem checked elements) =
        shownOpen? (.taskMarker checked :: rest) 0 elements := by
  induction each generalizing after with
  | nil => cases marks
  | @cons element opened outer tags stands each ih =>
      obtain ⟨here, others⟩ := List.forall_mem_cons.1 plain
      obtain ⟨tag, kind, children⟩ := element
      rw [mark?] at marks
      cases item : opened.tag.isItem with
      | true =>
          obtain ⟨flag, same⟩ := stands.exists_item item
          cases same
          rw [item, if_pos rfl] at marks
          split at marks
          · cases marks
          · next unmarked =>
              cases marks
              obtain rfl : flag = none := stands.unmarked (Bool.eq_false_iff.2 unmarked)
              refine ⟨.cons ⟨stands.tag, stands.kind, nofun⟩ each, fun rest => ?_⟩
              -- The item takes the marker, so the items around it look no further for it.
              have around : shownOpen? rest 1 outer = shownOpen? (.taskMarker checked :: rest) 1 outer :=
                shownOpen?_congr others fun n => by
                  rw [markerAhead, if_neg (by omega)]
              simp only [checkItem, shownOpen?, NodeKind.isItem, Bool.toNat_true, Nat.zero_add, around]
              rfl
      | false =>
          rw [item, if_neg Bool.false_ne_true] at marks
          obtain ⟨marked, found, rfl⟩ := Option.map_eq_some_iff.1 marks
          obtain ⟨stands', shown⟩ := ih others found
          have other : kind.isItem = false := stands.isItem.trans item
          have passed : checkItem checked (⟨tag, kind, children⟩ :: outer) =
              ⟨tag, kind, children⟩ :: checkItem checked outer := by
            cases kind <;> first | rfl | cases other
          have same (rest : List Event) :
              kind.filled 0 rest = kind.filled 0 (.taskMarker checked :: rest) := by
            cases kind <;> first
              | rfl
              | exact absurd other.symm Bool.false_ne_true
              | exact absurd here.symm Bool.false_ne_true
          rw [passed]
          refine ⟨.cons stands stands', fun rest => ?_⟩
          rw [shownOpen?, shownOpen?, other, Bool.toNat_false, shown rest, same rest]

/-- A task marker may stand in an item that has none yet. -/
theorem Tracks.mark (tracks : builder.Tracks stack) (outside : inCode stack = false)
    (marks : mark? stack = some after) (checked : Bool) :
    Advances builder { builder with elements := checkItem checked builder.elements }
      (.taskMarker checked) stack after := by
  obtain ⟨each, shown⟩ := checkItem_advances tracks.elements (tracks.plain outside) marks checked
  have tags := congrArg List.tail (map_tag_mark? marks)
  refine ⟨⟨tracks.recognizers, each, fun opened member => ?_⟩, fun rest => ?_⟩
  · have inside : opened.tag ∈ stack.tail.map (·.tag) := by
      rw [List.map_tail, ← tags, ← List.map_tail]
      exact List.mem_map_of_mem member
    obtain ⟨same, before, eq⟩ := List.mem_map.1 inside
    rw [← eq]
    exact tracks.outer same before
  · rw [shown?, shown?, shown]
    cases eventsAll? builder.children.reverse <;>
      cases shownOpen? (.taskMarker checked :: rest) 0 builder.elements <;> simp [Event.gathered]

theorem inCode_eq (stack : List OpenTag) : inCode stack = (stack.map (·.tag)).head?.any Tag.isCode := by
  cases stack <;> rfl

/-- An event that may stand where it does is read. -/
theorem Tracks.exists_step (tracks : builder.Tracks stack) (admits : event.admit? stack = some after) :
    ∃ next, builder.step event = .ok next ∧ Advances builder next event stack after ∧
      inCode after = event.inCode (inCode stack) := by
  -- Events that open and close nothing are admitted wherever no code is open.
  have free : (if inCode stack then none else some stack) = some after →
      inCode stack = false ∧ after = stack := by
    intro found
    split at found
    · cases found
    · next outside => exact ⟨Bool.eq_false_iff.2 outside, (Option.some.inj found).symm⟩
  cases event with
  | start tag =>
      rw [Event.admit?] at admits
      split at admits
      · cases admits
      · next outside =>
          cases admits
          exact ⟨_, rfl, tracks.start (Bool.eq_false_iff.2 outside) tag, rfl⟩
  | stop tag =>
      rw [Event.admit?] at admits
      split at admits
      · next top =>
          cases stack with
          | nil => cases top
          | cons opened rest =>
              cases top
              cases admits
              obtain ⟨next, stepped, advances⟩ := tracks.stop
              refine ⟨next, stepped, advances, ?_⟩
              have outer := tracks.outer
              cases rest with
              | nil => rfl
              | cons around more => exact outer around List.mem_cons_self
      · cases admits
  | text value =>
      cases admits
      exact ⟨_, rfl, tracks.text value, rfl⟩
  | taskMarker checked =>
      rw [Event.admit?] at admits
      split at admits
      · cases admits
      · next outside =>
          refine ⟨_, rfl, tracks.mark (Bool.eq_false_iff.2 outside) admits checked, ?_⟩
          rw [inCode_eq, map_tag_mark? admits, ← inCode_eq]
          rfl
  | code _ | html _ | footnoteReference _ | softBreak | hardBreak | rule =>
      obtain ⟨outside, rfl⟩ := free admits
      exact ⟨_, rfl, tracks.addLeaf outside rfl (fun _ => rfl) (fun _ _ => rfl), rfl⟩

/-- A well-formed rest of a stream is read to its end, and what it comes to is shown behind everything
else. -/
theorem Tracks.exists_run {events : List Event} (tracks : builder.Tracks stack)
    (admits : admitAll? stack events = some after) :
    ∃ done, run builder events = .ok done ∧ done.Tracks after ∧
      done.shown? [] = (builder.shown? events).map (· ++ gather (inCode stack) events) := by
  induction events generalizing builder stack with
  | nil =>
      cases admits
      refine ⟨builder, rfl, tracks, ?_⟩
      simp [gather]
  | cons event rest ih =>
      obtain ⟨middle, here, behind⟩ := Option.bind_eq_some_iff.1 admits
      obtain ⟨next, stepped, advances, code⟩ := tracks.exists_step here
      obtain ⟨done, finished, still, shown⟩ := ih advances.tracks behind
      refine ⟨done, ?_, still, ?_⟩
      · simp only [run, stepped, bind, Except.bind, finished]
      · rw [shown, advances.shown, gather, ← code, Option.map_map]
        congr 1
        funext before
        exact List.append_assoc _ _ _

/-! ### Recognizers -/

/-- What a builder without recognizers is with them. -/
def respelled (recognizers : List Recognizer) (builder : TreeBuilder) : TreeBuilder where
  recognizers := recognizers
  elements := builder.elements.map fun element =>
    { element with children := (respellAll recognizers element.children.reverse).reverse }
  children := (respellAll recognizers builder.children.reverse).reverse

variable (recognizers : List Recognizer)

/-- Adding nodes commutes with recognizing what is in their texts. -/
theorem respelled_add (nodes : List Node) (builder : TreeBuilder) :
    (builder.add nodes).respelled recognizers =
      (builder.respelled recognizers).add (respellAll recognizers nodes) := by
  obtain ⟨old, elements, children⟩ := builder
  cases elements with
  | nil => simp [add, respelled, respellAll_append]
  | cons element outer => simp [add, respelled, respellAll_append]

/-- An open element is no text. -/
theorem isText_of_standsFor {element : OpenElement} {opened : OpenTag} (stands : element.StandsFor opened) :
    element.kind.isText = false := by
  have reads := stands.event?
  obtain ⟨tag, kind, children⟩ := element
  cases kind <;> first | rfl | cases reads

theorem respell_of_not_text {kind : NodeKind} (other : kind.isText = false) (children : List Node) :
    Node.respell recognizers ⟨kind, children⟩ = [⟨kind, respellAll recognizers children⟩] := by
  cases kind <;> first | rfl | cases other

/-- Checking an item commutes with a change of the children. -/
theorem map_checkItem (checked : Bool) (elements : List OpenElement) (f : List Node → List Node) :
    (checkItem checked elements).map (fun element => { element with children := f element.children }) =
      checkItem checked (elements.map fun element => { element with children := f element.children }) := by
  induction elements with
  | nil => rfl
  | cons element rest ih =>
      obtain ⟨tag, kind, children⟩ := element
      cases kind <;> first | rfl | exact congrArg (_ :: ·) ih

/-- Adding a text to a builder that recognizes nothing commutes with recognizing what is in the texts. -/
theorem respelled_addText (value : String) (alone : builder.recognizers = []) :
    (builder.addText value).respelled recognizers = (builder.respelled recognizers).addText value := by
  have nodes : respellAll recognizers (builder.textNodes value) =
      (builder.respelled recognizers).textNodes value := by
    rw [textNodes, alone]
    exact respellAll_singleton recognizers (.text value)
  have added := respelled_add recognizers (builder.textNodes value) builder
  rw [nodes] at added
  obtain ⟨old, elements, children⟩ := builder
  cases elements with
  | nil => exact added
  | cons element outer =>
      obtain ⟨tag, kind, inner⟩ := element
      cases kind with
      | codeBlock language info code => rfl
      | _ => exact added

/-- Recognizers change nothing but the nodes of texts. -/
theorem Tracks.step_respelled (tracks : builder.Tracks stack)
    (stepped : builder.step event = .ok next) :
    (builder.respelled recognizers).step event = .ok (next.respelled recognizers) := by
  cases event with
  | start tag =>
      cases stepped
      rfl
  | stop tag =>
      obtain ⟨old, elements, children⟩ := builder
      obtain ⟨-, each, -⟩ := tracks
      cases each with
      | nil => cases stepped
      | @cons element opened around others stands each =>
          simp only [step] at stepped
          split at stepped
          · next same =>
              cases stepped
              rw [respelled_add, respellAll_singleton, OpenElement.close,
                respell_of_not_text recognizers (isText_of_standsFor stands)]
              simp [respelled, step, same, OpenElement.close]
          · cases stepped
  | text value =>
      cases stepped
      rw [respelled_addText recognizers value tracks.recognizers]
      rfl
  | taskMarker checked =>
      cases stepped
      exact congrArg (fun elements => Except.ok (TreeBuilder.mk _ elements _))
        (map_checkItem checked builder.elements fun children => (respellAll recognizers children.reverse).reverse).symm
  | code _ | html _ | footnoteReference _ | softBreak | hardBreak | rule =>
      cases stepped
      rw [respelled_add]
      rfl

/-- Building without recognizers and recognizing afterwards is building with them. -/
theorem Tracks.run_respelled {events : List Event} (tracks : builder.Tracks stack)
    (admits : admitAll? stack events = some after) {done : TreeBuilder}
    (finished : run builder events = .ok done) :
    run (builder.respelled recognizers) events = .ok (done.respelled recognizers) := by
  induction events generalizing builder stack with
  | nil =>
      cases finished
      rfl
  | cons event rest ih =>
      obtain ⟨middle, here, behind⟩ := Option.bind_eq_some_iff.1 admits
      obtain ⟨next, stepped, advances, -⟩ := tracks.exists_step here
      simp only [run, stepped, bind, Except.bind] at finished
      simp only [run, tracks.step_respelled recognizers stepped, bind, Except.bind]
      exact ih advances.tracks behind finished

end TreeBuilder

/-- A well-formed stream makes a tree, and reading that back in document order gives what is kept of the
stream: each element around its content, each other event in its place, the texts of a code block as one
text and each task marker behind the start of its list item. Recognizers change nothing but texts outside
of code blocks. What is kept of an element is what the kind of its node tells. -/
theorem exists_ofEvents_gather {events : List Event} (wellFormed : IsWellFormed events) :
    (∃ tree, Node.ofEvents [] events = .ok tree ∧ tree.kind = .document ∧
      Node.eventsAll? tree.children = some (gather false events) ∧
      ∀ recognizers, Node.ofEvents recognizers events =
        .ok (.document (Node.respellAll recognizers tree.children))) ∧
    ∀ first second : Tag,
      first.kept = second.kept ↔ NodeKind.ofTag first = NodeKind.ofTag second := by
  refine ⟨?_, fun _ _ => kept_eq_iff⟩
  have start : TreeBuilder.Tracks ⟨[], [], []⟩ [] := ⟨rfl, .nil, nofun⟩
  obtain ⟨stack, admits, closed⟩ := Option.map_eq_some_iff.1 wellFormed
  obtain rfl : stack = [] := List.isEmpty_iff.1 closed
  obtain ⟨done, finished, tracks, shown⟩ := start.exists_run admits
  obtain ⟨old, elements, children⟩ := done
  have empty : elements = [] := by
    have each := tracks.elements
    cases each
    rfl
  cases empty
  refine ⟨.document children.reverse, ?_, rfl, ?_, fun recognizers => ?_⟩
  · rw [Node.ofEvents, finished]
    rfl
  · have whole : (TreeBuilder.shown? events ⟨[], [], []⟩).map (· ++ gather (inCode []) events) =
        some (gather false events) := rfl
    rw [whole] at shown
    obtain ⟨before, reads, done⟩ := Option.bind_eq_some_iff.1 shown
    have same : before ++ [] = gather false events := Option.some.inj done
    rw [← same, List.append_nil]
    exact reads
  · have run : TreeBuilder.run ⟨recognizers, [], []⟩ events =
        .ok ⟨recognizers, [], (Node.respellAll recognizers children.reverse).reverse⟩ :=
      start.run_respelled recognizers admits finished
    rw [Node.ofEvents, run]
    exact congrArg (fun nodes => Except.ok (Node.document nodes)) (List.reverse_reverse _)

/-- A list whose item has a marker inside of a paragraph, and code in two texts. -/
def taskEvents : List Event :=
  [.start (.list none), .start .item, .start .paragraph, .taskMarker true, .text "a", .stop .paragraph,
    .start (.codeBlock (some " rust  x ")), .text "b", .text "c", .stop (.codeBlock (some " rust  x ")),
    .stop .item, .stop (.list none)]

/-- The marker stands behind the start of the item, and the code is one text. -/
theorem exists_ofEvents_gather_tasks :
    IsWellFormed taskEvents ∧ ∃ tree, Node.ofEvents [] taskEvents = .ok tree ∧
      Node.eventsAll? tree.children = some
        [.start (.list none), .start .item, .taskMarker true, .start .paragraph, .text "a",
          .stop .paragraph, .start (.codeBlock (some "rust x")), .text "bc",
          .stop (.codeBlock (some "rust x")), .stop .item, .stop (.list none)] := by
  have wellFormed : IsWellFormed taskEvents := by decide
  obtain ⟨⟨tree, made, -, reads, -⟩, -⟩ := exists_ofEvents_gather wellFormed
  refine ⟨wellFormed, tree, made, reads.trans ?_⟩
  decide

end DocPress
