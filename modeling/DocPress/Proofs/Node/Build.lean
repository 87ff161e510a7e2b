import DocPress.Node.Build
import DocPress.Proofs.Markdown.Event
import DocPress.Proofs.Node.Sound
import DocPress.Proofs.Result

/-!
Trees from nested events. They can always be built, and the trees are sound when raw HTML ends in a
brace only behind everything else.
-/

namespace DocPress

open Markdown (Event Tag inTable nestAll?)
open Node

/-! ### Texts -/

namespace Recognizer

/-- Whether a node is one that the recognizer of expressions makes: a text, or an expression with a
name. -/
def IsSpan (node : Node) : Prop :=
  node.kind.isClosed = true ∧ ∀ {written last}, node.IsSound written last

/-- Literal text is a span. -/
theorem isSpan_literal (text : List Char) : ∀ node ∈ literal text, IsSpan node := by
  rw [literal]
  split
  · exact fun _ member => absurd member List.not_mem_nil
  · exact List.forall_mem_singleton.2 ⟨rfl, isSound_leaf trivial⟩

/-- An expression splits a text into spans. -/
theorem isSpan_split (fuel : Nat) (before text : List Char) :
    ∀ node ∈ (split fuel before text).1, IsSpan node := by
  fun_induction split fuel before text with
  | case1 | case2 | case3 => exact isSpan_literal _
  | case4 fuel before text start after found inner rest closed name named nodes found' same ih =>
      rw [same] at ih
      refine List.forall_mem_append.2 ⟨isSpan_literal _, List.forall_mem_cons.2 ⟨⟨rfl, ?_⟩, ih⟩⟩
      refine isSound_leaf ?_
      rw [NodeKind.IsSound, String.toList_ofList]
      exact named
  | case5 => assumption

/-- The recognizers that are always there make sound nodes of a text. -/
theorem areSound_applyAll {written last : Bool} (text : String) :
    AreSound written last (applyAll standardRecognizers text) := by
  have spans : ∀ node ∈ applyAll standardRecognizers text, IsSpan node := by
    have self : ∀ node ∈ [Node.text text], IsSpan node :=
      List.forall_mem_singleton.2 ⟨rfl, isSound_leaf trivial⟩
    have whole : applyAll standardRecognizers text =
        (expression.recognize? text.toList).getD [.text text] := by
      simp [applyAll, standardRecognizers, applyTo, Node.text, leaf]
    rw [whole, expression]
    dsimp only
    split
    · exact isSpan_split _ _ _
    · exact self
  exact (areSound_of_isClosed fun node member => (spans node member).1).2
    fun node member => (spans node member).2

end Recognizer

/-! ### Open elements -/

/-- Whether an open element can become a sound node; `last` says whether its last child so far may end
in a brace. -/
structure OpenElement.IsSound (last : Bool) (element : OpenElement) : Prop where
  kind : ∀ {last}, element.kind.IsSound last
  holds : HoldsParts element.kind element.children
  inside : AreSound true last element.children.reverse

/-- Whether an open element may stand in the one around it. -/
def OpenElement.Fits (around : List OpenElement) (element : OpenElement) : Prop :=
  ∀ outer ∈ around.head?, outer.kind.isTable = true → element.kind.isTablePart = true

/-- Whether open elements can become sound nodes, innermost one first; only in that one the last child
may end in a brace, if it is `last`. -/
def AreOpen (last : Bool) : List OpenElement → Prop
  | [] => True
  | element :: rest => element.IsSound last ∧ element.Fits rest ∧ AreOpen false rest

/-- The tags of open elements agree with their kinds as to what is a table. -/
def OpenElement.IsTagged (element : OpenElement) : Prop :=
  element.kind.isTable = inTable [element.tag]

namespace TreeBuilder

/-- What holds of a builder behind events that leave the elements with the given tags open. -/
structure IsSound (last : Bool) (stack : List Tag) (builder : TreeBuilder) : Prop where
  recognizers : builder.recognizers = standardRecognizers
  tags : builder.elements.map (·.tag) = stack
  tagged : ∀ element ∈ builder.elements, element.IsTagged
  elements : AreOpen last builder.elements
  children : AreSound true (last && builder.elements.isEmpty) builder.children.reverse

variable {last : Bool} {stack after : List Tag} {builder : TreeBuilder} {nodes : List Node}

theorem inTable_cons (tag : Tag) (rest : List Tag) : inTable (tag :: rest) = inTable [tag] := by
  cases tag <;> rfl

/-- The innermost open element is a table if its tag is one. -/
theorem isTable_of_tags (tags : builder.elements.map (·.tag) = stack)
    (tagged : ∀ element ∈ builder.elements, element.IsTagged) :
    ∀ element ∈ builder.elements.head?, element.kind.isTable = inTable stack := by
  subst tags
  intro element head
  obtain ⟨rest, same⟩ := List.head?_eq_some_iff.1 head
  rw [same, List.map_cons, inTable_cons]
  exact tagged element (same ▸ List.mem_cons_self)

theorem IsSound.isTable (sound : builder.IsSound last stack) :
    ∀ element ∈ builder.elements.head?, element.kind.isTable = inTable stack :=
  isTable_of_tags sound.tags sound.tagged

theorem isTagged_ofTag (tag : Tag) : OpenElement.IsTagged ⟨tag, NodeKind.ofTag tag, []⟩ := by
  cases tag <;> rfl

/-- Nodes may be added to the innermost open element; parts of tables alone, if that is a table. -/
theorem IsSound.add (sound : builder.IsSound false stack) (nodesSound : AreSound true last nodes)
    (fits : inTable stack = true → ∀ node ∈ nodes, node.kind.isTablePart = true) :
    (builder.add nodes).IsSound last stack := by
  have shape := sound.isTable
  obtain ⟨recognizers, elements, children⟩ := builder
  obtain ⟨known, tags, tagged, openElements, rest⟩ := sound
  cases elements with
  | nil =>
      refine ⟨known, tags, tagged, trivial, ?_⟩
      rw [TreeBuilder.add, List.reverse_append, List.reverse_reverse]
      exact areSound_append.2 ⟨rest.mono nofun, nodesSound.mono fun free => by rw [free]; rfl⟩
  | cons element outer =>
      obtain ⟨here, around, others⟩ := openElements
      rw [List.forall_mem_cons] at tagged
      refine ⟨known, tags, List.forall_mem_cons.2 tagged, ⟨⟨here.kind, fun table => ?_, ?_⟩, around,
        others⟩, rest.mono nofun⟩
      · have parts := fits ((shape element rfl).symm.trans table)
        exact List.forall_mem_append.2
          ⟨fun node member => parts node (List.mem_reverse.1 member), here.holds table⟩
      · rw [List.reverse_append, List.reverse_reverse]
        exact areSound_append.2 ⟨here.inside.mono nofun, nodesSound⟩

/-- An element may start. -/
theorem IsSound.start (sound : builder.IsSound false stack) {tag : Tag}
    (starts : (inTable stack && !tag.isTablePart) = false) :
    IsSound false (tag :: stack)
      { builder with elements := ⟨tag, NodeKind.ofTag tag, []⟩ :: builder.elements } := by
  have shape := sound.isTable
  obtain ⟨known, tags, tagged, openElements, rest⟩ := sound
  refine ⟨known, by rw [List.map_cons, tags], List.forall_mem_cons.2 ⟨isTagged_ofTag tag, tagged⟩,
    ⟨⟨?_, fun _ _ member => absurd member List.not_mem_nil, areSound_nil⟩, ?_, openElements⟩,
    rest.mono nofun⟩
  · cases tag <;> exact trivial
  · intro outer head table
    rw [← shape outer head, table, Bool.true_and, Bool.not_eq_false'] at starts
    cases tag <;> first | rfl | cases starts

/-- The innermost open element may end. -/
theorem IsSound.stop {tag : Tag} {rest : List Tag} (sound : builder.IsSound last (tag :: rest)) :
    ∃ next, builder.step (.stop tag) = .ok next ∧ next.IsSound last rest := by
  obtain ⟨recognizers, elements, children⟩ := builder
  obtain ⟨known, tags, tagged, openElements, top⟩ := sound
  cases elements with
  | nil => cases tags
  | cons element outer =>
      obtain ⟨same, tags⟩ := List.cons.inj tags
      rw [List.forall_mem_cons] at tagged
      obtain ⟨here, around, others⟩ := openElements
      have below : IsSound false rest ⟨recognizers, outer, children⟩ :=
        ⟨known, tags, tagged.2, others, top.mono (by simp)⟩
      have closed : AreSound true last [element.close] := areSound_singleton.2 <| isSound_mk.2
        ⟨here.kind, fun _ table node member => here.holds table node (List.mem_reverse.1 member),
          here.inside.mono fun free => by rw [free]; rfl⟩
      have part : inTable rest = true → element.kind.isTablePart = true := by
        intro table
        cases outer with
        | nil =>
            cases tags
            cases table
        | cons next more => exact around next rfl ((below.isTable next rfl).trans table)
      refine ⟨_, ?_, below.add closed fun table => List.forall_mem_singleton.2 (part table)⟩
      simp only [step]
      exact if_pos (congrArg Tag.ending same)

/-- A text may be added where nothing may be only in a table. -/
theorem IsSound.addText (sound : builder.IsSound false stack) (free : inTable stack = false)
    (text : String) : (builder.addText text).IsSound false stack := by
  have added : (builder.add (builder.textNodes text)).IsSound false stack := by
    refine sound.add ?_ (by rw [free]; exact nofun)
    rw [textNodes, sound.recognizers]
    exact Recognizer.areSound_applyAll text
  unfold TreeBuilder.addText
  split
  · next element outer elements =>
      split
      · next language info code kind =>
          obtain ⟨known, tags, tagged, openElements, rest⟩ := sound
          rw [elements] at tags tagged openElements rest
          rw [List.forall_mem_cons, OpenElement.IsTagged, kind] at tagged
          obtain ⟨here, around, others⟩ := openElements
          refine ⟨known, tags, List.forall_mem_cons.2 tagged,
            ⟨⟨trivial, (nomatch ·), here.inside⟩, fun outer head table => ?_, others⟩,
            rest⟩
          have impossible := around outer head table
          rw [kind] at impossible
          cases impossible
      · exact added
  · exact added

/-- The flag is set at the first open list item. -/
theorem checkItem_cons (checked : Bool) (element : OpenElement) (rest : List OpenElement) :
    ((∃ flag, element.kind = .listItem flag) ∧ checkItem checked (element :: rest) =
      { element with kind := .listItem (some checked) } :: rest) ∨
      checkItem checked (element :: rest) = element :: checkItem checked rest := by
  rw [checkItem]
  split
  · next flag kind => exact .inl ⟨⟨flag, kind⟩, rfl⟩
  · exact .inr rfl

/-- Checking an item changes no tag. -/
theorem map_tag_checkItem (checked : Bool) (elements : List OpenElement) :
    (checkItem checked elements).map (·.tag) = elements.map (·.tag) := by
  induction elements with
  | nil => rfl
  | cons element rest ih =>
      rcases checkItem_cons checked element rest with ⟨-, same⟩ | same <;> rw [same]
      · rfl
      · rw [List.map_cons, List.map_cons, ih]

/-- Checking an item keeps elements tagged. -/
theorem isTagged_checkItem (checked : Bool) {elements : List OpenElement}
    (tagged : ∀ element ∈ elements, element.IsTagged) :
    ∀ element ∈ checkItem checked elements, element.IsTagged := by
  induction elements with
  | nil => exact tagged
  | cons element rest ih =>
      rw [List.forall_mem_cons] at tagged
      rcases checkItem_cons checked element rest with ⟨⟨flag, kind⟩, same⟩ | same <;> rw [same]
      · rw [OpenElement.IsTagged, kind] at tagged
        exact List.forall_mem_cons.2 tagged
      · exact List.forall_mem_cons.2 ⟨tagged.1, ih tagged.2⟩

/-- Checking an item does not change what an element fits into. -/
theorem fits_checkItem (checked : Bool) {element : OpenElement} {around : List OpenElement}
    (fits : element.Fits around) : element.Fits (checkItem checked around) := by
  cases around with
  | nil => exact fits
  | cons outer rest =>
      rcases checkItem_cons checked outer rest with ⟨-, same⟩ | same <;> rw [same]
      · intro item head table
        cases head
        cases table
      · exact fits

/-- Setting the flag of a list item changes nothing else. -/
theorem areOpen_checkItem (checked : Bool) {elements : List OpenElement}
    (openElements : AreOpen last elements) : AreOpen last (checkItem checked elements) := by
  induction elements generalizing last with
  | nil => trivial
  | cons element rest ih =>
      obtain ⟨here, around, others⟩ := openElements
      rcases checkItem_cons checked element rest with ⟨⟨flag, kind⟩, same⟩ | same <;> rw [same]
      · refine ⟨⟨trivial, (nomatch ·), here.inside⟩, fun outer head table => ?_, others⟩
        have impossible := around outer head table
        rw [kind] at impossible
        cases impossible
      · exact ⟨here, fits_checkItem checked around, ih others⟩

/-- Checking an item keeps the builder sound. -/
theorem IsSound.checkItem (sound : builder.IsSound false stack) (checked : Bool) :
    IsSound false stack
      { builder with elements := TreeBuilder.checkItem checked builder.elements } where
  recognizers := sound.recognizers
  tags := (map_tag_checkItem checked builder.elements).trans sound.tags
  tagged := isTagged_checkItem checked sound.tagged
  elements := areOpen_checkItem checked sound.elements
  children := sound.children.mono nofun

/-! ### Events -/

/-- Adding a node outside of a table keeps the builder sound. -/
theorem IsSound.addLeaf {kind : NodeKind} (sound : builder.IsSound false stack)
    (free : inTable stack = false) (kindSound : kind.IsSound last) :
    (builder.add [.leaf kind]).IsSound last stack :=
  sound.add (areSound_singleton.2 (isSound_leaf kindSound)) (by rw [free]; exact nofun)

/-- An event that is neither a start nor an end is read where it may stand. -/
theorem exists_step_leaf {event : Event} (leaf : event.isLeaf = true)
    (sound : builder.IsSound false stack) (free : inTable stack = false) :
    ∃ next, builder.step event = .ok next ∧ next.IsSound event.endsInBrace stack := by
  cases event with
  | start _ | stop _ => cases leaf
  | text value => exact ⟨_, rfl, sound.addText free value⟩
  | taskMarker checked => exact ⟨_, rfl, sound.checkItem checked⟩
  | html value =>
      refine ⟨_, rfl, sound.addLeaf free ?_⟩
      by_cases brace : value.toList.getLast? = some '{'
      · exact .inl (decide_eq_true brace)
      · exact .inr brace
  | code _ | footnoteReference _ | softBreak | hardBreak | rule =>
      exact ⟨_, rfl, sound.addLeaf free trivial⟩

/-- An event is read where it may stand. Only ends are read behind raw HTML that ends in a brace. -/
theorem exists_step {event : Event} (sound : builder.IsSound last stack)
    (nested : event.nest? stack = some after) (ends : last = true → event.isStop = true) :
    ∃ next, builder.step event = .ok next ∧ next.IsSound (last || event.endsInBrace) after := by
  cases isStop : event.isStop with
  | true =>
      cases event <;> cases isStop
      next tag =>
        obtain rfl := Markdown.nest?_stop_eq_some_iff.1 nested
        simp only [Event.endsInBrace, Bool.or_false]
        exact sound.stop
  | false =>
      obtain rfl : last = false := Bool.eq_false_iff.2 fun free => by simp [ends free] at isStop
      rw [Bool.false_or]
      cases leaf : event.isLeaf with
      | true =>
          obtain ⟨free, rfl⟩ := Markdown.outside_of_nest? leaf nested
          exact exists_step_leaf leaf sound free
      | false =>
          cases event with
          | start tag =>
              obtain ⟨starts, rfl⟩ := Markdown.nest?_start_eq_some_iff.1 nested
              exact ⟨_, rfl, sound.start starts⟩
          | stop tag => cases isStop
          | _ => cases leaf

/-- Nested events are read, if only ends come behind raw HTML that ends in a brace. -/
theorem exists_run {events : List Event} (sound : builder.IsSound last stack)
    (nested : nestAll? stack events = some after)
    (ends : last = true → events.all Event.isStop = true)
    (braces : Markdown.bracesLast events = true) :
    ∃ last done, run builder events = .ok done ∧ done.IsSound last after := by
  induction events generalizing builder last stack with
  | nil =>
      cases nested
      exact ⟨last, builder, rfl, sound⟩
  | cons event rest ih =>
      obtain ⟨middle, here, behind⟩ := Option.bind_eq_some_iff.1 nested
      simp only [Markdown.bracesLast, List.all_cons, Bool.and_eq_true, Bool.or_eq_true,
        Bool.not_eq_true'] at braces ends
      obtain ⟨next, stepped, still⟩ := exists_step sound here fun free => (ends free).1
      have stops : (last || event.endsInBrace) = true → rest.all Event.isStop = true := by
        intro free
        rcases Bool.or_eq_true_iff.1 free with free | free
        · exact (ends free).2
        · exact braces.1.resolve_left (by simp [free])
      obtain ⟨last, done, finished, sound⟩ := ih still behind stops braces.2
      refine ⟨last, done, ?_, sound⟩
      simp only [run, stepped, bind, Except.bind, finished]

end TreeBuilder

/-- Nested events make a sound document if only ends come behind raw HTML that ends in a brace. -/
theorem exists_ofEvents {events : List Event} (nested : Markdown.IsNested events)
    (braces : Markdown.bracesLast events = true) :
    ∃ tree, Node.ofEvents standardRecognizers events = .ok tree ∧ tree.kind = .document ∧
      tree.IsSound true true := by
  have start : TreeBuilder.IsSound false [] ⟨standardRecognizers, [], []⟩ :=
    ⟨rfl, rfl, fun _ member => absurd member List.not_mem_nil, trivial, areSound_nil⟩
  obtain ⟨last, ⟨recognizers, elements, children⟩, done, sound⟩ :=
    TreeBuilder.exists_run start (nested [] rfl) nofun braces
  obtain rfl : elements = [] := List.map_eq_nil_iff.1 sound.tags
  refine ⟨.document children.reverse, ?_, rfl, ?_⟩
  · rw [Node.ofEvents, done]
    rfl
  · exact isSound_mk.2 ⟨trivial, holdsParts rfl _, sound.children.end⟩

end DocPress
