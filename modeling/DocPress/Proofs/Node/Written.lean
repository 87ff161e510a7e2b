import DocPress.Proofs.Footnote.Number
import DocPress.Proofs.Html.Anchor
import DocPress.Proofs.Node.Build
import DocPress.Proofs.Node.Shape

/-!
Trees of markdown texts. Nodes that show nothing of what is below them have nothing there, apart from
images, the heads of tables come before their rows, and nodes that only stages make are not there.
-/

namespace DocPress

open Markdown (Event Tag inTable nestAll? headsFirst)
open Node

/-- Whether nodes of the kind may be there before footnotes are numbered. -/
def NodeKind.IsPlain (kind : NodeKind) : Prop :=
  kind.isListing = false ∧ kind.crossReference? = none ∧ kind.isCustom = false

namespace Node

/-- Whether trees are as those of markdown texts. -/
def AreWritten (nodes : List Node) : Prop :=
  HaveShape nodes ∧ EveryAll NodeKind.IsPlain nodes

/-- Whether a document is as that of a markdown text. -/
structure IsWritten (tree : Node) : Prop where
  root : tree.kind = .document
  shape : tree.HasShape
  plain : tree.Every NodeKind.IsPlain

variable {tree : Node} {first second : List Node}

theorem IsWritten.fresh (written : tree.IsWritten) :
    tree.Every fun kind => kind.isListing = false ∧ kind.crossReference? = none :=
  written.plain.mono fun _ plain => ⟨plain.1, plain.2.1⟩

theorem IsWritten.known (written : tree.IsWritten) : tree.Every fun kind => kind.isCustom = false :=
  written.plain.mono fun _ plain => plain.2.2

theorem areWritten_nil : AreWritten [] :=
  ⟨haveShape_nil, everyAll_nil⟩

theorem AreWritten.append (head : AreWritten first) (tail : AreWritten second) :
    AreWritten (first ++ second) :=
  ⟨haveShape_append.2 ⟨head.1, tail.1⟩, everyAll_append.2 ⟨head.2, tail.2⟩⟩

theorem areWritten_leaf {kind : NodeKind} (plain : kind.IsPlain) : AreWritten [leaf kind] :=
  ⟨haveShape_cons.2 ⟨hasShape_leaf kind, haveShape_nil⟩,
    everyAll_cons.2 ⟨every_mk.2 ⟨plain, everyAll_nil⟩, everyAll_nil⟩⟩

/-- A row may come behind what is in a table. -/
theorem HeadsFirst.append_row {kinds : List NodeKind} (first : HeadsFirst kinds) :
    HeadsFirst (kinds ++ [.tableRow]) := by
  obtain ⟨heads, rows, rfl⟩ := first
  refine ⟨heads, rows + 1, ?_⟩
  rw [List.append_assoc, List.replicate_succ']

end Node

/-! ### Texts -/

namespace Recognizer

/-- Literal text is written. -/
theorem areWritten_literal (text : List Char) : AreWritten (literal text) := by
  rw [literal]
  split
  · exact areWritten_nil
  · exact areWritten_leaf ⟨rfl, rfl, rfl⟩

/-- What an expression splits a text into is written. -/
theorem areWritten_split (fuel : Nat) (before text : List Char) :
    AreWritten (split fuel before text).1 := by
  fun_induction split fuel before text with
  | case1 | case2 | case3 => exact areWritten_literal _
  | case4 fuel before text start after found inner rest closed name named nodes found' same ih =>
      rw [same] at ih
      exact (areWritten_literal _).append (AreWritten.append (areWritten_leaf ⟨rfl, rfl, rfl⟩) ih)
  | case5 => assumption

/-- The nodes that a text is read as are a text or expressions between texts. -/
theorem areWritten_applyAll (text : String) : AreWritten (applyAll standardRecognizers text) := by
  rw [show applyAll standardRecognizers text =
      (expression.recognize? text.toList).getD [.text text] by
    simp [applyAll, standardRecognizers, applyTo, Node.text, leaf]]
  rw [expression]
  dsimp only
  split
  · exact areWritten_split _ _ _
  · exact areWritten_leaf ⟨rfl, rfl, rfl⟩

end Recognizer

/-! ### Open elements -/

/-- Whether an open element can become a node of the tree of a markdown text. -/
structure OpenElement.IsWritten (element : OpenElement) : Prop where
  shows : element.kind.isBare = false
  plain : element.kind.IsPlain
  table : element.kind.isTable = true → HeadsFirst (element.children.reverse.map (·.kind))
  inside : AreWritten element.children.reverse

/-- Whether an open element can end in the one around it: in a table it is a row, or a head with nothing
before it. -/
def OpenElement.Follows (around : List OpenElement) (element : OpenElement) : Prop :=
  ∀ outer ∈ around.head?, outer.kind.isTable = true →
    element.kind = .tableRow ∨ element.kind = .tableHead ∧ outer.children = []

/-- Whether open elements can become nodes of the tree of a markdown text, innermost one first. -/
def AreOpenWritten : List OpenElement → Prop
  | [] => True
  | element :: rest => element.IsWritten ∧ element.Follows rest ∧ AreOpenWritten rest

/-- What was written in an open element is written when it is closed. -/
theorem OpenElement.IsWritten.close {element : OpenElement} (written : element.IsWritten) :
    AreWritten [element.close] := by
  have fits : Node.Fits element.kind (element.children.reverse.map (·.kind)) :=
    ⟨fun bare => absurd bare (by rw [written.shows]; exact Bool.false_ne_true), written.table⟩
  exact ⟨haveShape_cons.2 ⟨hasShape_mk.2 ⟨fits, written.inside.1⟩, haveShape_nil⟩,
    everyAll_cons.2 ⟨every_mk.2 ⟨written.plain, written.inside.2⟩, everyAll_nil⟩⟩

/-- The element of a basic tag starts out written. -/
theorem OpenElement.isWritten_ofTag {tag : Tag} (basic : tag.isExtension = false) :
    OpenElement.IsWritten ⟨tag, NodeKind.ofTag tag, []⟩ where
  shows := by cases tag <;> rfl
  plain := by cases tag <;> first | exact ⟨rfl, rfl, rfl⟩ | cases basic
  table _ := ⟨0, 0, rfl⟩
  inside := areWritten_nil

/-- What is no part of a table is in none, so that anything may stand there. -/
theorem OpenElement.Follows.replace {around : List OpenElement} {element : OpenElement}
    (follows : element.Follows around) (other : element.kind.isTablePart = false)
    (next : OpenElement) : next.Follows around := by
  intro outer head table
  rcases follows outer head table with row | ⟨first, -⟩
  · rw [row] at other
    cases other
  · rw [first] at other
    cases other

theorem AreOpenWritten.head : ∀ {elements : List OpenElement}, AreOpenWritten elements →
    ∀ element ∈ elements.head?, element.IsWritten
  | _ :: _, written, _, rfl => written.1

namespace TreeBuilder

/-- What holds of a builder behind events that leave the elements with the given tags open; `behind`
says whether the last one was the start of a table. -/
structure IsWritten (behind : Bool) (stack : List Tag) (builder : TreeBuilder) : Prop where
  recognizers : builder.recognizers = standardRecognizers
  tags : builder.elements.map (·.tag) = stack
  tagged : ∀ element ∈ builder.elements, element.IsTagged
  elements : AreOpenWritten builder.elements
  empty : behind = true → ∀ element ∈ builder.elements.head?, element.children = []
  children : AreWritten builder.children.reverse

variable {behind : Bool} {stack after : List Tag} {builder : TreeBuilder} {nodes : List Node}

theorem IsWritten.isTable (written : builder.IsWritten behind stack) :
    ∀ element ∈ builder.elements.head?, element.kind.isTable = inTable stack :=
  isTable_of_tags written.tags written.tagged

/-- Nodes may be added to the innermost open element; if that is a table, heads have to stay in
front. -/
theorem IsWritten.add (written : builder.IsWritten behind stack) (nodesWritten : AreWritten nodes)
    (first : inTable stack = true → ∀ element ∈ builder.elements.head?,
      HeadsFirst ((element.children.reverse ++ nodes).map (·.kind))) :
    (builder.add nodes).IsWritten false stack := by
  have tables := written.isTable
  obtain ⟨recognizers, elements, children⟩ := builder
  obtain ⟨known, tags, tagged, openElements, -, rest⟩ := written
  cases elements with
  | nil =>
      refine ⟨known, tags, tagged, trivial, (fun no => by cases no), ?_⟩
      rw [TreeBuilder.add, List.reverse_append, List.reverse_reverse]
      exact rest.append nodesWritten
  | cons element outer =>
      obtain ⟨here, around, others⟩ := openElements
      rw [List.forall_mem_cons] at tagged
      have whole : (nodes.reverse ++ element.children).reverse = element.children.reverse ++ nodes := by
        rw [List.reverse_append, List.reverse_reverse]
      refine ⟨known, tags, List.forall_mem_cons.2 tagged,
        ⟨⟨here.shows, here.plain, fun table => ?_, ?_⟩, around, others⟩, (fun no => by cases no), rest⟩
      · rw [whole]
        exact first ((tables element rfl).symm.trans table) element rfl
      · rw [whole]
        exact here.inside.append nodesWritten

/-- An element may start. -/
theorem IsWritten.start (written : builder.IsWritten behind stack) {tag : Tag}
    (starts : (inTable stack && !tag.isTablePart) = false)
    (order : (behind || !(Event.start tag).startsHead) = true) (basic : tag.isExtension = false) :
    IsWritten (Event.start tag).startsTable (tag :: stack)
      { builder with elements := ⟨tag, NodeKind.ofTag tag, []⟩ :: builder.elements } := by
  have tables := written.isTable
  obtain ⟨known, tags, tagged, openElements, empty, rest⟩ := written
  refine ⟨known, by rw [List.map_cons, tags], List.forall_mem_cons.2 ⟨isTagged_ofTag tag, tagged⟩,
    ⟨OpenElement.isWritten_ofTag basic, ?_, openElements⟩, fun _ element head => ?_, rest⟩
  · intro outer head table
    rw [← tables outer head, table, Bool.true_and, Bool.not_eq_false'] at starts
    cases tag <;> cases starts
    · exact .inr ⟨rfl, empty (by simpa [Event.startsHead] using order) outer head⟩
    · exact .inl rfl
  · obtain rfl := Option.some.inj head
    rfl

/-- The innermost open element may end. -/
theorem IsWritten.stop {tag : Tag} {rest : List Tag}
    (written : builder.IsWritten behind (tag :: rest)) :
    ∃ next, builder.step (.stop tag) = .ok next ∧ next.IsWritten false rest := by
  obtain ⟨recognizers, elements, children⟩ := builder
  obtain ⟨known, tags, tagged, openElements, -, top⟩ := written
  cases elements with
  | nil => cases tags
  | cons element outer =>
      obtain ⟨same, tags⟩ := List.cons.inj tags
      rw [List.forall_mem_cons] at tagged
      obtain ⟨here, around, others⟩ := openElements
      have below : IsWritten false rest ⟨recognizers, outer, children⟩ :=
        ⟨known, tags, tagged.2, others, (fun no => by cases no), top⟩
      refine ⟨_, if_pos (congrArg Tag.ending same), below.add here.close fun table holder head => ?_⟩
      have isTable : holder.kind.isTable = true := (below.isTable holder head).trans table
      rw [List.map_append]
      rcases around holder head isTable with row | ⟨first, empty⟩
      · have first := (others.head holder head).table isTable
        rw [show [element.close].map (·.kind) = [.tableRow] from congrArg (fun kind => [kind]) row]
        exact first.append_row
      · rw [empty]
        exact ⟨1, 0, congrArg (fun kind => [kind]) first⟩

/-- Nodes may be added where nothing may be only in a table. -/
theorem IsWritten.addOutside (written : builder.IsWritten behind stack) (free : inTable stack = false)
    (nodesWritten : AreWritten nodes) : (builder.add nodes).IsWritten false stack :=
  written.add nodesWritten fun table => absurd table (Bool.eq_false_iff.1 free)

/-- Adding a text outside of a table keeps what was written. -/
theorem IsWritten.addText (written : builder.IsWritten behind stack) (free : inTable stack = false)
    (text : String) : (builder.addText text).IsWritten false stack := by
  have added : (builder.add (builder.textNodes text)).IsWritten false stack := by
    refine written.addOutside free ?_
    rw [textNodes, written.recognizers]
    exact Recognizer.areWritten_applyAll text
  unfold TreeBuilder.addText
  split
  · next element outer elements =>
      split
      · next language info code kind =>
          obtain ⟨known, tags, tagged, openElements, -, rest⟩ := written
          rw [elements] at tags tagged openElements
          rw [List.forall_mem_cons, OpenElement.IsTagged, kind] at tagged
          obtain ⟨here, around, others⟩ := openElements
          exact ⟨known, tags, List.forall_mem_cons.2 tagged,
            ⟨⟨rfl, ⟨rfl, rfl, rfl⟩, (fun no => by cases no), here.inside⟩,
              around.replace (by rw [kind]; rfl) _, others⟩,
            (fun no => by cases no), rest⟩
      · exact added
  · exact added

/-- Checking an item does not change what an element may follow. -/
theorem follows_checkItem (checked : Bool) {element : OpenElement} {around : List OpenElement}
    (follows : element.Follows around) : element.Follows (checkItem checked around) := by
  cases around with
  | nil => exact follows
  | cons outer rest =>
      rcases checkItem_cons checked outer rest with ⟨-, same⟩ | same <;> rw [same]
      · intro item head table
        cases head
        cases table
      · exact follows

/-- Setting the flag of a list item changes nothing else. -/
theorem areOpenWritten_checkItem (checked : Bool) {elements : List OpenElement}
    (openElements : AreOpenWritten elements) : AreOpenWritten (checkItem checked elements) := by
  induction elements with
  | nil => trivial
  | cons element rest ih =>
      obtain ⟨here, around, others⟩ := openElements
      rcases checkItem_cons checked element rest with ⟨⟨flag, kind⟩, same⟩ | same <;> rw [same]
      · exact ⟨⟨rfl, ⟨rfl, rfl, rfl⟩, (fun no => by cases no), here.inside⟩,
          around.replace (by rw [kind]; rfl) _, others⟩
      · exact ⟨here, follows_checkItem checked around, ih others⟩

/-- Checking an item keeps what was written. -/
theorem IsWritten.checkItem (written : builder.IsWritten behind stack) (checked : Bool) :
    IsWritten false stack
      { builder with elements := TreeBuilder.checkItem checked builder.elements } where
  recognizers := written.recognizers
  tags := (map_tag_checkItem checked builder.elements).trans written.tags
  tagged := isTagged_checkItem checked written.tagged
  elements := areOpenWritten_checkItem checked written.elements
  empty := (fun no => by cases no)
  children := written.children

/-! ### Events -/

/-- An event is read where it may stand. -/
theorem exists_step_written {event : Event} (written : builder.IsWritten behind stack)
    (nested : event.nest? stack = some after) (order : (behind || !event.startsHead) = true)
    (basic : event.startsExtension = false) :
    ∃ next, builder.step event = .ok next ∧ next.IsWritten event.startsTable after := by
  cases event with
  | start tag =>
      obtain ⟨starts, rfl⟩ := Markdown.nest?_start_eq_some_iff.1 nested
      exact ⟨_, rfl, written.start starts order basic⟩
  | stop tag =>
      obtain rfl := Markdown.nest?_stop_eq_some_iff.1 nested
      exact written.stop
  | text value =>
      obtain ⟨free, rfl⟩ := Markdown.outside_of_nest? rfl nested
      exact ⟨_, rfl, written.addText free value⟩
  | taskMarker checked =>
      obtain ⟨free, rfl⟩ := Markdown.outside_of_nest? rfl nested
      exact ⟨_, rfl, written.checkItem checked⟩
  | html _ | code _ | footnoteReference _ | softBreak | hardBreak | rule =>
      obtain ⟨free, rfl⟩ := Markdown.outside_of_nest? rfl nested
      exact ⟨_, rfl, written.addOutside free (areWritten_leaf ⟨rfl, rfl, rfl⟩)⟩

/-- Nested events without extensions in which heads of tables come first are read. -/
theorem exists_run_written {events : List Event} (written : builder.IsWritten behind stack)
    (nested : nestAll? stack events = some after) (order : headsFirst behind events = true)
    (basic : Markdown.AreBasic events) :
    ∃ behind done, run builder events = .ok done ∧ done.IsWritten behind after := by
  induction events generalizing builder behind stack with
  | nil =>
      cases nested
      exact ⟨behind, builder, rfl, written⟩
  | cons event rest ih =>
      obtain ⟨middle, here, others⟩ := Option.bind_eq_some_iff.1 nested
      rw [headsFirst, Bool.and_eq_true] at order
      obtain ⟨plain, basic⟩ := List.forall_mem_cons.1 basic
      obtain ⟨next, stepped, still⟩ := exists_step_written written here order.1 plain
      obtain ⟨behind, done, finished, written⟩ := ih still others order.2 basic
      refine ⟨behind, done, ?_, written⟩
      simp only [run, stepped, bind, Except.bind, finished]

end TreeBuilder

/-- Every markdown text has a tree, which has the shape of a written one. -/
theorem exists_ofMarkdown_isWritten (body : String) :
    ∃ tree, Node.ofMarkdown standardRecognizers body = .ok tree ∧ tree.IsWritten := by
  have start : TreeBuilder.IsWritten false [] ⟨standardRecognizers, [], []⟩ :=
    ⟨rfl, rfl, fun _ member => absurd member List.not_mem_nil, trivial, (fun no => by cases no),
      areWritten_nil⟩
  obtain ⟨behind, ⟨recognizers, elements, children⟩, done, written⟩ :=
    TreeBuilder.exists_run_written start (Markdown.isNested_events body [] rfl)
      (Markdown.headsFirst_events body) (Markdown.areBasic_events body)
  obtain rfl : elements = [] := List.map_eq_nil_iff.1 written.tags
  refine ⟨.document children.reverse, ?_, rfl, ?_, ?_⟩
  · rw [Node.ofMarkdown, Node.ofEvents, done]
    rfl
  · exact hasShape_mk.2 ⟨fits_of_shows rfl rfl _, written.children.1⟩
  · exact every_mk.2 ⟨⟨rfl, rfl, rfl⟩, written.children.2⟩

end DocPress
