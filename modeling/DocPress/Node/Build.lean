import DocPress.Recognizer
import DocPress.Markdown.Event

/-!
Trees from events. An element becomes a node whose children are what stands between its start and its
end; the text of code blocks is kept apart from their children, and a task marker is a flag of the
list item around it.
-/

namespace DocPress

open Markdown (Event Tag TagEnd ColumnAlign)

/-- The language and the rest of the info string of a code fence. -/
def splitInfo (info : String) : Option String × Option String :=
  let text := Text.trim info.toList
  match Text.splitOnce? Text.isBlank text with
  | some (language, rest) =>
    let rest := Text.trim rest
    (some (String.ofList language), if rest.isEmpty then none else some (String.ofList rest))
  | none => if text.isEmpty then (none, none) else (some (String.ofList text), none)

/-- The alignment of a column. -/
def alignOf : ColumnAlign → Option Align
  | .none => none
  | .left => some .left
  | .center => some .center
  | .right => some .right

/-- An element of HTML without attributes. -/
def NodeKind.plain (name : String) : NodeKind :=
  .custom name .empty

/-- The kind of node that an element becomes. -/
def NodeKind.ofTag : Tag → NodeKind
  | .paragraph => .paragraph
  | .heading level id => .heading (UInt8.ofNat level) id
  | .blockQuote _ => .blockQuote
  | .codeBlock info =>
    let (language, rest) := splitInfo (info.getD "")
    .codeBlock language rest ""
  | .htmlBlock | .metadataBlock _ => .fragment
  | .list start => .list start.isSome (start.map UInt64.ofNat)
  | .item => .listItem none
  | .footnoteDefinition label => .footnoteDefinition label
  | .definitionList => .plain "dl"
  | .definitionTitle => .plain "dt"
  | .definitionDetails => .plain "dd"
  | .table columns => .table (columns.map alignOf)
  | .tableHead => .tableHead
  | .tableRow => .tableRow
  | .tableCell => .tableCell false none
  | .emphasis => .emphasis
  | .strong => .strong
  | .strikethrough => .strikethrough
  | .superscript => .plain "sup"
  | .subscript => .plain "sub"
  | .link url title => .link url title
  | .image url title => .image url title

/-- An element whose end has not been reached, with its children so far, last one first. -/
structure OpenElement where
  tag : Tag
  kind : NodeKind
  children : List Node

/-- The node of an element. -/
def OpenElement.close (element : OpenElement) : Node :=
  ⟨element.kind, element.children.reverse⟩

/-- Why events do not make a tree. -/
inductive BuildError where
  /-- An end without a start. -/
  | unexpectedEnd (found : TagEnd)
  /-- The end of another element than the innermost open one, which is at the place. -/
  | mismatched (place : List Nat) (expected found : TagEnd)
  /-- Elements without an end, outermost first; the innermost one is at the place. -/
  | unclosed (place : List Nat) (ends : List TagEnd)

namespace BuildError

/-- The way from the root of the tree to the node that is at fault. -/
def place : BuildError → List Nat
  | .unexpectedEnd _ => []
  | .mismatched place _ _ | .unclosed place _ => place

/-- What is wrong with the events. -/
def reason : BuildError → String
  | .unexpectedEnd found => "unexpected end of " ++ found.name
  | .mismatched _ expected found =>
    "expected end of " ++ expected.name ++ ", found end of " ++ found.name
  | .unclosed _ ends => "unclosed elements: " ++ ", ".intercalate (ends.map TagEnd.name)

/-- The wording of a build error. -/
def message (error : BuildError) : String :=
  "unparseable document at node path [" ++ "/".intercalate (error.place.map toString) ++ "]: " ++
    error.reason

end BuildError

/-- A tree that is being built: the open elements, innermost first, and the complete nodes at top
level, last one first. -/
structure TreeBuilder where
  recognizers : List Recognizer
  elements : List OpenElement
  children : List Node

namespace TreeBuilder

/-- Adds nodes, in order, to the innermost open element. -/
def add (nodes : List Node) (builder : TreeBuilder) : TreeBuilder :=
  match builder.elements with
  | element :: rest =>
    { builder with
      elements := { element with children := nodes.reverse ++ element.children } :: rest }
  | [] => { builder with children := nodes.reverse ++ builder.children }

/-- Sets the flag of the innermost open list item. -/
def checkItem (checked : Bool) : List OpenElement → List OpenElement
  | [] => []
  | element :: rest =>
    match element.kind with
    | .listItem _ => { element with kind := .listItem (some checked) } :: rest
    | _ => element :: checkItem checked rest

/-- The nodes of a text. -/
def textNodes (builder : TreeBuilder) (text : String) : List Node :=
  Recognizer.applyAll builder.recognizers text

/-- Adds a text: to the code of the innermost open element if that is a code block, else as a child
of it. -/
def addText (text : String) (builder : TreeBuilder) : TreeBuilder :=
  match builder.elements with
  | element :: rest =>
    match element.kind with
    | .codeBlock language info code =>
      { builder with
        elements := { element with kind := .codeBlock language info (code ++ text) } :: rest }
    | _ => builder.add (builder.textNodes text)
  | [] => builder.add (builder.textNodes text)

/-- The place that the innermost open element gets in the tree: behind the nodes that are complete beside
each of the elements. -/
def openPlace (top : List Node) : List OpenElement → List Nat
  | [] => []
  | _ :: around =>
    let beside := match around with
      | [] => top
      | outer :: _ => outer.children
    openPlace top around ++ [beside.length]

/-- Reads one event. -/
def step (builder : TreeBuilder) : Event → Except BuildError TreeBuilder
  | .start tag =>
    .ok { builder with elements := ⟨tag, NodeKind.ofTag tag, []⟩ :: builder.elements }
  | .stop tag =>
    match builder.elements with
    | [] => .error (.unexpectedEnd tag.ending)
    | element :: rest =>
      if element.tag.ending = tag.ending then
        .ok ({ builder with elements := rest }.add [element.close])
      else
        .error (.mismatched (openPlace builder.children builder.elements) element.tag.ending tag.ending)
  | .text value => .ok (builder.addText value)
  | .code value => .ok (builder.add [.leaf (.inlineCode value)])
  | .html value => .ok (builder.add [.leaf (.html value)])
  | .footnoteReference label => .ok (builder.add [.leaf (.footnoteReference label)])
  | .softBreak => .ok (builder.add [.leaf .softBreak])
  | .hardBreak => .ok (builder.add [.leaf .hardBreak])
  | .rule => .ok (builder.add [.leaf .thematicBreak])
  | .taskMarker checked =>
    .ok { builder with elements := checkItem checked builder.elements }

/-- Reads events in order. -/
def run : TreeBuilder → List Event → Except BuildError TreeBuilder
  | builder, [] => .ok builder
  | builder, event :: rest => do run (← builder.step event) rest

end TreeBuilder

/-- The tree of a stream of events. -/
def Node.ofEvents (recognizers : List Recognizer) (events : List Event) :
    Except BuildError Node := do
  let builder ← TreeBuilder.run ⟨recognizers, [], []⟩ events
  match builder.elements with
  | [] => .ok (.document builder.children.reverse)
  | elements =>
    .error (.unclosed (TreeBuilder.openPlace builder.children elements)
      (elements.reverse.map (·.tag.ending)))

/-- The tree of a markdown text. -/
def Node.ofMarkdown (recognizers : List Recognizer) (body : String) : Except BuildError Node :=
  Node.ofEvents recognizers (Markdown.events body)

/-- The recognizers that are always there. -/
def standardRecognizers : List Recognizer :=
  [Recognizer.expression]

end DocPress
