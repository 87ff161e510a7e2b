import DocPress.Markdown.Inline

/-!
A document as a stream of events: elements start and end around their content, which is text, code,
raw HTML, breaks and references. Neighbouring texts make one event.
-/

namespace DocPress.Markdown

/-- What a block quote is marked as. -/
inductive QuoteKind where
  | note
  | tip
  | important
  | warning
  | caution
  deriving DecidableEq, Inhabited

/-- What a block of metadata stands between. -/
inductive MetadataStyle where
  | yaml
  | pluses
  deriving DecidableEq, Inhabited

/-- An element, with what its start says about it. -/
inductive Tag where
  | paragraph
  | heading (level : Nat) (id : Option String)
  | blockQuote (kind : Option QuoteKind)
  /-- A code block, with the info string of its fence if it has one. -/
  | codeBlock (info : Option String)
  | htmlBlock
  /-- A block of metadata in front of a document. -/
  | metadataBlock (style : MetadataStyle)
  | list (start : Option Nat)
  | item
  | footnoteDefinition (label : String)
  | definitionList
  | definitionTitle
  | definitionDetails
  | table (columns : List ColumnAlign)
  | tableHead
  | tableRow
  | tableCell
  | emphasis
  | strong
  | strikethrough
  | superscript
  | subscript
  | link (url title : String)
  | image (url title : String)
  deriving DecidableEq, Inhabited

/-- What the end of an element says about it. -/
inductive TagEnd where
  | paragraph
  | heading (level : Nat)
  | blockQuote (kind : Option QuoteKind)
  | codeBlock
  | htmlBlock
  | metadataBlock (style : MetadataStyle)
  | list (ordered : Bool)
  | item
  | footnoteDefinition
  | definitionList
  | definitionTitle
  | definitionDetails
  | table
  | tableHead
  | tableRow
  | tableCell
  | emphasis
  | strong
  | strikethrough
  | superscript
  | subscript
  | link
  | image
  deriving DecidableEq, Inhabited

/-- The end that belongs to the start of an element. -/
def Tag.ending : Tag → TagEnd
  | .paragraph => .paragraph
  | .heading level _ => .heading level
  | .blockQuote kind => .blockQuote kind
  | .codeBlock _ => .codeBlock
  | .htmlBlock => .htmlBlock
  | .metadataBlock style => .metadataBlock style
  | .list start => .list start.isSome
  | .item => .item
  | .footnoteDefinition _ => .footnoteDefinition
  | .definitionList => .definitionList
  | .definitionTitle => .definitionTitle
  | .definitionDetails => .definitionDetails
  | .table _ => .table
  | .tableHead => .tableHead
  | .tableRow => .tableRow
  | .tableCell => .tableCell
  | .emphasis => .emphasis
  | .strong => .strong
  | .strikethrough => .strikethrough
  | .superscript => .superscript
  | .subscript => .subscript
  | .link _ _ => .link
  | .image _ _ => .image

/-- How a kind of block quotes is called. -/
def QuoteKind.name : QuoteKind → String
  | .note => "Note"
  | .tip => "Tip"
  | .important => "Important"
  | .warning => "Warning"
  | .caution => "Caution"

/-- How a style of metadata is called. -/
def MetadataStyle.name : MetadataStyle → String
  | .yaml => "YamlStyle"
  | .pluses => "PlusesStyle"

/-- How an end is called where it is reported. -/
def TagEnd.name : TagEnd → String
  | .paragraph => "Paragraph"
  | .heading level => "Heading(H" ++ toString level ++ ")"
  | .blockQuote none => "BlockQuote(None)"
  | .blockQuote (some kind) => "BlockQuote(Some(" ++ kind.name ++ "))"
  | .codeBlock => "CodeBlock"
  | .htmlBlock => "HtmlBlock"
  | .metadataBlock style => "MetadataBlock(" ++ style.name ++ ")"
  | .list ordered => "List(" ++ toString ordered ++ ")"
  | .item => "Item"
  | .footnoteDefinition => "FootnoteDefinition"
  | .definitionList => "DefinitionList"
  | .definitionTitle => "DefinitionListTitle"
  | .definitionDetails => "DefinitionListDefinition"
  | .table => "Table"
  | .tableHead => "TableHead"
  | .tableRow => "TableRow"
  | .tableCell => "TableCell"
  | .emphasis => "Emphasis"
  | .strong => "Strong"
  | .strikethrough => "Strikethrough"
  | .superscript => "Superscript"
  | .subscript => "Subscript"
  | .link => "Link"
  | .image => "Image"

/-- An event of a document. -/
inductive Event where
  | start (tag : Tag)
  | stop (tag : Tag)
  | text (value : String)
  | code (value : String)
  | html (value : String)
  | footnoteReference (label : String)
  | softBreak
  | hardBreak
  | rule
  | taskMarker (checked : Bool)
  deriving DecidableEq, Inhabited

/-- Events as the content of an element. -/
def Event.wrap (tag : Tag) (content : List Event) : List Event :=
  .start tag :: content ++ [.stop tag]

mutual

/-- The events of inline content. -/
def Inline.events : Inline → List Event
  | .text value => [.text value]
  | .code value => [.code value]
  | .html value => [.html value]
  | .softBreak => [.softBreak]
  | .hardBreak => [.hardBreak]
  | .footnote label => [.footnoteReference label]
  | .emphasis content => Event.wrap .emphasis (inlineEvents content)
  | .strong content => Event.wrap .strong (inlineEvents content)
  | .strikethrough content => Event.wrap .strikethrough (inlineEvents content)
  | .link target content => Event.wrap (.link target.url target.title) (inlineEvents content)
  | .image target content => Event.wrap (.image target.url target.title) (inlineEvents content)

/-- The events of inline content in order. -/
def inlineEvents : List Inline → List Event
  | [] => []
  | inline :: rest => inline.events ++ inlineEvents rest

end

/-- Where a block stands. -/
structure BlockContext where
  path : List Container
  definitions : List (List Char × LinkTarget)

/-- A block further inside. -/
def BlockContext.enter (container : Container) (context : BlockContext) : BlockContext :=
  { context with path := context.path ++ [container] }

/-- How many bytes the targets of labels may come to in a document of the given size. -/
def targetAllowance (byteSize : Nat) : Nat :=
  max byteSize 100000

/-- The events inside a block with text. The state is what is left of the allowance for the targets of
labels. -/
def Inlines.events (context : BlockContext) (inTable : Bool) (inlines : Inlines) :
    StateM Nat (List Event) := do
  let task := match inlines.task with
    | some checked => [Event.taskMarker checked]
    | none => []
  let content ← InlineContext.read ⟨context.path, inTable, inlines.stop, context.definitions⟩
    inlines.items
  return task ++ inlineEvents content

/-- The events of table cells in order. -/
def cellEvents (context : BlockContext) : List Inlines → StateM Nat (List Event)
  | [] => return []
  | cell :: rest => do
    let content ← cell.events context true
    return Event.wrap .tableCell content ++ (← cellEvents context rest)

/-- The events of table rows in order. -/
def rowEvents (context : BlockContext) (tag : Tag) :
    List (List Inlines) → StateM Nat (List Event)
  | [] => return []
  | cells :: rest => do
    let content ← cellEvents context cells
    return Event.wrap tag content ++ (← rowEvents context tag rest)

/-- The events of a table, whose first row is its head. -/
def tableEvents (context : BlockContext) (columns : List ColumnAlign)
    (rows : List (List Inlines)) : StateM Nat (List Event) := do
  let head ← rowEvents context .tableHead (rows.take 1)
  let body ← rowEvents context .tableRow (rows.drop 1)
  return Event.wrap (.table columns) (head ++ body)

/-- The event of a raw piece. -/
def RawPiece.event : RawPiece → Event
  | .text value => .text value
  | .html value => .html value

mutual

/-- The events of a block. -/
def Block.events (context : BlockContext) : Block → StateM Nat (List Event)
  | .paragraph tight content => do
    let inner ← content.events context false
    return if tight then inner else Event.wrap .paragraph inner
  | .heading level id content => do
    return Event.wrap (.heading level id) (← content.events context false)
  | .rule => return [.rule]
  | .code info pieces => return Event.wrap (.codeBlock info) (pieces.map .text)
  | .html pieces => return Event.wrap .htmlBlock (pieces.map RawPiece.event)
  | .quote blocks => do
    return Event.wrap (.blockQuote none) (← blockEvents (context.enter .quote) blocks)
  | .list start items => do return Event.wrap (.list start) (← blockEvents context items)
  | .item indent blocks => do
    return Event.wrap .item (← blockEvents (context.enter (.item indent)) blocks)
  | .footnote label blocks => do
    return Event.wrap (.footnoteDefinition label) (← blockEvents context blocks)
  | .table columns rows => tableEvents context columns rows
  | .task checked => return [.taskMarker checked]

/-- The events of blocks in order. -/
def blockEvents (context : BlockContext) : List Block → StateM Nat (List Event)
  | [] => return []
  | block :: rest => do
    let first ← block.events context
    return first ++ (← blockEvents context rest)

end

/-- Joins neighbouring texts; texts that come to nothing together leave no event. `pending` holds a
text that the next one would go on, and whether it is a join of several. -/
def mergeAfter : Option (String × Bool) → List Event → List Event
  | pending, [] => flush pending
  | pending, event :: rest =>
    match event with
    | .text value =>
      match pending with
      | none => mergeAfter (some (value, false)) rest
      | some (text, _) => mergeAfter (some (text ++ value, true)) rest
    | event => flush pending ++ event :: mergeAfter none rest
where
  /-- The event of a pending text. -/
  flush : Option (String × Bool) → List Event
    | none => []
    | some (text, joined) => if joined && text = "" then [] else [.text text]

/-- Joins neighbouring texts. -/
def mergeTexts (events : List Event) : List Event :=
  mergeAfter none events

/-- The events of a document. -/
def events (body : String) : List Event :=
  let structure' := Structure.ofText body.toList
  let definitions := structure'.definitions.map fun entry => (Text.fold entry.1, entry.2)
  mergeTexts
    ((blockEvents ⟨[], definitions⟩ structure'.blocks).run (targetAllowance body.utf8ByteSize)).1

end DocPress.Markdown
