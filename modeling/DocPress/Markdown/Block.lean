import DocPress.Markdown.Item
import DocPress.Markdown.Label
import DocPress.Markdown.Tag

/-!
The block structure of a document: paragraphs, headings, code, raw HTML, quotes, lists, tables and
footnotes. Reading goes line by line; what is inside a paragraph is kept as items, because links may
refer to definitions further down.
-/

namespace DocPress.Markdown

/-! ### Blocks -/

/-- The inside of a block with text: its items in order, the offset at which the block ends, and the
state of the task that it is the text of. -/
structure Inlines where
  items : List Item
  stop : Nat
  task : Option Bool
  deriving Inhabited

/-- A piece of a block that is shown as it stands: text, or raw HTML. -/
inductive RawPiece where
  | text (value : String)
  | html (value : String)

/-- A block. -/
inductive Block where
  /-- A paragraph; a tight one shows only its text. -/
  | paragraph (tight : Bool) (content : Inlines)
  | heading (level : Nat) (id : Option String) (content : Inlines)
  | rule
  /-- Code with the info string of its fence, if it has one. -/
  | code (info : Option String) (pieces : List String)
  | html (pieces : List RawPiece)
  | quote (blocks : List Block)
  | list (start : Option Nat) (items : List Block)
  | item (indent : Nat) (blocks : List Block)
  | footnote (label : String) (blocks : List Block)
  /-- A table with the cells of its rows, the head first. -/
  | table (columns : List ColumnAlign) (rows : List (List Inlines))
  /-- The marker of a task without text. -/
  | task (checked : Bool)
  deriving Inhabited

/-- A block that is still open. -/
inductive Holder where
  | quote
  | list (tight : Bool) (mark : Char) (start : Nat)
  | item (indent : Nat)
  | footnote (label : String)
  deriving DecidableEq, Inhabited

/-- What the margin of a line shows of an open block. -/
def Holder.container : Holder → Container
  | .quote => .quote
  | .item indent => .item indent
  | _ => .plain

/-- An open block with the blocks in it so far, last one first. -/
structure Frame where
  holder : Holder
  blocks : List Block

/-- A paragraph as it stands in a tight list. -/
def Block.tighten : Block → Block
  | .paragraph _ content => .paragraph true content
  | block => block

/-- A list item as it stands in a tight list. -/
def Block.tightenItem : Block → Block
  | .item indent blocks => .item indent (blocks.map tighten)
  | block => block

/-- An open block once it is closed. -/
def Frame.close (frame : Frame) : Block :=
  let blocks := frame.blocks.reverse
  match frame.holder with
  | .quote => .quote blocks
  | .list tight mark start =>
    .list (if mark = '.' || mark = ')' then some start else none)
      (if tight then blocks.map Block.tightenItem else blocks)
  | .item indent => .item indent blocks
  | .footnote label => .footnote label blocks

/-! ### The state between two lines -/

/-- What has been read so far. -/
structure Outline where
  /-- The complete blocks of the document, last one first. -/
  blocks : List Block
  /-- The open blocks, innermost first. -/
  spine : List Frame
  /-- Whether a list item has just begun with a blank line. -/
  emptyItem : Bool
  lastLineBlank : Bool
  /-- The definitions of link labels, last one first. -/
  definitions : List (List Char × LinkTarget)

namespace Outline

/-- Nothing has been read. -/
def empty : Outline :=
  ⟨[], [], false, false, []⟩

/-- The containers around the next line, outermost first. -/
def path (outline : Outline) : List Container :=
  (outline.spine.map (·.holder.container)).reverse

/-- Adds a block to the innermost open block. -/
def add (block : Block) (outline : Outline) : Outline :=
  match outline.spine with
  | frame :: rest => { outline with spine := { frame with blocks := block :: frame.blocks } :: rest }
  | [] => { outline with blocks := block :: outline.blocks }

/-- Opens a block. -/
def push (holder : Holder) (outline : Outline) : Outline :=
  { outline with spine := ⟨holder, []⟩ :: outline.spine }

/-- Closes the innermost open block. A tight list forgets that an item has just begun. -/
def pop (outline : Outline) : Outline :=
  match outline.spine with
  | [] => outline
  | frame :: rest =>
    let closed := { outline with spine := rest }.add frame.close
    match frame.holder with
    | .list true _ _ => { closed with emptyItem := false }
    | _ => closed

/-- Closes open blocks until `depth` are left; `fuel` bounds the number of steps. -/
def popTo (depth : Nat) : Nat → Outline → Outline
  | 0, outline => outline
  | fuel + 1, outline =>
    if depth < outline.spine.length then popTo depth fuel outline.pop else outline

/-- The innermost open block. -/
def top? (outline : Outline) : Option Holder :=
  outline.spine.head?.map (·.holder)

/-- A list that is not tight. -/
def loosen : Holder → Holder
  | .list _ mark start => .list false mark start
  | holder => holder

/-- Closes an item that began with a blank line and is followed by another one. -/
def finishEmptyItem (outline : Outline) : Outline :=
  let outline :=
    if outline.emptyItem && outline.lastLineBlank then
      match outline.top? with
      | some (.item _) => outline.pop
      | _ => outline
    else outline
  { outline with emptyItem := false }

/-- Closes an open list, and makes the list around it loose if the last line was blank. -/
def finishList (outline : Outline) : Outline :=
  let outline := outline.finishEmptyItem
  let outline :=
    match outline.top? with
    | some (.list _ _ _) => outline.pop
    | _ => outline
  if outline.lastLineBlank then
    let spine :=
      match outline.spine with
      | top :: parent :: rest => top :: { parent with holder := loosen parent.holder } :: rest
      | spine => spine
    { outline with spine := spine, lastLineBlank := false }
  else outline

/-- Goes on with a list that has the same marker, or opens a new one. -/
def continueList (mark : Char) (start : Nat) (outline : Outline) : Outline :=
  let outline := outline.finishEmptyItem
  let fresh (outline : Outline) : Outline :=
    { outline.push (.list true mark start) with lastLineBlank := false }
  match outline.spine with
  | [] => fresh outline
  | frame :: rest =>
    match frame.holder with
    | .list _ existing _ =>
      if existing = mark then
        if outline.lastLineBlank then
          { outline with
            spine := { frame with holder := loosen frame.holder } :: rest, lastLineBlank := false }
        else outline
      else fresh outline.finishList
    | _ => fresh outline.finishList

end Outline

/-! ### What ends a paragraph -/

/-- Whether a footnote definition starts here, on this line alone. -/
def startsFootnote (inTable : Bool) (here : Cursor) : Bool :=
  match here.after with
  | '[' :: '^' :: _ =>
    match label? (fun _ => none) inTable (here.advance 2) with
    | some (next, _) => next.after.head? = some ':'
    | none => false
  | _ => false

/-- Whether a line starts another block than a table and so ends the paragraph or table row above
it; `inside` tells whether it is in the same containers. -/
def interrupts (inside inTable : Bool) (here : Cursor) : Bool :=
  let text := here.after
  let item := match listItem? text with
    | some (mark, number, rest) =>
      !inside || inTable ||
        ((mark = '*' || mark = '-' || mark = '+' || number = 1) && (blankLine? rest).isNone)
    | none => false
  let html := match text with
    | '<' :: rest => (rawEnd? rest).isSome || startsBlockTag rest
    | _ => false
  (lineEnd? text).isSome || (rule? text).isSome || (numberSigns? text).isSome ||
    (fence? text).isSome || text.head? = some '>' || item || html || startsFootnote inTable here

/-- Whether the head of a table stands here: a line that starts with a pipe, and a delimiter row with
as many columns below it. -/
def startsTable (path : List Container) (here : Cursor) : Bool :=
  match here.after with
  | '|' :: _ =>
    let (pipes, afterLast, length) := countPipes here.after false 0 [] 0
    let lineStop := here.advance length
    let next := lineStop.advance ((lineEnd? lineStop.after).getD 0)
    let (count, margin) := enterContainers path (.ofCursor next)
    count = path.length &&
      match delimiterRow? margin.here.after with
      | some (_, columns) => columns.length = columnCount pipes here.after afterLast
      | none => false
  | _ => false

/-- Whether a line ends the paragraph above it. -/
def endsParagraph (path : List Container) (inside : Bool) (here : Cursor) : Bool :=
  interrupts inside false here || startsTable path here

/-! ### Link definitions -/

/-- What a definition or a label that goes on to another line skips: the margin of that line with its
indentation, unless the line ends the paragraph. -/
def paragraphBreakRule (path : List Container) : LineBreakRule := fun next =>
  let (count, margin) := enterContainers path (.ofCursor next)
  let inside := count = path.length
  let (missing, indented) := margin.take 4
  let here := indented.here
  if missing ≠ 0 &&
      (endsParagraph path inside here || (inside && (underline? here.after).isSome)) then none
  else some (here.offset - next.offset)

/-- White space between the parts of a definition, with one line end at most: the place after it and
whether there is a line end. -/
def definitionSpace (rule : LineBreakRule) (here : Cursor) : Option (Cursor × Bool) :=
  let blanks (here : Cursor) : Cursor := here.advance (runLength isInlineBlank here.after)
  let here := blanks here
  match lineEnd? here.after with
  | none => some (here, false)
  | some ending => do
    let next := here.advance ending
    let next := blanks (next.advance (← rule next))
    if (lineEnd? next.after).isSome then none else some (next, true)

/-- The title of a definition after its opening quote: the place after the closing one, and its
characters, where `taken` were read before, last one first. -/
def definitionTitle (rule : LineBreakRule) (close : Char) :
    Nat → Cursor → List Char → Option (Cursor × List Char)
  | 0, _, _ => none
  | fuel + 1, here, taken =>
    match here.after with
    | [] => none
    | c :: rest =>
      if c = close then some (here.advance 1, taken.reverse)
      else if c = '(' && close = ')' then none
      else if c = '\\' then
        match rest with
        | [] => none
        | next :: _ => definitionTitle rule close fuel (here.advance 2) (next :: c :: taken)
      else
        match if c = '\n' || c = '\r' then lineEnd? here.after else none with
        | some ending => do
          let next := here.advance ending
          let next := next.advance (← rule next)
          let blanks := runLength isInlineBlank next.after
          if (lineEnd? (next.after.drop blanks)).isSome then none
          else definitionTitle rule close fuel (next.advance blanks) ('\n' :: taken)
        | none => definitionTitle rule close fuel (here.advance 1) (c :: taken)

/-- A link definition after its label and colon: the place after it, and its target. -/
def definitionTarget? (path : List Container) (start : Cursor) : Option (Cursor × LinkTarget) := do
  let rule := paragraphBreakRule path
  let (here, _) ← definitionSpace rule start
  let (length, url) ← destination? 32 here.after
  if length = 0 then none
  else
    let stop := here.advance length
    let bare : Cursor × LinkTarget := (stop, ⟨unescaped false url, ""⟩)
    match definitionSpace rule stop with
    | none => some bare
    | some (here, broken) =>
      let withoutTitle := if broken then some bare else none
      if here.offset = stop.offset then none
      else
        match here.after with
        | [] => withoutTitle
        | open' :: _ =>
          match titleClose? open' with
          | none => withoutTitle
          | some close =>
            match definitionTitle rule close (here.after.length + 1) (here.advance 1) [] with
            | none => withoutTitle
            | some (next, title) =>
              if (blankLine? next.after).isSome then
                some (next, ⟨unescaped false url, unescaped false title⟩)
              else withoutTitle

/-- The link definition at a place: the place after it, its label and its target. -/
def definition? (path : List Container) (start : Cursor) :
    Option (Cursor × List Char × LinkTarget) :=
  match start.after with
  | '[' :: _ => do
    let (here, label) ← label? (paragraphBreakRule path) false (start.advance 1)
    if here.after.head? = some ':' then
      let (next, target) ← definitionTarget? path (here.advance 1)
      some (next, label, target)
    else none
  | _ => none

/-! ### Code and raw HTML -/

/-- A line of code or HTML without the carriage return in front of its line feed. -/
def splitReturn (line : List Char) : List (List Char) :=
  match line.reverse with
  | last :: '\r' :: before => [before.reverse, [last]]
  | _ => [line]

/-- The pieces of a line of code, with `spare` columns in front of it. -/
def codePieces (spare : Nat) (line : List Char) : List String :=
  let pieces := (splitReturn line).filter (!·.isEmpty)
  let texts := pieces.map String.ofList
  if 0 < spare then String.ofList (List.replicate spare ' ') :: texts else texts

/-- The pieces of a line of raw HTML, with `spare` columns in front of it. -/
def htmlPieces (spare : Nat) (line : List Char) : List RawPiece :=
  let pieces := (splitReturn line).map fun piece => RawPiece.html (String.ofList piece)
  if 0 < spare then .text (String.ofList (List.replicate spare ' ')) :: pieces else pieces

/-- The lines of indented code: their pieces through the last line that is not blank, the place after
the lines, and whether the last line was blank. `kept` are pieces through the last line that is not
blank, `pending` those of the blank lines after it; both last one first. -/
def indentedCode (path : List Container) :
    Nat → Cursor → Nat → Bool → List String → List String → List String × Cursor × Bool
  | 0, here, _, blank, kept, _ => (kept.reverse, here, blank)
  | fuel + 1, here, spare, blank, kept, pending =>
    let length := lineLength here.after
    let pieces := (codePieces spare (here.after.take length)).reverse ++ pending
    let next := here.advance length
    let (kept, pending) := if blank then (kept, pieces) else (pieces ++ kept, [])
    let (count, margin) := enterContainers path (.ofCursor next)
    let (missing, inner) := margin.take 4
    if count < path.length || !(missing = 0 || inner.atLineEnd) || inner.here.atEnd then
      (kept.reverse, next, blank)
    else
      indentedCode path fuel inner.here inner.spare (blankLine? inner.here.after).isSome kept pending

/-- The lines of fenced code, last piece first, and the place after the block. -/
def fencedCode (path : List Container) (indent : Nat) (mark : Char) (width : Nat) :
    Nat → Cursor → List String → List String × Cursor
  | 0, here, pieces => (pieces, here)
  | fuel + 1, here, pieces =>
    let (count, margin) := enterContainers path (.ofCursor here)
    if count < path.length then (pieces, here)
    else
      let margin := (margin.take indent).2
      let (missing, closing) := margin.take (4 - indent)
      let closed := if missing = 0 then none else closingFence? mark width closing.here.after
      match closed with
      | some length =>
        let here := closing.here.advance length
        (pieces, here.advance ((blankLine? here.after).getD 0))
      | none =>
        let line := margin.here.after.take (lineLength margin.here.after)
        fencedCode path indent mark width fuel (margin.here.advance line.length)
          ((codePieces margin.spare line).reverse ++ pieces)

/-- The lines of raw HTML, last piece first, and the place after the block. It runs through a line
that holds `ending`; without one, to a blank line. -/
def rawHtml (path : List Container) (ending : Option (List Char)) :
    Nat → Cursor → Nat → List RawPiece → List RawPiece × Cursor
  | 0, here, _, pieces => (pieces, here)
  | fuel + 1, here, spare, pieces =>
    let line := here.after.take (lineLength here.after)
    let next := here.advance line.length
    let pieces := (htmlPieces spare line).reverse ++ pieces
    let (count, margin) := enterContainers path (.ofCursor next)
    let ends := match ending with
      | some mark => Text.contains mark line
      | none => margin.atLineEnd || (blankLine? margin.here.after).isSome
    if count < path.length || ends || margin.here.atEnd then (pieces, next)
    else rawHtml path ending fuel margin.here margin.spare pieces

/-! ### Headings -/

/-- The attribute block at the end of a heading: the length of the heading without it, and what
stands between its braces. -/
def attributeBlock? (heading : List Char) : Option (Nat × List Char) :=
  let backward := heading.reverse
  let blanks := runLength (fun c => c = '\n' || c = '\r' || c = ' ' || c = '\t') backward
  match backward.drop blanks with
  | close :: rest =>
    if close = Char.ofNat 125 then
      let excluded := [Char.ofNat 123, Char.ofNat 125, '<', '>', '\\', '\n', '\r']
      let inner := rest.takeWhile fun c => !excluded.contains c
      match rest.drop inner.length with
      | c :: before => if c = Char.ofNat 123 then some (before.length, inner.reverse) else none
      | [] => none
    else none
  | [] => none

/-- The id that an attribute block gives: the last word that starts with a number sign. A vertical
tab does not part words. -/
def attributeId? (block : List Char) : Option String :=
  let isGap (c : Char) : Bool := Text.isAsciiBlank c && c != '\x0b'
  let words := (Text.splitOn isGap block).filter (1 < ·.length)
  let ids := words.filterMap fun
    | '#' :: id => some (String.ofList id)
    | _ => none
  ids.getLast?

/-- The length of a heading without the number signs that close it and the spaces in front of
them. -/
def closedLength (heading : List Char) : Nat :=
  let trimmed := Text.dropEndWhile (fun c => c = '\n' || c = '\r' || c = ' ') heading
  let opened := Text.dropEndWhile (· = '#') trimmed
  let bare := Text.dropEndWhile (· = ' ') opened
  if opened.isEmpty then 0 else if bare.length < opened.length then bare.length else trimmed.length

/-- The items with the last one, which comes first, ending at an offset. -/
def setLastStop (stop : Nat) : List Item → List Item
  | last :: rest => { last with stop := stop } :: rest
  | [] => []

/-- Items in order without what lies from an offset on. An escaped character at that offset leaves
its backslash as text. -/
def truncateItems (stop : Nat) : List Item → List Item
  | [] => []
  | item :: rest =>
    if item.stop < stop then item :: truncateItems stop rest
    else if item.stop = stop then [item]
    else if item.here.offset = stop then
      if item.here.before.head? = some '\\' then
        [{ item with here := item.here.retreat 1, stop := stop }]
      else []
    else [{ item with stop := stop }]

/-- A heading that starts with number signs, and the place after it. -/
def numberSignHeading (path : List Container) (start : Cursor) (level : Nat) : Block × Cursor :=
  let here := start.advance level
  match lineEnd? here.after with
  | some ending => (.heading level none ⟨[], here.offset + ending, none⟩, here.advance ending)
  | none =>
    let here := here.advance (runLength isInlineBlank here.after)
    let heading := here.after.take (lineLength here.after)
    let next := here.advance heading.length
    let (length, id) := match attributeBlock? heading with
      | some (length, block) => (length, attributeId? block)
      | none => (heading.length, none)
    let content := heading.take length
    let line := readLine .off path { here with after := content }
      ((heading.drop length).head?.or next.after.head?) []
    let length := closedLength content
    let items := if length = 0 then [] else setLastStop (here.offset + length) line.items
    (.heading level id ⟨items.reverse, next.offset, none⟩, next)

/-- The level and the inside of a heading that is underlined, from the items of its lines, last one
first. `extra` is the place of a backslash that ends the last line. -/
def underlinedHeading (start : Cursor) (items : List Item) (extra : Option Cursor) (level stop : Nat)
    (task : Option Bool) : Block :=
  let addExtra (items : List Item) : List Item := match extra with
    | some place => addText place (place.offset + 1) items
    | none => items
  match items with
  | [] => .heading level none ⟨(addExtra []).reverse, stop, task⟩
  | last :: _ =>
    let heading := start.upTo last.stop
    let (length, block) := match attributeBlock? heading with
      | some (length, block) => (length, some block)
      | none => (heading.length, none)
    let content := heading.take length
    let length := if extra.isSome then length else (Text.dropEndWhile isInlineBlank content).length
    let items := if block.isSome then (truncateItems (start.offset + length) items.reverse).reverse
      else items
    let items := addExtra (setLastStop (start.offset + length) items)
    .heading level (block.bind attributeId?) ⟨items.reverse, stop, task⟩

/-! ### Tables -/

/-- The cells of a row, last one first, and the place after the row. -/
def tableCells (path : List Container) : Nat → Cursor → List Inlines → List Inlines × Cursor
  | 0, here, cells => (cells, here)
  | fuel + 1, here, cells =>
    let here := if here.after.head? = some '|' then here.advance 1 else here
    let here := here.advance (runLength isInlineBlank here.after)
    match lineEnd? here.after with
    | some ending => (cells, here.advance ending)
    | none =>
      let line := readLine .cells path here none []
      tableCells path fuel line.next (⟨line.items.reverse, line.next.offset, none⟩ :: cells)

/-- A row with as many cells as there are columns: missing ones are empty, surplus ones are
dropped. -/
def fitRow (columns : Nat) (cells : List Inlines) : List Inlines :=
  cells.take columns ++ List.replicate (columns - cells.length) ⟨[], 0, none⟩

/-- The rows of a table, last one first, and the place after it. -/
def tableRows (path : List Container) (columns : Nat) :
    Nat → Cursor → List (List Inlines) → List (List Inlines) × Cursor
  | 0, here, rows => (rows, here)
  | fuel + 1, here, rows =>
    let (count, margin) := enterContainers path (.ofCursor here)
    let line := margin.skipSpaces.here
    if count < path.length || interrupts true true line then (rows, here)
    else
      let (cells, next) := tableCells path (line.after.length + 1) line []
      if cells.isEmpty then (rows, here)
      else tableRows path columns fuel next (fitRow columns cells.reverse :: rows)

/-- A table, from the place of its head and the place after its delimiter row. -/
def readTable (path : List Container) (columns : List ColumnAlign) (head body : Cursor) :
    Block × Cursor :=
  let (cells, _) := tableCells path (head.after.length + 1) head []
  let (rows, next) := tableRows path columns.length (body.after.length + 1) body []
  (.table columns (fitRow columns.length cells.reverse :: rows.reverse), next)

/-! ### Paragraphs -/

/-- Reads a paragraph, or the table or underlined heading that it turns out to be. `items` are those
of the lines so far, last one first. -/
def readParagraph (path : List Container) (task : Option Bool) (start : Cursor) :
    Nat → Cursor → List Item → Block × Cursor
  | 0, here, items => (.paragraph false ⟨items.reverse, here.offset, task⟩, here)
  | fuel + 1, here, items =>
    let first := here.offset = start.offset
    let line := readLine (if first then .lookAhead else .off) path here none items
    match line.ending with
    | .table columns => readTable path columns here line.next
    | ending =>
      let next := line.next
      let (count, margin) := enterContainers path (.ofCursor next)
      let inside := count = path.length
      let backslash := match ending with
        | .hard item true => some item.here
        | _ => none
      let stop : Block × Cursor :=
        let items := match backslash with
          | some place => addText place (place.offset + 1) line.items
          | none => line.items
        (.paragraph false ⟨items.reverse, next.offset, task⟩, next)
      let (missing, indented) := margin.take 4
      let ended : Option (Block × Cursor) :=
        if missing = 0 then none
        else
          let setext := if inside then underline? indented.here.after else none
          match setext with
          | some (length, level) =>
            let after := indented.here.advance length
            some (underlinedHeading start line.items backslash level after.offset task, after)
          | none => if endsParagraph path inside indented.here then some stop else none
      match ended with
      | some result => result
      | none =>
        let content := indented.skipSpaces
        if content.atLineEnd then stop
        else
          let items := match ending with
            | .soft item => item :: line.items
            | .hard item _ => item :: line.items
            | _ => line.items
          readParagraph path task start fuel content.here items

/-! ### Blocks line by line -/

/-- The footnote definition at a place: the place after its colon, and its label. -/
def footnote? (path : List Container) (here : Cursor) : Option (Cursor × List Char) :=
  match here.after with
  | '[' :: '^' :: _ => do
    let (next, label) ← label? (paragraphBreakRule path) false (here.advance 2)
    if next.after.head? = some ':' then some (next.advance 1, label) else none
  | _ => none

/-- Opens a footnote definition; one that is open right here ends. -/
def Outline.openFootnote (label : List Char) (outline : Outline) : Outline :=
  let outline := outline.finishList
  let outline := match outline.top? with
    | some (.footnote _) => outline.pop
    | _ => outline
  outline.push (.footnote (String.ofList label))

/-- What opening containers comes to: the line goes on, or it holds nothing more. -/
inductive Opening where
  | content (outline : Outline) (margin : Margin)
  | done (outline : Outline) (next : Cursor)

/-- Opens the footnotes, lists and quotes that start on a line. A footnote with nothing after its
colon goes on with the next line. What follows the marker of a task is a paragraph. -/
def Outline.openContainers : Nat → Outline → Margin → Opening
  | 0, outline, margin => .content outline margin
  | fuel + 1, outline, margin =>
    let (indent, inner) := margin.takeUpTo 4
    if 4 ≤ indent then .content outline margin
    else
      match footnote? outline.path inner.here with
      | some (next, label) =>
        let next := next.advance ((Markdown.blankLine? next.after).getD 0)
        openContainers fuel (outline.openFootnote label) (.ofCursor next)
      | none =>
      match inner.takeListMarker? indent with
      | some (marker, next) =>
        let outline :=
          (outline.continueList marker.mark marker.number).push (.item marker.indent)
        match blankLine? next.here.after with
        | some rest => .done { outline with emptyItem := true } (next.here.advance rest)
        | none =>
          match next.takeTask? with
          | some (checked, next) =>
            match blankLine? next.here.after with
            | some rest =>
              .done { outline.add (.task checked) with emptyItem := true } (next.here.advance rest)
            | none =>
              let here := next.skipSpaces.here
              let (block, next) :=
                readParagraph outline.path (some checked) here (here.after.length + 1) here []
              .done (outline.add block) next
          | none => openContainers fuel outline next
      | none =>
        match inner.takeQuote? with
        | some next => openContainers fuel (outline.finishList.push .quote) next
        | none => .content outline margin

/-- Takes note of a blank line. An item that began with a blank line and is followed by another one
cannot go on. -/
def Outline.blankLine (outline : Outline) : Outline :=
  match outline.spine with
  | frame :: rest =>
    match frame.holder with
    | .quote => outline
    | .item _ =>
      if outline.emptyItem then
        { outline with
          lastLineBlank := true, spine := { frame with holder := .item 0 } :: rest }
      else { outline with lastLineBlank := true }
    | _ => { outline with lastLineBlank := true }
  | [] => { outline with lastLineBlank := true }

/-- Adds a link definition; the first definition of a label counts. -/
def Outline.define (label : List Char) (target : LinkTarget) (outline : Outline) : Outline :=
  { outline with definitions := (label, target) :: outline.definitions }

/-- Reads raw HTML if it starts at `here`: how it ends. -/
def rawHtmlEnding? (here : Cursor) : Option (Option (List Char)) :=
  match here.after with
  | '<' :: rest =>
    match rawEnd? rest with
    | some ending => some (some ending)
    | none => if startsBlockTag rest || isTagLine here then some none else none
  | _ => none

/-- Reads what starts here as a paragraph, behind the link definitions at its start; `fuel` bounds
their number. Nothing is left of the paragraph if a line that ends it follows them. -/
def Outline.readText : Nat → Outline → Cursor → Outline × Cursor
  | 0, outline, here => (outline, here)
  | fuel + 1, outline, here =>
    match definition? outline.path here with
    | some (next, label, target) =>
      let outline := outline.define label target
      let next := next.advance ((blankLine? next.after).getD 0)
      let (count, margin) := enterContainers outline.path (.ofCursor next)
      let (missing, indented) := margin.take 4
      if missing ≠ 0 && endsParagraph outline.path (count = outline.path.length) indented.here then
        (outline.finishList, next)
      else outline.readText fuel indented.skipSpaces.here
    | none =>
      let outline := outline.finishList
      let (block, next) := readParagraph outline.path none here (here.after.length + 1) here []
      (outline.add block, next)

/-- Reads the block that starts in the margin of a line that is not blank. -/
def Outline.readLeaf (outline : Outline) (margin : Margin) : Outline × Cursor :=
  let spare := margin.spare
  let (indent, inner) := margin.takeUpTo 4
  let here := inner.here
  let fuel := here.after.length + 1
  if indent = 4 then
    let outline := outline.finishList
    let (pieces, next, blank) := indentedCode outline.path fuel here inner.spare false [] []
    ({ outline.add (.code none pieces) with lastLineBlank := blank }, next)
  else
    match rawHtmlEnding? here with
    | some ending =>
      let outline := outline.finishList
      let (pieces, next) := rawHtml outline.path ending fuel here (max spare indent) []
      (outline.add (.html pieces.reverse), next)
    | none =>
      match rule? here.after with
      | some length => (outline.finishList.add .rule, here.advance length)
      | none =>
        match numberSigns? here.after with
        | some level =>
          let outline := outline.finishList
          let (block, next) := numberSignHeading outline.path here level
          (outline.add block, next)
        | none =>
          match fence? here.after with
          | some (width, mark) =>
            let outline := outline.finishList
            let start := here.advance width
            let start := start.advance (runLength isInlineBlank start.after)
            let info := start.after.take (lineLength start.after)
            let next := start.advance info.length
            let info := unescaped false (Text.dropEndWhile Text.isAsciiBlank info)
            let (pieces, next) := fencedCode outline.path indent mark width fuel next []
            (outline.add (.code (some info) pieces.reverse), next)
          | none =>
            outline.readText fuel here

/-- Reads the block that starts at the beginning of a line: closes the blocks that the line does not
belong to, opens those that start on it, and reads what is left. -/
def Outline.readBlock (outline : Outline) (here : Cursor) : Outline × Cursor :=
  let (count, margin) := enterContainers outline.path (.ofCursor here)
  let outline := outline.popTo count outline.spine.length
  let outline :=
    match outline.top? with
    | some (.footnote _) => if outline.lastLineBlank then outline.pop else outline
    | _ => outline
  match outline.openContainers (margin.here.after.length + 1) margin with
  | .done outline next => (outline, next)
  | .content outline margin =>
    match Markdown.blankLine? margin.here.after with
    | some rest => (outline.blankLine, margin.here.advance rest)
    | none => outline.readLeaf margin

/-- Reads blocks to the end of the text; `fuel` bounds their number. -/
def Outline.readAll : Nat → Outline → Cursor → Outline
  | 0, outline, _ => outline
  | fuel + 1, outline, here =>
    if here.atEnd then outline
    else
      let (outline, next) := outline.readBlock here
      readAll fuel outline next

/-- The blocks of a document, and the definitions of its link labels in order. -/
structure Structure where
  blocks : List Block
  definitions : List (List Char × LinkTarget)

/-- The block structure of a text. -/
def Structure.ofText (text : List Char) : Structure :=
  let outline := Outline.readAll (2 * text.length + 2) .empty (.start text)
  let outline := outline.popTo 0 outline.spine.length
  ⟨outline.blocks.reverse, outline.definitions.reverse⟩

end DocPress.Markdown
