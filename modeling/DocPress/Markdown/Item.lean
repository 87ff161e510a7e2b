import DocPress.Markdown.Construct

/-!
The lines of a paragraph, a heading or a table cell, cut into items: stretches of text, and marks
that may turn out to be markup once the whole block is known.
-/

namespace DocPress.Markdown

open DocPress.Text (isAsciiPunctuation isPunctuation entity?)

/-- What an item is, or may turn out to be. -/
inductive Mark where
  | text
  /-- Characters that are written otherwise in the source. -/
  | literal (value : List Char)
  /-- A run of emphasis delimiters. -/
  | delimiters (char : Char) (count : Nat) (canOpen canClose : Bool)
  /-- A run of backticks; the first of an escaped run stands for itself. -/
  | ticks (count : Nat) (escaped : Bool)
  /-- A `<`, which may begin a tag or a link. -/
  | angle
  | imageOpen
  | linkOpen
  | linkClose (couldBeReference : Bool)
  | softBreak
  | hardBreak (backslash : Bool)
  deriving DecidableEq, Inhabited

/-- A stretch of the source with what it may turn out to be. -/
structure Item where
  here : Cursor
  stop : Nat
  mark : Mark
  deriving Inhabited

/-- The source of an item. -/
def Item.source (item : Item) : List Char :=
  item.here.upTo item.stop

/-- The item without what lies before an offset. What is left of a run of delimiters is text. -/
def Item.from (offset : Nat) (item : Item) : Item :=
  if item.here.offset < offset then
    let mark := match item.mark with
      | .delimiters .. => .text
      | mark => mark
    { item with here := item.here.moveTo offset, mark := mark }
  else item

/-- Adds the text from a place up to an offset to items, the last of which comes first. A text that
goes on where the last item ended makes one item with it. -/
def addText (start : Cursor) (stop : Nat) (items : List Item) : List Item :=
  if start.offset < stop then
    match items with
    | last :: rest =>
      if last.mark = .text && last.stop = start.offset then { last with stop := stop } :: rest
      else ⟨start, stop, .text⟩ :: items
    | [] => [⟨start, stop, .text⟩]
  else items

/-! ### Emphasis delimiters -/

/-- Whether a pipe that no backslash precedes comes right before. -/
def afterPipe : List Char → Bool
  | '|' :: '\\' :: _ => false
  | '|' :: _ => true
  | _ => false

/-- Whether a run of `count` delimiters can open emphasis, from the characters before it, last one
first, and the character after it. -/
def canOpenEmphasis (delimiter : Char) (count : Nat) (before : List Char) (next : Option Char)
    (inTable : Bool) : Bool :=
  match next with
  | none => false
  | some next =>
    if Text.isBlank next then false
    else
      match before with
      | [] => true
      | previous :: _ =>
        if inTable && afterPipe before then true
        else if inTable && next = '|' then false
        else if delimiter = '*' && !isPunctuation next then true
        else if delimiter = '~' && 1 < count then true
        else if delimiter = '~' && previous = '~' && !isPunctuation next then true
        else Text.isBlank previous || isPunctuation previous

/-- Whether a run of `count` delimiters can close emphasis. -/
def canCloseEmphasis (delimiter : Char) (count : Nat) (before : List Char) (next : Option Char)
    (inTable : Bool) : Bool :=
  match before with
  | [] => false
  | previous :: _ =>
    if Text.isBlank previous then false
    else
      match next with
      | none => true
      | some next =>
        if inTable && afterPipe before then false
        else if inTable && next = '|' then true
        else if (delimiter = '*' || (delimiter = '~' && 1 < count)) && !isPunctuation previous then
          true
        else if delimiter = '~' && previous = '~' then true
        else Text.isBlank next || isPunctuation next

/-! ### Lines -/

/-- How pipes are read. -/
inductive PipeMode where
  /-- As text. -/
  | off
  /-- As text, unless a delimiter row on the next line shows that a table starts here. -/
  | lookAhead
  /-- As the ends of cells. -/
  | cells
  deriving DecidableEq

/-- How a line ended. -/
inductive LineEnding where
  /-- At the end of the text or of a cell. -/
  | none
  | soft (item : Item)
  | hard (item : Item) (backslash : Bool)
  /-- The line is the head of a table, and the delimiter row is read as well. -/
  | table (columns : List ColumnAlign)
  deriving Inhabited

/-- A line: its items, last one first, the place after it and how it ended. -/
structure Line where
  items : List Item
  next : Cursor
  ending : LineEnding
  deriving Inhabited

/-- What does not change while a line is read. -/
structure LineContext where
  mode : PipeMode
  /-- The containers around the block, outermost first. -/
  path : List Container
  /-- The start of the line. -/
  start : Cursor
  /-- The character after the text that is read. -/
  beyond : Option Char

/-- The columns of the table whose head is the line before `next`, and the place after the delimiter
row. -/
def LineContext.tableAfter? (context : LineContext) (pipes : Nat) (afterLastPipe : List Char)
    (next : Cursor) : Option (List ColumnAlign × Cursor) :=
  let (count, margin) := enterContainers context.path (.ofCursor next)
  if count = context.path.length then
    match delimiterRow? margin.here.after with
    | some (length, columns) =>
      if columns.length = columnCount pipes context.start.after afterLastPipe then
        some (columns, margin.here.advance length)
      else none
    | none => none
  else none

/-- Ends a line at a line end of length `ending`. -/
def LineContext.breakLine (context : LineContext) (items : List Item) (begin here : Cursor)
    (pipes : Nat) (afterLastPipe : List Char) (ending : Nat) : Line :=
  let next := here.advance ending
  let backslashes := runLength (· = '\\') here.before
  if backslashes % 2 = 1 && !next.atEnd then
    let start := here.retreat 1
    ⟨addText begin start.offset items, next, .hard ⟨start, next.offset, .hardBreak true⟩ true⟩
  else
    let table :=
      if context.mode = .lookAhead && 0 < pipes then
        context.tableAfter? pipes afterLastPipe next
      else none
    match table with
    | some (columns, stop) => ⟨items, stop, .table columns⟩
    | none =>
      let blanks := runLength isInlineBlank here.before
      let start := here.retreat blanks
      let items := addText begin start.offset items
      if 2 ≤ blanks then ⟨items, next, .hard ⟨start, next.offset, .hardBreak false⟩ false⟩
      else ⟨items, next, .soft ⟨here, next.offset, .softBreak⟩⟩

/-- Ends a line without a line break. -/
def stopLine (items : List Item) (begin here : Cursor) : Line :=
  let length := here.offset - begin.offset
  let blanks := runLength isInlineBlank (here.before.take length)
  ⟨addText begin (here.offset - blanks) items, here, .none⟩

/-- Reads a line from `here` on, where `begin` is the start of the text that belongs to no item yet;
`fuel` bounds the number of steps. -/
def LineContext.scan (context : LineContext) :
    Nat → Cursor → Cursor → List Item → Nat → List Char → Line
  | 0, here, begin, items, _, _ => stopLine items begin here
  | fuel + 1, here, begin, items, pipes, afterLastPipe =>
    /- Goes on after `width` characters, which stay in the current text. -/
    let skip (width : Nat) : Line :=
      context.scan fuel (here.advance width) begin items pipes afterLastPipe
    /- Goes on after an item of `width` characters. -/
    let mark (width : Nat) (mark : Mark) : Line :=
      let next := here.advance width
      let items := ⟨here, next.offset, mark⟩ :: addText begin here.offset items
      context.scan fuel next next items pipes afterLastPipe
    match here.after with
    | [] => stopLine items begin here
    | c :: rest =>
      match c with
      | '\\' =>
        match rest with
        | [] => skip 1
        | next :: more =>
          if !isAsciiPunctuation next then skip 1
          else
            let done := addText begin here.offset items
            /- Goes on after `width` characters, the text starting again after `lost` of them. -/
            let restart (lost width : Nat) : Line :=
              context.scan fuel (here.advance width) (here.advance lost) done pipes afterLastPipe
            if next = backtick then
              let count := runLength (· = next) rest
              let start := here.advance 1
              let stop := start.advance count
              context.scan fuel stop stop (⟨start, stop.offset, .ticks count true⟩ :: done) pipes
                afterLastPipe
            else if context.mode = .cells && next = '\\' && more.head? = some '|' then restart 2 3
            else restart 1 2
      | '<' => if rest.head? = some '\\' then skip 1 else mark 1 .angle
      | '!' => if rest.head? = some '[' then mark 2 .imageOpen else skip 1
      | '[' => mark 1 .linkOpen
      | ']' => mark 1 (.linkClose true)
      | '&' =>
        match entity? here.after with
        | some (width, value) => mark width (.literal value)
        | none => skip 1
      | '|' =>
        if here.before.head? = some '\\' then skip 1
        else if context.mode = .cells then stopLine items begin here
        else context.scan fuel (here.advance 1) begin items (pipes + 1) rest
      | _ =>
        match if c = '\n' || c = '\r' then lineEnd? here.after else none with
        | some ending =>
          if context.mode = .cells then stopLine items begin here
          else context.breakLine items begin here pipes afterLastPipe ending
        | none =>
          if c = backtick then
            let count := runLength (· = c) here.after
            mark count (.ticks count false)
          else if c = '*' || c = '_' || c = '~' then
            let count := runLength (· = c) here.after
            let next := (here.after.drop count).head?.or context.beyond
            let inTable := context.mode = .cells
            let before := if here.offset = context.start.offset then [] else here.before
            let canOpen := canOpenEmphasis c count before next inTable
            let canClose := canCloseEmphasis c count before next inTable
            if (canOpen || canClose) && (c != '~' || count ≤ 2) then
              mark count (.delimiters c count canOpen canClose)
            else skip count
          else skip 1

/-- Reads a line, adding its items to those of the lines before it, last one first. -/
def readLine (mode : PipeMode) (path : List Container) (start : Cursor) (beyond : Option Char)
    (items : List Item) : Line :=
  LineContext.scan ⟨mode, path, start, beyond⟩ (start.after.length + 1) start start items 0 []

end DocPress.Markdown
