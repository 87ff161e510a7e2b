import DocPress.Markdown.Margin

/-!
How blocks begin: headings, code fences, raw HTML and tables, and the question whether a line ends
the paragraph above it.
-/

namespace DocPress.Markdown

open DocPress.Text (startsWith isAsciiAlphanumeric)

/-- The level of a heading that starts with number signs. -/
def numberSigns? (text : List Char) : Option Nat :=
  let level := runLength (· = '#') text
  let ends := match text.drop level with
    | [] => true
    | c :: _ => Text.isAsciiBlank c
  if ends && 1 ≤ level && level ≤ 6 then some level else none

/-- The underline of a heading: its length with the line end, and the level. -/
def underline? (text : List Char) : Option (Nat × Nat) :=
  match text with
  | c :: _ =>
    if c = '=' || c = '-' then
      let width := runLength (· = c) text
      (blankLine? (text.drop width)).map fun rest => (width + rest, if c = '=' then 1 else 2)
    else none
  | [] => none

/-- The opening fence of a code block: its length and its character. Backticks may not follow a
fence of backticks on its line. -/
def fence? (text : List Char) : Option (Nat × Char) :=
  match text with
  | c :: _ =>
    if c = backtick || c = '~' then
      let width := runLength (· = c) text
      let line := (text.drop width).take (lineLength (text.drop width))
      if width < 3 || (c != '~' && line.contains c) then none else some (width, c)
    else none
  | [] => none

/-- The closing fence of a code block: its length without the line end. -/
def closingFence? (mark : Char) (width : Nat) (text : List Char) : Option Nat :=
  if text.isEmpty then some 0
  else
    let found := runLength (· = mark) text
    if found < width then none
    else
      let blanks := runLength (· = ' ') (text.drop found)
      (lineEnd? (text.drop (found + blanks))).map fun _ => found + blanks

/-! ### Raw HTML -/

/-- The text in lower-case letters of ASCII. -/
def lowerAscii (text : List Char) : List Char :=
  text.map Char.toLower

/-- The text that ends a block of raw HTML which runs to a given text; `text` follows the `<`. -/
def rawEnd? (text : List Char) : Option (List Char) :=
  let verbatim := ["pre", "style", "script", "textarea"].find? fun tag =>
    startsWith tag.toList (lowerAscii (text.take tag.length)) &&
      match text.drop tag.length with
      | [] => true
      | c :: _ => Text.isAsciiBlank c || c = '>'
  match verbatim with
  | some tag => some ("</" ++ tag ++ ">").toList
  | none =>
    match text with
    | '!' :: '-' :: '-' :: _ => some "-->".toList
    | '?' :: _ => some "?>".toList
    | '!' :: '[' :: 'C' :: 'D' :: 'A' :: 'T' :: 'A' :: '[' :: _ => some "]]>".toList
    | '!' :: c :: _ => if c.isAlpha then some ">".toList else none
    | _ => none

/-- The tags that begin a block of raw HTML which runs to a blank line. -/
def blockTags : List String :=
  ["address", "article", "aside", "base", "basefont", "blockquote", "body", "caption", "center",
    "col", "colgroup", "dd", "details", "dialog", "dir", "div", "dl", "dt", "fieldset",
    "figcaption", "figure", "footer", "form", "frame", "frameset", "h1", "h2", "h3", "h4", "h5",
    "h6", "head", "header", "hr", "html", "iframe", "legend", "li", "link", "main", "menu",
    "menuitem", "nav", "noframes", "ol", "optgroup", "option", "p", "param", "search", "section",
    "summary", "table", "tbody", "td", "tfoot", "th", "thead", "title", "tr", "track", "ul"]

/-- Whether one of the block tags stands here; `text` follows the `<`. -/
def startsBlockTag (text : List Char) : Bool :=
  let text := match text with
    | '/' :: rest => rest
    | _ => text
  let name := text.takeWhile isAsciiAlphanumeric
  blockTags.contains (String.ofList (lowerAscii name)) &&
    match text.drop name.length with
    | [] => true
    | '/' :: '>' :: _ => true
    | c :: _ => c = ' ' || c = '\t' || c = '\r' || c = '\n' || c = '>'

/-! ### Lists and quotes -/

/-- A list item that could start here: its marker's character and number, and the rest of the
line. -/
def listItem? (text : List Char) : Option (Char × Nat × List Char) :=
  let finish (mark : Char) (number : Nat) (rest : List Char) : Option (Char × Nat × List Char) :=
    match rest with
    | ' ' :: _ => some (mark, number, rest)
    | '\t' :: _ => some (mark, number, rest)
    | _ => if (lineEnd? rest).isSome then some (mark, number, rest) else none
  match text with
  | [] => none
  | c :: rest =>
    if c = '-' || c = '+' || c = '*' then finish c 0 rest
    else if c.isDigit then
      let digits := (text.take 9).takeWhile Char.isDigit
      match text.drop digits.length with
      | mark :: rest =>
        if mark = '.' || mark = ')' then finish mark (Text.decimalNumber digits) rest else none
      | [] => none
    else none

/-! ### Tables -/

/-- How the text of a column is aligned, by the colons of the delimiter row. -/
inductive ColumnAlign where
  | none
  | left
  | center
  | right
  deriving DecidableEq, Inhabited

/-- A colon next to the hyphens of a column. -/
def ColumnAlign.colon (first : Bool) : ColumnAlign → ColumnAlign
  | .none => if first then .left else .right
  | .left => if first then .left else .center
  | align => align

/-- The state of reading a delimiter row. -/
structure DelimiterRow where
  /-- The columns that are complete, last one first. -/
  columns : List ColumnAlign
  current : ColumnAlign
  atColumnStart : Bool
  sawPipe : Bool
  sawHyphen : Bool
  hyphenInColumn : Bool

/-- Reads the characters of a delimiter row: how many there are, and what they say. -/
def DelimiterRow.read : List Char → Nat → DelimiterRow → Option (Nat × DelimiterRow)
  | [], length, row => some (length, row)
  | c :: rest, length, row =>
    match lineEnd? (c :: rest) with
    | some ending => some (length + ending, row)
    | none =>
      if c = ' ' || c = '\t' then read rest (length + 1) row
      else if c = ':' then
        read rest (length + 1)
          { row with current := row.current.colon row.atColumnStart, atColumnStart := false }
      else if c = '-' then
        read rest (length + 1)
          { row with atColumnStart := false, sawHyphen := true, hyphenInColumn := true }
      else if c = '|' then
        if row.hyphenInColumn then
          read rest (length + 1)
            { row with
              columns := row.current :: row.columns, current := .none, atColumnStart := true,
              sawPipe := true, hyphenInColumn := false }
        else none
      else none

/-- The delimiter row of a table: its length with the line end, and the columns. -/
def delimiterRow? (text : List Char) : Option (Nat × List ColumnAlign) :=
  let indent := runLength (· = ' ') text
  let rest := text.drop indent
  if 3 < indent || rest.isEmpty || rest.head? = some '\t' then none
  else
    let (length, body, piped) := match rest with
      | '|' :: body => (indent + 1, body, true)
      | _ => (indent, rest, false)
    match DelimiterRow.read body length ⟨[], .none, true, piped, false, false⟩ with
    | none => none
    | some (length, row) =>
      let columns := if row.atColumnStart then row.columns else row.current :: row.columns
      if row.sawPipe && row.sawHyphen && (row.atColumnStart || row.hyphenInColumn) then
        some (length, columns.reverse)
      else none

/-- The number of columns of a row with `pipes` pipes; `afterLast` follows the last of them. -/
def columnCount (pipes : Nat) (row afterLast : List Char) : Nat :=
  let leading := (row.dropWhile isInlineBlank).head? = some '|'
  let pipes := if leading then pipes - 1 else pipes
  if (blankLine? afterLast).isSome then pipes else pipes + 1

/-- The pipes of a line that no backslash precedes: their number, the text after the last of them,
and the length of the line without its end. -/
def countPipes : List Char → Bool → Nat → List Char → Nat → Nat × List Char × Nat
  | [], _, pipes, afterLast, length => (pipes, afterLast, length)
  | c :: rest, escaped, pipes, afterLast, length =>
    if c = '\n' || c = '\r' then (pipes, afterLast, length)
    else if c = '\\' then countPipes rest true pipes afterLast (length + 1)
    else if c = '|' && !escaped then countPipes rest false (pipes + 1) rest (length + 1)
    else countPipes rest false pipes afterLast (length + 1)

end DocPress.Markdown
