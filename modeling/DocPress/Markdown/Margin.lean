import DocPress.Markdown.Scan

/-!
The start of a line: indentation with tab stops at every fourth column, and the markers of block
quotes, list items and tasks. A tab that is only partly used up leaves spaces behind.
-/

namespace DocPress.Markdown

/-- A place in the margin of a line. -/
structure Margin where
  here : Cursor
  /-- The offset from which tab stops are counted. -/
  tabStart : Nat
  /-- Spaces left over from a tab. -/
  spare : Nat

namespace Margin

/-- The margin of the line that starts at a place. -/
def ofCursor (cursor : Cursor) : Margin :=
  ⟨cursor, cursor.offset, 0⟩

/-- Takes spaces from the text, tabs counting up to the next stop: how many are still missing. -/
def takeFromText : List Char → Nat → Margin → Nat × Margin
  | _, 0, margin => (0, margin)
  | ' ' :: rest, missing + 1, margin =>
    takeFromText rest missing { margin with here := margin.here.advance 1 }
  | '\t' :: rest, missing + 1, margin =>
    let width := 4 - (margin.here.offset - margin.tabStart) % 4
    let used := min width (missing + 1)
    let here := margin.here.advance 1
    takeFromText rest (missing + 1 - used) ⟨here, here.offset, width - used⟩
  | _, missing, margin => (missing, margin)

/-- Takes up to `count` spaces: how many are missing, and the place after those that were there. -/
def take (count : Nat) (margin : Margin) : Nat × Margin :=
  let fromTab := min margin.spare count
  let margin := { margin with spare := margin.spare - fromTab }
  takeFromText margin.here.after (count - fromTab) margin

/-- Takes up to `count` spaces and tells how many were there. -/
def takeUpTo (count : Nat) (margin : Margin) : Nat × Margin :=
  let (missing, margin) := margin.take count
  (count - missing, margin)

/-- Skips all spaces and tabs. -/
def skipSpaces (margin : Margin) : Margin :=
  let length := runLength (fun c => c = ' ' || c = '\t') margin.here.after
  { margin with here := margin.here.advance length, spare := 0 }

/-- Whether the line ends here. -/
def atLineEnd (margin : Margin) : Bool :=
  match margin.here.after with
  | [] => true
  | c :: _ => c = '\r' || c = '\n'

/-- Takes a given character. -/
def takeChar? (c : Char) (margin : Margin) : Option Margin :=
  match margin.here.after with
  | x :: _ => if x = c then some { margin with here := margin.here.advance 1 } else none
  | [] => none

/-- Takes the marker of a block quote and a space after it. -/
def takeQuote? (margin : Margin) : Option Margin :=
  (margin.takeChar? '>').map fun margin => (margin.take 1).2

end Margin

/-- Whether a line is a thematic break, and its length with the line end: three or more of the same
character out of `*`, `-` and `_`, with nothing but spaces and tabs between them. -/
def rule? (text : List Char) : Option Nat :=
  match text with
  | c :: _ :: _ :: _ =>
    if c = '*' || c = '-' || c = '_' then
      let line := text.takeWhile fun x => x = c || x = ' ' || x = '\t'
      match lineEnd? (text.drop line.length) with
      | some ending => if 3 ≤ line.count c then some (line.length + ending) else none
      | none => none
    else none
  | _ => none

/-- What a list marker says: its character, the number of an ordered one, and the column at which
the content of the item starts. -/
structure ListMarker where
  mark : Char
  number : Nat
  indent : Nat

namespace Margin

/-- What follows a list marker: up to four more spaces belong to the indentation of the item, unless
the rest of the line is blank or more of them are there. -/
def finishMarker (mark : Char) (number indent : Nat) (margin : Margin) : ListMarker × Margin :=
  if (blankLine? margin.here.after).isSome then (⟨mark, number, indent⟩, margin)
  else
    let (more, next) := margin.takeUpTo 4
    if more < 4 then (⟨mark, number, indent + more⟩, next) else (⟨mark, number, indent⟩, margin)

/-- Takes a list marker that stands after `indent` columns. -/
def takeListMarker? (indent : Nat) (margin : Margin) : Option (ListMarker × Margin) :=
  match margin.here.after with
  | [] => none
  | c :: _ =>
    if c = '-' || c = '+' || c = '*' then
      if (rule? margin.here.after).isSome then none
      else
        let (missing, next) := { margin with here := margin.here.advance 1 : Margin }.take 1
        if missing = 0 || next.atLineEnd then some (next.finishMarker c 0 (indent + 2)) else none
    else if c.isDigit then
      let digits := (margin.here.after.take 9).takeWhile Char.isDigit
      match margin.here.after.drop digits.length with
      | mark :: _ =>
        if mark = '.' || mark = ')' then
          let width := digits.length + 1
          let (missing, next) := { margin with here := margin.here.advance width : Margin }.take 1
          if missing = 0 || next.atLineEnd then
            some (next.finishMarker mark (Text.decimalNumber digits) (indent + 1 + width))
          else none
        else none
      | [] => none
    else none

/-- Takes the marker of a task, which a blank or the line end must follow: whether it is checked. -/
def takeTask? (margin : Margin) : Option (Bool × Margin) :=
  let margin := (margin.takeUpTo 3).2
  match margin.here.after with
  | '[' :: mark :: ']' :: next :: _ =>
    let after := { margin with here := margin.here.advance 3 }
    if !Text.isAsciiBlank next then none
    else if isInlineBlank mark then some (false, after)
    else if mark = 'x' || mark = 'X' then some (true, after)
    else none
  | _ => none

end Margin

/-- A block that holds other blocks, as far as the margin of a line shows it. -/
inductive Container where
  | quote
  | item (indent : Nat)
  /-- One that leaves no mark on its further lines. -/
  | plain
  deriving DecidableEq, Inhabited

/-- Goes past what a line must start with in order to belong to the container. -/
def Container.enter? (margin : Margin) : Container → Option Margin
  | .quote => (margin.take 3).2.takeQuote?
  | .item indent =>
    let (missing, next) := margin.take indent
    if missing = 0 || next.atLineEnd then some next else none
  | .plain => some margin

/-- Enters containers from the outside in: how many were entered, and the place behind them. -/
def enterContainers : List Container → Margin → Nat × Margin
  | [], margin => (0, margin)
  | container :: rest, margin =>
    match container.enter? margin with
    | some next =>
      let (count, margin) := enterContainers rest next
      (count + 1, margin)
    | none => (0, margin)

/-- The length of what containers put in front of a line. -/
def containerPrefix (path : List Container) (cursor : Cursor) : Nat :=
  (enterContainers path (.ofCursor cursor)).2.here.offset - cursor.offset

end DocPress.Markdown
