import DocPress.Markdown.Margin

/-!
The parts of links and of link definitions: labels, destinations and titles.
-/

namespace DocPress.Markdown

open DocPress.Text (isAsciiBlank isAsciiPunctuation)

/-- What a scan does at a line end: the length of what to skip in front of the next line, or none
where the scan has to fail. -/
abbrev LineBreakRule := Cursor → Option Nat

/-- The place after white space inside a label, where `broken` says that a line has ended in it. A
second line may not end there. -/
def labelSpace (rule : LineBreakRule) : Nat → Cursor → Bool → Option Cursor
  | 0, _, _ => none
  | fuel + 1, here, broken =>
    match here.after with
    | [] => some here
    | c :: _ =>
      if !isAsciiBlank c then some here
      else
        match lineEnd? here.after with
        | some ending =>
          if broken then none
          else do
            let next := here.advance ending
            labelSpace rule fuel (next.advance (← rule next)) true
        | none => labelSpace rule fuel (here.advance 1) broken

/-- What a character adds to the size of a label: its bytes, if it is none of ASCII. -/
def labelSize (c : Char) : Nat :=
  if c.toNat < 128 then 0 else c.utf8Size

/-- Reads a label after its opening bracket: the place after the closing one, and the label with each
stretch of white space made one space, and without those at its ends. `taken` is what was read, last
character first; `size` limits labels: white space, escapes and what is beyond ASCII count. In a
table a backslash in front of a pipe is not part of the label. -/
def readLabel (rule : LineBreakRule) (inTable : Bool) :
    Nat → Cursor → List Char → Nat → Bool → Option (Cursor × List Char)
  | 0, _, _, _, _ => none
  | fuel + 1, here, taken, size, blank =>
    if 1000 ≤ size then none
    else
      match here.after with
      | [] => none
      | '[' :: _ => none
      | ']' :: _ =>
        if blank then none
        else
          let label := Text.dropEndWhile (· = ' ') (taken.reverse.dropWhile (· = ' '))
          some (here.advance 1, label)
      | '\\' :: [] => none
      | '\\' :: c :: _ =>
        if inTable && c = '|' then
          readLabel rule inTable fuel (here.advance 2) ('|' :: taken) (size + 1) blank
        else if isAsciiPunctuation c then
          readLabel rule inTable fuel (here.advance 2) (c :: '\\' :: taken) (size + 2) blank
        else readLabel rule inTable fuel (here.advance 1) ('\\' :: taken) size false
      | c :: _ =>
        if inTable && c = '|' then
          if here.before.head? = some '\\' then
            readLabel rule inTable fuel (here.advance 1) ('|' :: taken.tail) size blank
          else none
        else if isAsciiBlank c then do
          let next ← labelSpace rule fuel here false
          readLabel rule inTable fuel next (' ' :: taken) (size + (next.offset - here.offset)) blank
        else
          readLabel rule inTable fuel (here.advance 1) (c :: taken) (size + labelSize c) false

/-- The label after an opening bracket: the place after its closing bracket, and the label. -/
def label? (rule : LineBreakRule) (inTable : Bool) (here : Cursor) : Option (Cursor × List Char) :=
  readLabel rule inTable (here.after.length + 1) here [] 0 true

/-- The length of a destination in angle brackets, after the opening one and with the closing
one. -/
def pointyLength? : List Char → Option Nat
  | [] => none
  | '>' :: _ => some 1
  | '\\' :: c :: rest =>
    if isAsciiPunctuation c then (pointyLength? rest).map (· + 2)
    else (pointyLength? (c :: rest)).map (· + 1)
  | c :: rest =>
    if c = '\n' || c = '\r' || c = '<' then none else (pointyLength? rest).map (· + 1)

/-- The length of a destination without brackets, in which parentheses are balanced and may be
opened while at most `limit` others are open. -/
def bareLength? (limit : Nat) : List Char → Nat → Option Nat
  | [], depth => if depth = 0 then some 0 else none
  | '\\' :: c :: rest, depth =>
    if isAsciiPunctuation c then (bareLength? limit rest depth).map (· + 2)
    else (bareLength? limit (c :: rest) depth).map (· + 1)
  | c :: rest, depth =>
    if c ≤ ' ' then if depth = 0 then some 0 else none
    else if c = '(' then
      if limit < depth then none else (bareLength? limit rest (depth + 1)).map (· + 1)
    else if c = ')' then
      if depth = 0 then some 0 else (bareLength? limit rest (depth - 1)).map (· + 1)
    else (bareLength? limit rest depth).map (· + 1)

/-- A destination: its length in the text, and its characters. -/
def destination? (limit : Nat) (text : List Char) : Option (Nat × List Char) :=
  match text with
  | '<' :: rest => (pointyLength? rest).map fun length => (length + 1, rest.take (length - 1))
  | _ => (bareLength? limit text 0).map fun length => (length, text.take length)

/-- The character that closes a title which this one opens. -/
def titleClose? (c : Char) : Option Char :=
  if c = '"' || c = '\'' then some c else if c = '(' then some ')' else none

/-- What a link definition says. -/
structure LinkTarget where
  url : String
  title : String
  deriving Inhabited

/-- How many bytes a target comes to. -/
def LinkTarget.byteSize (target : LinkTarget) : Nat :=
  target.url.utf8ByteSize + target.title.utf8ByteSize

end DocPress.Markdown
