import DocPress.Text.Blank
import DocPress.Text.Entity
import DocPress.Text.Punctuation

/-!
Looking at markup character by character: blanks, line ends, runs, and the two ways in which
characters are written otherwise than as themselves (backslash escapes and character references).
Lengths count characters.
-/

namespace DocPress.Markdown

open DocPress.Text (isAsciiBlank isAsciiPunctuation entity?)

/-- The backtick. -/
def backtick : Char := Char.ofNat 96

/-- White space of ASCII that does not end a line. -/
def isInlineBlank (c : Char) : Bool :=
  isAsciiBlank c && c != '\n' && c != '\r'

/-- The length of the longest beginning whose characters satisfy `p`. -/
def runLength (p : Char → Bool) (text : List Char) : Nat :=
  (text.takeWhile p).length

/-- The length of the line end at the start of a text; the end of the text is one of length zero. -/
def lineEnd? : List Char → Option Nat
  | [] => some 0
  | '\n' :: _ => some 1
  | '\r' :: '\n' :: _ => some 2
  | '\r' :: _ => some 1
  | _ => none

/-- The length of the rest of a line that is blank, with the line end. -/
def blankLine? (text : List Char) : Option Nat :=
  let blanks := runLength isInlineBlank text
  (lineEnd? (text.drop blanks)).map (blanks + ·)

/-- The length of a text through its first line feed. -/
def lineLength : List Char → Nat
  | [] => 0
  | c :: rest => if c = '\n' then 1 else 1 + lineLength rest

/-- A place in a text: its offset, the text before it, last character first, and the text from it
on. -/
structure Cursor where
  offset : Nat
  before : List Char
  after : List Char
  deriving Inhabited

namespace Cursor

/-- The start of a text. -/
def start (text : List Char) : Cursor :=
  ⟨0, [], text⟩

/-- The place `count` characters further on. -/
def advance : Nat → Cursor → Cursor
  | 0, cursor => cursor
  | _ + 1, cursor@⟨_, _, []⟩ => cursor
  | count + 1, ⟨offset, before, c :: after⟩ => advance count ⟨offset + 1, c :: before, after⟩

/-- The place `count` characters back. -/
def retreat : Nat → Cursor → Cursor
  | 0, cursor => cursor
  | _ + 1, cursor@⟨_, [], _⟩ => cursor
  | count + 1, ⟨offset, c :: before, after⟩ => retreat count ⟨offset - 1, before, c :: after⟩

/-- The place at an offset that is not before this one. -/
def moveTo (offset : Nat) (cursor : Cursor) : Cursor :=
  cursor.advance (offset - cursor.offset)

/-- The text up to an offset. -/
def upTo (stop : Nat) (cursor : Cursor) : List Char :=
  cursor.after.take (stop - cursor.offset)

/-- Whether nothing follows. -/
def atEnd (cursor : Cursor) : Bool :=
  cursor.after.isEmpty

end Cursor

/-- The text with its escapes and references replaced by what they stand for, and without carriage
returns. -/
def unescape (inTable : Bool) : Nat → List Char → List Char
  | 0, text => text
  | _, [] => []
  | fuel + 1, c :: rest =>
    if c = '\\' then
      match rest with
      | '\\' :: '|' :: more =>
        if inTable then '|' :: unescape inTable fuel more
        else '\\' :: unescape inTable fuel ('|' :: more)
      | next :: more =>
        if isAsciiPunctuation next then next :: unescape inTable fuel more
        else c :: unescape inTable fuel rest
      | [] => [c]
    else if c = '&' then
      match entity? (c :: rest) with
      | some (length, value) => value ++ unescape inTable fuel ((c :: rest).drop length)
      | none => c :: unescape inTable fuel rest
    else if c = '\r' then unescape inTable fuel rest
    else c :: unescape inTable fuel rest

/-- The text with its escapes and references replaced. -/
def unescaped (inTable : Bool) (text : List Char) : String :=
  String.ofList (unescape inTable text.length text)

end DocPress.Markdown
