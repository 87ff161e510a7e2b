/-!
Places in a YAML text, moving over it, and the faults that reading it can meet. Columns and indices
count characters.
-/

namespace DocPress.Yaml

/-- A place in a text; all three numbers start from zero. -/
structure Mark where
  index : Nat
  line : Nat
  column : Nat
  deriving DecidableEq, Repr, Inhabited

/-- The first place of a text. -/
def Mark.start : Mark := ⟨0, 0, 0⟩

/-- Whether the place is the start of the text. -/
def Mark.isStart (mark : Mark) : Bool :=
  mark.line = 0 && mark.column = 0

/-- The wording of a place. -/
def Mark.text (mark : Mark) : String :=
  "line " ++ toString (mark.line + 1) ++ " column " ++ toString (mark.column + 1)

/-- What is wrong with a text. -/
inductive Problem where
  | noColon
  | cannotStartToken
  | entryNotAllowed
  | keyNotAllowed
  | valueNotAllowed
  | unknownDirective
  | noCommentOrBreak
  | noDirectiveName
  | badDirectiveName
  | longVersion
  | noVersion
  | noVersionPoint
  | noSpace
  | noSpaceOrBreak
  | noAlphanumeric
  | noTagEnd
  | noExclamation
  | noTagUri
  | noOctet
  | badLeadingOctet
  | badTrailingOctet
  | zeroIndent
  | tabIndent
  | documentIndicator
  | endOfText
  | unknownEscape
  | noHexNumber
  | badEscapeCode
  | unexpectedColon
  | tabViolation
  | noDocumentStart
  | duplicateVersion
  | incompatibleVersion
  | duplicateHandle
  | undefinedHandle
  | noContent
  | noEntry
  | noKey
  | noListSeparator
  | noMapSeparator
  deriving DecidableEq, Repr, Inhabited

/-- The wording of a problem. -/
def Problem.message : Problem → String
  | .noColon => "could not find expected ':'"
  | .cannotStartToken => "found character that cannot start any token"
  | .entryNotAllowed => "block sequence entries are not allowed in this context"
  | .keyNotAllowed => "mapping keys are not allowed in this context"
  | .valueNotAllowed => "mapping values are not allowed in this context"
  | .unknownDirective => "found unknown directive name"
  | .noCommentOrBreak => "did not find expected comment or line break"
  | .noDirectiveName => "could not find expected directive name"
  | .badDirectiveName => "found unexpected non-alphabetical character"
  | .longVersion => "found extremely long version number"
  | .noVersion => "did not find expected version number"
  | .noVersionPoint => "did not find expected digit or '.' character"
  | .noSpace => "did not find expected whitespace"
  | .noSpaceOrBreak => "did not find expected whitespace or line break"
  | .noAlphanumeric => "did not find expected alphabetic or numeric character"
  | .noTagEnd => "did not find the expected '>'"
  | .noExclamation => "did not find expected '!'"
  | .noTagUri => "did not find expected tag URI"
  | .noOctet => "did not find URI escaped octet"
  | .badLeadingOctet => "found an incorrect leading UTF-8 octet"
  | .badTrailingOctet => "found an incorrect trailing UTF-8 octet"
  | .zeroIndent => "found an indentation indicator equal to 0"
  | .tabIndent => "found a tab character where an indentation space is expected"
  | .documentIndicator => "found unexpected document indicator"
  | .endOfText => "found unexpected end of stream"
  | .unknownEscape => "found unknown escape character"
  | .noHexNumber => "did not find expected hexdecimal number"
  | .badEscapeCode => "found invalid Unicode character escape code"
  | .unexpectedColon => "found unexpected ':'"
  | .tabViolation => "found a tab character that violates indentation"
  | .noDocumentStart => "did not find expected <document start>"
  | .duplicateVersion => "found duplicate %YAML directive"
  | .incompatibleVersion => "found incompatible YAML document"
  | .duplicateHandle => "found duplicate %TAG directive"
  | .undefinedHandle => "found undefined tag handle"
  | .noContent => "did not find expected node content"
  | .noEntry => "did not find expected '-' indicator"
  | .noKey => "did not find expected key"
  | .noListSeparator => "did not find expected ',' or ']'"
  | .noMapSeparator => "did not find expected ',' or '\x7d'"

/-- What was being read when a problem was met. -/
inductive Activity where
  | nextToken
  | simpleKey
  | directive
  | versionDirective
  | tagDirective
  | tagDirectiveHandle
  | tagDirectiveUri
  | tagDirectiveValue
  | tag
  | tagUri
  | anchor
  | alias
  | blockScalar
  | quotedScalar
  | quotedEscape
  | plainScalar
  | node
  | blockNode
  | flowNode
  | blockCollection
  | blockMapping
  | flowSequence
  | flowMapping
  deriving DecidableEq, Repr, Inhabited

/-- The wording of an activity. -/
def Activity.message : Activity → String
  | .nextToken => "while scanning for the next token"
  | .simpleKey => "while scanning a simple key"
  | .directive => "while scanning a directive"
  | .versionDirective => "while scanning a %YAML directive"
  | .tagDirective => "while scanning a tag directive"
  | .tagDirectiveHandle => "while parsing a tag directive"
  | .tagDirectiveUri => "while parsing a %TAG directive"
  | .tagDirectiveValue => "while scanning a %TAG directive"
  | .tag => "while scanning a tag"
  | .tagUri => "while parsing a tag"
  | .anchor => "while scanning an anchor"
  | .alias => "while scanning an alias"
  | .blockScalar => "while scanning a block scalar"
  | .quotedScalar => "while scanning a quoted scalar"
  | .quotedEscape => "while parsing a quoted scalar"
  | .plainScalar => "while scanning a plain scalar"
  | .node => "while parsing a node"
  | .blockNode => "while parsing a block node"
  | .flowNode => "while parsing a flow node"
  | .blockCollection => "while parsing a block collection"
  | .blockMapping => "while parsing a block mapping"
  | .flowSequence => "while parsing a flow sequence"
  | .flowMapping => "while parsing a flow mapping"

/-- Where and why a text cannot be read on. -/
inductive Break where
  /-- A character that may not occur, by the number of bytes before it. -/
  | control (offset : Nat)
  /-- A problem at a place, and where that which it is a part of starts. -/
  | fault (problem : Problem) (mark : Mark) (context : Option (Activity × Mark))
  deriving DecidableEq, Repr, Inhabited

/-- Where the text cannot be read on. -/
def Break.mark : Break → Mark
  | .control _ => .start
  | .fault _ mark _ => mark

/-- The wording of a break. Places at the start of the text are left out, and so is a second place
that equals the first. -/
def Break.message : Break → String
  | .control offset =>
    "control characters are not allowed" ++
      if offset = 0 then "" else " at position " ++ toString offset
  | .fault problem mark context =>
    problem.message ++ (if mark.isStart then "" else " at " ++ mark.text) ++
      match context with
      | none => ""
      | some (activity, start) =>
        ", " ++ activity.message ++
          if start.isStart || (start.line = mark.line && start.column = mark.column) then ""
          else " at " ++ start.text

/-- Whether the character ends a line. -/
def isBreak (c : Char) : Bool :=
  c = '\n' || c = '\r' || c.toNat = 0x85 || c.toNat = 0x2028 || c.toNat = 0x2029

/-- Whether the character is a blank within a line. -/
def isSpace (c : Char) : Bool :=
  c = ' ' || c = '\t'

/-- Whether a text starts with a blank or a line end, or has ended. -/
def blankOrEnd : List Char → Bool
  | [] => true
  | c :: _ => isSpace c || isBreak c

/-- Whether a text starts with a line end, or has ended. -/
def breakOrEnd : List Char → Bool
  | [] => true
  | c :: _ => isBreak c

/-- Whether the character may stand in the name of an anchor or a handle. -/
def isNameChar (c : Char) : Bool :=
  c.isAlphanum || c = '_' || c = '-'

/-- What is left of a text, and where it starts. -/
structure Cursor where
  rest : List Char
  mark : Mark
  deriving Inhabited

namespace Cursor

/-- The place in front of a whole text. -/
def ofText (text : List Char) : Cursor :=
  ⟨text, .start⟩

/-- The next character. -/
def next? (cursor : Cursor) : Option Char :=
  cursor.rest.head?

/-- Moves over characters of a line. -/
def skip (count : Nat) (cursor : Cursor) : Cursor :=
  ⟨cursor.rest.drop count,
    { cursor.mark with
      index := cursor.mark.index + count
      column := cursor.mark.column + count }⟩

/-- Moves over one line end, if there is one. -/
def skipBreak (cursor : Cursor) : Cursor :=
  let line (count : Nat) (rest : List Char) : Cursor :=
    ⟨rest, ⟨cursor.mark.index + count, cursor.mark.line + 1, 0⟩⟩
  match cursor.rest with
  | '\r' :: '\n' :: rest => line 2 rest
  | c :: rest => if isBreak c then line 1 rest else cursor
  | [] => cursor

/-- The text that a line end stands for: most stand for a line feed, the separators of lines and
paragraphs for themselves. -/
def breakText (cursor : Cursor) : List Char :=
  match cursor.rest with
  | c :: _ =>
    if c.toNat = 0x2028 || c.toNat = 0x2029 then [c]
    else if isBreak c then ['\n']
    else []
  | [] => []

/-- Takes the characters of a line that satisfy `p`. -/
def takeWhile (p : Char → Bool) (cursor : Cursor) : List Char × Cursor :=
  let taken := cursor.rest.takeWhile p
  (taken, cursor.skip taken.length)

/-- Moves over the rest of a line. -/
def skipLine (cursor : Cursor) : Cursor :=
  (cursor.takeWhile fun c => !isBreak c).2

/-- Moves over the blanks of a line. -/
def skipSpaces (cursor : Cursor) : Cursor :=
  (cursor.takeWhile isSpace).2

/-- Moves over a byte order mark at the start of a line. -/
def skipOrderMark (cursor : Cursor) : Cursor :=
  if cursor.mark.column = 0 && cursor.next?.any (·.toNat = 0xFEFF) then cursor.skip 1 else cursor

/-- Moves over a comment, if one starts here. -/
def skipComment (cursor : Cursor) : Cursor :=
  if cursor.next? = some '#' then cursor.skipLine else cursor

/-- The break for a problem at this place. -/
def fail {α : Type} (cursor : Cursor) (problem : Problem) (context : Option (Activity × Mark)) :
    Except Break α :=
  .error (.fault problem cursor.mark context)

/-- Whether a line of a document marker starts here. -/
def atDocumentMarker (cursor : Cursor) : Bool :=
  cursor.mark.column = 0 &&
    match cursor.rest with
    | '-' :: '-' :: '-' :: rest => blankOrEnd rest
    | '.' :: '.' :: '.' :: rest => blankOrEnd rest
    | _ => false

end Cursor

/-- Whether the character may occur in a text. -/
def isAllowed (c : Char) : Bool :=
  let code := c.toNat
  code = 9 || code = 10 || code = 13 || (0x20 ≤ code && code ≤ 0x7E) || code = 0x85 ||
    (0xA0 ≤ code && code ≤ 0xD7FF) ||
    (0xE000 ≤ code && code ≤ 0xFFFD) || 0x10000 ≤ code

/-- The number of bytes before the first character that may not occur. -/
def controlOffset? (offset : Nat) : List Char → Option Nat
  | [] => none
  | c :: rest => if isAllowed c then controlOffset? (offset + c.utf8Size) rest else some offset

end DocPress.Yaml
