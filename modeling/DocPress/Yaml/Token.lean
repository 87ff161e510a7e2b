import DocPress.Yaml.Scalar

/-!
Tokens of a YAML text. A mapping key without an indicator is known as a key only at the colon behind
it, so places where such a key may have started are remembered, and the tokens that announce it are
put in afterwards. Tokens behind a place that is still undecided are not passed on when the text
turns out to be faulty.
-/

namespace DocPress.Yaml

/-- What a token is. -/
inductive TokenKind where
  | version (major minor : Nat)
  | handle (name start : String)
  | documentStart
  | documentEnd
  | sequenceStart
  | mappingStart
  | blockEnd
  | flowSequenceStart
  | flowSequenceEnd
  | flowMappingStart
  | flowMappingEnd
  | blockEntry
  | flowEntry
  | key
  | value
  | alias (name : String)
  | anchor (name : String)
  | tag (handle suffix : String)
  | scalar (style : ScalarStyle) (text : String)
  /-- The end of the text. -/
  | endOfText
  /-- The text cannot be read on. -/
  | broken (reason : Break)
  deriving DecidableEq, Inhabited

/-- A token and its place. -/
structure Token where
  kind : TokenKind
  start : Mark
  stop : Mark
  deriving Inhabited

/-- A place where a mapping key may have started. -/
structure KeyPlace where
  /-- The number of tokens before the key. -/
  count : Nat
  /-- Whether the line makes sense only with a key. -/
  required : Bool
  mark : Mark

/-- The tokens of a text so far, and what decides about the next ones. -/
structure Lexer where
  cursor : Cursor
  /-- The tokens, last one first. -/
  tokens : List Token
  /-- The indentation of the innermost block collection, or -1 outside of all. -/
  indent : Int
  /-- The indentations of the collections around it. -/
  outer : List Int
  /-- Where a key may have started, for the innermost brackets. -/
  place : Option KeyPlace
  /-- The same for the brackets around them; empty outside of all brackets. -/
  outerPlaces : List (Option KeyPlace)
  /-- Whether a key without an indicator may start here. -/
  keyAllowed : Bool

namespace Lexer

/-- The start of a text. -/
def ofText (text : List Char) : Lexer :=
  ⟨.ofText text, [], -1, [], none, [], true⟩

/-- Whether the place is inside brackets. -/
def inFlow (lexer : Lexer) : Bool :=
  !lexer.outerPlaces.isEmpty

/-- The place that is read now. -/
def mark (lexer : Lexer) : Mark :=
  lexer.cursor.mark

/-- Adds a token. -/
def push (kind : TokenKind) (start stop : Mark) (lexer : Lexer) : Lexer :=
  { lexer with tokens := ⟨kind, start, stop⟩ :: lexer.tokens }

/-- Puts a token behind the first `count` ones. -/
def insertAt (count : Nat) (kind : TokenKind) (mark : Mark) (lexer : Lexer) : Lexer :=
  let behind := lexer.tokens.length - count
  { lexer with
    tokens := lexer.tokens.take behind ++ ⟨kind, mark, mark⟩ :: lexer.tokens.drop behind }

/-- Adds the token of an indicator of `length` characters and moves over it. -/
def pushIndicator (kind : TokenKind) (length : Nat) (lexer : Lexer) : Lexer :=
  let cursor := lexer.cursor.skip length
  { lexer.push kind lexer.mark cursor.mark with cursor }

/-- The break for a key that is missing its colon. -/
def missingColon (lexer : Lexer) (place : KeyPlace) : Break :=
  .fault .noColon lexer.mark (some (.simpleKey, place.mark))

/-- Whether a key that started at a place cannot go on: it must be on one line, and its colon at
most 1024 characters away. -/
def isStale (lexer : Lexer) (place : KeyPlace) : Bool :=
  place.mark.line < lexer.mark.line || place.mark.index + 1024 < lexer.mark.index

/-- Forgets a place if it is stale. -/
def checkPlace (lexer : Lexer) : Option KeyPlace → Except Break (Option KeyPlace)
  | none => .ok none
  | some place =>
    if lexer.isStale place then
      if place.required then .error (lexer.missingColon place) else .ok none
    else .ok (some place)

/-- Forgets all stale places, from the outermost brackets to the innermost. -/
def dropStale (lexer : Lexer) : Except Break Lexer := do
  let outerPlaces ← lexer.outerPlaces.reverse.mapM lexer.checkPlace
  let place ← lexer.checkPlace lexer.place
  return { lexer with place, outerPlaces := outerPlaces.reverse }

/-- Forgets the innermost place: no key started there. -/
def dropPlace (lexer : Lexer) : Except Break Lexer :=
  match lexer.place with
  | some place =>
    if place.required then .error (lexer.missingColon place) else .ok { lexer with place := none }
  | none => .ok lexer

/-- Remembers the current place, if a key may start here. -/
def savePlace (lexer : Lexer) : Except Break Lexer :=
  if lexer.keyAllowed then do
    let required := !lexer.inFlow && lexer.indent = lexer.mark.column
    let place := KeyPlace.mk lexer.tokens.length required lexer.mark
    return { ← lexer.dropPlace with place := some place }
  else .ok lexer

/-- Starts a block collection, with its token behind the first `count` ones, if the column is
further in than the innermost collection. -/
def indentTo (column : Nat) (count : Nat) (kind : TokenKind) (mark : Mark) (lexer : Lexer) :
    Lexer :=
  if !lexer.inFlow && lexer.indent < column then
    { lexer.insertAt count kind mark with
      indent := column
      outer := lexer.indent :: lexer.outer }
  else lexer

/-- Ends the block collections of `indents` that are further in than the column. -/
def dedent (column : Int) : List Int → Lexer → Lexer
  | [], lexer => lexer
  | next :: outer, lexer =>
    if column < lexer.indent then
      dedent column outer { lexer.push .blockEnd lexer.mark lexer.mark with indent := next, outer }
    else lexer

/-- Ends the block collections that are further in than the column. -/
def dedentTo (column : Int) (lexer : Lexer) : Lexer :=
  if lexer.inFlow then lexer else dedent column lexer.outer lexer

/-! ### Directives and properties of nodes -/

/-- Takes a number of a version. -/
def takeVersionNumber (start : Mark) (cursor : Cursor) : Except Break (Nat × Cursor) :=
  let context := some (Activity.versionDirective, start)
  let (digits, after) := cursor.takeWhile Char.isDigit
  if 9 < digits.length then (cursor.skip 9).fail .longVersion context
  else if digits.isEmpty then cursor.fail .noVersion context
  else .ok (digits.foldl (fun n c => n * 10 + (c.toNat - 48)) 0, after)

/-- Takes a handle: an exclamation mark, or a name between two of them. In a directive nothing else
will do; elsewhere it may be the start of a tag. -/
def takeHandle (directive : Bool) (start : Mark) (cursor : Cursor) :
    Except Break (List Char × Cursor) :=
  if cursor.next? = some '!' then
    let (name, after) := (cursor.skip 1).takeWhile isNameChar
    if after.next? = some '!' then .ok ('!' :: name ++ ['!'], after.skip 1)
    else if directive && !name.isEmpty then
      after.fail .noExclamation (some (.tagDirectiveHandle, start))
    else .ok ('!' :: name, after)
  else cursor.fail .noExclamation (some (if directive then .tagDirective else .tag, start))

/-- Whether the character may stand in a tag; between angle brackets and in directives there are
more of them. -/
def isTagChar (verbatim : Bool) (c : Char) : Bool :=
  isNameChar c || ";/?:@&=+$.%!~*'()".toList.contains c || (verbatim && [',', '[', ']'].contains c)

/-- The length of a character in UTF-8, by its first byte. -/
def sequenceLength? (octet : Nat) : Option Nat :=
  if octet < 0x80 then some 1
  else if octet / 32 = 6 then some 2
  else if octet / 16 = 14 then some 3
  else if octet / 8 = 30 then some 4
  else none

/-- The value of a byte that is written as a percent sign and two digits. -/
def takeOctet (context : Option (Activity × Mark)) (cursor : Cursor) : Except Break Nat :=
  match cursor.rest with
  | '%' :: rest =>
    match hexNumber? 2 rest with
    | some octet => .ok octet
    | none => cursor.fail .noOctet context
  | _ => cursor.fail .noOctet context

/-- Takes the bytes of a character after its first one. -/
def takeTrailing (context : Option (Activity × Mark)) :
    Nat → Nat → Cursor → Except Break (Nat × Cursor)
  | 0, code, cursor => .ok (code, cursor)
  | count + 1, code, cursor => do
    let octet ← takeOctet context cursor
    if octet / 64 != 2 then cursor.fail .badTrailingOctet context
    takeTrailing context count (code * 64 + octet % 64) (cursor.skip 3)

/-- Takes a character that is written in bytes. -/
def takeEscapedChar (context : Option (Activity × Mark)) (cursor : Cursor) :
    Except Break (Char × Cursor) := do
  let octet ← takeOctet context cursor
  match sequenceLength? octet with
  | none => cursor.fail .badLeadingOctet context
  | some length =>
    let first := if length = 1 then octet else octet % (1 <<< (7 - length))
    let (code, cursor) ← takeTrailing context (length - 1) first (cursor.skip 3)
    return (Char.ofNat code, cursor)

/-- Takes the characters of a tag. -/
def takeTagChars (verbatim : Bool) (context : Option (Activity × Mark)) :
    Nat → List Char → Cursor → Except Break (List Char × Cursor)
  | 0, done, cursor => .ok (done.reverse, cursor)
  | fuel + 1, done, cursor =>
    match cursor.rest with
    | c :: _ =>
      if c = '%' then do
        let (c, cursor) ← takeEscapedChar context cursor
        takeTagChars verbatim context fuel (c :: done) cursor
      else if isTagChar verbatim c then
        takeTagChars verbatim context fuel (c :: done) (cursor.skip 1)
      else .ok (done.reverse, cursor)
    | [] => .ok (done.reverse, cursor)

/-- Takes a tag of which `head` has been taken. -/
def takeTagUri (verbatim directive : Bool) (head : List Char) (start : Mark) (cursor : Cursor) :
    Except Break (List Char × Cursor) := do
  let context := some (if directive then Activity.tagDirectiveUri else .tagUri, start)
  let (text, after) ← takeTagChars verbatim context (cursor.rest.length + 1) [] cursor
  if head.isEmpty && text.isEmpty then after.fail .noTagUri context
  return (head.drop 1 ++ text, after)

/-- Takes what a directive says after its name. -/
def takeDirectiveValue (name : List Char) (start : Mark) (cursor : Cursor) :
    Except Break (TokenKind × Cursor) := do
  if name = "YAML".toList then
    let (major, cursor) ← takeVersionNumber start cursor.skipSpaces
    if cursor.next? != some '.' then cursor.fail .noVersionPoint (some (.versionDirective, start))
    let (minor, cursor) ← takeVersionNumber start (cursor.skip 1)
    return (.version major minor, cursor)
  else if name = "TAG".toList then
    let context := some (Activity.tagDirectiveValue, start)
    let (handle, cursor) ← takeHandle true start cursor.skipSpaces
    if !cursor.next?.any isSpace then cursor.fail .noSpace context
    let (uri, cursor) ← takeTagUri true true [] start cursor.skipSpaces
    if !blankOrEnd cursor.rest then cursor.fail .noSpaceOrBreak context
    return (.handle (String.ofList handle) (String.ofList uri), cursor)
  else cursor.fail .unknownDirective (some (.directive, start))

/-- Reads a directive. -/
def readDirective (lexer : Lexer) : Except Break Lexer := do
  let lexer ← (lexer.dedentTo (-1)).dropPlace
  let start := lexer.mark
  let context := some (Activity.directive, start)
  let (name, cursor) := (lexer.cursor.skip 1).takeWhile isNameChar
  if name.isEmpty then cursor.fail .noDirectiveName context
  if !blankOrEnd cursor.rest then cursor.fail .badDirectiveName context
  let (kind, cursor) ← takeDirectiveValue name start cursor
  let after := cursor.skipSpaces.skipComment
  if !breakOrEnd after.rest then after.fail .noCommentOrBreak context
  return { lexer.push kind start cursor.mark with cursor := after.skipBreak, keyAllowed := false }

/-- Reads an anchor or an alias. -/
def readAnchor (isAlias : Bool) (lexer : Lexer) : Except Break Lexer := do
  let lexer ← lexer.savePlace
  let start := lexer.mark
  let (name, cursor) := (lexer.cursor.skip 1).takeWhile isNameChar
  let ends := blankOrEnd cursor.rest ||
    cursor.next?.any fun c => "?:,]%@".toList.contains c || c.toNat = 125 || c.toNat = 96
  if name.isEmpty || !ends then
    cursor.fail .noAlphanumeric (some (if isAlias then .alias else .anchor, start))
  let name := String.ofList name
  let kind := if isAlias then TokenKind.alias name else .anchor name
  return { lexer.push kind start cursor.mark with cursor, keyAllowed := false }

/-- Takes a tag: its handle and the rest. A lone exclamation mark is a tag without a handle. -/
def takeTag (start : Mark) (cursor : Cursor) : Except Break (List Char × List Char × Cursor) := do
  if (cursor.rest.drop 1).head? = some '<' then
    let (uri, cursor) ← takeTagUri true false [] start (cursor.skip 2)
    if cursor.next? != some '>' then cursor.fail .noTagEnd (some (.tag, start))
    return ([], uri, cursor.skip 1)
  else
    let (handle, cursor) ← takeHandle false start cursor
    if 1 < handle.length && handle.getLast? = some '!' then
      let (uri, cursor) ← takeTagUri false false [] start cursor
      return (handle, uri, cursor)
    else
      let (uri, cursor) ← takeTagUri false false handle start cursor
      return if uri.isEmpty then ([], ['!'], cursor) else (['!'], uri, cursor)

/-- Reads a tag. -/
def readTag (lexer : Lexer) : Except Break Lexer := do
  let lexer ← lexer.savePlace
  let start := lexer.mark
  let (handle, uri, cursor) ← takeTag start lexer.cursor
  let ends := blankOrEnd cursor.rest || (lexer.inFlow && cursor.next? = some ',')
  if !ends then cursor.fail .noSpaceOrBreak (some (.tag, start))
  let kind := TokenKind.tag (String.ofList handle) (String.ofList uri)
  return { lexer.push kind start cursor.mark with cursor, keyAllowed := false }

/-! ### Indicators -/

/-- Reads the end of the text. -/
def readEnd (lexer : Lexer) : Except Break Lexer := do
  let mark := lexer.mark
  let mark := if mark.column = 0 then mark else ⟨mark.index, mark.line + 1, 0⟩
  let lexer := { lexer with cursor := { lexer.cursor with mark } }
  let lexer ← (lexer.dedentTo (-1)).dropPlace
  return { lexer.push .endOfText mark mark with keyAllowed := false }

/-- Reads a document marker. -/
def readDocumentMarker (kind : TokenKind) (lexer : Lexer) : Except Break Lexer := do
  let lexer ← (lexer.dedentTo (-1)).dropPlace
  return { lexer.pushIndicator kind 3 with keyAllowed := false }

/-- Reads an opening bracket. -/
def readOpening (kind : TokenKind) (lexer : Lexer) : Except Break Lexer := do
  let lexer ← lexer.savePlace
  return { lexer.pushIndicator kind 1 with
    place := none
    outerPlaces := lexer.place :: lexer.outerPlaces
    keyAllowed := true }

/-- Reads a closing bracket, which need not have an opening one. -/
def readClosing (kind : TokenKind) (lexer : Lexer) : Except Break Lexer := do
  let lexer := { (← lexer.dropPlace).pushIndicator kind 1 with keyAllowed := false }
  match lexer.outerPlaces with
  | place :: outerPlaces => return { lexer with place, outerPlaces }
  | [] => return lexer

/-- Reads a comma between brackets. -/
def readFlowEntry (lexer : Lexer) : Except Break Lexer := do
  return { (← lexer.dropPlace).pushIndicator .flowEntry 1 with keyAllowed := true }

/-- Reads the dash of an item. -/
def readBlockEntry (lexer : Lexer) : Except Break Lexer := do
  if !lexer.inFlow && !lexer.keyAllowed then lexer.cursor.fail .entryNotAllowed none
  let lexer :=
    lexer.indentTo lexer.mark.column lexer.tokens.length .sequenceStart lexer.mark
  return { (← lexer.dropPlace).pushIndicator .blockEntry 1 with keyAllowed := true }

/-- Reads the question mark in front of a key. -/
def readKey (lexer : Lexer) : Except Break Lexer := do
  if !lexer.inFlow && !lexer.keyAllowed then lexer.cursor.fail .keyNotAllowed none
  let lexer := lexer.indentTo lexer.mark.column lexer.tokens.length .mappingStart lexer.mark
  return { (← lexer.dropPlace).pushIndicator .key 1 with keyAllowed := !lexer.inFlow }

/-- Reads the colon in front of a value. If a key may have started before, it did. -/
def readValue (lexer : Lexer) : Except Break Lexer := do
  match lexer.place with
  | some place =>
    let lexer := (lexer.insertAt place.count .key place.mark).indentTo place.mark.column
      place.count .mappingStart place.mark
    return { lexer.pushIndicator .value 1 with place := none, keyAllowed := false }
  | none =>
    if !lexer.inFlow && !lexer.keyAllowed then lexer.cursor.fail .valueNotAllowed none
    let lexer := lexer.indentTo lexer.mark.column lexer.tokens.length .mappingStart lexer.mark
    return { lexer.pushIndicator .value 1 with keyAllowed := !lexer.inFlow }

/-! ### Scalars -/

/-- Reads a block scalar. -/
def readBlockScalar (literal : Bool) (lexer : Lexer) : Except Break Lexer := do
  let lexer ← lexer.dropPlace
  let (text, cursor) ← takeBlockScalar literal lexer.indent lexer.cursor
  let kind := TokenKind.scalar (if literal then .literal else .folded) (String.ofList text)
  return { lexer.push kind lexer.mark cursor.mark with cursor, keyAllowed := true }

/-- Reads a scalar in quotes. -/
def readQuoted (double : Bool) (lexer : Lexer) : Except Break Lexer := do
  let lexer ← lexer.savePlace
  let (text, cursor) ← takeQuotedScalar double lexer.cursor
  let style := if double then ScalarStyle.doubleQuoted else .singleQuoted
  return { lexer.push (.scalar style (String.ofList text)) lexer.mark cursor.mark with
    cursor, keyAllowed := false }

/-- Reads a plain scalar. After one that ends a line, a key may start. -/
def readPlain (lexer : Lexer) : Except Break Lexer := do
  let lexer ← lexer.savePlace
  let scalar ← takePlainScalar lexer.inFlow (lexer.indent + 1) lexer.cursor
  return { lexer.push (.scalar .plain (String.ofList scalar.text)) lexer.mark scalar.cursor.mark with
    cursor := scalar.cursor
    keyAllowed := scalar.endsLine }

/-! ### All tokens -/

/-- Moves over blanks, comments, line ends, and byte order marks in front of lines. Outside of
brackets, tabs count as blanks only where no key may start, and after a line end a key may start. -/
def skipBetween : Nat → Lexer → Lexer
  | 0, lexer => lexer
  | fuel + 1, lexer =>
    let tabs := lexer.inFlow || !lexer.keyAllowed
    let (_, cursor) := lexer.cursor.skipOrderMark.takeWhile fun c => c = ' ' || (tabs && c = '\t')
    let cursor := cursor.skipComment
    if cursor.next?.any isBreak then
      skipBetween fuel { lexer with
        cursor := cursor.skipBreak
        keyAllowed := lexer.keyAllowed || !lexer.inFlow }
    else { lexer with cursor }

/-- Whether a plain scalar may start with the character. -/
def startsPlain (flow : Bool) (c : Char) (rest : List Char) : Bool :=
  let indicator := "-?:,[]#&*!|>'\"%@".toList.contains c || c.toNat = 123 || c.toNat = 125 ||
    c.toNat = 96
  !(isSpace c || isBreak c || indicator) ||
    (c = '-' && !rest.head?.any isSpace) ||
    (!flow && (c = '?' || c = ':') && !blankOrEnd rest)

/-- Reads the token at the current place. -/
def readToken (lexer : Lexer) : Except Break Lexer :=
  match lexer.cursor.rest with
  | [] => lexer.readEnd
  | c :: rest =>
    if lexer.mark.column = 0 && c = '%' then lexer.readDirective
    else if lexer.cursor.atDocumentMarker then
      lexer.readDocumentMarker (if c = '-' then .documentStart else .documentEnd)
    else if c = '[' then lexer.readOpening .flowSequenceStart
    else if c.toNat = 123 then lexer.readOpening .flowMappingStart
    else if c = ']' then lexer.readClosing .flowSequenceEnd
    else if c.toNat = 125 then lexer.readClosing .flowMappingEnd
    else if c = ',' then lexer.readFlowEntry
    else if c = '-' && blankOrEnd rest then lexer.readBlockEntry
    else if c = '?' && (lexer.inFlow || blankOrEnd rest) then lexer.readKey
    else if c = ':' && (lexer.inFlow || blankOrEnd rest) then lexer.readValue
    else if c = '*' then lexer.readAnchor true
    else if c = '&' then lexer.readAnchor false
    else if c = '!' then lexer.readTag
    else if c = '|' && !lexer.inFlow then lexer.readBlockScalar true
    else if c = '>' && !lexer.inFlow then lexer.readBlockScalar false
    else if c = '\'' then lexer.readQuoted false
    else if c = '"' then lexer.readQuoted true
    else if startsPlain lexer.inFlow c rest then lexer.readPlain
    else lexer.cursor.fail .cannotStartToken (some (.nextToken, lexer.mark))

/-- Reads the next token, and the ends of collections in front of it. -/
def step (lexer : Lexer) : Except Break Lexer := do
  let lexer ← (lexer.skipBetween (lexer.cursor.rest.length + 1)).dropStale
  (← (lexer.dedentTo lexer.mark.column).readToken).dropStale

/-- The tokens in order, as far as no undecided key is in front of them. -/
def decided (lexer : Lexer) : List Token :=
  let places := (lexer.place :: lexer.outerPlaces).filterMap fun place => place.map (·.count)
  lexer.tokens.reverse.take (places.foldl min lexer.tokens.length)

/-- Whether the end of the text has been read. -/
def atEnd (lexer : Lexer) : Bool :=
  match lexer.tokens with
  | ⟨.endOfText, _, _⟩ :: _ => true
  | _ => false

/-- Reads all tokens. -/
def run : Nat → Lexer → List Token
  | 0, lexer => lexer.decided
  | fuel + 1, lexer =>
    match lexer.step with
    | .error reason => lexer.decided ++ [⟨.broken reason, reason.mark, reason.mark⟩]
    | .ok next => if next.atEnd then next.tokens.reverse else run fuel next

end Lexer

/-- The tokens of a text. The last one is the end of the text or a break. -/
def tokens (text : List Char) : List Token :=
  Lexer.run (2 * text.length + 2) (.ofText text)

end DocPress.Yaml
