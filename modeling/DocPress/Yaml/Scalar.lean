import DocPress.Yaml.Cursor

/-!
Scalars of a YAML text: plain, in single or double quotes, and as blocks. Line ends inside a scalar
are folded: one becomes a space, and of several the first is dropped.
-/

namespace DocPress.Yaml

/-- How a scalar is written. -/
inductive ScalarStyle where
  | plain
  | singleQuoted
  | doubleQuoted
  | literal
  | folded
  deriving DecidableEq, Repr, Inhabited

/-- Blanks and line ends between two parts of a scalar. -/
inductive Gap where
  /-- Blanks within a line. -/
  | spaces (text : List Char)
  /-- The text of the first line end, and that of the others. A line end that is escaped counts
  as no text. -/
  | breaks (first others : List Char)
  deriving Inhabited

/-- The text that a gap stands for. -/
def Gap.fold : Gap → List Char
  | .spaces text => text
  | .breaks first others =>
    if first = ['\n'] then if others.isEmpty then [' '] else others
    else first ++ others

/-- Whether a gap goes over a line end. -/
def Gap.isBreak : Gap → Bool
  | .spaces _ => false
  | .breaks _ _ => true

/-- Takes a gap. Blanks after a line end are dropped; `check` refuses places of such blanks. -/
def takeGap (check : Cursor → Except Break Unit) :
    Nat → Gap → Cursor → Except Break (Gap × Cursor)
  | 0, gap, cursor => .ok (gap, cursor)
  | fuel + 1, gap, cursor =>
    match cursor.rest with
    | [] => .ok (gap, cursor)
    | c :: _ =>
      if isSpace c then
        match gap with
        | .spaces text => takeGap check fuel (.spaces (text ++ [c])) (cursor.skip 1)
        | .breaks .. => do
          check cursor
          takeGap check fuel gap (cursor.skip 1)
      else if isBreak c then
        match gap with
        | .spaces _ => takeGap check fuel (.breaks cursor.breakText []) cursor.skipBreak
        | .breaks first others =>
          takeGap check fuel (.breaks first (others ++ cursor.breakText)) cursor.skipBreak
      else .ok (gap, cursor)

/-! ### Quoted scalars -/

/-- The character that a backslash and a letter stand for. -/
def escapedChar? (c : Char) : Option Char :=
  match c with
  | '0' => some (Char.ofNat 0)
  | 'a' => some (Char.ofNat 7)
  | 'b' => some (Char.ofNat 8)
  | 't' => some '\t'
  | '\t' => some '\t'
  | 'n' => some '\n'
  | 'v' => some (Char.ofNat 11)
  | 'f' => some (Char.ofNat 12)
  | 'r' => some '\r'
  | 'e' => some (Char.ofNat 27)
  | ' ' => some ' '
  | '"' => some '"'
  | '/' => some '/'
  | '\\' => some '\\'
  | 'N' => some (Char.ofNat 0x85)
  | '_' => some (Char.ofNat 0xA0)
  | 'L' => some (Char.ofNat 0x2028)
  | 'P' => some (Char.ofNat 0x2029)
  | _ => none

/-- The number of digits of a numeric escape. -/
def escapeLength? (c : Char) : Option Nat :=
  match c with
  | 'x' => some 2
  | 'u' => some 4
  | 'U' => some 8
  | _ => none

/-- The value of a hexadecimal digit. -/
def hexDigit? (c : Char) : Option Nat :=
  if '0' ≤ c && c ≤ '9' then some (c.toNat - 48)
  else if 'a' ≤ c && c ≤ 'f' then some (c.toNat - 87)
  else if 'A' ≤ c && c ≤ 'F' then some (c.toNat - 55)
  else none

/-- The value of `count` hexadecimal digits at the start of a text. -/
def hexNumber? (count : Nat) (text : List Char) : Option Nat :=
  let digits := text.take count
  if digits.length < count then none
  else (digits.mapM hexDigit?).map fun values => values.foldl (fun n d => n * 16 + d) 0

/-- Takes an escape after its backslash. -/
def takeEscape (start : Mark) (cursor : Cursor) (rest : List Char) :
    Except Break (Char × Cursor) :=
  let context := some (Activity.quotedEscape, start)
  match rest with
  | [] => cursor.fail .unknownEscape context
  | c :: digits =>
    match escapedChar? c with
    | some value => .ok (value, cursor.skip 2)
    | none =>
      match escapeLength? c with
      | none => cursor.fail .unknownEscape context
      | some count =>
        let after := cursor.skip 2
        match hexNumber? count digits with
        | none => after.fail .noHexNumber context
        | some code =>
          if (0xD800 ≤ code && code ≤ 0xDFFF) || 0x10FFFF < code then
            after.fail .badEscapeCode context
          else .ok (Char.ofNat code, after.skip count)

/-- Takes the text of a quoted scalar after its first quote. The text so far is in `done`, last
character first. -/
def takeQuoted (double : Bool) (start : Mark) :
    Nat → List Char → Cursor → Except Break (List Char × Cursor)
  | 0, _, cursor => cursor.fail .endOfText (some (.quotedScalar, start))
  | fuel + 1, done, cursor =>
    let gap (first : Gap) (cursor : Cursor) : Except Break (List Char × Cursor) := do
      let (gap, cursor) ← takeGap (fun _ => .ok ()) (cursor.rest.length + 1) first cursor
      if cursor.atDocumentMarker then
        cursor.fail .documentIndicator (some (.quotedScalar, start))
      else takeQuoted double start fuel (gap.fold.reverse ++ done) cursor
    match cursor.rest with
    | [] => cursor.fail .endOfText (some (.quotedScalar, start))
    | c :: rest =>
      if isSpace c || isBreak c then gap (.spaces []) cursor
      else if double then
        if c = '"' then .ok (done.reverse, cursor.skip 1)
        else if c = '\\' then
          match rest with
          | next :: _ =>
            if isBreak next then gap (.breaks [] []) (cursor.skip 1).skipBreak
            else do
              let (value, cursor) ← takeEscape start cursor rest
              takeQuoted double start fuel (value :: done) cursor
          | [] => do
            let (value, cursor) ← takeEscape start cursor rest
            takeQuoted double start fuel (value :: done) cursor
        else takeQuoted double start fuel (c :: done) (cursor.skip 1)
      else
        match c, rest with
        | '\'', '\'' :: _ => takeQuoted double start fuel ('\'' :: done) (cursor.skip 2)
        | '\'', _ => .ok (done.reverse, cursor.skip 1)
        | _, _ => takeQuoted double start fuel (c :: done) (cursor.skip 1)

/-- Takes a quoted scalar. -/
def takeQuotedScalar (double : Bool) (cursor : Cursor) : Except Break (List Char × Cursor) :=
  let inner := cursor.skip 1
  if inner.atDocumentMarker then
    inner.fail .documentIndicator (some (.quotedScalar, cursor.mark))
  else takeQuoted double cursor.mark (cursor.rest.length + 1) [] inner

/-! ### Plain scalars -/

/-- Whether the character separates or closes items between brackets. -/
def isFlowEnd (c : Char) : Bool :=
  c = ',' || c = '[' || c = ']' || c.toNat = 123 || c.toNat = 125

/-- How many characters of a plain scalar come before the next blank or the end of the scalar; or how
many come before a colon that may not stand where it does. -/
def plainLength (flow : Bool) : List Char → Except Nat Nat
  | [] => .ok 0
  | c :: rest =>
    if isSpace c || isBreak c then .ok 0
    else if flow && c = ':' && rest.head?.any (fun next => isFlowEnd next || next = '?') then
      .error 0
    else if (c = ':' && blankOrEnd rest) || (flow && isFlowEnd c) then .ok 0
    else
      match plainLength flow rest with
      | .ok length => .ok (length + 1)
      | .error length => .error (length + 1)

/-- What taking a plain scalar leads to: its text, where reading goes on, and whether a line end comes
last. -/
structure PlainScalar where
  text : List Char
  cursor : Cursor
  endsLine : Bool

/-- Takes a plain scalar. Parts are joined by the folded gaps between them; the scalar ends at a
comment, at a document marker, at an indicator, and, outside of brackets, at a line that is not
indented by `indent`. -/
def takePlain (flow : Bool) (indent : Int) (start : Mark) :
    Nat → List Char → Option Gap → Cursor → Except Break PlainScalar
  | 0, done, gap, cursor => .ok ⟨done, cursor, gap.any Gap.isBreak⟩
  | fuel + 1, done, gap, cursor =>
    let endsLine := gap.any Gap.isBreak
    if cursor.atDocumentMarker || cursor.next? = some '#' then .ok ⟨done, cursor, endsLine⟩
    else
      match plainLength flow cursor.rest with
      | .error seen => (cursor.skip seen).fail .unexpectedColon (some (.plainScalar, start))
      | .ok length =>
        let part := cursor.rest.take length
        let after := cursor.skip length
        let done := if length = 0 then done else done ++ (gap.map Gap.fold).getD [] ++ part
        let left := if length = 0 then gap else none
        match after.rest with
        | [] => .ok ⟨done, after, left.any Gap.isBreak⟩
        | c :: _ =>
          if !(isSpace c || isBreak c) then .ok ⟨done, after, left.any Gap.isBreak⟩
          else do
            let check (cursor : Cursor) : Except Break Unit :=
              if (cursor.mark.column : Int) < indent && cursor.next? = some '\t' then
                cursor.fail .tabViolation (some (.plainScalar, start))
              else .ok ()
            let (gap, cursor) ← takeGap check (after.rest.length + 1) (left.getD (.spaces [])) after
            if !flow && (cursor.mark.column : Int) < indent then
              .ok ⟨done, cursor, gap.isBreak⟩
            else takePlain flow indent start fuel done (some gap) cursor

/-- Takes a plain scalar. -/
def takePlainScalar (flow : Bool) (indent : Int) (cursor : Cursor) : Except Break PlainScalar :=
  takePlain flow indent cursor.mark (cursor.rest.length + 1) [] none cursor

/-! ### Block scalars -/

/-- What happens to the line ends at the end of a block scalar. -/
inductive Chomping where
  | strip
  | clip
  | keep
  deriving DecidableEq, Repr

/-- The indicators after the start of a block scalar: chomping and indentation. -/
def takeBlockHints (start : Mark) (cursor : Cursor) :
    Except Break (Chomping × Option Nat × Cursor) :=
  let chomping? (cursor : Cursor) : Option Chomping :=
    match cursor.next? with
    | some '+' => some .keep
    | some '-' => some .strip
    | _ => none
  let indent? (cursor : Cursor) : Except Break (Option Nat) :=
    match cursor.next? with
    | some c =>
      if c = '0' then cursor.fail .zeroIndent (some (.blockScalar, start))
      else if c.isDigit then .ok (some (c.toNat - 48))
      else .ok none
    | none => .ok none
  match chomping? cursor with
  | some chomping => do
    let cursor := cursor.skip 1
    match ← indent? cursor with
    | some indent => return (chomping, some indent, cursor.skip 1)
    | none => return (chomping, none, cursor)
  | none => do
    match ← indent? cursor with
    | none => return (.clip, none, cursor)
    | some indent =>
      let cursor := cursor.skip 1
      match chomping? cursor with
      | some chomping => return (chomping, some indent, cursor.skip 1)
      | none => return (.clip, some indent, cursor)

/-- Takes empty lines before a line of a block scalar and the indentation of that line. With no
known indentation, the greatest one seen is collected in `widest`. -/
def takeBlockBreaks (start : Mark) (indent : Option Nat) :
    Nat → Nat → List Char → Cursor → Except Break (Nat × List Char × Cursor)
  | 0, widest, breaks, cursor => .ok (widest, breaks, cursor)
  | fuel + 1, widest, breaks, cursor =>
    let spaces := (cursor.rest.takeWhile (· = ' ')).length
    let wanted := match indent with
      | some indent => min spaces (indent - cursor.mark.column)
      | none => spaces
    let cursor := cursor.skip wanted
    let widest := max widest cursor.mark.column
    let inside := indent.all (cursor.mark.column < ·)
    if inside && cursor.next? = some '\t' then
      cursor.fail .tabIndent (some (.blockScalar, start))
    else if cursor.next?.any isBreak then
      takeBlockBreaks start indent fuel widest (breaks ++ cursor.breakText) cursor.skipBreak
    else .ok (widest, breaks, cursor)

/-- The lines of a block scalar that have been read. -/
structure BlockText where
  text : List Char
  /-- The end of the last line. -/
  lastBreak : List Char
  /-- The empty lines after it. -/
  emptyLines : List Char
  /-- Whether the last line starts with a blank. -/
  indented : Bool

/-- Adds a line to a block scalar. In a folded one, the end of a line between two lines that start
with no blank becomes a space, or nothing in front of empty lines. -/
def BlockText.addLine (literal : Bool) (line lineEnd : List Char) (block : BlockText) :
    BlockText :=
  let indented := line.head?.any isSpace
  let joint :=
    if !literal && block.lastBreak.head? = some '\n' && !block.indented && !indented then
      if block.emptyLines.isEmpty then [' '] else []
    else block.lastBreak
  { text := block.text ++ joint ++ block.emptyLines ++ line
    lastBreak := lineEnd
    emptyLines := []
    indented := indented }

/-- Takes the lines of a block scalar. -/
def takeBlockLines (literal : Bool) (start : Mark) (indent : Nat) :
    Nat → BlockText → Cursor → Except Break (BlockText × Cursor)
  | 0, block, cursor => .ok (block, cursor)
  | fuel + 1, block, cursor =>
    if cursor.mark.column = indent && !cursor.rest.isEmpty then do
      let (line, atEnd) := cursor.takeWhile fun c => !isBreak c
      let block := block.addLine literal line atEnd.breakText
      let after := atEnd.skipBreak
      let (_, breaks, cursor) ←
        takeBlockBreaks start (some indent) (after.rest.length + 1) 0 [] after
      takeBlockLines literal start indent fuel { block with emptyLines := breaks } cursor
    else .ok (block, cursor)

/-- Takes a block scalar inside a collection that is indented by `parent`. -/
def takeBlockScalar (literal : Bool) (parent : Int) (cursor : Cursor) :
    Except Break (List Char × Cursor) := do
  let start := cursor.mark
  let (chomping, hint, cursor) ← takeBlockHints start (cursor.skip 1)
  let cursor := cursor.skipSpaces.skipComment
  if !breakOrEnd cursor.rest then cursor.fail .noCommentOrBreak (some (.blockScalar, start))
  let cursor := cursor.skipBreak
  let known := hint.map fun hint => if 0 ≤ parent then parent.toNat + hint else hint
  let (widest, breaks, cursor) ←
    takeBlockBreaks start known (cursor.rest.length + 1) 0 [] cursor
  let indent := known.getD (max widest (max (parent + 1).toNat 1))
  let (block, cursor) ←
    takeBlockLines literal start indent (cursor.rest.length + 1) ⟨[], [], breaks, false⟩ cursor
  let lastBreak := if chomping = .strip then [] else block.lastBreak
  let emptyLines := if chomping = .keep then block.emptyLines else []
  return (block.text ++ lastBreak ++ emptyLines, cursor)

end DocPress.Yaml
