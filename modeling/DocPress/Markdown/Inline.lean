import DocPress.Markdown.Block
import DocPress.Text.LetterCase

/-!
The inside of paragraphs, headings and table cells. A first pass over the items finds code, raw HTML
and links, whose text it keeps together; a second one pairs emphasis delimiters inside each of the
stretches that the first one leaves.
-/

namespace DocPress.Markdown

open DocPress.Text (isAsciiPunctuation entity?)

/-- Inline content. -/
inductive Inline where
  | text (value : String)
  | code (value : String)
  | html (value : String)
  | softBreak
  | hardBreak
  | footnote (label : String)
  | emphasis (content : List Inline)
  | strong (content : List Inline)
  | strikethrough (content : List Inline)
  | link (target : LinkTarget) (content : List Inline)
  | image (target : LinkTarget) (content : List Inline)
  deriving Inhabited

/-- What the first pass leaves: emphasis delimiters are not paired yet. -/
inductive Piece where
  | done (content : Inline)
  | hardBreak (backslash : Bool)
  /-- A run of delimiters, with the blanks that go with its last one where a heading ends in it. -/
  | delimiters (char : Char) (count : Nat) (canOpen canClose : Bool) (blanks : String)
  | link (image : Bool) (target : LinkTarget) (content : List Piece)
  deriving Inhabited

/-- A text as a piece. -/
def Piece.text (value : List Char) : Piece :=
  .done (.text (String.ofList value))

/-- What the inside of a block depends on. -/
structure InlineContext where
  /-- The containers around the block, outermost first. -/
  path : List Container
  inTable : Bool
  /-- The offset at which the block ends. -/
  stop : Nat
  /-- The definitions of link labels, the labels in folded form. -/
  definitions : List (List Char × LinkTarget)

/-- A place, with nothing after the end of the block. -/
def InlineContext.limit (context : InlineContext) (cursor : Cursor) : Cursor :=
  { cursor with after := cursor.upTo context.stop }

/-- The definition of a label, letter case aside. -/
def InlineContext.lookup? (context : InlineContext) (label : List Char) : Option LinkTarget :=
  let folded := Text.fold label
  (context.definitions.find? (·.1 == folded)).map (·.2)

/-- Items without those that end at an offset or before it, and without what the first of the others
has before it. -/
def itemsFrom (offset : Nat) : List Item → List Item
  | [] => []
  | item :: rest => if item.stop ≤ offset then itemsFrom offset rest else item.from offset :: rest

/-! ### Code -/

/-- The text between backticks: a line end is a space, and what containers put in front of a line is
not part of it; in a table an escaped pipe is a pipe. -/
def codeText (context : InlineContext) : Nat → Cursor → List Char
  | 0, _ => []
  | fuel + 1, here =>
    match here.after with
    | [] => []
    | c :: rest =>
      if c = '\n' || c = '\r' then
        let next := here.advance 1
        ' ' :: codeText context fuel (next.advance (containerPrefix context.path next))
      else if context.inTable && c = '\\' && rest.head? = some '|' then
        '|' :: codeText context fuel (here.advance 2)
      else c :: codeText context fuel (here.advance 1)

/-- Code without one space at each end, unless it holds nothing but spaces or has no space at one
end. -/
def trimCode (text : List Char) : List Char :=
  if text.all (· = ' ') then text
  else if text.head? = some ' ' && text.getLast? = some ' ' then text.tail.dropLast
  else text

/-- The code between two runs of backticks. -/
def codeBetween (context : InlineContext) (opening closing : Item) : Inline :=
  let start := opening.here.moveTo opening.stop
  let text := start.upTo closing.here.offset
  .code (String.ofList (trimCode (codeText context (text.length + 1) { start with after := text })))

/-- The next run of `count` backticks, and the items after it. -/
def closingTicks? (count : Nat) : List Item → Option (Item × List Item)
  | [] => none
  | item :: rest =>
    match item.mark with
    | .ticks found _ => if found = count then some (item, rest) else closingTicks? count rest
    | _ => closingTicks? count rest

/-! ### Links -/

/-- Skips white space with one line end at most. -/
def skipSeparator (path : List Container) (here : Cursor) : Cursor :=
  let here := here.advance (runLength isInlineBlank here.after)
  match lineEnd? here.after with
  | some ending =>
    let here := here.advance ending
    let here := here.advance (containerPrefix path here)
    here.advance (runLength isInlineBlank here.after)
  | none => here

/-- The title of a link after its opening quote: the place after the closing one, and its characters.
A line end leads to the next item, which stands behind the margin of the next line. In a table an
escaped backslash in front of a pipe is no part of the title, and neither is the pipe when
punctuation follows, which then counts as escaped. -/
def linkTitle (inTable : Bool) (opening closing : Char) (items : List Item) :
    Nat → Cursor → List Char → Option (Cursor × List Char)
  | 0, _, _ => none
  | fuel + 1, here, taken =>
    let go (width : Nat) (characters : List Char) : Option (Cursor × List Char) :=
      linkTitle inTable opening closing items fuel (here.advance width) (characters.reverse ++ taken)
    match here.after with
    | [] => none
    | c :: rest =>
      if c = closing then some (here.advance 1, taken.reverse)
      else if c = opening then none
      else
        let nextLine := if c = '\n' || c = '\r' then
            match items.find? (here.offset + 1 < ·.stop) with
            | some item => if here.offset < item.here.offset then some item.here.offset else none
            | none => none
          else none
        match nextLine with
        | some offset => go (offset - here.offset) ['\n']
        | none =>
          match if c = '&' then entity? here.after else none with
          | some (width, value) => go width value
          | none =>
            if c = '\\' then
              match rest with
              | '\\' :: '|' :: more =>
                if inTable then
                  match more with
                  | next :: _ => if isAsciiPunctuation next then go 4 [next] else go 3 ['|']
                  | [] => go 3 ['|']
                else go 2 ['\\']
              | next :: _ => if isAsciiPunctuation next then go 2 [next] else go 1 [c]
              | [] => go 1 [c]
            else go 1 [c]

/-- The target in parentheses that follows the text of a link: the place after it, and the
target. -/
def inlineTarget? (context : InlineContext) (start : Cursor) (items : List Item) :
    Option (Cursor × LinkTarget) := do
  let separate := skipSeparator context.path
  if start.after.head? ≠ some '(' then none
  else
    let here := separate (start.advance 1)
    let (length, url) ← destination? 32 here.after
    let here := separate (here.advance length)
    let title := match here.after with
      | [] => none
      | opening :: _ =>
        (titleClose? opening).bind fun closing =>
          linkTitle context.inTable opening closing items (here.after.length + 1) (here.advance 1) []
    let (here, title) := match title with
      | some (next, title) => (separate next, title)
      | none => (here, [])
    if here.after.head? = some ')' then
      some (here.advance 1, ⟨unescaped context.inTable url, String.ofList title⟩)
    else none

/-- A label in brackets. -/
inductive BracketLabel where
  | link (label : List Char)
  | footnote (label : List Char)

/-- The label at a place: the place after it, and the label. -/
def bracketLabel? (context : InlineContext) (start : Cursor) : Option (Cursor × BracketLabel) :=
  let rule : LineBreakRule := fun next => some (containerPrefix context.path next)
  let linkLabel :=
    (label? rule context.inTable (start.advance 1)).map fun found => (found.1, .link found.2)
  match start.after with
  | '[' :: '^' :: ']' :: _ => linkLabel
  | '[' :: '^' :: _ =>
    match label? rule context.inTable (start.advance 2) with
    | some (next, label) => some (next, .footnote label)
    | none => linkLabel
  | '[' :: _ => linkLabel
  | _ => none

/-- What follows the text of a link that has no target in parentheses. -/
inductive Reference where
  /-- A label, with the items after it and the items after the text for the case that the label is
  not defined. -/
  | full (label : List Char) (after : List Item) (otherwise : List Item)
  /-- Empty brackets, with the items after them. -/
  | collapsed (after : List Item)
  | shortcut
  /-- A label that ends inside an item. -/
  | malformed

/-- The items with the bracket that ends at `stop` marked as no reference, and the items after that
bracket. -/
def closeReference? (stop : Nat) : List Item → Option (List Item × List Item)
  | [] => none
  | item :: rest =>
    if item.stop < stop then
      (closeReference? stop rest).map fun found => (item :: found.1, found.2)
    else some ({ item with mark := .linkClose false } :: rest, rest)

/-- Looks at what follows the text of a link. -/
def reference (context : InlineContext) (items : List Item) : Reference :=
  match items with
  | [] => .shortcut
  | next :: _ =>
    let here := context.limit next.here
    match here.after with
    | '[' :: ']' :: _ => .collapsed (items.drop 2)
    | _ =>
      match bracketLabel? context here with
      | some (stop, .link label) =>
        match closeReference? stop.offset items with
        | some (otherwise, after) => .full label after otherwise
        | none => .malformed
      | _ => .shortcut

/-! ### The first pass -/

/-- A bracket that is still open, with the pieces after it, last one first. -/
structure Bracket where
  item : Item
  image : Bool
  /-- Whether a link would have another link in its text. -/
  disabled : Bool
  pieces : List Piece

/-- The state of the first pass: the open brackets, innermost first, the pieces before all of them,
last one first, and how many bytes the targets of labels may still come to. -/
structure Brackets where
  brackets : List Bracket
  pieces : List Piece
  allowance : Nat

namespace Brackets

/-- Adds pieces, which come last one first. -/
def add (pieces : List Piece) (state : Brackets) : Brackets :=
  match state.brackets with
  | bracket :: rest =>
    { state with brackets := { bracket with pieces := pieces ++ bracket.pieces } :: rest }
  | [] => { state with pieces := pieces ++ state.pieces }

/-- Adds a bracket that turned out to be text, with the pieces after it. -/
def addAsText (bracket : Bracket) (state : Brackets) : Brackets :=
  state.add (bracket.pieces ++ [.text bracket.item.source])

/-- All open brackets as text; `fuel` bounds their number. -/
def flatten : List Bracket → List Piece → List Piece
  | [], pieces => pieces
  | bracket :: rest, pieces =>
    bracket.pieces ++ .text bracket.item.source :: flatten rest pieces

/-- Makes all open brackets text. -/
def close (state : Brackets) : Brackets :=
  { state with brackets := [], pieces := flatten state.brackets state.pieces }

/-- Forbids links around what was read last. -/
def disableLinks (state : Brackets) : Brackets :=
  { state with
    brackets := state.brackets.map fun bracket =>
      if bracket.image then bracket else { bracket with disabled := true } }

/-- The target that a label stands for, which counts against the allowance. The last target may go
beyond it; after that, labels stand for nothing. -/
def resolve? (context : InlineContext) (label : List Char) (state : Brackets) :
    Option (LinkTarget × Brackets) :=
  if state.allowance = 0 then none
  else
    (context.lookup? label).map fun target =>
      (target, { state with allowance := state.allowance - target.byteSize })

/-- Adds a link or image whose text is what follows the bracket. -/
def addLink (bracket : Bracket) (target : LinkTarget) (state : Brackets) : Brackets :=
  let state := state.add [.link bracket.image target bracket.pieces.reverse]
  if bracket.image then state else state.disableLinks

end Brackets

/-- What a closing bracket comes to, given the items after it: the new state, and the items that are
left. -/
def closeBracket (context : InlineContext) (item : Item) (couldBeReference : Bool)
    (rest : List Item) (state : Brackets) : Brackets × List Item :=
  match state.brackets with
  | [] => (state.add [.text item.source], rest)
  | bracket :: outer =>
    let state := { state with brackets := outer }
    let asText := (state.addAsText bracket).add [.text item.source]
    if bracket.disabled then (asText, rest)
    else
      match inlineTarget? context (context.limit (item.here.moveTo item.stop)) rest with
      | some (next, target) => (state.addLink bracket target, itemsFrom next.offset rest)
      | none =>
        /- The text of the link is its own label; `after` are the items after the link. -/
        let byText (after : List Item) : Brackets × List Item :=
          if !couldBeReference then (asText, rest)
          else
            let start := bracket.item.here.moveTo (bracket.item.stop - 1)
            match bracketLabel? context { start with after := start.upTo item.stop } with
            | some (stop, .footnote label) =>
              if stop.offset = item.stop then
                let bang := if bracket.image then [Piece.text ['!']] else []
                let note := Piece.done (.footnote (String.ofList label))
                ((state.add (note :: bang)).close, rest)
              else (asText, rest)
            | some (stop, .link label) =>
              match if stop.offset = item.stop then state.resolve? context label else none with
              | some (target, state) => (state.addLink bracket target, after)
              | none => (asText, rest)
            | none => (asText, rest)
        match reference context rest with
        | .full label after otherwise =>
          match state.resolve? context label with
          | some (target, state) => (state.addLink bracket target, after)
          | none => (asText, otherwise)
        | .collapsed after => byText after
        | .shortcut => byText rest
        | .malformed => (asText, rest)

/-- What a `<` comes to, given the items after it. -/
def openAngle (context : InlineContext) (item : Item) (rest : List Item) :
    Piece × List Item :=
  match rest with
  | [] => (.text item.source, rest)
  | next :: _ =>
    let inner := context.limit next.here
    match angleLink? inner.after with
    | some length =>
      let url := String.ofList (inner.after.take length)
      (.link false ⟨url, ""⟩ [.done (.text url)], itemsFrom (inner.offset + length + 1) rest)
    | none =>
      match inlineHtml? context.path (context.limit item.here) with
      | some (stop, html) => (.done (.html (String.ofList html)), itemsFrom stop.offset rest)
      | none => (.text item.source, rest)

/-- The first pass over items, to the pieces and what is left of the allowance; `fuel` bounds their
number. -/
def bracketPass (context : InlineContext) : Nat → List Item → Brackets → List Piece × Nat
  | 0, _, state => (state.close.pieces.reverse, state.allowance)
  | _, [], state => (state.close.pieces.reverse, state.allowance)
  | fuel + 1, item :: rest, state =>
    let go := bracketPass context fuel
    match item.mark with
    | .text => go rest (state.add [.text item.source])
    | .literal value => go rest (state.add [.text value])
    | .delimiters c count canOpen canClose =>
      let blanks := String.ofList (item.source.drop count)
      go rest (state.add [.delimiters c count canOpen canClose blanks])
    | .softBreak => go rest (state.add [.done .softBreak])
    | .hardBreak backslash => go rest (state.add [.hardBreak backslash])
    | .ticks count escaped =>
      let wanted := if escaped then count - 1 else count
      match if wanted = 0 then none else closingTicks? wanted rest with
      | some (closing, after) =>
        let shown := if escaped then [Piece.text [backtick]] else []
        go after (state.add (.done (codeBetween context item closing) :: shown))
      | none => go rest (state.add [.text item.source])
    | .angle =>
      let (piece, rest) := openAngle context item rest
      go rest (state.add [piece])
    | .imageOpen => go rest { state with brackets := ⟨item, true, false, []⟩ :: state.brackets }
    | .linkOpen => go rest { state with brackets := ⟨item, false, false, []⟩ :: state.brackets }
    | .linkClose couldBeReference =>
      let (state, rest) := closeBracket context item couldBeReference rest state
      go rest state

/-! ### The second pass -/

/-- What the second pass reads. -/
inductive Token where
  | inline (content : Inline)
  | hardBreak (backslash : Bool)
  | delimiters (char : Char) (count : Nat) (canOpen canClose : Bool) (blanks : String)

/-- An opening run of delimiters, with the content after it, last one first. -/
structure Opener where
  char : Char
  /-- The length of the whole run. -/
  length : Nat
  /-- The delimiters of the run that are not paired yet. -/
  count : Nat
  both : Bool
  /-- What goes with the last delimiter where it stays text. -/
  blanks : String
  content : List Inline

/-- The state of the second pass: the open runs, innermost first, and the content before all of them,
last one first. `closed` of the outermost runs are not paired with tildes any more, because a
closing run of tildes has found no match among them. -/
structure Openers where
  openers : List Opener
  content : List Inline
  closed : Nat

namespace Openers

/-- Adds content, which comes last one first. -/
def add (content : List Inline) (state : Openers) : Openers :=
  match state.openers with
  | opener :: rest =>
    { state with openers := { opener with content := content ++ opener.content } :: rest }
  | [] => { state with content := content ++ state.content }

/-- Delimiters as text, with the blanks that go with the last one. -/
def delimiterText (char : Char) (count : Nat) (blanks : String) : Inline :=
  .text (String.ofList (List.replicate count char) ++ blanks)

/-- Open runs as text with the content after them, last one first. -/
def flatten : List Opener → List Inline → List Inline
  | [], content => content
  | opener :: rest, content =>
    opener.content ++ delimiterText opener.char opener.count opener.blanks :: flatten rest content

/-- The open runs that a closing run may be paired with. -/
def candidates (char : Char) (state : Openers) : List Opener :=
  if char = '~' then state.openers.take (state.openers.length - state.closed) else state.openers

/-- Takes note that a closing run has found no match. -/
def unmatched (char : Char) (state : Openers) : Openers :=
  if char = '~' then { state with closed := state.openers.length } else state

/-- Whether an opening and a closing run may be paired: tildes only with as many, other delimiters by
the rule of three where one of the runs can both open and close. -/
def pairs (char : Char) (length : Nat) (both : Bool) (opener : Opener) : Bool :=
  opener.char = char && (char != '~' || length = opener.length) &&
    ((!both && !opener.both) || (length + opener.length) % 3 != 0 || length % 3 = 0)

/-- The innermost run among `openers` that may be paired: the runs inside it, the run, and the runs
around it. -/
def split? (p : Opener → Bool) : List Opener → Option (List Opener × Opener × List Opener)
  | [] => none
  | opener :: rest =>
    if p opener then some ([], opener, rest)
    else (split? p rest).map fun found => (opener :: found.1, found.2)

/-- Content inside `count` pairs of delimiters: two at a time make strong emphasis, from the inside
out. -/
def wrap (char : Char) : Nat → List Inline → List Inline
  | 0, content => content
  | 1, content => [if char = '~' then .strikethrough content else .emphasis content]
  | count + 2, content =>
    wrap char count [if char = '~' then .strikethrough content else .strong content]

/-- Pairs the `count` delimiters of a closing run as far as possible: the state, and how many are left;
`fuel` bounds the number of pairs. -/
def closeRun (char : Char) (length : Nat) (both : Bool) : Nat → Nat → Openers → Openers × Nat
  | 0, count, state => (state, count)
  | fuel + 1, count, state =>
    if count = 0 then (state, 0)
    else
      match split? (pairs char length both) (state.candidates char) with
      | none => (state.unmatched char, count)
      | some (inner, opener, _) =>
        let outer := state.openers.drop (inner.length + 1)
        let used := min count opener.count
        let content := (flatten inner opener.content).reverse
        let state : Openers :=
          { openers := outer, content := state.content, closed := min state.closed outer.length }
        let state :=
          let wrapped := wrap char used content
          if used < opener.count then
            { state with
              openers := { opener with count := opener.count - used, content := wrapped.reverse } ::
                state.openers }
          else state.add wrapped.reverse
        closeRun char length both fuel (count - used) state

/-- Reads one token. -/
def step (state : Openers) : Token → Openers
  | .inline content => state.add [content]
  | .hardBreak _ => state.add [.hardBreak]
  | .delimiters char count canOpen canClose blanks =>
    let both := canOpen && canClose
    let (state, left) :=
      if canClose then closeRun char count both count count state else (state, count)
    if left = 0 then state
    else if canOpen then
      { state with openers := ⟨char, count, left, both, blanks, []⟩ :: state.openers }
    else state.add [delimiterText char left blanks]

end Openers

/-- Pairs the emphasis delimiters of a stretch of tokens. -/
def pairDelimiters (tokens : List Token) : List Inline :=
  let state := tokens.foldl Openers.step ⟨[], [], 0⟩
  (Openers.flatten state.openers state.content).reverse

/-- Whether a token is a run of delimiters. -/
def Token.isDelimiters : Token → Bool
  | .delimiters .. => true
  | _ => false

/-- The text of a link, in which a backslash that ends it after some delimiters stands for itself. -/
def linkText (tokens : List Token) : List Inline :=
  match tokens.reverse with
  | .hardBreak true :: before =>
    if before.any Token.isDelimiters then
      pairDelimiters (before.reverse ++ [.inline (.text "\\")])
    else pairDelimiters tokens
  | _ => pairDelimiters tokens

mutual

/-- A piece as a token, with the delimiters in the text of a link paired. -/
def Piece.token : Piece → Token
  | .done content => .inline content
  | .hardBreak backslash => .hardBreak backslash
  | .delimiters char count canOpen canClose blanks =>
    .delimiters char count canOpen canClose blanks
  | .link image target content =>
    let inner := linkText (pieceTokens content)
    .inline (if image then .image target inner else .link target inner)

/-- Pieces as tokens. -/
def pieceTokens : List Piece → List Token
  | [] => []
  | piece :: rest => piece.token :: pieceTokens rest

end

/-- The inline content of a block, which takes from the allowance for the targets of labels. -/
def InlineContext.read (context : InlineContext) (items : List Item) : StateM Nat (List Inline) :=
  modifyGet fun allowance =>
    let (pieces, left) := bracketPass context (items.length + 1) items ⟨[], [], allowance⟩
    (pairDelimiters (pieceTokens pieces), left)

end DocPress.Markdown
