import DocPress.Markdown.Margin

/-!
Raw HTML inside a line: tags with their attributes, comments, processing instructions,
declarations and CDATA sections; and links between angle brackets.
-/

namespace DocPress.Markdown

open DocPress.Text (isAsciiBlank isAsciiAlphanumeric startsWith)

/-- A place inside a tag, with the characters of the tag so far, last one first. What containers put
in front of a further line does not belong to the tag. -/
structure TagScan where
  here : Cursor
  taken : List Char

namespace TagScan

/-- Takes some characters. -/
def take (count : Nat) (scan : TagScan) : TagScan :=
  { here := scan.here.advance count, taken := (scan.here.after.take count).reverse ++ scan.taken }

/-- Skips what the containers put in front of the line that starts here. -/
def skipPrefix (path : List Container) (scan : TagScan) : TagScan :=
  { scan with here := scan.here.advance (containerPrefix path scan.here) }

/-- Takes a line end and skips the margin of the next line, where more than one line is allowed. -/
def takeLineEnd? (path : Option (List Container)) (ending : Nat) (scan : TagScan) :
    Option TagScan :=
  path.map fun path => (scan.take ending).skipPrefix path

/-- Takes white space; `fuel` bounds the number of steps. -/
def takeWhite (path : Option (List Container)) : Nat → TagScan → Option TagScan
  | 0, scan => some scan
  | fuel + 1, scan =>
    match scan.here.after with
    | [] => some scan
    | c :: _ =>
      if !isAsciiBlank c then some scan
      else
        match lineEnd? scan.here.after with
        | some ending => (scan.takeLineEnd? path ending).bind (takeWhite path fuel)
        | none => takeWhite path fuel (scan.take 1)

/-- Takes the rest of a quoted attribute value. -/
def takeQuoted (path : Option (List Container)) (quote : Char) : Nat → TagScan → Option TagScan
  | 0, _ => none
  | fuel + 1, scan =>
    match scan.here.after with
    | [] => none
    | c :: _ =>
      if c = quote then some (scan.take 1)
      else
        match lineEnd? scan.here.after with
        | some ending => (scan.takeLineEnd? path ending).bind (takeQuoted path quote fuel)
        | none => takeQuoted path quote fuel (scan.take 1)

/-- Whether a character may stand in an attribute value without quotes. -/
def isBareValueChar (c : Char) : Bool :=
  !" \"'=><\n\r".contains c && c != backtick

/-- Takes an attribute value. -/
def takeValue (path : Option (List Container)) (fuel : Nat) (scan : TagScan) : Option TagScan :=
  match scan.here.after with
  | [] => none
  | c :: _ =>
    if c = '"' || c = '\'' then takeQuoted path c fuel (scan.take 1)
    else if c = ' ' || c = '=' || c = '>' || c = '<' || c = backtick || c = '\n' || c = '\r' then
      none
    else some (scan.take (runLength isBareValueChar scan.here.after))

/-- The length of an attribute name. -/
def nameLength? : List Char → Option Nat
  | [] => none
  | c :: rest =>
    if c.isAlpha || c = '_' || c = ':' then
      some (1 + runLength
        (fun c => isAsciiAlphanumeric c || c = '_' || c = '.' || c = ':' || c = '-') rest)
    else none

/-- Takes an attribute with its value, if it has one. -/
def takeAttribute (path : Option (List Container)) (fuel : Nat) (scan : TagScan) :
    Option TagScan := do
  let named := scan.take (← nameLength? scan.here.after)
  let next ← takeWhite path fuel named
  match next.here.after with
  | '=' :: _ =>
    let value ← takeWhite path fuel (next.take 1)
    takeValue path fuel value
  | _ => some named

/-- Takes the attributes of an opening tag, each with white space in front of it. -/
def takeAttributes (path : Option (List Container)) : Nat → TagScan → Option TagScan
  | 0, _ => none
  | fuel + 1, scan => do
    let next ← takeSpace fuel scan
    match next.here.after with
    | '/' :: _ => some next
    | '>' :: _ => some next
    | _ =>
      if next.here.offset = scan.here.offset then none
      else takeAttributes path fuel (← takeAttribute path fuel next)
where
  /-- Takes white space; at the end of the text there is no tag. -/
  takeSpace : Nat → TagScan → Option TagScan
    | 0, _ => none
    | fuel + 1, scan =>
      let scan := scan.take (runLength isInlineBlank scan.here.after)
      match lineEnd? scan.here.after with
      | some 0 => none
      | some ending => (scan.takeLineEnd? path ending).bind (takeSpace fuel)
      | none => some scan

end TagScan

/-- The tag at the start of a text, which begins with `<`: the place after it, and its characters.
Only with a path of containers may it take more than one line. -/
def tag? (path : Option (List Container)) (start : Cursor) : Option (Cursor × List Char) := do
  let scan : TagScan := ⟨start, []⟩
  let closing := startsWith ['<', '/'] start.after
  let scan := scan.take (if closing then 2 else 1)
  let letters := runLength Char.isAlpha scan.here.after
  if letters = 0 then none
  else
    let scan := scan.take letters
    let scan := scan.take (runLength (fun c => isAsciiAlphanumeric c || c = '-') scan.here.after)
    let fuel := scan.here.after.length + 1
    let scan ← if closing then some scan else TagScan.takeAttributes path fuel scan
    let scan := scan.take (runLength isInlineBlank scan.here.after)
    let scan := if !closing && startsWith ['/'] scan.here.after then scan.take 1 else scan
    if startsWith ['>'] scan.here.after then
      let scan := scan.take 1
      some (scan.here, scan.taken.reverse)
    else none

/-- Whether a line holds nothing but one tag. -/
def isTagLine (start : Cursor) : Bool :=
  match tag? none start with
  | some (stop, _) => (blankLine? stop.after).isSome
  | none => false

/-- The length of a text through the first occurrence of `mark`. -/
def lengthThrough? (mark : List Char) : List Char → Option Nat
  | [] => none
  | c :: rest =>
    if startsWith mark (c :: rest) then some mark.length
    else (lengthThrough? mark rest).map (· + 1)

/-- The length of a CDATA section after its opening: it ends at the first closing brackets. -/
def cdataLength? (text : List Char) : Option Nat :=
  let body := runLength (· != ']') text
  let brackets := runLength (· = ']') (text.drop body)
  match brackets, text.drop (body + brackets) with
  | _ + 1, '>' :: _ => some (body + brackets + 1)
  | _, _ => none

/-- The raw HTML at a place, which is a `<`: the place after it, and its text. -/
def inlineHtml? (path : List Container) (start : Cursor) : Option (Cursor × List Char) :=
  let verbatim (length : Option Nat) : Option (Cursor × List Char) :=
    length.map fun length => (start.advance length, start.after.take length)
  match start.after with
  | '<' :: '!' :: '-' :: '-' :: rest =>
    match rest with
    | '>' :: _ => verbatim (some 5)
    | '-' :: '>' :: _ => verbatim (some 6)
    | _ => verbatim ((lengthThrough? "-->".toList rest).map (4 + ·))
  | '<' :: '!' :: '[' :: rest =>
    match Text.stripStart? "CDATA[".toList rest with
    | some body => verbatim ((cdataLength? body).map (9 + ·))
    | none => none
  | '<' :: '!' :: c :: rest =>
    if c.isAlpha then verbatim ((lengthThrough? ['>'] rest).map (3 + ·)) else none
  | '<' :: '?' :: rest => verbatim ((lengthThrough? ['?', '>'] rest).map (2 + ·))
  | '<' :: _ => tag? (some path) start
  | _ => none

/-! ### Links between angle brackets -/

/-- Whether a character may stand in the scheme of a link. -/
def isSchemeChar (c : Char) : Bool :=
  isAsciiAlphanumeric c || c = '.' || c = '-' || c = '+'

/-- The absolute link at the start of a text and before a `>`: its length. A scheme has from two to
32 characters. -/
def absoluteLink? (text : List Char) : Option Nat :=
  match text with
  | [] => none
  | c :: rest =>
    let scheme := 1 + runLength isSchemeChar rest
    if !c.isAlpha || scheme < 2 || 32 < scheme then none
    else
      match text.drop scheme with
      | ':' :: body =>
        let target := runLength (fun c => ' ' < c && c != '<' && c != '>') body
        match body.drop target with
        | '>' :: _ => some (scheme + 1 + target)
        | _ => none
      | _ => none

/-- Whether a character may stand in front of the `@` of a mail address. -/
def isMailboxChar (c : Char) : Bool :=
  isAsciiAlphanumeric c || (Text.isAsciiPunctuation c && !("\"(),:;<>@[\\]".contains c))

/-- The length of the domain at the start of a text: labels of at most 63 letters, digits and
hyphens, with a dot between them and no hyphen at their ends. -/
def domainLength? : Nat → List Char → Option Nat
  | 0, _ => none
  | fuel + 1, text =>
    let label := text.takeWhile fun c => isAsciiAlphanumeric c || c = '-'
    if label.isEmpty || 63 < label.length || label.head? = some '-' || label.getLast? = some '-' then
      none
    else
      match text.drop label.length with
      | '.' :: rest => (domainLength? fuel rest).map (label.length + 1 + ·)
      | _ => some label.length

/-- The mail address at the start of a text and before a `>`: its length. -/
def mailAddress? (text : List Char) : Option Nat :=
  let mailbox := runLength isMailboxChar text
  match mailbox, text.drop mailbox with
  | _ + 1, '@' :: rest =>
    match domainLength? (rest.length + 1) rest with
    | some domain =>
      if (rest.drop domain).head? = some '>' then some (mailbox + 1 + domain) else none
    | none => none
  | _, _ => none

/-- The link at the start of a text, which follows a `<`: its length without the brackets. -/
def angleLink? (text : List Char) : Option Nat :=
  match absoluteLink? text with
  | some length => some length
  | none => mailAddress? text

end DocPress.Markdown
