import DocPress.Yaml.Value

/-!
Writing flat maps as YAML. A text is written plainly where it reads back as a text, as a block where it
has more than one line, and in quotes elsewhere.
-/

namespace DocPress.Yaml

/-- A value of a flat map. -/
inductive Flat where
  | text (value : String)
  | flag (value : Bool)
  | list (items : List String)
  deriving DecidableEq, Repr

/-- Whether the character can be written as itself. -/
def isPrintable (c : Char) : Bool :=
  let code := c.toNat
  code = 10 || (0x20 ≤ code && code ≤ 0x7E) || (0xA0 ≤ code && code ≤ 0xD7FF) ||
    (0xE000 ≤ code && code ≤ 0xFFFD && code != 0xFEFF) || 0x10000 ≤ code

/-- Whether a character that satisfies `p` stands right in front of one that satisfies `q`. -/
def hasPair (p q : Char → Bool) : List Char → Bool
  | a :: b :: rest => (p a && q b) || hasPair p q (b :: rest)
  | _ => false

/-- Whether a text starts like something else than a plain scalar. -/
def startsAsIndicator (text : List Char) : Bool :=
  match text with
  | '-' :: '-' :: '-' :: _ => true
  | '.' :: '.' :: '.' :: _ => true
  | c :: rest =>
    "#,[]&*!|>'\"%@".toList.contains c || c.toNat = 123 || c.toNat = 125 || c.toNat = 96 ||
      ((c = '?' || c = ':' || c = '-') && blankOrEnd rest)
  | [] => false

/-- Whether there is a colon in front of a blank or the end, or a number sign behind a blank. -/
def hasIndicator : List Char → Bool
  | [] => false
  | c :: rest =>
    (c = ':' && blankOrEnd rest) || ((isSpace c || isBreak c) && rest.head? = some '#') ||
      hasIndicator rest

/-- Whether blanks stand where quotes are of no use: a space next to a line end. -/
def hasLooseSpace (text : List Char) : Bool :=
  hasPair isBreak (· = ' ') text || hasPair (· = ' ') isBreak text

/-- Whether the first or last character satisfies `p`. -/
def atEnds (p : Char → Bool) (text : List Char) : Bool :=
  text.head?.any p || text.getLast?.any p

/-- Whether a text of one line may stand without quotes. -/
def plainAllowed (text : List Char) : Bool :=
  !(atEnds (· = ' ') text || !text.all isPrintable || text.any isBreak ||
    startsAsIndicator text || hasIndicator (text.drop 1))

/-- Whether a text may stand in single quotes. -/
def singleAllowed (text : List Char) : Bool :=
  text.all isPrintable && !hasLooseSpace text

/-- Whether a text may be written as a block. -/
def blockAllowed (text : List Char) : Bool :=
  !text.isEmpty && text.all isPrintable && text.getLast? != some ' ' &&
    !hasPair (· = ' ') isBreak text

/-- Whether a text without quotes would not be read as a text, or not by everyone. -/
def isAmbiguous (text : String) : Bool :=
  match Plain.ofText text with
  | .string => isPaddedNumber text.toList
  | _ => true

/-- How a text is written; a key in front of its colon stands on one line. -/
def styleOf (simpleKey : Bool) (text : String) : ScalarStyle :=
  let chars := text.toList
  if simpleKey && chars.any isBreak then .doubleQuoted
  else if chars.contains '\n' then
    if blockAllowed chars && !simpleKey then .literal else .doubleQuoted
  else if !isAmbiguous text && plainAllowed chars then .plain
  else if singleAllowed chars then .singleQuoted
  else .doubleQuoted

/-- Blanks in front of a line. -/
def spaces (count : Nat) : List Char :=
  List.replicate count ' '

/-- Lines with blanks in front of each one that is not empty; `atStart` says whether the text is at
the start of a line. -/
def indentLines (indent : Nat) : Bool → List Char → List Char
  | _, [] => []
  | atStart, c :: rest =>
    if isBreak c then c :: indentLines indent true rest
    else if atStart then spaces indent ++ c :: indentLines indent false rest
    else c :: indentLines indent false rest

/-- A text in single quotes, in which a quote is written twice. -/
def singleQuotedChars (indent : Nat) (text : List Char) : List Char :=
  let doubled := text.flatMap fun c => if c = '\'' then ['\'', '\''] else [c]
  let tail := if text.getLast?.any isBreak then spaces indent else []
  '\'' :: indentLines indent false doubled ++ tail ++ ['\'']

/-- A hexadecimal number of at least `width` digits. -/
def hexDigits (width n : Nat) : List Char :=
  let digits := (Nat.toDigits 16 n).map Char.toUpper
  List.replicate (width - digits.length) '0' ++ digits

/-- A character in double quotes. -/
def escapeChar (c : Char) : List Char :=
  if isPrintable c && !isBreak c && c != '"' && c != '\\' then [c]
  else
    let named : List (Nat × Char) :=
      [(0, '0'), (7, 'a'), (8, 'b'), (9, 't'), (10, 'n'), (11, 'v'), (12, 'f'), (13, 'r'),
        (27, 'e'), (34, '"'), (92, '\\'), (0x85, 'N'), (0x2028, 'L'), (0x2029, 'P')]
    match named.find? (·.1 == c.toNat) with
    | some (_, letter) => ['\\', letter]
    | none =>
      if c.toNat ≤ 0xFF then '\\' :: 'x' :: hexDigits 2 c.toNat
      else if c.toNat ≤ 0xFFFF then '\\' :: 'u' :: hexDigits 4 c.toNat
      else '\\' :: 'U' :: hexDigits 8 c.toNat

/-- A text in double quotes. -/
def doubleQuotedChars (text : List Char) : List Char :=
  '"' :: text.flatMap escapeChar ++ ['"']

/-- The indicators of a block: its indentation where the text does not show it, and what happens to
the line ends at its end. -/
def blockHints (text : List Char) : List Char :=
  let indent := if text.head?.any fun c => c = ' ' || isBreak c then ['2'] else []
  let chomping := match text.reverse with
    | [] => ['-']
    | last :: before =>
      if !isBreak last then ['-']
      else if before.isEmpty || before.head?.any isBreak then ['+']
      else []
  indent ++ chomping

/-- A text as a block. -/
def blockChars (indent : Nat) (text : List Char) : List Char :=
  '|' :: blockHints text ++ '\n' :: indentLines indent true text

/-- A text whose further lines are indented by `indent`. -/
def scalarChars (indent : Nat) (simpleKey : Bool) (text : String) : List Char :=
  match styleOf simpleKey text with
  | .plain => text.toList
  | .singleQuoted => singleQuotedChars indent text.toList
  | .doubleQuoted => doubleQuotedChars text.toList
  | .literal | .folded => blockChars indent text.toList

/-- Ends the line of a text, unless it ends in a line end. -/
def endLine (text : List Char) : List Char :=
  if text.getLast?.any isBreak then text else text ++ ['\n']

/-- Whether a key may stand in front of its colon on one line: it has at most 128 bytes. -/
def isSimpleKey (key : String) : Bool :=
  !key.toList.any isBreak && key.utf8ByteSize ≤ 128

/-- The items of a list. -/
def itemChars (indent : Nat) (items : List String) : List Char :=
  items.flatMap fun item =>
    endLine (spaces indent ++ '-' :: ' ' :: scalarChars (indent + 2) false item)

/-- A value after the colon of its key. The items of a list are indented only after a key that is on
lines of its own. -/
def valueChars (simple : Bool) : Flat → List Char
  | .text value => ' ' :: scalarChars 2 false value
  | .flag value => if value then " true".toList else " false".toList
  | .list [] => " []".toList
  | .list items => if simple then '\n' :: itemChars 0 items else ' ' :: (itemChars 2 items).drop 2

/-- An entry of a map. -/
def entryChars (key : String) (value : Flat) : List Char :=
  if isSimpleKey key then endLine (scalarChars 2 true key ++ ':' :: valueChars true value)
  else
    endLine ('?' :: ' ' :: scalarChars 2 false key) ++
      endLine (':' :: valueChars false value)

/-- A map with one entry after the other. -/
def writeMap (entries : List (String × Flat)) : String :=
  String.ofList (entries.flatMap fun entry => entryChars entry.1 entry.2)

end DocPress.Yaml
