import DocPress.Toml.Scalar
import DocPress.Toml.Table

/-!
Reading TOML documents: values, entries, headers and whole texts.
-/

namespace DocPress.Toml

/-- How deep arrays and inline tables may nest, and how many parts a key may have, is below this. -/
def depthLimit : Nat := 80

/-- Whether the character may stand in a key without quotes. -/
def isKeyChar (c : Char) : Bool :=
  c.isAlphanum || c = '-' || c = '_'

/-- Takes one part of a key. -/
def takeSimpleKey (text : List Char) : Except Fault (String × List Char) :=
  let named (result : Except Fault (List Char × List Char)) :
      Except Fault (String × List Char) :=
    result.map fun taken => (String.ofList taken.1, taken.2)
  match text with
  | '"' :: rest => named (takeBasic (rest.length + 1) [] rest)
  | '\'' :: rest => named (takeLiteral rest)
  | _ =>
    let name := text.takeWhile isKeyChar
    if name.isEmpty then .error ⟨none, [], none, text.length, false⟩
    else .ok (String.ofList name, text.dropWhile isKeyChar)

/-- Takes the parts of a key after the first one; a point without a part behind it does not belong to
the key. -/
def takeMoreKeys : Nat → List Char → Except Fault (List String × List Char)
  | 0, text => .ok ([], text)
  | fuel + 1, text =>
    match text with
    | '.' :: rest =>
      match takeSimpleKey (skipSpaces rest) with
      | .ok (name, rest) => do
        let (names, rest) ← takeMoreKeys fuel (skipSpaces rest)
        return (name :: names, rest)
      | .error fault => if fault.final then .error fault else .ok ([], text)
    | _ => .ok ([], text)

/-- Takes a key of one or more parts between points: all parts but the last, and the last. -/
def takeKey (text : List Char) : Except Fault ((List String × String) × List Char) := do
  let (first, rest) ← (takeSimpleKey (skipSpaces text)).mapError (Fault.within .key)
  let rest := skipSpaces rest
  let (more, rest) ← (takeMoreKeys (rest.length + 1) rest).mapError (Fault.within .key)
  if depthLimit ≤ more.length + 1 then .error { Fault.ofCause .tooDeep text with final := false }
  match more.getLast? with
  | some last => return ((first :: more.dropLast, last), rest)
  | none => return (([], first), rest)

/-- Takes the sign between a key and its value. -/
def takeEquals (text : List Char) : Except Fault (List Char) :=
  match text with
  | '=' :: rest => .ok (skipSpaces rest)
  | _ => .error ⟨none, [.mark ".", .mark "="], none, text.length, true⟩

/-- Moves over a comment, if one starts here. -/
def skipComment (text : List Char) : List Char :=
  if text.head? = some '#' then text.dropWhile isCommentChar else text

/-- Moves over blanks, line ends and comments. A comment must have a line end behind it, and a carriage
return its line feed. -/
def skipFiller : Nat → List Char → Except Fault (List Char)
  | 0, text => .ok text
  | fuel + 1, text =>
    let rest := skipSpaces text
    if rest.head?.any fun c => c = '#' || c = '\n' || c = '\r' then
      let lineEnd := skipComment rest
      match takeNewline? lineEnd with
      | some rest => skipFiller fuel rest
      | none => .error ⟨none, [], none, lineEnd.length, false⟩
    else .ok rest

/-- The fault of a value that is no string either. -/
def noString (final : Bool) (text : List Char) : Fault :=
  { Fault.ofLabel .string [.mark "\"", .mark "'"] text with final }

/-- Takes a word that stands for a value. -/
def takeWord (word : String) (value : Value) (final : Bool) (text : List Char) :
    Except Fault (Value × List Char) :=
  if text.take word.length = word.toList then .ok (value, text.drop word.length)
  else .error (noString final text)

/-- The table of an inline table, from its entries in order. -/
def tableOfEntries (entries : List (List String × String × Value)) : Except Cause Entries :=
  entries.foldlM
    (fun table entry => addEntry none entry.1 entry.2.1 (.ofInlineValue entry.2.2) table) []

mutual

/-- Takes a value inside of `depth` arrays and inline tables. -/
def takeValue : Nat → Nat → List Char → Except Fault (Value × List Char)
  | 0, _, text => .error (noString true text)
  | fuel + 1, depth, text =>
    match text with
    | [] => .error ⟨none, [], none, 0, false⟩
    | c :: rest =>
      if c = '"' || c = '\'' then
        (takeString text).map fun taken => (.string (String.ofList taken.1), taken.2)
      else if c = '[' || c.toNat = 123 then
        if depthLimit ≤ depth + 1 then .error (.ofCause .tooDeep text)
        else if c = '[' then do
          let (items, rest) ← takeItems fuel (depth + 1) rest
          match rest with
          | ']' :: rest => return (.array items, rest)
          | _ => .error (.ofLabel .array [.mark "]"] rest)
        else do
          let (entries, after) ← takeInlineEntries fuel (depth + 1) rest
          match tableOfEntries entries with
          | .error cause => .error (.ofCause cause rest)
          | .ok table =>
            let after := if entries.isEmpty then skipSpaces after else after
            match after with
            | close :: after =>
              if close.toNat = 125 then return (.table (entriesToValues table), after)
              else .error (.ofLabel .inlineTable [.mark "\x7d"] (close :: after))
            | [] => .error (.ofLabel .inlineTable [.mark "\x7d"] [])
      else if c = '+' || c = '-' || c.isDigit then takeNumber text
      else if c = '_' then (takeInteger text).mapError (Fault.expecting [.leadingDigit])
      else if c = '.' then
        .error { Fault.ofLabel .float [.leadingDigit] text with final := false }
      else if c = 't' then takeWord "true" (.boolean true) true text
      else if c = 'f' then takeWord "false" (.boolean false) true text
      else if c = 'i' then takeWord "inf" (.float (1.0 / 0.0)) false text
      else if c = 'n' then takeWord "nan" (.float (0.0 / 0.0)) false text
      else .error (noString false text)

/-- Takes the items of an array, up to what should be its end. What cannot be taken with all that stands
around it is no item. -/
def takeItems : Nat → Nat → List Char → Except Fault (List Value × List Char)
  | 0, _, text => .ok ([], text)
  | fuel + 1, depth, text =>
    let item : Except Fault (Value × List Char) := do
      let start ← skipFiller (text.length + 1) text
      let (item, rest) ← takeValue fuel depth start
      return (item, ← skipFiller (rest.length + 1) rest)
    match item with
    | .error fault =>
      if fault.final then .error fault
      else ((skipFiller (text.length + 1) text).map fun rest => ([], rest)).mapError Fault.committed
    | .ok (item, ',' :: rest) => do
      let (items, rest) ← takeItems fuel depth rest
      return (item :: items, rest)
    | .ok (item, rest) => .ok ([item], rest)

/-- Takes the entries of an inline table, up to what should be its end. A comma without an entry behind
it does not belong to them. -/
def takeInlineEntries : Nat → Nat → List Char →
    Except Fault (List (List String × String × Value) × List Char)
  | 0, _, text => .ok ([], text)
  | fuel + 1, depth, text =>
    match takeKey text with
    | .error fault => if fault.final then .error fault else .ok ([], text)
    | .ok ((path, key), rest) => do
      let rest ← takeEquals rest
      let (value, rest) ← (takeValue fuel depth rest).mapError Fault.committed
      let rest := skipSpaces rest
      match rest with
      | ',' :: after => do
        let (entries, after) ← takeInlineEntries fuel depth after
        return ((path, key, value) :: entries, if entries.isEmpty then rest else after)
      | _ => return ([(path, key, value)], rest)

end

/-- Takes the rest of a line: blanks and a comment. -/
def takeLineEnd (text : List Char) : Except Fault (List Char) :=
  let rest := skipComment (skipSpaces text)
  match rest, takeNewline? rest with
  | _, some rest => .ok rest
  | [], none => .ok []
  | rest, none => .error ⟨none, [.newline, .mark "#"], none, rest.length, true⟩

/-- Reads an entry of the current table. -/
def readEntry (text : List Char) (reading : Reading) : Except Fault (Reading × List Char) := do
  let ((path, key), rest) ← takeKey text
  let rest ← takeEquals rest
  let (value, rest) ← takeValue (rest.length + 1) 0 rest
  let rest ← takeLineEnd rest
  match reading.add path key value with
  | .ok reading => return (reading, rest)
  | .error cause => .error (.ofCause cause text)

/-- Reads a header. -/
def readHeader (text : List Char) (reading : Reading) : Except Fault (Reading × List Char) :=
  let result : Except Fault (Reading × List Char) :=
    let ofList := text.take 2 = ['[', '[']
    let length := if ofList then 2 else 1
    let close := List.replicate length ']'
    if text.length < 2 then .error ⟨none, [], none, text.length, true⟩
    else do
      let ((parent, key), rest) ← takeKey (text.drop length)
      if rest.take length != close then
        .error ⟨none, [.mark ".", .mark (String.ofList close)], none, rest.length, true⟩
      let rest ← takeLineEnd (rest.drop length)
      let started :=
        if ofList then reading.startListTable parent key else reading.startTable parent key
      match started with
      | .ok reading => return (reading, rest)
      | .error cause => .error (.ofCause cause text)
  result.mapError (Fault.within .tableHeader)

/-- Reads a document up to its end. -/
def readLines : Nat → List Char → Reading → Except Fault Reading
  | 0, _, reading => .ok reading
  | fuel + 1, text, reading =>
    let nothing (rest : List Char) : Except Fault Reading :=
      .error ⟨none, [], none, rest.length, true⟩
    let text := skipSpaces text
    match text with
    | [] => .ok reading
    | c :: _ =>
      if c = '#' then
        let rest := skipComment text
        match rest, takeNewline? rest with
        | _, some rest => readLines fuel rest reading
        | [], none => .ok reading
        | rest, none => nothing rest
      else if c = '[' then do
        let (reading, rest) ← readHeader text reading
        readLines fuel rest reading
      else if c = '\n' || c = '\r' then
        match takeNewline? text with
        | some rest => readLines fuel rest reading
        | none => nothing text
      else do
        let (reading, rest) ← readEntry text reading
        readLines fuel rest reading

/-- Reads a document: the entries of its root. -/
def parse (text : String) : Except Fault (List (String × Value)) := do
  let chars := match text.toList with
    | c :: rest => if c.toNat = 0xFEFF then rest else c :: rest
    | [] => []
  let reading ← readLines (chars.length + 1) chars .start
  match reading.finish with
  | .ok root => return entriesToValues root
  | .error cause => .error (.ofCause cause [])

end DocPress.Toml
