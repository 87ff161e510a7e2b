import DocPress.Toml.Fault
import DocPress.Toml.Value
import DocPress.Decimal.Read

/-!
Reading the scalars of TOML: strings, numbers, dates and times.
-/

namespace DocPress.Toml

/-- Whether the character is a blank of a line. -/
def isSpace (c : Char) : Bool :=
  c = ' ' || c = '\t'

/-- Whether the character may stand in a comment. -/
def isCommentChar (c : Char) : Bool :=
  c = '\t' || (0x20 ≤ c.toNat && c.toNat != 0x7F)

/-- Whether the character stands for itself in a basic string. -/
def isBasicChar (c : Char) : Bool :=
  isCommentChar c && c != '"' && c != '\\'

/-- Whether the character may stand in a literal string. -/
def isLiteralChar (c : Char) : Bool :=
  isCommentChar c && c != '\''

/-- The rest of a text after a line end. -/
def takeNewline? : List Char → Option (List Char)
  | '\n' :: rest => some rest
  | '\r' :: '\n' :: rest => some rest
  | _ => none

/-- Moves over the blanks of a line. -/
def skipSpaces (text : List Char) : List Char :=
  text.dropWhile isSpace

/-- Moves over blanks and line ends. -/
def skipBlank : List Char → List Char
  | [] => []
  | c :: rest =>
    if isSpace c || c = '\n' then skipBlank rest
    else if c = '\r' && rest.head? = some '\n' then skipBlank rest
    else c :: rest

/-! ### Strings -/

/-- The value of a hexadecimal digit. -/
def hexDigit? (c : Char) : Option Nat :=
  if '0' ≤ c && c ≤ '9' then some (c.toNat - 48)
  else if 'a' ≤ c && c ≤ 'f' then some (c.toNat - 87)
  else if 'A' ≤ c && c ≤ 'F' then some (c.toNat - 55)
  else none

/-- Takes the character with a code of `count` hexadecimal digits. -/
def takeCode (count : Nat) (label : Label) (text : List Char) : Except Fault (Char × List Char) :=
  let digits := text.take count
  match digits.mapM hexDigit? with
  | none => .error (.ofLabel label [] text)
  | some values =>
    if values.length < count then .error (.ofLabel label [] text)
    else
      let code := values.foldl (fun n d => n * 16 + d) 0
      if (0xD800 ≤ code && code ≤ 0xDFFF) || 0x10FFFF < code then
        .error ((Fault.ofCause .outOfRange text).within label)
      else .ok (Char.ofNat code, text.drop count)

/-- The marks that may follow a backslash. -/
def escapeMarks : List Expectation :=
  ["b", "f", "n", "r", "t", "u", "U", "\\", "\""].map .mark

/-- Takes an escape after its backslash, given its first character. -/
def takeEscape (c : Char) (rest : List Char) : Except Fault (Char × List Char) :=
  match c with
  | 'b' => .ok (Char.ofNat 8, rest)
  | 'f' => .ok (Char.ofNat 12, rest)
  | 'n' => .ok ('\n', rest)
  | 'r' => .ok ('\r', rest)
  | 't' => .ok ('\t', rest)
  | 'u' => takeCode 4 .shortCode rest
  | 'U' => takeCode 8 .longCode rest
  | '\\' => .ok ('\\', rest)
  | '"' => .ok ('"', rest)
  | _ => .error (.ofLabel .escape escapeMarks (if c.toNat < 0x80 then rest else c :: rest))

/-- Takes a basic string after its opening quote; `done` is what has been read of it, last character
first. -/
def takeBasic : Nat → List Char → List Char → Except Fault ((List Char) × List Char)
  | 0, _, text => .error (.ofLabel .basicString [] text)
  | fuel + 1, done, text =>
    match text with
    | '"' :: rest => .ok (done.reverse, rest)
    | '\\' :: c :: rest => do
      let (value, rest) ← takeEscape c rest
      takeBasic fuel (value :: done) rest
    | c :: rest =>
      if isBasicChar c then takeBasic fuel (c :: done) rest
      else .error (.ofLabel .basicString [] text)
    | [] => .error (.ofLabel .basicString [] text)

/-- Takes a literal string after its opening quote. -/
def takeLiteral (text : List Char) : Except Fault ((List Char) × List Char) :=
  let value := text.takeWhile isLiteralChar
  match text.dropWhile isLiteralChar with
  | '\'' :: rest => .ok (value, rest)
  | rest => .error (.ofLabel .literalString [] rest)

/-- What a run of quotes inside a string of several lines comes to. -/
inductive QuoteRun where
  /-- The quotes are text. -/
  | text (count : Nat)
  /-- The last three quotes close the string; those before them are text. -/
  | close (before : Nat) (rest : List Char)
  /-- The text ends without closing the string. -/
  | unclosed

/-- Reads a run of quotes: up to two are text, three close the string, and of more the first one or
two are text. -/
def QuoteRun.of (quote : Char) (text : List Char) : QuoteRun :=
  let count := (text.takeWhile (· = quote)).length
  if count < 3 then
    if text.length = count then .unclosed else .text count
  else
    let before := min 2 (count - 3)
    .close before (text.drop (before + 3))

/-- The text after a backslash, blanks and a line end, and all blanks and line ends after that. -/
def takeEscapedNewline? (text : List Char) : Option (List Char) :=
  (takeNewline? (skipSpaces text)).map skipBlank

/-- Takes a basic string of several lines after its opening quotes. -/
def takeLongBasic : Nat → List Char → List Char → Except Fault ((List Char) × List Char)
  | 0, _, text => .error (.ofLabel .longBasicString [] text)
  | fuel + 1, done, text =>
    match text with
    | [] => .error (.ofLabel .longBasicString [] text)
    | c :: rest =>
      if c = '"' then
        match QuoteRun.of '"' text with
        | .text count => takeLongBasic fuel (List.replicate count '"' ++ done) (text.drop count)
        | .close before rest => .ok (done.reverse ++ List.replicate before '"', rest)
        | .unclosed => .error (.ofLabel .longBasicString [] text)
      else if c = '\\' then
        match takeEscapedNewline? rest, rest with
        | some rest, _ => takeLongBasic fuel done rest
        | none, next :: rest =>
          match takeEscape next rest with
          | .ok (value, rest) => takeLongBasic fuel (value :: done) rest
          | .error fault => .error fault
        | none, [] => .error (.ofLabel .longBasicString [] text)
      else if isBasicChar c then takeLongBasic fuel (c :: done) rest
      else
        match takeNewline? text with
        | some rest => takeLongBasic fuel ('\n' :: done) rest
        | none => .error (.ofLabel .longBasicString [] text)

/-- Takes a literal string of several lines after its opening quotes. -/
def takeLongLiteral : Nat → List Char → List Char → Except Fault ((List Char) × List Char)
  | 0, _, text => .error (.ofLabel .longLiteralString [] text)
  | fuel + 1, done, text =>
    match text with
    | [] => .error (.ofLabel .longLiteralString [] text)
    | c :: rest =>
      if c = '\'' then
        match QuoteRun.of '\'' text with
        | .text count =>
          let after := text.drop count
          if after.head?.any isLiteralChar || (takeNewline? after).isSome then
            takeLongLiteral fuel (List.replicate count '\'' ++ done) after
          else .error (.ofLabel .longLiteralString [] text)
        | .close before rest => .ok (done.reverse ++ List.replicate before '\'', rest)
        | .unclosed => .error (.ofLabel .longLiteralString [] text)
      else if isLiteralChar c then takeLongLiteral fuel (c :: done) rest
      else
        match takeNewline? text with
        | some rest => takeLongLiteral fuel ('\n' :: done) rest
        | none => .error (.ofLabel .longLiteralString [] text)

/-- A line end right after the opening quotes does not count. -/
def skipFirstNewline (text : List Char) : List Char :=
  (takeNewline? text).getD text

/-- Takes a string, which starts with a quote. -/
def takeString (text : List Char) : Except Fault ((List Char) × List Char) :=
  match text with
  | '"' :: '"' :: '"' :: rest => takeLongBasic (rest.length + 1) [] (skipFirstNewline rest)
  | '"' :: rest => takeBasic (rest.length + 1) [] rest
  | '\'' :: '\'' :: '\'' :: rest => takeLongLiteral (rest.length + 1) [] (skipFirstNewline rest)
  | '\'' :: rest => takeLiteral rest
  | _ => .error (.ofLabel .string [] text)

/-! ### Dates and times -/

/-- Takes exactly `count` digits. -/
def takeDigits? (count : Nat) (text : List Char) : Option (Nat × List Char) :=
  let digits := text.take count
  if digits.length = count && digits.all Char.isDigit then
    some (Decimal.digitsValue digits, text.drop count)
  else none

/-- Takes two digits whose value lies between two bounds. -/
def takeBounded (least most : Nat) (text : List Char) : Except Fault (Nat × List Char) :=
  match takeDigits? 2 text with
  | none => .error ⟨none, [], none, text.length, true⟩
  | some (n, rest) =>
    if least ≤ n && n ≤ most then .ok (n, rest) else .error (.ofCause .outOfRange text)

/-- Takes a given character. -/
def takeChar (c : Char) (text : List Char) : Except Fault (Unit × List Char) :=
  if text.head? = some c then .ok ((), text.drop 1)
  else .error ⟨none, [], none, text.length, true⟩

/-- The number of days of a month. -/
def daysInMonth (year month : Nat) : Nat :=
  if month = 2 then
    if year % 4 = 0 && (year % 100 != 0 || year % 400 = 0) then 29 else 28
  else if month = 4 || month = 6 || month = 9 || month = 11 then 30
  else 31

/-- Takes a date after its year and the hyphen behind that. -/
def takeDate (year : Nat) (text : List Char) : Except Fault (Date × List Char) := do
  let (month, rest) ← takeBounded 1 12 text
  let (_, atDay) ← takeChar '-' rest
  let (day, rest) ← takeBounded 1 31 atDay
  if daysInMonth year month < day then .error (.ofCause .outOfRange atDay)
  else return (⟨year, month, day⟩, rest)

/-- Takes the fraction of a second; digits after the ninth do not count. -/
def takeFraction (text : List Char) : Nat × List Char :=
  match text with
  | '.' :: rest =>
    let digits := rest.takeWhile Char.isDigit
    if digits.isEmpty then (0, text)
    else
      let counted := digits.take 9
      (Decimal.digitsValue counted * Nat.pow 10 (9 - counted.length), rest.drop digits.length)
  | _ => (0, text)

/-- The hour at the start of a time, if there is one. -/
def takeHour? (text : List Char) : Option (Nat × List Char) :=
  match takeDigits? 2 text with
  | some (hour, ':' :: rest) => if hour ≤ 23 then some (hour, rest) else none
  | _ => none

/-- Takes a time after its hour and the colon behind that. -/
def takeTime (hour : Nat) (text : List Char) : Except Fault (Time × List Char) := do
  let (minute, rest) ← takeBounded 0 59 text
  let (_, rest) ← takeChar ':' rest
  let (second, rest) ← takeBounded 0 60 rest
  let (nanos, rest) := takeFraction rest
  return (⟨hour, minute, second, nanos⟩, rest)

/-- Takes an offset, if there is one. -/
def takeOffset (text : List Char) : Except Fault ((Option Offset) × List Char) :=
  let distance (sign : Int) (rest : List Char) : Except Fault ((Option Offset) × List Char) := do
    let (hours, rest) ← takeBounded 0 23 rest
    let (_, rest) ← takeChar ':' rest
    let (minutes, rest) ← takeBounded 0 59 rest
    return (some (.minutes (sign * (hours * 60 + minutes))), rest)
  let result : Except Fault (Option Offset × List Char) := match text with
    | 'Z' :: rest => .ok (some .utc, rest)
    | 'z' :: rest => .ok (some .utc, rest)
    | '+' :: rest => distance 1 rest
    | '-' :: rest => distance (-1) rest
    | _ => .ok (none, text)
  result.mapError (Fault.within .offset)

/-- Takes what may follow a date: a time and an offset. -/
def takeTimeOfDay (text : List Char) : Except Fault ((Option Time × Option Offset) × List Char) :=
  match text with
  | mark :: rest =>
    if mark = 'T' || mark = 't' || mark = ' ' then
      match takeHour? rest with
      | some (hour, rest) => do
        let (time, rest) ← takeTime hour rest
        let (offset, rest) ← takeOffset rest
        return ((some time, offset), rest)
      | none => .ok ((none, none), text)
    else .ok ((none, none), text)
  | [] => .ok ((none, none), text)

/-- Takes a date or a time; `none` when the text does not start like one. -/
def takeMoment? (text : List Char) : Option (Except Fault (Moment × List Char)) :=
  match takeDigits? 4 text with
  | some (year, '-' :: rest) =>
    let result : Except Fault (Moment × List Char) := do
      let (date, rest) ← takeDate year rest
      let ((time, offset), rest) ← takeTimeOfDay rest
      return (⟨some date, time, offset⟩, rest)
    some (result.mapError (Fault.within .dateTime))
  | _ =>
    match takeHour? text with
    | some (hour, rest) =>
      let result : Except Fault (Moment × List Char) := do
        let (time, rest) ← takeTime hour rest
        return (⟨none, some time, none⟩, rest)
      some (result.mapError (Fault.within .time))
    | none => none

/-! ### Numbers -/

/-- Takes digits after a first one; an underscore must have a digit behind it. -/
def takeMoreDigits (isDigit : Char → Bool) : List Char → Except Fault ((List Char) × List Char)
  | [] => .ok ([], [])
  | c :: rest =>
    if isDigit c then do
      let (digits, rest) ← takeMoreDigits isDigit rest
      return (c :: digits, rest)
    else if c = '_' then
      match rest with
      | next :: after =>
        if isDigit next then do
          let (digits, rest) ← takeMoreDigits isDigit after
          return (next :: digits, rest)
        else .error ⟨none, [.digit], none, rest.length, true⟩
      | [] => .error ⟨none, [.digit], none, 0, true⟩
    else .ok ([], c :: rest)

/-- Takes digits, of which there must be at least one. -/
def takeSomeDigits (isDigit : Char → Bool) (text : List Char) : Except Fault ((List Char) × List Char) :=
  if text.head?.any isDigit then takeMoreDigits isDigit text
  else .error ⟨none, [], none, text.length, true⟩

/-- Takes the sign of a number. -/
def takeSign (text : List Char) : List Char × List Char :=
  match text with
  | '+' :: rest => (['+'], rest)
  | '-' :: rest => (['-'], rest)
  | _ => ([], text)

/-- Takes a decimal integer as sign and digits. A zero in front stands alone. -/
def takeDecimal (text : List Char) : Except Fault ((List Char × List Char) × List Char) :=
  let (sign, rest) := takeSign text
  match rest with
  | c :: after =>
    if c = '0' then .ok ((sign, ['0']), after)
    else if c.isDigit then
      ((takeMoreDigits Char.isDigit rest).map fun taken => ((sign, taken.1), taken.2)).mapError
        (Fault.within .integer)
    else .error ⟨some .integer, [], none, rest.length, false⟩
  | [] => .error ⟨some .integer, [], none, 0, false⟩

/-- Takes the exponent of a number. -/
def takeExponent? (text : List Char) : Option (Except Fault ((List Char) × List Char)) :=
  match text with
  | e :: rest =>
    if e = 'e' || e = 'E' then
      let (sign, rest) := takeSign rest
      some ((takeSomeDigits Char.isDigit rest).map fun taken => ('e' :: sign ++ taken.1, taken.2))
    else none
  | [] => none

/-- Takes the fraction or the exponent of a number, or both. -/
def takeFloatTail? (text : List Char) : Option (Except Fault ((List Char) × List Char)) :=
  match takeExponent? text with
  | some result => some result
  | none =>
    match text with
    | '.' :: rest =>
      some do
        let (digits, rest) ←
          (takeSomeDigits Char.isDigit rest).mapError (Fault.expecting [.digit])
        match takeExponent? rest with
        | some result => do
          let (exponent, rest) ← result
          return ('.' :: digits ++ exponent, rest)
        | none => return ('.' :: digits, rest)
    | _ => none

/-- The number that a sign and digits with a tail stand for. -/
def floatOf (sign digits : List Char) : Option Float :=
  Decimal.parse? (sign ++ digits)

/-- A whole number of 64 bits. -/
def bounded (value : Int) (text : List Char) : Except Fault Value :=
  if (1 <<< 63 : Nat) ≤ value then .error (.ofCause .numberTooLarge text)
  else if value < -(1 <<< 63 : Nat) then .error (.ofCause .numberTooSmall text)
  else .ok (.integer value)

/-- Takes an integer in another base after its mark; `text` is the whole of it. -/
def takeBased (base : Nat) (label : Label) (text : List Char) : Except Fault (Value × List Char) := do
  let isDigit (c : Char) : Bool := (hexDigit? c).any (· < base)
  let (digits, rest) ← (takeSomeDigits isDigit (text.drop 2)).mapError (Fault.within label)
  let value := digits.foldl (fun n c => n * base + (hexDigit? c).getD 0) 0
  return (← bounded value text, rest)

/-- Takes an integer. -/
def takeInteger (text : List Char) : Except Fault (Value × List Char) :=
  match text with
  | '0' :: 'x' :: _ => takeBased 16 .hexadecimal text
  | '0' :: 'o' :: _ => takeBased 8 .octal text
  | '0' :: 'b' :: _ => takeBased 2 .binary text
  | _ => do
    let ((sign, digits), rest) ← takeDecimal text
    let value : Int := Decimal.digitsValue digits
    return (← bounded (if sign = ['-'] then -value else value) text, rest)

/-- Takes infinity or not-a-number without a sign. -/
def takeSpecial? (text : List Char) : Option (Float × List Char) :=
  match text with
  | 'i' :: 'n' :: 'f' :: rest => some (1.0 / 0.0, rest)
  | 'n' :: 'a' :: 'n' :: rest => some (0.0 / 0.0, rest)
  | _ => none

/-- Takes a floating-point number; `none` when the text is something else. -/
def takeFloat? (text : List Char) : Option (Except Fault (Value × List Char)) :=
  let (sign, unsigned) := takeSign text
  match takeDecimal text with
  | .error fault =>
    if fault.final then some (.error fault)
    else
      (takeSpecial? unsigned).map fun (x, rest) =>
        .ok (.float (if sign = ['-'] then -x else x), rest)
  | .ok ((sign, digits), rest) =>
    (takeFloatTail? rest).map fun result => do
      let (tail, rest) ← result.mapError (Fault.within .float)
      match floatOf sign (digits ++ tail) with
      | some x =>
        if x == 1.0 / 0.0 then .error (.ofLabel .float [] text) else return (.float x, rest)
      | none => .error (.ofLabel .float [] text)

/-- Takes a date, a time or a number, which starts with a digit or a sign. -/
def takeNumber (text : List Char) : Except Fault (Value × List Char) :=
  match takeMoment? text with
  | some result => result.map fun taken => (.moment taken.1, taken.2)
  | none => (takeFloat? text).getD (takeInteger text)

end DocPress.Toml
