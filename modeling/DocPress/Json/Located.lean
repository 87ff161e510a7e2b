import DocPress.Json.Value

/-!
Reading JSON with places. A text is read into a tree that knows where its parts end and that may
break off at a fault, so that a reader of the tree meets faults of the text and faults of the data
in the order in which they are written.
-/

namespace DocPress.Json

/-- A place in a text: line from 1, and the number of bytes of that line in front of it. -/
structure Place where
  line : Nat
  column : Nat
  deriving DecidableEq, Repr, Inhabited

/-- The first place of a text. -/
def Place.start : Place := ⟨1, 0⟩

/-- The place after a character. -/
def Place.after (place : Place) (c : Char) : Place :=
  if c = '\n' then ⟨place.line + 1, 0⟩ else ⟨place.line, place.column + c.utf8Size⟩

/-- The place one byte further on, or the end of the text. -/
def Place.peek (place : Place) : List Char → Place
  | [] => place
  | c :: _ => if c = '\n' then ⟨place.line + 1, 0⟩ else ⟨place.line, place.column + 1⟩

/-- Why a text is not JSON. -/
inductive Fault where
  | endInValue
  | endInList
  | endInObject
  | endInString
  | expectedColon
  | expectedListEnd
  | expectedObjectEnd
  | expectedWord
  | expectedValue
  | badEscape
  | badNumber
  | numberOutOfRange
  | controlCharacter
  | keyNotString
  | loneSurrogate
  | unfinishedSurrogates
  | trailingComma
  | trailingCharacters
  | tooDeep
  /-- A string with bytes that are no text. -/
  | invalidCodePoint
  deriving DecidableEq, Repr, Inhabited

/-- The wording of a fault. -/
def Fault.message : Fault → String
  | .endInValue => "EOF while parsing a value"
  | .endInList => "EOF while parsing a list"
  | .endInObject => "EOF while parsing an object"
  | .endInString => "EOF while parsing a string"
  | .expectedColon => "expected `:`"
  | .expectedListEnd => "expected `,` or `]`"
  | .expectedObjectEnd => "expected `,` or `\x7d`"
  | .expectedWord => "expected ident"
  | .expectedValue => "expected value"
  | .badEscape => "invalid escape"
  | .badNumber => "invalid number"
  | .numberOutOfRange => "number out of range"
  | .controlCharacter =>
    "control character (\\u0000-\\u001F) found while parsing a string"
  | .keyNotString => "key must be a string"
  | .loneSurrogate => "lone leading surrogate in hex escape"
  | .unfinishedSurrogates => "unexpected end of hex escape"
  | .trailingComma => "trailing comma"
  | .trailingCharacters => "trailing characters"
  | .tooDeep => "recursion limit exceeded"
  | .invalidCodePoint => "invalid unicode code point"

/-- A fault and where it was noticed. -/
structure Break where
  fault : Fault
  place : Place
  deriving DecidableEq, Repr, Inhabited

/-- A value with the places that its readers report. A `broken` part is where the text stops being
JSON; it is the last part of all the parts that enclose it. -/
inductive Located where
  /-- Null, a truth value, a number or a text. -/
  | scalar (value : Json) (stop : Place)
  | array (start : Place) (items : List Located) (close : Except Break Place)
  /-- Each key comes with the place after it and the white space that follows it. -/
  | object (start : Place) (fields : List (String × Place × Located)) (close : Except Break Place)
  | broken (reason : Break)

instance : Inhabited Located := ⟨.scalar .null .start⟩

/-! ### Scanning -/

/-- What is left of a text, and where it starts. -/
structure Scan where
  rest : List Char
  place : Place

/-- The break for a fault that is noticed at the next character. -/
def Scan.fault (scan : Scan) (fault : Fault) : Break :=
  ⟨fault, scan.place.peek scan.rest⟩

/-- Skips spaces, tabs, line feeds and carriage returns. -/
def skipBlanks : List Char → Place → Scan
  | [], place => ⟨[], place⟩
  | c :: rest, place =>
    if c = ' ' || c = '\t' || c = '\n' || c = '\r' then skipBlanks rest (place.after c)
    else ⟨c :: rest, place⟩

/-- Skips white space. -/
def Scan.blanks (scan : Scan) : Scan :=
  skipBlanks scan.rest scan.place

/-- The digits at the start of a text. -/
def digitsOf (text : List Char) : List Char × List Char :=
  text.span Char.isDigit

/-- The place after some ASCII characters of one line. -/
def Place.along (place : Place) (count : Nat) : Place :=
  ⟨place.line, place.column + count⟩

/-- The value of a digit. -/
def digitValue (c : Char) : Nat :=
  c.toNat - 48

/-- Adds digits to a significand of 64 bits: the significand before the first digit that does not
fit, and how many digits were added. -/
def accumulate : List Char → Nat → Nat → Nat × Nat
  | [], significand, count => (significand, count)
  | c :: rest, significand, count =>
    let next := significand * 10 + digitValue c
    if next < UInt64.size then accumulate rest next (count + 1) else (significand, count)

/-- A power of ten. -/
def powerOfTen (exponent : Nat) : Float :=
  Float.ofScientific 1 false exponent

/-- Scales a significand by a power of ten in steps that a floating-point number can hold; `none`
when the result is too large. -/
def scale (x : Float) (exponent : Int) : Nat → Option Float
  | 0 => some x
  | fuel + 1 =>
    if exponent.natAbs ≤ 308 then
      if 0 ≤ exponent then
        let product := x * powerOfTen exponent.natAbs
        if product.isInf then none else some product
      else
        some (x / powerOfTen exponent.natAbs)
    else if x == 0.0 then some x
    else if 0 ≤ exponent then none
    else scale (x / powerOfTen 308) (exponent + 308) fuel

/-- The value of exponent digits, or how many of them it takes to leave the range of 32 bits. -/
def exponentValue : List Char → Nat → Nat → Except Nat Nat
  | [], value, _ => .ok value
  | c :: rest, value, count =>
    let next := value * 10 + digitValue c
    if next < 1 <<< 31 then exponentValue rest next (count + 1) else .error (count + 1)

/-- The parts of a number: its digits before and after the point, and its exponent. -/
structure Numeral where
  negative : Bool
  whole : List Char
  fraction : Option (List Char)
  /-- Whether the exponent is negative, and its digits. -/
  exponent : Option (Bool × List Char)

/-- The number that the parts stand for, or the number of exponent digits at which it is too
large. -/
def Numeral.value (n : Numeral) : Except (Option Nat) JsonNumber :=
  let signed (x : Float) : JsonNumber := .float (if n.negative then -x else x)
  let (leading, used) := accumulate n.whole 0 0
  let surplus : Int := n.whole.length - used
  let (significand, places) := accumulate (n.fraction.getD []) leading 0
  let shift := surplus - places
  let finish (exponent : Int) : Except (Option Nat) JsonNumber :=
    match scale (Float.ofNat significand) exponent (exponent.natAbs / 308 + 2) with
    | some x => .ok (signed x)
    | none => .error none
  match n.exponent with
  | some (negative, digits) =>
    match exponentValue digits 0 0 with
    | .ok e => finish (if negative then shift - e else shift + e)
    | .error count =>
      if significand ≠ 0 && !negative then .error (some count) else .ok (signed 0.0)
  | none =>
    if n.fraction.isSome || surplus ≠ 0 then finish shift
    else if !n.negative then .ok (.int significand)
    else if significand = 0 || 1 <<< 63 < significand then .ok (signed (Float.ofNat significand))
    else .ok (.int (-(significand : Int)))

/-- Reads the exponent of a number whose other parts are known. -/
def readExponent (negative : Bool) (whole : List Char) (fraction : Option (List Char))
    (scan : Scan) : Except Break (JsonNumber × Scan) :=
  let finish (exponent : Option (Bool × List Char)) (scan : Scan) (first : Place) :
      Except Break (JsonNumber × Scan) :=
    match (Numeral.mk negative whole fraction exponent).value with
    | .ok value => .ok (value, scan)
    | .error none => .error ⟨.numberOutOfRange, scan.place⟩
    | .error (some count) => .error ⟨.numberOutOfRange, first.along count⟩
  let afterSign (down : Bool) (scan : Scan) : Except Break (JsonNumber × Scan) :=
    match digitsOf scan.rest with
    | ([], []) => .error ⟨.endInValue, scan.place⟩
    | ([], _ :: _) => .error (scan.fault .badNumber)
    | (digits, rest) => finish (some (down, digits)) ⟨rest, scan.place.along digits.length⟩ scan.place
  match scan.rest with
  | c :: rest =>
    if c = 'e' || c = 'E' then
      match rest with
      | '+' :: rest => afterSign false ⟨rest, scan.place.along 2⟩
      | '-' :: rest => afterSign true ⟨rest, scan.place.along 2⟩
      | _ => afterSign false ⟨rest, scan.place.along 1⟩
    else finish none scan scan.place
  | [] => finish none scan scan.place

/-- Reads what follows the whole part of a number. -/
def readFraction (negative : Bool) (whole : List Char) (scan : Scan) :
    Except Break (JsonNumber × Scan) :=
  match scan.rest with
  | '.' :: rest =>
    match digitsOf rest with
    | ([], []) => .error ⟨.endInValue, scan.place.along 1⟩
    | ([], c :: rest) => .error ((Scan.mk (c :: rest) (scan.place.along 1)).fault .badNumber)
    | (digits, rest) =>
      readExponent negative whole (some digits) ⟨rest, scan.place.along (1 + digits.length)⟩
  | _ => readExponent negative whole none scan

/-- Reads a number after its sign. -/
def readNumber (negative : Bool) (scan : Scan) : Except Break (JsonNumber × Scan) :=
  match digitsOf scan.rest with
  | ([], []) => .error ⟨.endInValue, scan.place⟩
  | ([], _ :: _) => .error (scan.fault .badNumber)
  | ('0' :: second :: more, rest) =>
    .error ((Scan.mk (second :: more ++ rest) (scan.place.along 1)).fault .badNumber)
  | (digits, rest) => readFraction negative digits ⟨rest, scan.place.along digits.length⟩

/-- The value of a hexadecimal digit. -/
def hexValue? (c : Char) : Option Nat :=
  if c.isDigit then some (c.toNat - 48)
  else if 'a' ≤ c && c ≤ 'f' then some (c.toNat - 87)
  else if 'A' ≤ c && c ≤ 'F' then some (c.toNat - 55)
  else none

/-- The place after a number of bytes, which may end inside a character. -/
def Place.afterBytes (place : Place) : Nat → List Char → Place
  | 0, _ => place
  | _, [] => place
  | count + 1, c :: rest =>
    if c.utf8Size ≤ count + 1 then (place.after c).afterBytes (count + 1 - c.utf8Size) rest
    else place.along (count + 1)
termination_by _ text => text.length

/-- The number of bytes of a text, counted up to four. -/
def hasFourBytes : List Char → Nat → Bool
  | _, 0 => true
  | [], _ + 1 => false
  | c :: rest, count + 1 => hasFourBytes rest (count + 1 - c.utf8Size)

/-- The end of a text. -/
def Place.atEnd : Place → List Char → Place
  | place, [] => place
  | place, c :: rest => (place.after c).atEnd rest

/-- Reads the four digits of a `\u` escape. -/
def readHex (scan : Scan) : Except Break (Nat × Scan) :=
  match scan.rest with
  | a :: b :: c :: d :: rest =>
    match hexValue? a, hexValue? b, hexValue? c, hexValue? d with
    | some a, some b, some c, some d =>
      .ok (a * 4096 + b * 256 + c * 16 + d, ⟨rest, scan.place.along 4⟩)
    | _, _, _, _ => .error ⟨.badEscape, scan.place.afterBytes 4 scan.rest⟩
  | _ =>
    if hasFourBytes scan.rest 4 then .error ⟨.badEscape, scan.place.afterBytes 4 scan.rest⟩
    else .error ⟨.endInString, scan.place.atEnd scan.rest⟩

/-- Reads a `\u` escape after the `u`; a leading surrogate needs a trailing one in a second escape. -/
def readUnicode (scan : Scan) : Except Break (Char × Scan) := do
  let (first, scan) ← readHex scan
  if 0xDC00 ≤ first && first ≤ 0xDFFF then
    .error ⟨.loneSurrogate, scan.place⟩
  else if first < 0xD800 || 0xDBFF < first then
    .ok (Char.ofNat first, scan)
  else
    match scan.rest with
    | [] => .error ⟨.endInString, scan.place⟩
    | ['\\'] => .error ⟨.endInString, scan.place.along 1⟩
    | '\\' :: 'u' :: rest =>
      let (second, scan) ← readHex ⟨rest, scan.place.along 2⟩
      if second < 0xDC00 || 0xDFFF < second then
        .error ⟨.loneSurrogate, scan.place⟩
      else
        .ok (Char.ofNat ((first - 0xD800) * 1024 + (second - 0xDC00) + 0x10000), scan)
    | '\\' :: rest => .error ((Scan.mk rest (scan.place.along 1)).fault .unfinishedSurrogates)
    | rest => .error ((Scan.mk rest scan.place).fault .unfinishedSurrogates)

/-- The character that a backslash and a letter stand for. -/
def simpleEscape? (c : Char) : Option Char :=
  match c with
  | '"' => some '"'
  | '\\' => some '\\'
  | '/' => some '/'
  | 'b' => some (Char.ofNat 8)
  | 'f' => some (Char.ofNat 12)
  | 'n' => some '\n'
  | 'r' => some '\r'
  | 't' => some '\t'
  | _ => none

/-- Reads a text after its opening quote, `fuel` characters of it at most. -/
def readText : Nat → Scan → Except Break (List Char × Scan)
  | 0, scan => .error ⟨.endInString, scan.place⟩
  | _ + 1, ⟨[], place⟩ => .error ⟨.endInString, place⟩
  | fuel + 1, ⟨c :: rest, place⟩ =>
    if c = '"' then .ok ([], ⟨rest, place.along 1⟩)
    else if c = '\\' then
      match rest with
      | [] => .error ⟨.endInString, place.along 1⟩
      | 'u' :: rest => do
        let (c, scan) ← readUnicode ⟨rest, place.along 2⟩
        let (more, scan) ← readText fuel scan
        .ok (c :: more, scan)
      | e :: rest =>
        match simpleEscape? e with
        | some c => do
          let (more, scan) ← readText fuel ⟨rest, place.along 2⟩
          .ok (c :: more, scan)
        | none => .error ((Scan.mk (e :: rest) (place.along 1)).fault .badEscape)
    else if c.toNat < 32 then .error ((Scan.mk (c :: rest) place).fault .controlCharacter)
    else do
      let (more, scan) ← readText fuel ⟨rest, place.after c⟩
      .ok (c :: more, scan)

/-- Reads the rest of a word such as `null`. -/
def readWord : List Char → Scan → Except Break Scan
  | [], scan => .ok scan
  | _ :: _, ⟨[], place⟩ => .error ⟨.endInValue, place⟩
  | w :: word, ⟨c :: rest, place⟩ =>
    if w = c then readWord word ⟨rest, place.along 1⟩
    else .error ((Scan.mk (c :: rest) place).fault .expectedWord)

/-! ### Values -/

/-- Whether the value broke off, and so ends everything around it. -/
def Located.isCut : Located → Bool
  | .scalar _ _ => false
  | .array _ _ (.ok _) => false
  | .object _ _ (.ok _) => false
  | _ => true

/-- A scalar from what was read for it. -/
def ofScalar (result : Except Break (Json × Scan)) : Located × Scan :=
  match result with
  | .ok (value, scan) => (.scalar value scan.place, scan)
  | .error reason => (.broken reason, ⟨[], reason.place⟩)

mutual

/-- Reads a value; `depth` more brackets may be opened. -/
def readValue : Nat → Nat → Scan → Located × Scan
  | 0, _, scan => (.broken ⟨.endInValue, scan.place⟩, scan)
  | fuel + 1, depth, scan =>
    let scan := scan.blanks
    match scan.rest with
    | [] => (.broken ⟨.endInValue, scan.place⟩, scan)
    | c :: rest =>
      let next : Scan := ⟨rest, scan.place.along 1⟩
      match c with
      | 'n' => ofScalar ((readWord ['u', 'l', 'l'] next).map (.null, ·))
      | 't' => ofScalar ((readWord ['r', 'u', 'e'] next).map (.bool true, ·))
      | 'f' => ofScalar ((readWord ['a', 'l', 's', 'e'] next).map (.bool false, ·))
      | '-' => ofScalar ((readNumber true next).map fun r => (.number r.1, r.2))
      | '"' =>
        ofScalar ((readText (rest.length + 1) next).map fun r => (.string (String.ofList r.1), r.2))
      | '[' =>
        match depth with
        | 0 => (.broken (scan.fault .tooDeep), scan)
        | depth + 1 =>
          let (items, close, stop) := readItems fuel depth true next
          (.array scan.place items close, stop)
      | '{' =>
        match depth with
        | 0 => (.broken (scan.fault .tooDeep), scan)
        | depth + 1 =>
          let (fields, close, stop) := readFields fuel depth true next
          (.object scan.place fields close, stop)
      | _ =>
        if c.isDigit then ofScalar ((readNumber false scan).map fun r => (.number r.1, r.2))
        else (.broken (scan.fault .expectedValue), scan)

/-- Reads the items of an array up to its end. -/
def readItems : Nat → Nat → Bool → Scan → List Located × Except Break Place × Scan
  | 0, _, _, scan => ([], .error ⟨.endInList, scan.place⟩, scan)
  | fuel + 1, depth, first, scan =>
    let scan := scan.blanks
    let item (scan : Scan) : List Located × Except Break Place × Scan :=
      let (value, stop) := readValue fuel depth scan
      if value.isCut then ([value], .error ⟨.endInList, stop.place⟩, stop)
      else
        let (items, close, stop) := readItems fuel depth false stop
        (value :: items, close, stop)
    match scan.rest with
    | [] => ([], .error ⟨.endInList, scan.place⟩, scan)
    | ']' :: rest => ([], .ok (scan.place.along 1), ⟨rest, scan.place.along 1⟩)
    | c :: rest =>
      if first then item scan
      else if c = ',' then
        let scan := (Scan.mk rest (scan.place.along 1)).blanks
        match scan.rest with
        | [] => ([], .error ⟨.endInValue, scan.place⟩, scan)
        | ']' :: _ => ([], .error (scan.fault .trailingComma), scan)
        | _ => item scan
      else ([], .error (scan.fault .expectedListEnd), scan)

/-- Reads the fields of an object up to its end. -/
def readFields : Nat → Nat → Bool → Scan →
    List (String × Place × Located) × Except Break Place × Scan
  | 0, _, _, scan => ([], .error ⟨.endInObject, scan.place⟩, scan)
  | fuel + 1, depth, first, scan =>
    let scan := scan.blanks
    let field (scan : Scan) : List (String × Place × Located) × Except Break Place × Scan :=
      match readText (scan.rest.length + 1) scan with
      | .error reason => ([], .error reason, scan)
      | .ok (key, scan) =>
        let scan := scan.blanks
        let key := String.ofList key
        match scan.rest with
        | [] => ([(key, scan.place, .broken ⟨.endInObject, scan.place⟩)],
            .error ⟨.endInObject, scan.place⟩, scan)
        | ':' :: rest =>
          let (value, stop) := readValue fuel depth ⟨rest, scan.place.along 1⟩
          let entry := (key, scan.place, value)
          if value.isCut then ([entry], .error ⟨.endInObject, stop.place⟩, stop)
          else
            let (fields, close, stop) := readFields fuel depth false stop
            (entry :: fields, close, stop)
        | _ => ([(key, scan.place, .broken (scan.fault .expectedColon))],
            .error (scan.fault .expectedColon), scan)
    match scan.rest with
    | [] => ([], .error ⟨.endInObject, scan.place⟩, scan)
    | '}' :: rest => ([], .ok (scan.place.along 1), ⟨rest, scan.place.along 1⟩)
    | c :: rest =>
      if first then
        if c = '"' then field ⟨rest, scan.place.along 1⟩
        else ([], .error (scan.fault .keyNotString), scan)
      else if c = ',' then
        let scan := (Scan.mk rest (scan.place.along 1)).blanks
        match scan.rest with
        | [] => ([], .error ⟨.endInValue, scan.place⟩, scan)
        | '"' :: rest => field ⟨rest, scan.place.along 1⟩
        | '}' :: _ => ([], .error (scan.fault .trailingComma), scan)
        | _ => ([], .error (scan.fault .keyNotString), scan)
      else ([], .error (scan.fault .expectedObjectEnd), scan)

end

/-- How many brackets may be open at once in a text that is read with the usual limit. -/
def usualDepth : Nat := 127

/-- Reads a whole text: the value it starts with, and the fault that follows the value, if any. -/
def locate (depth : Nat) (text : List Char) : Located × Option Break :=
  let (value, stop) := readValue (2 * text.length + 2) depth ⟨text, .start⟩
  let stop := stop.blanks
  match stop.rest with
  | [] => (value, none)
  | _ => (value, some (stop.fault .trailingCharacters))

/-! ### Values without places -/

/-- Sets a field of an object: in place when the key is there, else at the end. -/
def setField (key : String) (value : Json) : List (String × Json) → List (String × Json)
  | [] => [(key, value)]
  | (k, v) :: rest => if k = key then (k, value) :: rest else (k, v) :: setField key value rest

mutual

/-- The value without its places, or the first fault in it. Of a key that occurs twice the last
value counts, at the first place. -/
def Located.erase : Located → Except Break Json
  | .scalar value _ => .ok value
  | .array _ items close => do
    let items ← eraseItems items
    let _ ← close
    .ok (.array items)
  | .object _ fields close => do
    let fields ← eraseFields fields
    let _ ← close
    .ok (.object (fields.foldl (fun done field => setField field.1 field.2 done) []))
  | .broken reason => .error reason

/-- The items without their places. -/
def eraseItems : List Located → Except Break (List Json)
  | [] => .ok []
  | item :: rest => do
    let value ← item.erase
    let values ← eraseItems rest
    .ok (value :: values)

/-- The fields without their places. -/
def eraseFields : List (String × Place × Located) → Except Break (List (String × Json))
  | [] => .ok []
  | (key, _, item) :: rest => do
    let value ← item.erase
    let values ← eraseFields rest
    .ok ((key, value) :: values)

end

mutual

/-- The value without its places, or the first fault in it. Of a key that occurs twice all values
stay, for readers that have a say about them. -/
def Located.unplaced : Located → Except Break Json
  | .scalar value _ => .ok value
  | .array _ items close => do
    let items ← unplacedItems items
    let _ ← close
    .ok (.array items)
  | .object _ fields close => do
    let fields ← unplacedFields fields
    let _ ← close
    .ok (.object fields)
  | .broken reason => .error reason

/-- The items without their places. -/
def unplacedItems : List Located → Except Break (List Json)
  | [] => .ok []
  | item :: rest => do
    let value ← item.unplaced
    let values ← unplacedItems rest
    .ok (value :: values)

/-- The fields without their places. -/
def unplacedFields : List (String × Place × Located) → Except Break (List (String × Json))
  | [] => .ok []
  | (key, _, item) :: rest => do
    let value ← item.unplaced
    let values ← unplacedFields rest
    .ok ((key, value) :: values)

end

mutual

/-- A value at a fixed place, for readers that report none. -/
def toLocated : Json → Located
  | .array items => .array .start (itemsToLocated items) (.ok .start)
  | .object fields => .object .start (fieldsToLocated fields) (.ok .start)
  | value => .scalar value .start

/-- The items at a fixed place. -/
def itemsToLocated : List Json → List Located
  | [] => []
  | item :: rest => item.toLocated :: itemsToLocated rest

/-- The fields at a fixed place. -/
def fieldsToLocated : List (String × Json) → List (String × Place × Located)
  | [] => []
  | (key, value) :: rest => (key, .start, value.toLocated) :: fieldsToLocated rest

end

/-- Reads a whole text with a limit on open brackets. -/
def parseWithin (depth : Nat) (text : String) : Except Break Json := do
  let (value, trailing) := locate depth text.toList
  let value ← value.erase
  match trailing with
  | some reason => .error reason
  | none => .ok value

/-- Reads a whole text with the usual limit on open brackets. -/
def parse (text : String) : Except Break Json :=
  parseWithin usualDepth text

end DocPress.Json
