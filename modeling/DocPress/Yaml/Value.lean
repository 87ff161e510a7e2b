import DocPress.Yaml.Tree
import DocPress.Decimal.Read
import DocPress.Decimal.Shortest
import DocPress.Text.Quoted

/-!
YAML values: the core kinds of plain scalars, and values from trees. Aliases are followed; how deep
values nest and how often aliases are followed is bounded.
-/

namespace DocPress.Yaml

open Decimal (Layout)

/-- A value. -/
inductive Value where
  | null
  | bool (value : Bool)
  | int (value : Int)
  | float (value : Float)
  | string (value : String)
  | sequence (items : List Value)
  | mapping (entries : List (Value × Value))
  /-- A value with a tag of its own. -/
  | tagged (tag : String) (value : Value)
  deriving Inhabited

/-- Floating-point numbers are positional from `1e-5` to below `1e16`, keep `.0`, and have an exponent
without a positive sign elsewhere. -/
def floatLayout : Layout where
  leastPositional := some (-5)
  greatestPositional := some 15
  keepsPoint := true
  signsExponent := false
  exponentDigits := 1
  nan := ".nan"
  infinity := ".inf"
  negativeInfinity := "-.inf"

/-! ### Plain scalars -/

/-- What a plain scalar is. -/
inductive Plain where
  | null
  | bool (value : Bool)
  | int (value : Int)
  /-- A whole number that is too large, and how many bits it would take. -/
  | wide (value : Int) (typeName : String)
  | float (value : Float)
  | string

/-- Whether a text is a sign and digits with a needless zero in front. -/
def isPaddedNumber (text : List Char) : Bool :=
  let digits := match text with
    | '-' :: rest => rest
    | '+' :: rest => rest
    | _ => text
  match digits with
  | '0' :: next :: rest => (next :: rest).all Char.isDigit
  | _ => false

/-- The truth value that a word stands for. -/
def readBool? (text : String) : Option Bool :=
  if text = "true" || text = "True" || text = "TRUE" then some true
  else if text = "false" || text = "False" || text = "FALSE" then some false
  else none

/-- Whether a word stands for null. -/
def isNullWord (text : String) : Bool :=
  text = "null" || text = "Null" || text = "NULL" || text = "~"

/-- The number that digits of a base stand for. -/
def digitsIn? (base : Nat) (digits : List Char) : Option Nat :=
  if digits.isEmpty then none
  else (digits.mapM hexDigit?).bind fun values =>
    if values.all (· < base) then some (values.foldl (fun n d => n * base + d) 0) else none

/-- The natural number that a text stands for, in decimal or after the mark of another base. -/
def readNat? (text : List Char) : Option Nat :=
  match text with
  | '0' :: 'x' :: digits => digitsIn? 16 digits
  | '0' :: 'o' :: digits => digitsIn? 8 digits
  | '0' :: 'b' :: digits => digitsIn? 2 digits
  | digits => if isPaddedNumber digits then none else digitsIn? 10 digits

/-- The whole number that a text stands for. -/
def readInt? (text : List Char) : Option Int :=
  match text with
  | '-' :: rest => (readNat? rest).map fun n => -(n : Int)
  | '+' :: rest => (readNat? rest).map fun n => (n : Int)
  | rest => (readNat? rest).map fun n => (n : Int)

/-- The floating-point number that a text stands for. -/
def readFloat? (text : String) : Option Float :=
  let chars := text.toList
  let unsigned? : Option (List Char) := match chars with
    | '+' :: rest => if rest.head?.any fun c => c = '+' || c = '-' then none else some rest
    | _ => some chars
  unsigned?.bind fun unsigned =>
    let word := String.ofList unsigned
    if word = ".inf" || word = ".Inf" || word = ".INF" then some (1.0 / 0.0)
    else if text = "-.inf" || text = "-.Inf" || text = "-.INF" then some (-1.0 / 0.0)
    else if text = ".nan" || text = ".NaN" || text = ".NAN" then some (0.0 / 0.0)
    else (Decimal.parse? unsigned).bind fun x => if x.isFinite then some x else none

/-- The number that a text stands for: whole numbers of 64 bits are numbers, those of up to 128
bits are too large, and larger ones are floating-point numbers. -/
def readNumber? (text : String) : Option Plain :=
  match readInt? text.toList with
  | some n =>
    if -(1 <<< 63 : Nat) ≤ n && n < UInt64.size then some (.int n)
    else if 0 ≤ n && n < (1 <<< 128 : Nat) then some (.wide n "u128")
    else if -(1 <<< 127 : Nat) ≤ n && n < 0 then some (.wide n "i128")
    else none
  | none => none

/-- What a plain scalar is. -/
def Plain.ofText (text : String) : Plain :=
  if text = "" || isNullWord text then .null
  else
    match readBool? text with
    | some value => .bool value
    | none =>
      match readNumber? text with
      | some plain => plain
      | none =>
        if isPaddedNumber text.toList then .string
        else
          match readFloat? text with
          | some value => .float value
          | none => .string

/-! ### Comparing values -/

/-- Whether two floating-point numbers count as the same key. -/
def sameFloat (x y : Float) : Bool :=
  x == y || (x.isNaN && y.isNaN)

mutual

/-- Whether two values count as the same key. The order of the entries of a map does not count. -/
def Value.same : Value → Value → Bool
  | .null, .null => true
  | .bool x, .bool y => x == y
  | .int x, .int y => x == y
  | .float x, .float y => sameFloat x y
  | .string x, .string y => x == y
  | .sequence xs, .sequence ys => sameItems xs ys
  | .mapping xs, .mapping ys => xs.length == ys.length && sameEntries xs ys
  | .tagged tag x, .tagged tag' y => tag == tag' && Value.same x y
  | _, _ => false

/-- Whether two lists count as the same. -/
def sameItems : List Value → List Value → Bool
  | [], [] => true
  | x :: xs, y :: ys => Value.same x y && sameItems xs ys
  | _, _ => false

/-- Whether each entry of the first map is one of the second. -/
def sameEntries : List (Value × Value) → List (Value × Value) → Bool
  | [], _ => true
  | (key, value) :: rest, ys =>
    ys.any (fun y => Value.same key y.1 && Value.same value y.2) && sameEntries rest ys

end

/-! ### Faults -/

/-- Where a value is inside a document. -/
inductive Path where
  | root
  | item (parent : Path) (index : Nat)
  | entry (parent : Path) (key : String)
  /-- Under a key that is not a scalar. -/
  | unnamed (parent : Path)
  deriving DecidableEq, Repr, Inhabited

/-- The wording of a place inside a document. -/
def Path.text : Path → String
  | .root => "."
  | .item parent index => parent.text ++ "[" ++ toString index ++ "]"
  | .entry .root key => key
  | .entry parent key => parent.text ++ "." ++ key
  | .unnamed .root => "?"
  | .unnamed parent => parent.text ++ ".?"

/-- What is wrong with a value. -/
inductive DataFault where
  | wideInteger (value : Int) (typeName : String)
  /-- A text that is not of the kind that its tag says. -/
  | notTagged (text : String) (expected : String)
  | duplicateKey (key : Value)
  deriving Inhabited

/-- The wording of a number. -/
def floatText (x : Float) : String :=
  floatLayout.write x

/-- The wording of a fault. -/
def DataFault.message : DataFault → String
  | .wideInteger value typeName =>
    "invalid type: integer " ++ String.singleton (Char.ofNat 96) ++ toString value ++
      String.singleton (Char.ofNat 96) ++ " as " ++ typeName ++ ", expected any YAML value"
  | .notTagged text expected =>
    "invalid value: string " ++ Text.quoted text ++ ", expected " ++ expected
  | .duplicateKey key =>
    match key with
    | .null => "duplicate entry with null key"
    | .bool value =>
      "duplicate entry with key " ++ String.singleton (Char.ofNat 96) ++
        (if value then "true" else "false") ++ String.singleton (Char.ofNat 96)
    | .int value => "duplicate entry with key " ++ toString value
    | .float value => "duplicate entry with key " ++ floatText value
    | .string text => "duplicate entry with key " ++ Text.quoted text
    | .sequence _ | .mapping _ | .tagged .. => "duplicate entry in YAML map"

/-- Why a text is not the document that was wanted. -/
inductive ReadError where
  | stop (reason : Stop)
  | data (fault : DataFault) (path : Path) (mark : Mark)
  | tooDeep (mark : Mark)
  /-- Aliases are followed too often. -/
  | tooManyAliases
  | moreThanOne
  deriving Inhabited

/-- Where the error is, if it is at one place. -/
def ReadError.mark? : ReadError → Option Mark
  | .stop (.text reason) => some reason.mark
  | .stop (.unknownAnchor mark) => some mark
  | .data _ _ mark => some mark
  | .tooDeep mark => some mark
  | .tooManyAliases => none
  | .moreThanOne => none

/-- The wording of a place behind a message; the start of the text is left out. -/
def atMark (mark : Mark) : String :=
  if mark.isStart then "" else " at " ++ mark.text

/-- The wording of an error. -/
def ReadError.message : ReadError → String
  | .stop (.text reason) => reason.message
  | .stop (.unknownAnchor mark) => "unknown anchor" ++ atMark mark
  | .data fault path mark =>
    let place := if path.text = "." then "" else path.text ++ ": "
    place ++ fault.message ++ atMark mark
  | .tooDeep mark => "recursion limit exceeded" ++ atMark mark
  | .tooManyAliases => "repetition limit exceeded"
  | .moreThanOne =>
    "deserializing from YAML containing more than one document is not supported"

/-! ### Values from trees -/

mutual

/-- The number of starts and ends in a tree. -/
def Tree.size : Tree → Nat
  | .scalar .. | .alias .. => 1
  | .sequence _ _ _ items cut => (if cut.isSome then 1 else 2) + sizeOfItems items
  | .mapping _ _ _ entries cut => (if cut.isSome then 1 else 2) + sizeOfEntries entries
  | .missing _ => 0

/-- The number of starts and ends in trees. -/
def sizeOfItems : List Tree → Nat
  | [] => 0
  | item :: rest => item.size + sizeOfItems rest

/-- The number of starts and ends in entries. -/
def sizeOfEntries : List (Tree × Tree) → Nat
  | [] => 0
  | (key, value) :: rest => key.size + value.size + sizeOfEntries rest

end

mutual

/-- The nodes of a tree that have anchors, with the numbers of these, in the order of the text. -/
def Tree.anchored : Tree → List (Nat × Tree)
  | tree@(.scalar _ anchor _ _ _) => (anchor.map fun number => (number, tree)).toList
  | tree@(.sequence _ anchor _ items _) =>
    (anchor.map fun number => (number, tree)).toList ++ anchoredItems items
  | tree@(.mapping _ anchor _ entries _) =>
    (anchor.map fun number => (number, tree)).toList ++ anchoredEntries entries
  | .alias .. | .missing _ => []

/-- The nodes of trees that have anchors. -/
def anchoredItems : List Tree → List (Nat × Tree)
  | [] => []
  | item :: rest => item.anchored ++ anchoredItems rest

/-- The nodes of entries that have anchors. -/
def anchoredEntries : List (Tree × Tree) → List (Nat × Tree)
  | [] => []
  | (key, value) :: rest => key.anchored ++ value.anchored ++ anchoredEntries rest

end

/-- Reads a tree at a place, with the number of aliases that have been followed. -/
abbrev Reader := Path → Tree → Nat → Except ReadError (Value × Nat)

/-- Reads the items of a list from an index on. -/
def readItems (read : Reader) (path : Path) (cut : Option Stop) :
    Nat → List Tree → Nat → Except ReadError (List Value × Nat)
  | _, [], jumps =>
    match cut with
    | some stop => .error (.stop stop)
    | none => .ok ([], jumps)
  | index, item :: rest, jumps => do
    let (value, jumps) ← read (.item path index) item jumps
    let (values, jumps) ← readItems read path cut (index + 1) rest jumps
    return (value :: values, jumps)

/-- The place of the value of an entry. -/
def entryPath (path : Path) : Tree → Path
  | .scalar _ _ _ _ text => .entry path text
  | _ => .unnamed path

/-- Reads the entries of a map that starts at `start` after the entries `done`, last one first. -/
def readEntries (read : Reader) (path : Path) (start : Mark) (cut : Option Stop) :
    List (Value × Value) → List (Tree × Tree) → Nat →
      Except ReadError (List (Value × Value) × Nat)
  | done, [], jumps =>
    match cut with
    | some stop => .error (.stop stop)
    | none => .ok (done.reverse, jumps)
  | done, (key, value) :: rest, jumps => do
    let (name, jumps) ← read path key jumps
    if done.any (·.1.same name) then .error (.data (.duplicateKey name) path start)
    let (content, jumps) ← read (entryPath path key) value jumps
    readEntries read path start cut ((name, content) :: done) rest jumps

/-- The start of the tags of the core kinds. -/
def coreTag (name : String) : String :=
  "tag:yaml.org,2002:" ++ name

/-- The value of a scalar. A tag of a core kind decides on the kind; with any other tag the value is
a text. -/
def scalarValue (path : Path) (mark : Mark) (tag : Option String) (style : ScalarStyle)
    (text : String) : Except ReadError Value :=
  let wrong (expected : String) : Except ReadError Value :=
    .error (.data (.notTagged text expected) path mark)
  let ofPlain : Plain → Except ReadError Value
    | .null => .ok .null
    | .bool value => .ok (.bool value)
    | .int value => .ok (.int value)
    | .wide value typeName => .error (.data (.wideInteger value typeName) path mark)
    | .float value => .ok (.float value)
    | .string => .ok (.string text)
  match tag with
  | none => if style = .plain then ofPlain (.ofText text) else .ok (.string text)
  | some tag =>
    if tag = coreTag "bool" then
      match readBool? text with
      | some value => .ok (.bool value)
      | none => wrong "a boolean"
    else if tag = coreTag "int" then
      match readNumber? text with
      | some plain => ofPlain plain
      | none => wrong "an integer"
    else if tag = coreTag "float" then
      match readFloat? text with
      | some value => .ok (.float value)
      | none => wrong "a float"
    else if tag = coreTag "null" then
      if isNullWord text then .ok .null else wrong "null"
    else .ok (.string text)

/-- The tag of a tree that is not one of the core kinds. -/
def Tree.ownTag? : Tree → Option String
  | .scalar _ _ tag _ _ | .sequence _ _ tag _ _ | .mapping _ _ tag _ _ =>
    tag.bind fun tag =>
      match tag.toList with
      | ['!'] => some "!"
      | '!' :: name => some (String.ofList name)
      | _ => none
  | _ => none

mutual

/-- A tree without its tag, and without those of its keys. -/
def Tree.withoutTag : Tree → Tree
  | .scalar start anchor _ style text => .scalar start anchor none style text
  | .sequence start anchor _ items cut => .sequence start anchor none items cut
  | .mapping start anchor _ entries cut => .mapping start anchor none (withoutKeyTags entries) cut
  | .alias start target => .alias start target
  | .missing reason => .missing reason

/-- Entries without the tags of their keys. -/
def withoutKeyTags : List (Tree × Tree) → List (Tree × Tree)
  | [] => []
  | (key, value) :: rest => (key.withoutTag, value) :: withoutKeyTags rest

end

/-- Reads a tree that is no alias, without regard to a tag of its own, behind which the tags of keys do
not count; `inner` reads what is inside of it, unless it is too deep. -/
def readTree (inner : Option Reader) : Reader := fun path tree jumps =>
  match tree with
  | .scalar start _ tag style text => do
    let value ← scalarValue path start (if tree.ownTag?.isSome then none else tag) style text
    return (value, jumps)
  | .sequence start _ _ items cut =>
    match inner with
    | none => .error (.tooDeep start)
    | some read => do
      let (values, jumps) ← readItems read path cut 0 items jumps
      return (.sequence values, jumps)
  | .mapping start _ _ entries cut =>
    match inner with
    | none => .error (.tooDeep start)
    | some read => do
      let entries := if tree.ownTag?.isSome then withoutKeyTags entries else entries
      let (values, jumps) ← readEntries read path start cut [] entries jumps
      return (.mapping values, jumps)
  | .alias .. => .error .tooManyAliases
  | .missing stop => .error (.stop stop)

/-- Reads a tree with its own tag, if it has one. -/
def readTagged (inner : Option Reader) : Reader := fun path tree jumps => do
  let (value, jumps) ← readTree inner path tree jumps
  match tree.ownTag? with
  | some tag => return (.tagged tag value, jumps)
  | none => return (value, jumps)

/-- Reads a tree, following an alias to one of the anchored nodes; at most `limit` aliases are
followed. -/
def readAlias (anchored : List (Nat × Tree)) (limit : Nat) (inner : Option Reader) : Reader :=
  fun path tree jumps =>
    match tree with
    | .alias _ target =>
      if limit < jumps + 1 then .error .tooManyAliases
      else
        match anchored.find? (·.1 == target) with
        | some (_, node) => readTagged inner path node (jumps + 1)
        | none => .error .tooManyAliases
    | _ => readTagged inner path tree jumps

/-- Reads trees in which lists and maps nest at most `depth` deep. -/
def readerAt (anchored : List (Nat × Tree)) (limit : Nat) : Nat → Reader
  | 0 => readAlias anchored limit none
  | depth + 1 => readAlias anchored limit (some (readerAt anchored limit depth))

/-- How deep lists and maps may nest. -/
def depthLimit : Nat := 128

/-- The value of a document, which must be the only one of its text. A text without a document is
null. Of two anchors with one number the later one counts. -/
def Document.value (document : Document) : Except ReadError Value :=
  match document.root with
  | none => .ok .null
  | some root => do
    let read := readerAt root.anchored.reverse (root.size * 100) depthLimit
    let (value, _) ← read .root root 0
    match document.late with
    | some stop => .error (.stop stop)
    | none => if document.more then .error .moreThanOne else .ok value

/-- Reads the value of a text. -/
def parse (text : String) : Except ReadError Value :=
  (Document.ofText text).value

end DocPress.Yaml
