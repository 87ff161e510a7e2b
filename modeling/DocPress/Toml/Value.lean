import DocPress.Decimal.Shortest

/-!
TOML values, and the text of those that are scalars.
-/

namespace DocPress.Toml

open Decimal (Layout)

/-- A date of the calendar. -/
structure Date where
  year : Nat
  month : Nat
  day : Nat
  deriving DecidableEq, Repr

/-- A time of day. -/
structure Time where
  hour : Nat
  minute : Nat
  second : Nat
  nanos : Nat
  deriving DecidableEq, Repr

/-- The distance from Coordinated Universal Time. -/
inductive Offset where
  | utc
  | minutes (value : Int)
  deriving DecidableEq, Repr

/-- A date, a time, or both, and then perhaps an offset. -/
structure Moment where
  date : Option Date
  time : Option Time
  offset : Option Offset
  deriving DecidableEq, Repr

/-- A value. The entries of a table are in increasing order of their keys. -/
inductive Value where
  | string (value : String)
  | integer (value : Int)
  | float (value : Float)
  | boolean (value : Bool)
  | moment (value : Moment)
  | array (items : List Value)
  | table (entries : List (String × Value))
  deriving Inhabited

/-- The name of the type of a value. -/
def Value.typeName : Value → String
  | .string _ => "string"
  | .integer _ => "integer"
  | .float _ => "float"
  | .boolean _ => "boolean"
  | .moment _ => "datetime"
  | .array _ => "array"
  | .table _ => "inline table"

/-- A number in at least `width` digits. -/
def padded (width n : Nat) : List Char :=
  let digits := Nat.toDigits 10 n
  List.replicate (width - digits.length) '0' ++ digits

/-- The text of a date. -/
def Date.chars (date : Date) : List Char :=
  padded 4 date.year ++ '-' :: padded 2 date.month ++ '-' :: padded 2 date.day

/-- The text of a time; a fraction of a second has no zeros at its end. -/
def Time.chars (time : Time) : List Char :=
  let fraction :=
    if time.nanos = 0 then []
    else '.' :: ((padded 9 time.nanos).reverse.dropWhile (· = '0')).reverse
  padded 2 time.hour ++ ':' :: padded 2 time.minute ++ ':' :: padded 2 time.second ++ fraction

/-- The text of an offset. -/
def Offset.chars : Offset → List Char
  | .utc => ['Z']
  | .minutes value =>
    let n := value.natAbs
    (if value < 0 then '-' else '+') :: padded 2 (n / 60) ++ ':' :: padded 2 (n % 60)

/-- The text of a date and time. -/
def Moment.text (moment : Moment) : String :=
  let date := (moment.date.map Date.chars).getD []
  let mark := if moment.date.isSome && moment.time.isSome then ['T'] else []
  let time := (moment.time.map Time.chars).getD []
  String.ofList (date ++ mark ++ time ++ (moment.offset.map Offset.chars).getD [])

/-- Floating-point numbers are always positional, without a point where they are whole. -/
def floatLayout : Layout where
  leastPositional := none
  greatestPositional := none
  keepsPoint := false
  signsExponent := false
  exponentDigits := 1
  nan := "NaN"
  infinity := "inf"
  negativeInfinity := "-inf"

/-- The text of a value that is no array and no table. -/
def Value.text? : Value → Option String
  | .string value => some value
  | .integer value => some (toString value)
  | .float value => some (floatLayout.write value)
  | .boolean value => some (if value then "true" else "false")
  | .moment value => some value.text
  | .array _ | .table _ => none

end DocPress.Toml
