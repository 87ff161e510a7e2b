import DocPress.Text.Blank

/-!
Points in time: reading the forms that headers use, and the one form in which they are written. The
calendar is the Gregorian one, also before its introduction. A leap second counts as a part of the
second before it.
-/

namespace DocPress

/-- A point in time, in Coordinated Universal Time. -/
structure Instant where
  /-- Seconds since the start of 1970, leap seconds not counted. -/
  seconds : Int
  /-- Nanoseconds since then. -/
  nanos : Nat
  /-- Whether it lies in a leap second, which follows the last second of a minute. -/
  leap : Bool
  nanos_lt : nanos < 1000000000
  leap_ends_minute : leap = true → seconds % 60 = 59
  deriving DecidableEq

namespace Instant

/-! ### The calendar -/

/-- A day of the calendar. -/
structure Day where
  year : Int
  month : Nat
  day : Nat
  deriving DecidableEq, Repr

/-- Whether a year has a 29th of February. -/
def isLeapYear (year : Int) : Bool :=
  year % 4 = 0 && (year % 100 != 0 || year % 400 = 0)

/-- The number of days of a month. -/
def daysInMonth (year : Int) (month : Nat) : Nat :=
  if month = 2 then if isLeapYear year then 29 else 28
  else if month = 4 || month = 6 || month = 9 || month = 11 then 30
  else 31

/-- Whether there is such a day. -/
def Day.isValid (d : Day) : Bool :=
  1 ≤ d.month && d.month ≤ 12 && 1 ≤ d.day && d.day ≤ daysInMonth d.year d.month

/-- The number of days from the start of 1970 to a day. The year is taken to begin in March, so that
the leap day is its last day. -/
def Day.toNumber (d : Day) : Int :=
  let year := if d.month ≤ 2 then d.year - 1 else d.year
  let era := year / 400
  let yearOfEra := year - era * 400
  let month : Int := if 2 < d.month then d.month - 3 else d.month + 9
  let dayOfYear := (153 * month + 2) / 5 + d.day - 1
  let dayOfEra := yearOfEra * 365 + yearOfEra / 4 - yearOfEra / 100 + dayOfYear
  era * 146097 + dayOfEra - 719468

/-- The day that is a number of days after the start of 1970. -/
def Day.ofNumber (number : Int) : Day :=
  let shifted := number + 719468
  let era := shifted / 146097
  let dayOfEra := shifted - era * 146097
  let yearOfEra := (dayOfEra - dayOfEra / 1460 + dayOfEra / 36524 - dayOfEra / 146096) / 365
  let dayOfYear := dayOfEra - (365 * yearOfEra + yearOfEra / 4 - yearOfEra / 100)
  let month := (5 * dayOfYear + 2) / 153
  let day := (dayOfYear - (153 * month + 2) / 5 + 1).toNat
  let month := if month < 10 then month + 3 else month - 9
  let year := yearOfEra + era * 400
  ⟨if month ≤ 2 then year + 1 else year, month.toNat, day⟩

/-! ### Writing -/

/-- A number in at least `width` digits. -/
def padded (width n : Nat) : List Char :=
  let digits := Nat.toDigits 10 n
  List.replicate (width - digits.length) '0' ++ digits

/-- A year: four digits, or a sign and at least four digits outside of the years 0 to 9999. -/
def yearChars (year : Int) : List Char :=
  if 0 ≤ year && year ≤ 9999 then padded 4 year.toNat
  else (if year < 0 then '-' else '+') :: padded 4 year.natAbs

/-- A day as year, month and day. -/
def Day.chars (d : Day) : List Char :=
  yearChars d.year ++ '-' :: padded 2 d.month ++ '-' :: padded 2 d.day

/-- The day of an instant. -/
def day (instant : Instant) : Day :=
  .ofNumber (instant.seconds / 86400)

/-- The fraction of a second: three digits, or six or nine where that many are needed. -/
def fractionChars (nanos : Nat) : List Char :=
  if nanos % 1000000 = 0 then padded 3 (nanos / 1000000)
  else if nanos % 1000 = 0 then padded 6 (nanos / 1000)
  else padded 9 nanos

/-- The written form of an instant. -/
def format (instant : Instant) : String :=
  let time := (instant.seconds % 86400).toNat
  let second := time % 60 + if instant.leap then 1 else 0
  String.ofList (instant.day.chars ++ 'T' :: padded 2 (time / 3600) ++ ':' ::
    padded 2 (time / 60 % 60) ++ ':' :: padded 2 second ++ '.' :: fractionChars instant.nanos ++
    ['Z'])

/-- The day of an instant, for display. -/
def display (instant : Instant) : String :=
  String.ofList instant.day.chars

/-! ### Reading -/

/-- A time of day as it is written. -/
structure Clock where
  hour : Nat
  minute : Nat
  second : Nat
  nanos : Nat

/-- Whether there is such a time; second 60 is a leap second. -/
def Clock.isValid (clock : Clock) : Bool :=
  clock.hour < 24 && clock.minute < 60 && clock.second ≤ 60

/-- The instant at a day and time, where clocks are `offset` seconds ahead. -/
def ofCivil? (d : Day) (clock : Clock) (offset : Int) : Option Instant :=
  if d.isValid && clock.isValid then
    let leap := clock.second = 60
    let second := if leap then 59 else clock.second
    let seconds := d.toNumber * 86400 + clock.hour * 3600 + clock.minute * 60 + second - offset
    if hn : clock.nanos < 1000000000 then
      if hl : leap = true → seconds % 60 = 59 then
        some ⟨seconds, clock.nanos, leap, hn, fun h => hl (by simpa using h)⟩
      else none
    else none
  else none

/-- The value of digits. -/
def numberOf (digits : List Char) : Nat :=
  digits.foldl (fun n c => n * 10 + (c.toNat - 48)) 0

/-- Takes from `least` to `most` digits: their value and the rest. -/
def takeDigits? (least most : Nat) (text : List Char) : Option (Nat × List Char) :=
  let digits := (text.take most).takeWhile Char.isDigit
  if digits.length < least then none else some (numberOf digits, text.drop digits.length)

/-- Takes a given character. -/
def takeChar? (c : Char) : List Char → Option (List Char)
  | x :: rest => if x = c then some rest else none
  | [] => none

/-- Takes the fraction of a second after its point; digits after the ninth do not count. -/
def takeFraction? (text : List Char) : Option (Nat × List Char) :=
  let digits := text.takeWhile Char.isDigit
  if digits.isEmpty then none
  else
    let counted := digits.take 9
    some (numberOf counted * Nat.pow 10 (9 - counted.length), text.drop digits.length)

/-- Takes the distance from Coordinated Universal Time, in seconds. -/
def takeOffset? (text : List Char) : Option (Int × List Char) :=
  match text with
  | [] => none
  | sign :: rest =>
    if sign = 'Z' || sign = 'z' then some (0, rest)
    else if sign = '+' || sign = '-' || sign = '−' then do
      let (hours, rest) ← takeDigits? 2 2 rest
      let rest ← takeChar? ':' rest
      let (minutes, rest) ← takeDigits? 2 2 rest
      let seconds : Int := hours * 3600 + minutes * 60
      if minutes < 60 && seconds < 86400 then
        some (if sign = '+' then seconds else -seconds, rest)
      else none
    else none

/-- Reads a date and time with an offset. -/
def parseExact? (text : List Char) : Option Instant := do
  let (year, rest) ← takeDigits? 4 4 text
  let rest ← takeChar? '-' rest
  let (month, rest) ← takeDigits? 2 2 rest
  let rest ← takeChar? '-' rest
  let (day, rest) ← takeDigits? 2 2 rest
  match rest with
  | [] => none
  | separator :: rest =>
    if separator = 'T' || separator = 't' || separator = ' ' then do
      let (hour, rest) ← takeDigits? 2 2 rest
      let rest ← takeChar? ':' rest
      let (minute, rest) ← takeDigits? 2 2 rest
      let rest ← takeChar? ':' rest
      let (second, rest) ← takeDigits? 2 2 rest
      let (nanos, rest) ← match rest with
        | '.' :: fraction => takeFraction? fraction
        | _ => some (0, rest)
      let (offset, rest) ← takeOffset? rest
      if rest.isEmpty then ofCivil? ⟨year, month, day⟩ ⟨hour, minute, second, nanos⟩ offset
      else none
    else none

/-- Takes a number that blanks may precede. -/
def takeLoose? (most : Nat) (text : List Char) : Option (Nat × List Char) :=
  takeDigits? 1 most (Text.trimStart text)

/-- Takes a year, which has any number of digits after a sign. -/
def takeYear? (text : List Char) : Option (Int × List Char) :=
  match Text.trimStart text with
  | '-' :: rest =>
    (takeDigits? 1 rest.length rest).map fun taken => (-(taken.1 : Int), taken.2)
  | '+' :: rest => (takeDigits? 1 rest.length rest).map fun taken => ((taken.1 : Int), taken.2)
  | rest => (takeDigits? 1 4 rest).map fun taken => ((taken.1 : Int), taken.2)

/-- Takes a date without regard to the number of its digits; the calendar ends with the year
262142 on either side. -/
def takeDay? (text : List Char) : Option (Day × List Char) := do
  let (year, rest) ← takeYear? text
  let rest ← takeChar? '-' rest
  let (month, rest) ← takeLoose? 2 rest
  let rest ← takeChar? '-' rest
  let (day, rest) ← takeLoose? 2 rest
  if -262143 ≤ year && year ≤ 262142 then some (⟨year, month, day⟩, rest) else none

/-- Reads a date and time without an offset. -/
def parseClock? (text : List Char) : Option Instant := do
  let (day, rest) ← takeDay? text
  let (hour, rest) ← takeLoose? 2 rest
  let rest ← takeChar? ':' rest
  let (minute, rest) ← takeLoose? 2 rest
  let rest ← takeChar? ':' rest
  let (second, rest) ← takeLoose? 2 rest
  if rest.isEmpty then ofCivil? day ⟨hour, minute, second, 0⟩ 0 else none

/-- Reads a date. -/
def parseDay? (text : List Char) : Option Instant := do
  let (day, rest) ← takeDay? text
  if rest.isEmpty then ofCivil? day ⟨0, 0, 0, 0⟩ 0 else none

/-- Reads a date and time with an offset, a date and time, or a date. -/
def parse? (text : String) : Option Instant :=
  let text := Text.trim text.toList
  (parseExact? text).or ((parseClock? text).or (parseDay? text))

end Instant

end DocPress
