import Mathlib.Algebra.Group.Nat.Defs
import DocPress.Proofs.Date.Calendar
import DocPress.Proofs.Json.Scalar
import DocPress.Proofs.Text

/-!
The written form of instants. It is read back as the instant exactly when the year has four digits:
years before 0 and after 9999 are written with a sign, which is read in front of a date alone. No two
instants are written alike all the same. The fraction of a second has three, six or nine digits, the fewest
that tell all nanoseconds.
-/

namespace DocPress.Instant

/-! ### Digits -/

/-- A padded number is written in digits. -/
theorem isDigit_padded {width n : Nat} {c : Char} (member : c ∈ padded width n) :
    c.isDigit = true := by
  rcases List.mem_append.1 member with filler | digit
  · rw [(List.mem_replicate.1 filler).2]
    decide
  · exact Json.isDigit_toDigits digit

/-- A number that fits takes up the width. -/
theorem length_padded {width n : Nat} (positive : 0 < width) (fits : n < 10 ^ width) :
    (padded width n).length = width := by
  have short := (Nat.length_toDigits_le_iff (by decide) positive).2 fits
  simp only [padded, List.length_append, List.length_replicate]
  omega

theorem padded_ne_nil (width n : Nat) : padded width n ≠ [] := by
  simp [padded, Nat.toDigits_ne_nil]

/-- The number of digits is read as the library reads it. -/
theorem numberOf_eq (digits : List Char) : numberOf digits = Nat.ofDigitChars 10 digits 0 := by
  rw [numberOf, Nat.ofDigitChars]
  congr 1
  funext n c
  rw [Nat.mul_comm]
  rfl

/-- Zeros in front do not count. -/
theorem numberOf_padded (width n : Nat) : numberOf (padded width n) = n := by
  rw [numberOf_eq, padded, Nat.ofDigitChars_append, Nat.ofDigitChars_replicate_zero, Nat.mul_zero]
  exact Nat.ofDigitChars_toDigits (by decide) (by decide)

/-- A text that does not go on with a digit. -/
def EndsDigits (rest : List Char) : Prop :=
  ∀ c, rest.head? = some c → c.isDigit = false

theorem endsDigits_nil : EndsDigits [] := by
  simp [EndsDigits]

theorem endsDigits_cons {c : Char} (other : c.isDigit = false) (rest : List Char) :
    EndsDigits (c :: rest) := by
  rintro first same
  exact (Option.some.inj same) ▸ other

/-- All digits at the start of a text are taken. -/
theorem takeWhile_padded {rest : List Char} (ends : EndsDigits rest) (width n : Nat) :
    (padded width n ++ rest).takeWhile Char.isDigit = padded width n := by
  rw [List.takeWhile_append_of_pos fun c member => isDigit_padded member]
  cases rest with
  | nil => simp
  | cons c rest => simp [ends c rfl]

/-- A number in as many digits as are taken is read back. -/
theorem takeDigits?_padded {width n : Nat} (positive : 0 < width) (fits : n < 10 ^ width)
    (rest : List Char) :
    takeDigits? width width (padded width n ++ rest) = some (n, rest) := by
  have length := length_padded positive fits
  have digits : ((padded width n ++ rest).take width).takeWhile Char.isDigit = padded width n := by
    rw [List.take_left' length]
    simpa using takeWhile_padded endsDigits_nil width n
  rw [takeDigits?, digits, length, if_neg (Nat.lt_irrefl width), numberOf_padded,
    List.drop_left' length]

/-- Two digits are read back. -/
theorem takeDigits?_two {n : Nat} (fits : n < 100) (rest : List Char) :
    takeDigits? 2 2 (padded 2 n ++ rest) = some (n, rest) :=
  takeDigits?_padded (by decide) fits rest

/-- A number is read back where all of its digits are taken. -/
theorem takeDigits?_all (width n : Nat) {rest : List Char} (ends : EndsDigits rest) :
    takeDigits? 1 (padded width n ++ rest).length (padded width n ++ rest) = some (n, rest) := by
  have some_digit : ¬(padded width n).length < 1 := by
    simpa [Nat.pos_iff_ne_zero] using padded_ne_nil width n
  rw [takeDigits?, List.take_length, takeWhile_padded ends, if_neg some_digit, numberOf_padded,
    List.drop_left]

theorem isBlank_of_isDigit {c : Char} (digit : c.isDigit = true) : Text.isBlank c = false := by
  simp only [Char.isDigit, Bool.and_eq_true, decide_eq_true_eq, UInt32.le_iff_toNat_le] at digit
  have low : 48 ≤ c.toNat := digit.1
  have high : c.toNat ≤ 57 := digit.2
  simp only [Text.isBlank, Bool.or_eq_false_iff, Bool.and_eq_false_iff, decide_eq_false_iff_not,
    beq_eq_false_iff_ne]
  omega

/-- Two digits are read back where one or two are taken. -/
theorem takeLoose?_two {n : Nat} (fits : n < 100) (rest : List Char) :
    takeLoose? 2 (padded 2 n ++ rest) = some (n, rest) := by
  have strict := takeDigits?_two fits rest
  have length : (padded 2 n).length = 2 := length_padded (by decide) fits
  have front : Text.trimStart (padded 2 n ++ rest) = padded 2 n ++ rest := by
    cases digits : padded 2 n with
    | nil => exact absurd digits (padded_ne_nil 2 n)
    | cons c more =>
        have member : c ∈ padded 2 n := digits ▸ List.mem_cons_self
        simp [Text.trimStart, isBlank_of_isDigit (isDigit_padded member)]
  have digits : ((padded 2 n ++ rest).take 2).takeWhile Char.isDigit = padded 2 n := by
    rw [List.take_left' length]
    simpa using takeWhile_padded endsDigits_nil 2 n
  rw [takeDigits?, digits, length] at strict
  rw [takeLoose?, front, takeDigits?, digits, length]
  exact strict

/-- The digits of a fraction of a second are read back. -/
theorem takeFraction?_padded {width n : Nat} (positive : 0 < width) (short : width ≤ 9)
    (fits : n < 10 ^ width) {rest : List Char} (ends : EndsDigits rest) :
    takeFraction? (padded width n ++ rest) = some (n * 10 ^ (9 - width), rest) := by
  have length := length_padded positive fits
  have counted : (padded width n).take 9 = padded width n := by
    rw [List.take_of_length_le]
    omega
  simp [takeFraction?, takeWhile_padded ends, counted, length, numberOf_padded, padded_ne_nil,
    List.drop_left' length]

/-- A fraction of a second is read back. -/
theorem takeFraction?_fractionChars {nanos : Nat} (lt : nanos < 1000000000) {rest : List Char}
    (ends : EndsDigits rest) :
    takeFraction? (fractionChars nanos ++ rest) = some (nanos, rest) := by
  rw [fractionChars]
  split
  · rw [takeFraction?_padded (by decide) (by decide) (by omega) ends]
    congr 2
    omega
  · split
    · rw [takeFraction?_padded (by decide) (by decide) (by omega) ends]
      congr 2
      omega
    · rw [takeFraction?_padded (by decide) (by decide) lt ends]
      simp

theorem takeChar?_cons (c : Char) (rest : List Char) : takeChar? c (c :: rest) = some rest := by
  simp [takeChar?]

/-! ### Years of four digits -/

/-- Whether the year of an instant has four digits. -/
def HasPlainYear (instant : Instant) : Prop :=
  0 ≤ instant.day.year ∧ instant.day.year ≤ 9999

instance : DecidablePred HasPlainYear := fun instant =>
  inferInstanceAs (Decidable (0 ≤ instant.day.year ∧ instant.day.year ≤ 9999))

/-- The time of an instant within its day. -/
def clock (instant : Instant) : Clock :=
  let time := (instant.seconds % 86400).toNat
  ⟨time / 3600, time / 60 % 60, time % 60 + if instant.leap then 1 else 0, instant.nanos⟩

/-- What is written of the time of an instant. -/
def clockChars (clock : Clock) : List Char :=
  padded 2 clock.hour ++ ':' :: padded 2 clock.minute ++ ':' :: padded 2 clock.second ++
    '.' :: fractionChars clock.nanos ++ ['Z']

theorem toList_format (instant : Instant) :
    instant.format.toList = instant.day.chars ++ 'T' :: clockChars instant.clock := by
  simp [format, clockChars, clock]

/-- An instant is in a leap second when its time has a second 60. -/
theorem second_clock (instant : Instant) :
    instant.clock.second =
      if instant.leap then 60 else (instant.seconds % 86400).toNat % 60 := by
  have ends := instant.leap_ends_minute
  change (instant.seconds % 86400).toNat % 60 + (if instant.leap then 1 else 0) = _
  split
  · next leap =>
      have last := ends leap
      omega
  · rfl

/-- The clock shows a sixtieth second exactly in a leap second. -/
theorem second_clock_eq_sixty (instant : Instant) :
    instant.clock.second = 60 ↔ instant.leap = true := by
  rw [second_clock]
  split
  · next leap => simp [leap]
  · next other => simp only [other, iff_false, Bool.false_eq_true]; omega

/-- The time of an instant is a time of day. -/
theorem isValid_clock (instant : Instant) : instant.clock.isValid = true := by
  have hour : instant.clock.hour < 24 := by
    change (instant.seconds % 86400).toNat / 3600 < 24
    omega
  have minute : instant.clock.minute < 60 := Nat.mod_lt _ (by decide)
  have second : instant.clock.second ≤ 60 := by
    rw [second_clock]
    split <;> omega
  simp [Clock.isValid, hour, minute, second]

/-- The seconds up to an instant are those of its day and its time. -/
theorem seconds_clock (instant : Instant) :
    instant.day.toNumber * 86400 + instant.clock.hour * 3600 + instant.clock.minute * 60 +
      ((if instant.clock.second = 60 then 59 else instant.clock.second : Nat) : Int) - 0 =
      instant.seconds := by
  have ends := instant.leap_ends_minute
  have hour : instant.clock.hour = (instant.seconds % 86400).toNat / 3600 := rfl
  have minute : instant.clock.minute = (instant.seconds % 86400).toNat / 60 % 60 := rfl
  rw [day, Day.toNumber_ofNumber, hour, minute]
  split
  · next leap =>
      have last := ends ((second_clock_eq_sixty instant).1 leap)
      omega
  · next other =>
      rw [second_clock_eq_sixty] at other
      rw [second_clock, if_neg other]
      omega

/-- An instant is at the time of its day. -/
theorem ofCivil?_clock (instant : Instant) :
    ofCivil? instant.day instant.clock 0 = some instant := by
  have valid : (instant.day.isValid && instant.clock.isValid) = true := by
    rw [day, Day.isValid_ofNumber, isValid_clock]
    rfl
  have bounded : instant.clock.nanos < 1000000000 := instant.nanos_lt
  have leap : decide (instant.clock.second = 60) = instant.leap := by
    rw [Bool.eq_iff_iff, decide_eq_true_eq, second_clock_eq_sixty]
  rw [ofCivil?, if_pos valid]
  dsimp only
  rw [dif_pos bounded, dif_pos]
  · congr 1
    cases instant
    congr 1
    exact seconds_clock _
  · rw [seconds_clock]
    intro last
    exact instant.leap_ends_minute ((second_clock_eq_sixty instant).1 (by simpa using last))

/-! ### Reading the written form -/

/-- A year of four digits is written without a sign. -/
theorem chars_of_hasPlainYear {instant : Instant} (plain : HasPlainYear instant) :
    instant.day.chars = padded 4 instant.day.year.toNat ++
      '-' :: (padded 2 instant.day.month ++ '-' :: padded 2 instant.day.day) := by
  have inside : (0 ≤ instant.day.year && instant.day.year ≤ 9999) = true := by
    simp [plain.1, plain.2]
  rw [Day.chars, yearChars, if_pos inside]
  simp

/-- The parts of the written form are read back one after the other. -/
theorem parseExact?_format {instant : Instant} (plain : HasPlainYear instant) :
    parseExact? instant.format.toList = some instant := by
  have valid : instant.day.isValid = true := Day.isValid_ofNumber _
  have times := isValid_clock instant
  simp only [Clock.isValid, Bool.and_eq_true, decide_eq_true_eq] at times
  obtain ⟨⟨hour, minute⟩, second⟩ := times
  have four : instant.day.year.toNat < 10 ^ 4 := by
    have := plain.2
    omega
  have same : ((instant.day.year.toNat : Nat) : Int) = instant.day.year := by
    have := plain.1
    omega
  rw [toList_format, chars_of_hasPlainYear plain, clockChars]
  simp only [List.append_assoc, List.cons_append]
  rw [parseExact?]
  have fraction := takeFraction?_fractionChars (show instant.clock.nanos < 1000000000 from
    instant.nanos_lt) (endsDigits_cons (c := 'Z') (by decide) [])
  refine Option.bind_eq_some_iff.2 ⟨_, takeDigits?_padded (by decide) four _, ?_⟩
  refine Option.bind_eq_some_iff.2 ⟨_, takeChar?_cons _ _, ?_⟩
  refine Option.bind_eq_some_iff.2 ⟨_, takeDigits?_two (Day.month_lt_of_isValid valid) _, ?_⟩
  refine Option.bind_eq_some_iff.2 ⟨_, takeChar?_cons _ _, ?_⟩
  refine Option.bind_eq_some_iff.2 ⟨_, takeDigits?_two (Day.day_lt_of_isValid valid) _, ?_⟩
  refine (if_pos (by decide)).trans ?_
  refine Option.bind_eq_some_iff.2 ⟨_, takeDigits?_two (by omega) _, ?_⟩
  refine Option.bind_eq_some_iff.2 ⟨_, takeChar?_cons _ _, ?_⟩
  refine Option.bind_eq_some_iff.2 ⟨_, takeDigits?_two (by omega) _, ?_⟩
  refine Option.bind_eq_some_iff.2 ⟨_, takeChar?_cons _ _, ?_⟩
  refine Option.bind_eq_some_iff.2 ⟨_, takeDigits?_two (by omega) _, ?_⟩
  refine Option.bind_eq_some_iff.2 ⟨_, fraction, Option.bind_eq_some_iff.2 ⟨(0, []), rfl, ?_⟩⟩
  refine (if_pos rfl).trans ?_
  rw [same]
  exact ofCivil?_clock instant

/-! ### Years with a sign -/

/-- A year of more or fewer than four digits is written with a sign. -/
theorem chars_of_not_hasPlainYear {instant : Instant} (other : ¬HasPlainYear instant) :
    ∃ sign, (sign = '-' ∨ sign = '+') ∧
      instant.day.chars = sign :: (padded 4 instant.day.year.natAbs ++
        '-' :: (padded 2 instant.day.month ++ '-' :: padded 2 instant.day.day)) := by
  have outside : ¬(0 ≤ instant.day.year && instant.day.year ≤ 9999) = true := by
    simpa [HasPlainYear] using other
  refine ⟨if instant.day.year < 0 then '-' else '+', by split <;> simp, ?_⟩
  rw [Day.chars, yearChars, if_neg outside]
  simp

/-- The day of a written form with a sign is read up to the time, if it is read at all. -/
theorem takeDay?_format {instant : Instant} (other : ¬HasPlainYear instant) (rest : List Char) :
    takeDay? (instant.day.chars ++ 'T' :: rest) = none ∨
      ∃ day, takeDay? (instant.day.chars ++ 'T' :: rest) = some (day, 'T' :: rest) := by
  obtain ⟨sign, signs, chars⟩ := chars_of_not_hasPlainYear other
  have valid : instant.day.isValid = true := Day.isValid_ofNumber _
  have year : ∃ year, takeYear? (instant.day.chars ++ 'T' :: rest) =
      some (year, '-' :: (padded 2 instant.day.month ++ '-' ::
        (padded 2 instant.day.day ++ 'T' :: rest))) := by
    rw [chars]
    simp only [List.cons_append, List.append_assoc]
    have digits := takeDigits?_all 4 instant.day.year.natAbs (endsDigits_cons (c := '-') (by decide)
      (padded 2 instant.day.month ++ '-' :: (padded 2 instant.day.day ++ 'T' :: rest)))
    rcases signs with rfl | rfl
    · refine ⟨-(instant.day.year.natAbs : Int), ?_⟩
      rw [takeYear?, Text.trimStart, List.dropWhile_cons_of_neg (by decide)]
      simp only [digits, Option.map_some]
    · refine ⟨instant.day.year.natAbs, ?_⟩
      rw [takeYear?, Text.trimStart, List.dropWhile_cons_of_neg (by decide)]
      simp only [digits, Option.map_some]
  obtain ⟨year, taken⟩ := year
  simp only [takeDay?, taken, takeChar?_cons, Option.bind_eq_bind, Option.bind_some,
    takeLoose?_two (Day.month_lt_of_isValid valid), takeLoose?_two (Day.day_lt_of_isValid valid)]
  split
  · exact .inr ⟨_, rfl⟩
  · exact .inl rfl

/-- Where no digit stands there are no digits to take. -/
theorem takeDigits?_eq_none {c : Char} (other : c.isDigit = false) (least most : Nat)
    (rest : List Char) : takeDigits? (least + 1) most (c :: rest) = none := by
  have nothing : ((c :: rest).take most).takeWhile Char.isDigit = [] := by
    cases most with
    | zero => rfl
    | succ most => rw [List.take_succ_cons, List.takeWhile_cons_of_neg (by simp [other])]
  rw [takeDigits?, nothing]
  rfl

/-- Where a time starts there is no number. -/
theorem takeLoose?_time (most : Nat) (rest : List Char) : takeLoose? most ('T' :: rest) = none := by
  cases most <;> simp [takeLoose?, Text.trimStart, takeDigits?, Text.isBlank]

/-- A written form with a sign is no date and time, and no date. -/
theorem parse?_of_not_hasPlainYear {instant : Instant} (other : ¬HasPlainYear instant) :
    parseExact? instant.format.toList = none ∧ parseClock? instant.format.toList = none ∧
      parseDay? instant.format.toList = none := by
  rw [toList_format]
  refine ⟨?_, ?_, ?_⟩
  · obtain ⟨sign, signs, chars⟩ := chars_of_not_hasPlainYear other
    have noDigit : sign.isDigit = false := by rcases signs with rfl | rfl <;> rfl
    rw [chars, List.cons_append, parseExact?, takeDigits?_eq_none noDigit]
    rfl
  · rcases takeDay?_format other (clockChars instant.clock) with none | ⟨day, taken⟩
    · simp [parseClock?, none]
    · simp [parseClock?, taken, takeLoose?_time]
  · rcases takeDay?_format other (clockChars instant.clock) with none | ⟨day, taken⟩
    · simp [parseDay?, none]
    · simp [parseDay?, taken]

/-- There are no blanks around the written form. -/
theorem trim_format (instant : Instant) :
    Text.trim instant.format.toList = instant.format.toList := by
  refine Text.trim_eq_self ?starts ?ends
  case starts =>
    rw [toList_format]
    by_cases plain : HasPlainYear instant
    · rw [chars_of_hasPlainYear plain]
      cases digits : padded 4 instant.day.year.toNat with
      | nil => exact absurd digits (padded_ne_nil _ _)
      | cons c more =>
          have member : c ∈ padded 4 instant.day.year.toNat := digits ▸ List.mem_cons_self
          intro first same
          exact Option.some.inj same ▸ isBlank_of_isDigit (isDigit_padded member)
    · obtain ⟨sign, signs, chars⟩ := chars_of_not_hasPlainYear plain
      rw [chars]
      intro first same
      rw [← Option.some.inj (same : some sign = some first)]
      rcases signs with rfl | rfl <;> decide
  case ends =>
    have last : instant.format.toList.getLast? = some 'Z' := by
      rw [toList_format, clockChars, ← List.cons_append, ← List.append_assoc]
      exact List.getLast?_concat
    rw [last]
    intro c same
    exact Option.some.inj same ▸ (by decide)

/-- The written form of an instant is read back as the instant when its year has four digits, and is
not read otherwise. -/
theorem parse?_format (instant : Instant) :
    parse? instant.format = if HasPlainYear instant then some instant else none := by
  rw [parse?, trim_format]
  split
  · next plain => rw [parseExact?_format plain, Option.some_or]
  · next other =>
      obtain ⟨exact, clock, day⟩ := parse?_of_not_hasPlainYear other
      rw [exact, clock, day]
      rfl

/-! ### Fractions -/

/-- Whether digits are the fraction of a second that is a number of nanoseconds: three, six or nine of
them, and the fewest of these that have that value. -/
structure IsFraction (digits : List Char) (nanos : Nat) : Prop where
  decimal : ∀ c ∈ digits, c.isDigit = true
  width : digits.length ∈ [3, 6, 9]
  value : numberOf digits * 10 ^ (9 - digits.length) = nanos
  least : ∀ width ∈ [3, 6, 9], 10 ^ (9 - width) ∣ nanos → digits.length ≤ width

/-- A number in a width is a fraction if no smaller width would do. -/
theorem isFraction_padded {width n : Nat} (wide : width ∈ [3, 6, 9]) (fits : n < 10 ^ width)
    (least : ∀ other ∈ [3, 6, 9], 10 ^ (9 - other) ∣ n * 10 ^ (9 - width) → width ≤ other) :
    IsFraction (padded width n) (n * 10 ^ (9 - width)) := by
  have positive : 0 < width := by
    simp only [List.mem_cons, List.not_mem_nil, or_false] at wide
    omega
  have length := length_padded positive fits
  exact ⟨fun c => isDigit_padded, by rwa [length], by rw [numberOf_padded, length], by rwa [length]⟩

/-- The fraction that is written stands for the nanoseconds. -/
theorem isFraction_fractionChars {nanos : Nat} (lt : nanos < 1000000000) :
    IsFraction (fractionChars nanos) nanos := by
  rw [fractionChars]
  split
  case isTrue millis =>
    have value : nanos / 1000000 * 10 ^ (9 - 3) = nanos := by omega
    have fraction := @isFraction_padded 3 (nanos / 1000000) (by decide) (by omega) (by simp)
    rwa [value] at fraction
  case isFalse notMillis =>
    split
    case isTrue micros =>
      have value : nanos / 1000 * 10 ^ (9 - 6) = nanos := by omega
      have fraction := @isFraction_padded 6 (nanos / 1000) (by decide) (by omega) (by
        rw [value]
        simp only [List.forall_mem_cons, Nat.reduceSub, Nat.reducePow]
        exact ⟨by omega, by omega, by omega, nofun⟩)
      rwa [value] at fraction
    case isFalse notMicros =>
      have fraction := @isFraction_padded 9 nanos (by decide) lt (by
        simp only [List.forall_mem_cons, Nat.reduceSub, Nat.reducePow]
        exact ⟨by omega, by omega, by omega, nofun⟩)
      rwa [show nanos * 10 ^ (9 - 9) = nanos by omega] at fraction

/-- Only the fraction of a second has a point in front of it. -/
theorem exists_fraction (instant : Instant) :
    ∃ front digits, instant.format.toList = front ++ '.' :: digits ++ ['Z'] ∧ '.' ∉ front ∧
      IsFraction digits instant.nanos := by
  have noPoint (width n : Nat) : '.' ∉ padded width n := fun member =>
    absurd (isDigit_padded member) (by decide)
  have day : '.' ∉ instant.day.chars := by
    have year : '.' ∉ yearChars instant.day.year := by
      rw [yearChars]
      split
      · exact noPoint _ _
      · rw [List.mem_cons, not_or]
        exact ⟨by split <;> decide, noPoint _ _⟩
    simp [Day.chars, year, noPoint]
  refine ⟨instant.day.chars ++ 'T' :: (padded 2 instant.clock.hour ++ ':' ::
    padded 2 instant.clock.minute ++ ':' :: padded 2 instant.clock.second),
    fractionChars instant.nanos, ?_, ?_, isFraction_fractionChars instant.nanos_lt⟩
  · rw [toList_format, clockChars]
    simp [clock]
  · simp [day, noPoint]

/-! ### Instants that are written alike -/

/-- A number is told by its digits and by what follows them. -/
theorem padded_append_inj {width m n : Nat} {rest more : List Char} (ends : EndsDigits rest)
    (ends' : EndsDigits more) (same : padded width m ++ rest = padded width n ++ more) :
    m = n ∧ rest = more := by
  have taken := takeDigits?_all width m ends
  rw [same, takeDigits?_all width n ends'] at taken
  obtain ⟨rfl, rfl⟩ := Prod.mk.inj (Option.some.inj taken)
  exact ⟨rfl, rfl⟩

/-- A year has a sign in front of it exactly when it has not got four digits. -/
theorem yearChars_append_inj {year other : Int} {rest more : List Char} (ends : EndsDigits rest)
    (ends' : EndsDigits more) (same : yearChars year ++ rest = yearChars other ++ more) :
    year = other ∧ rest = more := by
  have noSign (n : Nat) (sign : Char) (signs : sign.isDigit = false) (tail tail' : List Char) :
      padded 4 n ++ tail ≠ sign :: tail' := by
    intro same
    cases digits : padded 4 n with
    | nil => exact padded_ne_nil 4 n digits
    | cons c others =>
        rw [digits] at same
        obtain ⟨rfl, -⟩ := List.cons.inj same
        rw [isDigit_padded (digits ▸ List.mem_cons_self)] at signs
        cases signs
  have isSign (year : Int) : (if year < 0 then '-' else '+').isDigit = false := by split <;> rfl
  simp only [yearChars, Bool.and_eq_true, decide_eq_true_eq] at same
  -- Years of four digits begin with a digit and all others with a sign, so both years are alike.
  by_cases plain : 0 ≤ year ∧ year ≤ 9999
  · rw [if_pos plain] at same
    by_cases plain' : 0 ≤ other ∧ other ≤ 9999
    · rw [if_pos plain'] at same
      obtain ⟨value, rfl⟩ := padded_append_inj ends ends' same
      exact ⟨by omega, rfl⟩
    · rw [if_neg plain'] at same
      exact absurd same (noSign _ _ (isSign other) _ _)
  · rw [if_neg plain] at same
    by_cases plain' : 0 ≤ other ∧ other ≤ 9999
    · rw [if_pos plain'] at same
      exact absurd same.symm (noSign _ _ (isSign year) _ _)
    · rw [if_neg plain'] at same
      obtain ⟨sign, behind⟩ := List.cons.inj same
      obtain ⟨value, rfl⟩ := padded_append_inj ends ends' behind
      have minus (n : Int) : (if n < 0 then '-' else '+') = '-' ↔ n < 0 := by
        split <;> simp [*]
      have alike : year < 0 ↔ other < 0 := by rw [← minus year, sign, minus other]
      exact ⟨by omega, rfl⟩

/-- A day is told from its text, whatever follows. -/
theorem Day.chars_append_inj {d other : Day} {rest more : List Char} (ends : EndsDigits rest)
    (ends' : EndsDigits more) (same : d.chars ++ rest = other.chars ++ more) :
    d = other ∧ rest = more := by
  have hyphen (tail : List Char) : EndsDigits ('-' :: tail) := endsDigits_cons (by decide) tail
  simp only [Day.chars, List.append_assoc, List.cons_append] at same
  obtain ⟨year, same⟩ := yearChars_append_inj (hyphen _) (hyphen _) same
  obtain ⟨month, same⟩ := padded_append_inj (hyphen _) (hyphen _) (List.cons.inj same).2
  obtain ⟨day, rfl⟩ := padded_append_inj ends ends' (List.cons.inj same).2
  refine ⟨?_, rfl⟩
  cases d
  cases other
  simp only [Day.mk.injEq]
  exact ⟨year, month, day⟩

/-- A time of day is told from its text. -/
theorem clockChars_inj {time other : Clock} (lt : time.nanos < 1000000000)
    (lt' : other.nanos < 1000000000) (same : clockChars time = clockChars other) : time = other := by
  have colon (tail : List Char) : EndsDigits (':' :: tail) := endsDigits_cons (by decide) tail
  have point (tail : List Char) : EndsDigits ('.' :: tail) := endsDigits_cons (by decide) tail
  have zone : EndsDigits ['Z'] := endsDigits_cons (by decide) []
  simp only [clockChars, List.append_assoc, List.cons_append] at same
  obtain ⟨hour, same⟩ := padded_append_inj (colon _) (colon _) same
  obtain ⟨minute, same⟩ := padded_append_inj (colon _) (colon _) (List.cons.inj same).2
  obtain ⟨second, same⟩ := padded_append_inj (point _) (point _) (List.cons.inj same).2
  have fraction := takeFraction?_fractionChars lt zone
  rw [(List.cons.inj same).2, takeFraction?_fractionChars lt' zone] at fraction
  obtain ⟨nanos, -⟩ := Prod.mk.inj (Option.some.inj fraction)
  cases time
  cases other
  simp only [Clock.mk.injEq]
  exact ⟨hour, minute, second, nanos.symm⟩

/-- An instant is told by its written form. -/
theorem eq_of_format_eq {first second : Instant} (same : first.format = second.format) :
    first = second := by
  have chars := congrArg String.toList same
  rw [toList_format, toList_format] at chars
  have time (tail : List Char) : EndsDigits ('T' :: tail) := endsDigits_cons (by decide) tail
  obtain ⟨day, behind⟩ := Day.chars_append_inj (time _) (time _) chars
  have clock : first.clock = second.clock :=
    clockChars_inj first.nanos_lt second.nanos_lt (List.cons.inj behind).2
  have civil := ofCivil?_clock first
  rw [day, clock, ofCivil?_clock second] at civil
  exact (Option.some.inj civil).symm

/-- The written form of an instant, in a leap second or not, is read back as the instant if its year is one
of 0 to 9999. It ends in the zone `Z` with a fraction of a second in front of that, in three, six or nine
digits, the fewest that keep all nanoseconds. Instants are written alike only if they are equal. -/
theorem format_faithful :
    (∀ instant : Instant, HasPlainYear instant → parse? instant.format = some instant) ∧
      (∀ instant : Instant, ∃ front digits,
        instant.format.toList = front ++ '.' :: digits ++ ['Z'] ∧ '.' ∉ front ∧
          IsFraction digits instant.nanos) ∧
      ∀ first second : Instant, first.format = second.format → first = second := by
  refine ⟨fun instant plain => ?_, exists_fraction, fun _ _ => eq_of_format_eq⟩
  rw [parse?_format, if_pos plain]

/-- The leap second at the end of the year 2016, in which 120 microseconds have passed. -/
def leapSecond : Instant :=
  ⟨1483228799, 120000, true, by decide, by decide⟩

/-- A leap second with a fraction is written with its sixtieth second and read back. -/
theorem format_faithful_leapSecond :
    HasPlainYear leapSecond ∧ leapSecond.format = "2016-12-31T23:59:60.000120Z" ∧
      parse? "2016-12-31T23:59:60.000120Z" = some leapSecond := by
  have plain : HasPlainYear leapSecond := by decide
  have written : leapSecond.format = "2016-12-31T23:59:60.000120Z" := by decide +kernel
  exact ⟨plain, written, written ▸ format_faithful.1 leapSecond plain⟩

end DocPress.Instant
