import DocPress.Date

/-!
The calendar. Counting days from the start of 1970 and naming the day of a count are inverse, and what
is named is a day of the calendar. The calendar repeats itself every 400 years, which begin in March
here.
-/

namespace DocPress.Instant

/-! ### The years of 400 -/

/-- The number of days in front of a year of 400. -/
def yearStart (year : Int) : Int :=
  365 * year + year / 4 - year / 100 + year / 400

/-- The year of 400 that a day is in. -/
def yearOf (day : Int) : Int :=
  (day - day / 1460 + day / 36524 - day / 146096) / 365

theorem yearOf_mono {day later : Int} (le : day ≤ later) : yearOf day ≤ yearOf later := by
  have short : day - day / 1460 ≤ later - later / 1460 := by omega
  have long : day / 36524 - day / 36524 / 4 ≤ later / 36524 - later / 36524 / 4 := by omega
  have nested (n : Int) : n / 36524 / 4 = n / 146096 := Int.ediv_ediv_of_nonneg (by decide)
  rw [nested, nested] at long
  exact Int.ediv_le_ediv (by decide) (by omega)

/-- The first and the last day of each year are in that year. -/
theorem yearOf_yearStart : ∀ year : Fin 400,
    yearOf (yearStart year) = year ∧ yearOf (yearStart (year + 1) - 1) = year := by
  decide +kernel

/-- Each day of 400 years is a day of one of them. -/
theorem exists_year {day : Int} (nonneg : 0 ≤ day) :
    ∀ years : Nat, day < yearStart years →
      ∃ year : Nat, year < years ∧ yearStart year ≤ day ∧ day < yearStart (year + 1) := by
  intro years
  induction years with
  | zero =>
      intro before
      have start : yearStart ((0 : Nat) : Int) = 0 := by decide
      omega
  | succ years ih =>
      intro before
      by_cases earlier : day < yearStart years
      · obtain ⟨year, lt, within⟩ := ih earlier
        exact ⟨year, Nat.lt_succ_of_lt lt, within⟩
      · exact ⟨years, Nat.lt_succ_self years, by omega, by exact_mod_cast before⟩

/-- A day of 400 years is in its year. -/
theorem yearOf_spec {day : Int} (nonneg : 0 ≤ day) (before : day < 146097) :
    ∃ year : Nat, year < 400 ∧ yearOf day = year ∧ yearStart year ≤ day ∧
      day < yearStart (year + 1) := by
  obtain ⟨year, lt, starts, ends⟩ := exists_year nonneg 400 before
  obtain ⟨first, last⟩ := yearOf_yearStart ⟨year, lt⟩
  have least := yearOf_mono starts
  have greatest := yearOf_mono (show day ≤ yearStart (year + 1) - 1 by omega)
  exact ⟨year, lt, by simp only at first last; omega, starts, ends⟩

/-! ### The days of a year -/

/-- The month of a year that a day is in; both are counted from the first of March. -/
def monthOf (dayOfYear : Int) : Int :=
  (5 * dayOfYear + 2) / 153

/-- The number of days in front of a month of a year. -/
def monthStart (month : Int) : Int :=
  (153 * month + 2) / 5

/-- The calendar's number for a month that is counted from March. -/
def monthNumber (month : Int) : Int :=
  if month < 10 then month + 3 else month - 9

theorem monthOf_spec {day : Int} (nonneg : 0 ≤ day) (le : day ≤ 365) :
    0 ≤ monthOf day ∧ monthOf day ≤ 11 ∧ monthStart (monthOf day) ≤ day ∧
      day < monthStart (monthOf day + 1) := by
  simp only [monthOf, monthStart]
  omega

/-- A year has a 366th day exactly when the February at its end has a 29th. -/
theorem isLeapYear_of_lastDay {year : Nat} (lt : year < 400)
    (last : yearStart year + 365 < yearStart (year + 1)) (era : Int) :
    isLeapYear (year + era * 400 + 1) = true := by
  simp only [yearStart] at last
  simp only [isLeapYear, Bool.and_eq_true, Bool.or_eq_true, decide_eq_true_eq, bne_iff_ne]
  omega

/-- Each month has as many days as the calendar gives it. -/
theorem le_daysInMonth {month day : Int} (year : Int) (first : 0 ≤ month) (last : month ≤ 11)
    (starts : monthStart month ≤ day) (ends : day < monthStart (month + 1)) (le : day ≤ 365)
    (leap : day = 365 → isLeapYear year = true) :
    (day - monthStart month + 1).toNat ≤ daysInMonth year (monthNumber month).toNat := by
  have cases : month = 0 ∨ month = 1 ∨ month = 2 ∨ month = 3 ∨ month = 4 ∨ month = 5 ∨ month = 6 ∨
      month = 7 ∨ month = 8 ∨ month = 9 ∨ month = 10 ∨ month = 11 := by omega
  rcases cases with rfl | rfl | rfl | rfl | rfl | rfl | rfl | rfl | rfl | rfl | rfl | rfl
  case inr.inr.inr.inr.inr.inr.inr.inr.inr.inr.inr =>
    by_cases final : day = 365
    · simp [monthStart, monthNumber, daysInMonth, leap final, final]
    · simp [monthStart, monthNumber, daysInMonth] at *
      split <;> omega
  all_goals
    simp [monthStart, monthNumber, daysInMonth] at *
    omega

/-! ### Days and their numbers -/

/-- The day of the calendar in a year of 400, where days of the year and months are counted from
March. -/
def dayIn (era year dayOfYear : Int) : Day :=
  let month := monthOf dayOfYear
  let year := year + era * 400
  ⟨if monthNumber month ≤ 2 then year + 1 else year, (monthNumber month).toNat,
    (dayOfYear - monthStart month + 1).toNat⟩

/-- A day of a year of 400. -/
structure IsDayOf (year : Nat) (dayOfYear : Int) : Prop where
  year_lt : year < 400
  nonneg : 0 ≤ dayOfYear
  le : dayOfYear ≤ 365
  leap : dayOfYear = 365 → yearStart year + 365 < yearStart (year + 1)

/-- The day of a number is a day of a year of 400, and the number counts the days before it. -/
theorem exists_dayIn (number : Int) :
    ∃ (era : Int) (year : Nat) (dayOfYear : Int), IsDayOf year dayOfYear ∧
      number + 719468 = era * 146097 + yearStart year + dayOfYear ∧
      Day.ofNumber number = dayIn era year dayOfYear := by
  obtain ⟨year, lt, is, starts, ends⟩ :=
    @yearOf_spec (number + 719468 - (number + 719468) / 146097 * 146097)
      (by omega) (by omega)
  have start : yearStart year = 365 * year + year / 4 - year / 100 := by
    simp only [yearStart]
    omega
  have length : yearStart (year + 1) ≤ yearStart year + 366 := by
    simp only [yearStart]
    omega
  have named : Day.ofNumber number = dayIn ((number + 719468) / 146097) year
      (number + 719468 - (number + 719468) / 146097 * 146097 - yearStart year) := by
    rw [start, ← is]
    rfl
  exact ⟨_, year, _, ⟨lt, by omega, by omega, by omega⟩, by omega, named⟩

theorem dayIn_isValid {year : Nat} {dayOfYear : Int} (inside : IsDayOf year dayOfYear) (era : Int) :
    (dayIn era year dayOfYear).isValid = true := by
  obtain ⟨first, last, starts, ends⟩ := monthOf_spec inside.nonneg inside.le
  have leap : dayOfYear = 365 →
      isLeapYear (dayIn era year dayOfYear).year = true := by
    rintro rfl
    exact isLeapYear_of_lastDay inside.year_lt (inside.leap rfl) era
  have bounded := le_daysInMonth (dayIn era year dayOfYear).year first last starts ends inside.le leap
  simp only [Day.isValid, Bool.and_eq_true, decide_eq_true_eq]
  refine ⟨⟨⟨?_, ?_⟩, ?_⟩, bounded⟩
  · simp only [dayIn, monthNumber]
    split <;> omega
  · simp only [dayIn, monthNumber]
    split <;> omega
  · simp only [dayIn]
    omega

/-- The year that begins in March, from a day of the calendar. -/
theorem dayIn_marchYear {dayOfYear : Int} (nonneg : 0 ≤ monthOf dayOfYear) (era year : Int) :
    (if (dayIn era year dayOfYear).month ≤ 2 then (dayIn era year dayOfYear).year - 1
      else (dayIn era year dayOfYear).year) = year + era * 400 := by
  simp only [dayIn, monthNumber]
  split <;> split <;> omega

/-- The month from March, from a day of the calendar. -/
theorem dayIn_marchMonth {dayOfYear : Int} (nonneg : 0 ≤ monthOf dayOfYear)
    (le : monthOf dayOfYear ≤ 11) (era year : Int) :
    (if 2 < (dayIn era year dayOfYear).month then ((dayIn era year dayOfYear).month : Int) - 3
      else (dayIn era year dayOfYear).month + 9) = monthOf dayOfYear := by
  simp only [dayIn, monthNumber]
  split <;> split <;> omega

theorem dayIn_toNumber {year : Nat} {dayOfYear : Int} (inside : IsDayOf year dayOfYear)
    (era : Int) :
    (dayIn era year dayOfYear).toNumber + 719468 =
      era * 146097 + yearStart year + dayOfYear := by
  obtain ⟨first, last, starts, ends⟩ := monthOf_spec inside.nonneg inside.le
  have lt := inside.year_lt
  have day : ((dayIn era year dayOfYear).day : Int) =
      dayOfYear - monthStart (monthOf dayOfYear) + 1 := by
    simp only [dayIn]
    omega
  simp only [Day.toNumber, dayIn_marchYear first, dayIn_marchMonth first last, day]
  simp only [yearStart, monthStart]
  omega

/-- The day of a number is a day of the calendar. -/
theorem Day.isValid_ofNumber (number : Int) : (Day.ofNumber number).isValid = true := by
  obtain ⟨era, year, dayOfYear, inside, -, named⟩ := exists_dayIn number
  rw [named]
  exact dayIn_isValid inside era

/-- The day of a number has that number. -/
theorem Day.toNumber_ofNumber (number : Int) : (Day.ofNumber number).toNumber = number := by
  obtain ⟨era, year, dayOfYear, inside, counted, named⟩ := exists_dayIn number
  have number_eq := dayIn_toNumber inside era
  rw [named]
  omega

theorem Day.month_lt_of_isValid {d : Day} (valid : d.isValid = true) : d.month < 100 := by
  simp only [Day.isValid, Bool.and_eq_true, decide_eq_true_eq] at valid
  omega

theorem Day.day_lt_of_isValid {d : Day} (valid : d.isValid = true) : d.day < 100 := by
  have bound : daysInMonth d.year d.month ≤ 31 := by
    simp only [daysInMonth]
    split
    · split <;> omega
    · split <;> omega
  simp only [Day.isValid, Bool.and_eq_true, decide_eq_true_eq] at valid
  omega

end DocPress.Instant
