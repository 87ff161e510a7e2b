import Mathlib.Data.List.TakeDrop
import DocPress.Json.Located

/-!
Reading texts and whole numbers. A text in quotes is read as itself, whatever it holds. The digits of a
number of 64 bits are read back as the number, before anything that does not go on with it.
-/

namespace DocPress.Json

/-! ### Texts -/

theorem hexValue?_hexDigit {n : Nat} (small : n < 16) : hexValue? (hexDigit n) = some n := by
  have all : ∀ digit < 16, hexValue? (hexDigit digit) = some digit := by decide
  exact all n small

/-- The four digits of a control character are read as its code. -/
theorem readUnicode_control {n : Nat} (control : n < 32) (rest : List Char) (place : Place) :
    readUnicode ⟨'0' :: '0' :: hexDigit (n / 16) :: hexDigit (n % 16) :: rest, place⟩ =
      .ok (Char.ofNat n, ⟨rest, place.along 4⟩) := by
  have zero : hexValue? '0' = some 0 := by decide
  have high := hexValue?_hexDigit (n := n / 16) (by omega)
  have low := hexValue?_hexDigit (n := n % 16) (by omega)
  have whole : 0 * 4096 + 0 * 256 + n / 16 * 16 + n % 16 = n := by omega
  have digits : readHex ⟨'0' :: '0' :: hexDigit (n / 16) :: hexDigit (n % 16) :: rest, place⟩ =
      .ok (n, ⟨rest, place.along 4⟩) := by
    simp only [readHex, zero, high, low, whole]
  have trailing : ¬(56320 ≤ n ∧ n ≤ 57343) := by omega
  have leading : n < 55296 := by omega
  simp [readUnicode, digits, bind, Except.bind, trailing, leading]

/-- A backslash and a letter are read as the character that they stand for. -/
theorem readText_simpleEscape {letter c : Char} (simple : simpleEscape? letter = some c)
    (fuel : Nat) (rest : List Char) (place : Place) :
    readText (fuel + 1) ⟨'\\' :: letter :: rest, place⟩ =
      (readText fuel ⟨rest, place.along 2⟩).map fun read => (c :: read.1, read.2) := by
  have notCode : letter ≠ 'u' := by
    rintro rfl
    exact absurd simple (by simp [simpleEscape?])
  cases behind : readText fuel ⟨rest, place.along 2⟩ <;>
    simp [readText, simple, behind, Except.map, bind, Except.bind]

/-- An escaped character is read as the character. -/
theorem readText_escapeChar (c : Char) (fuel : Nat) (rest : List Char) (place : Place) :
    ∃ next, readText (fuel + 1) ⟨escapeChar c ++ rest, place⟩ =
      (readText fuel ⟨rest, next⟩).map fun read => (c :: read.1, read.2) := by
  have ofCode {n : Nat} (code : c.toNat = n) : c = Char.ofNat n := by
    rw [← code, Char.ofNat_toNat]
  -- One case for each test of the writer, in its order.
  unfold escapeChar
  split
  · next quote =>
      subst quote
      exact ⟨_, readText_simpleEscape (by decide) fuel rest place⟩
  split
  · next backslash =>
      subst backslash
      exact ⟨_, readText_simpleEscape (by decide) fuel rest place⟩
  split
  · next code =>
      rw [ofCode code]
      exact ⟨_, readText_simpleEscape (by decide) fuel rest place⟩
  split
  · next code =>
      rw [ofCode code]
      exact ⟨_, readText_simpleEscape (by decide) fuel rest place⟩
  split
  · next code =>
      rw [ofCode code]
      exact ⟨_, readText_simpleEscape (by decide) fuel rest place⟩
  split
  · next code =>
      rw [ofCode code]
      exact ⟨_, readText_simpleEscape (by decide) fuel rest place⟩
  split
  · next code =>
      rw [ofCode code]
      exact ⟨_, readText_simpleEscape (by decide) fuel rest place⟩
  split
  · next control =>
      refine ⟨(place.along 2).along 4, ?_⟩
      have read := readUnicode_control control rest (place.along 2)
      rw [Char.ofNat_toNat] at read
      cases behind : readText fuel ⟨rest, (place.along 2).along 4⟩ <;>
        simp [readText, read, behind, Except.map, bind, Except.bind]
  · next notQuote notBackslash _ _ _ _ _ solid =>
      refine ⟨place.after c, ?_⟩
      cases behind : readText fuel ⟨rest, place.after c⟩ <;>
        simp [readText, notQuote, notBackslash, solid, behind, Except.map, bind, Except.bind]

/-- A text in quotes is read back after its opening quote. -/
theorem readText_quote {text : List Char} : ∀ {fuel : Nat} (rest : List Char)
    (place : Place), text.length < fuel →
      ∃ stop, readText fuel ⟨text.flatMap escapeChar ++ '"' :: rest, place⟩ =
        .ok (text, ⟨rest, stop⟩) := by
  induction text with
  | nil =>
      intro fuel rest place enough
      cases fuel with
      | zero => simp at enough
      | succ fuel => exact ⟨place.along 1, rfl⟩
  | cons c text ih =>
      intro fuel rest place enough
      cases fuel with
      | zero => simp at enough
      | succ fuel =>
          rw [List.flatMap_cons, List.append_assoc]
          obtain ⟨next, step⟩ :=
            readText_escapeChar c fuel (text.flatMap escapeChar ++ '"' :: rest) place
          obtain ⟨stop, behind⟩ := ih rest next (Nat.lt_of_succ_lt_succ enough)
          exact ⟨stop, by rw [step, behind]; rfl⟩

theorem escapeChar_ne_nil (c : Char) : escapeChar c ≠ [] := by
  unfold escapeChar
  repeat' split
  all_goals exact List.cons_ne_nil _ _

/-- Escaping does not make a text shorter. -/
theorem length_le_flatMap_escapeChar (text : List Char) :
    text.length ≤ (text.flatMap escapeChar).length := by
  induction text with
  | nil => exact Nat.le_refl 0
  | cons c text ih =>
      have first := List.length_pos_iff.2 (escapeChar_ne_nil c)
      rw [List.length_cons, List.flatMap_cons, List.length_append]
      omega

/-- A quoted text is read back in front of anything. -/
theorem exists_readText (text rest : List Char) :
    ∃ line, quote text ++ rest = '"' :: line ∧ ∀ place, ∃ stop,
      readText (line.length + 1) ⟨line, place⟩ = .ok (text, ⟨rest, stop⟩) := by
  refine ⟨text.flatMap escapeChar ++ '"' :: rest, by simp [quote], fun place => ?_⟩
  have escaped := length_le_flatMap_escapeChar text
  exact readText_quote rest place (by rw [List.length_append]; omega)

/-! ### Numbers -/

/-- Whether a text goes on with no part of a number. -/
def EndsNumber (rest : List Char) : Prop :=
  ∀ c, rest.head? = some c → c.isDigit = false ∧ c ≠ '.' ∧ c ≠ 'e' ∧ c ≠ 'E'

variable {n : Nat} {rest : List Char}

theorem isDigit_toDigits {c : Char} (member : c ∈ Nat.toDigits 10 n) : c.isDigit = true :=
  Nat.isDigit_of_mem_toDigits (by decide) (by decide) member

/-- A number is written with a digit in front. -/
theorem exists_toDigits (n : Nat) :
    ∃ first others, Nat.toDigits 10 n = first :: others ∧ first.isDigit = true := by
  cases digits : Nat.toDigits 10 n with
  | nil => exact absurd digits Nat.toDigits_ne_nil
  | cons first others =>
      exact ⟨first, others, rfl, isDigit_toDigits (n := n) (digits ▸ List.mem_cons_self)⟩

/-- Only zero is written with a zero in front. -/
theorem eq_zero_of_toDigits : ∀ {n : Nat} {rest : List Char},
    Nat.toDigits 10 n = '0' :: rest → n = 0 := by
  intro n
  induction n using Nat.strongRecOn with
  | ind n ih =>
      intro rest written
      by_cases single : n < 10
      · have first : ∀ digit < 10, Nat.digitChar digit = '0' → digit = 0 := by decide
        rw [Nat.toDigits_of_lt_base single] at written
        exact first n single (List.cons.inj written).1
      · rw [Nat.toDigits_of_base_le (by decide) (by omega)] at written
        cases front : Nat.toDigits 10 (n / 10) with
        | nil => exact absurd front Nat.toDigits_ne_nil
        | cons c more =>
            rw [front, List.cons_append] at written
            obtain ⟨rfl, -⟩ := List.cons.inj written
            have zero := ih (n / 10) (by omega) front
            omega

/-- The digits of a number are taken off as a whole. -/
theorem digitsOf_toDigits (ends : EndsNumber rest) :
    digitsOf (Nat.toDigits 10 n ++ rest) = (Nat.toDigits 10 n, rest) := by
  have all : ∀ c ∈ Nat.toDigits 10 n, c.isDigit = true := fun c member => isDigit_toDigits member
  have none : rest.takeWhile Char.isDigit = [] ∧ rest.dropWhile Char.isDigit = rest := by
    cases rest with
    | nil => exact ⟨rfl, rfl⟩
    | cons c rest => simp [(ends c rfl).1]
  rw [digitsOf, List.span_eq_takeWhile_dropWhile, List.takeWhile_append_of_pos all,
    List.dropWhile_append_of_pos all, none.1, none.2, List.append_nil]

theorem le_ofDigitChars (digits : List Char) (start : Nat) :
    start ≤ Nat.ofDigitChars 10 digits start := by
  rw [Nat.ofDigitChars_eq_ofDigitChars_zero]
  have positive := Nat.one_le_pow digits.length 10 (by decide)
  have grows := Nat.mul_le_mul_right start positive
  omega

/-- Digits are taken in one by one when the whole number fits. -/
theorem accumulate_digits (digits : List Char) : ∀ {significand count : Nat},
    Nat.ofDigitChars 10 digits significand < UInt64.size →
    accumulate digits significand count =
      (Nat.ofDigitChars 10 digits significand, count + digits.length) := by
  induction digits with
  | nil => intro significand count _; rfl
  | cons c digits ih =>
      intro significand count fits
      have step : significand * 10 + digitValue c = 10 * significand + (c.toNat - '0'.toNat) := by
        rw [digitValue, Nat.mul_comm]
        rfl
      rw [Nat.ofDigitChars_cons] at fits ⊢
      have next := Nat.lt_of_le_of_lt (le_ofDigitChars digits _) fits
      rw [accumulate]
      simp only [step]
      rw [if_pos next, ih fits, List.length_cons]
      congr 1
      omega

/-- The whole number that digits stand for, with its sign. -/
def signed (negative : Bool) (n : Nat) : Int :=
  if negative then -(n : Int) else n

/-- Whether a whole number fits in 64 bits, with or without a sign. -/
def FitsWord (negative : Bool) (n : Nat) : Prop :=
  if negative then 0 < n ∧ n ≤ 1 <<< 63 else n < UInt64.size

theorem value_toDigits {negative : Bool} (fits : FitsWord negative n) :
    (Numeral.mk negative (Nat.toDigits 10 n) none none).value = .ok (.int (signed negative n)) := by
  have small : n < UInt64.size := by
    cases negative with
    | false => exact fits
    | true => exact Nat.lt_of_le_of_lt fits.2 (by decide)
  have taken : accumulate (Nat.toDigits 10 n) 0 0 = (n, (Nat.toDigits 10 n).length) := by
    have whole := Nat.ofDigitChars_toDigits (b := 10) (n := n) (by decide) (by decide)
    rw [accumulate_digits _ (by rw [whole]; exact small), whole, Nat.zero_add]
  cases negative with
  | false => simp [Numeral.value, taken, accumulate, signed]
  | true =>
      have nonzero : n ≠ 0 := Nat.ne_of_gt fits.1
      have bounded : ¬1 <<< 63 < n := Nat.not_lt.2 fits.2
      simp [Numeral.value, taken, accumulate, signed, nonzero]
      omega

/-- The digits of a number that fits are read as the number. -/
theorem readNumber_toDigits {negative : Bool} (fits : FitsWord negative n)
    (ends : EndsNumber rest) (place : Place) :
    ∃ stop, readNumber negative ⟨Nat.toDigits 10 n ++ rest, place⟩ =
      .ok (.int (signed negative n), ⟨rest, stop⟩) := by
  refine ⟨place.along (Nat.toDigits 10 n).length, ?_⟩
  have noPoint : ∀ more, rest = '.' :: more → False := by
    rintro more rfl
    exact (ends '.' rfl).2.1 rfl
  have finished (place : Place) : readFraction negative (Nat.toDigits 10 n) ⟨rest, place⟩ =
      .ok (.int (signed negative n), ⟨rest, place⟩) := by
    have value := value_toDigits fits
    cases rest with
    | nil => simp [readFraction, readExponent, value]
    | cons c more =>
        obtain ⟨-, -, small, large⟩ := ends c rfl
        simp [readFraction, readExponent, small, large, value]
  rw [readNumber]
  simp only [digitsOf_toDigits ends]
  cases digits : Nat.toDigits 10 n with
  | nil => exact absurd digits Nat.toDigits_ne_nil
  | cons first more =>
      cases more with
      | nil => simpa [digits] using finished (place.along 1)
      | cons second more =>
          have solid : first ≠ '0' := by
            rintro rfl
            rw [eq_zero_of_toDigits digits, Nat.toDigits_zero] at digits
            simp at digits
          simpa [digits, solid] using finished (place.along _)

end DocPress.Json
