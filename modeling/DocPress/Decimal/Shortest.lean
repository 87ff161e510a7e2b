/-!
The shortest decimal text of a binary floating-point number: of all decimals that read back as
the number, the ones with the fewest digits, and of these the nearest. Everything is exact
arithmetic on natural numbers; a `Layout` says how the digits are then written.
-/

namespace DocPress.Decimal

/-- A finite positive number `numerator / denominator`, with the interval of the reals that round
to it; both fractions of the interval have the same denominator. -/
structure Rounding where
  value : Nat
  lower : Nat
  upper : Nat
  denominator : Nat
  /-- Whether the ends of the interval round to the number too. -/
  closed : Bool

/-- The decimal `digits * 10 ^ exponent`. -/
structure Numeral where
  digits : Nat
  exponent : Int
  deriving DecidableEq, Repr

/-- The interval of a positive finite number, from its mantissa and exponent fields. -/
def Rounding.ofFields (mantissa exponent : Nat) : Rounding :=
  let whole := if exponent = 0 then mantissa else mantissa + (1 <<< 52)
  let power : Int := (if exponent = 0 then 1 else (exponent : Int)) - 1075 - 2
  let low := if mantissa = 0 && 1 < exponent then 4 * whole - 1 else 4 * whole - 2
  let scale := 1 <<< power.toNat
  { value := 4 * whole * scale
    lower := low * scale
    upper := (4 * whole + 2) * scale
    denominator := 1 <<< (-power).toNat
    closed := whole % 2 = 0 }

/-- The fraction in units of `10 ^ exponent`, as a pair of a factor for numerators and a factor
for the denominator. -/
def unitFactors (exponent : Int) : Nat × Nat :=
  (Nat.pow 10 (-exponent).toNat, Nat.pow 10 exponent.toNat)

/-- Whether `count` units of `10 ^ exponent` round to the number. -/
def Rounding.holds (r : Rounding) (exponent : Int) (count : Nat) : Bool :=
  let (up, down) := unitFactors exponent
  let point := count * r.denominator * down
  if r.closed then r.lower * up ≤ point && point ≤ r.upper * up
  else r.lower * up < point && point < r.upper * up

/-- The multiple of `10 ^ exponent` that rounds to the number and is nearest to it, if there is
one; of two at the same distance the even one. -/
def Rounding.onGrid? (r : Rounding) (exponent : Int) : Option Nat :=
  let (up, down) := unitFactors exponent
  let unit := r.denominator * down
  let below := r.value * up / unit
  let remainder := r.value * up % unit
  match r.holds exponent below, r.holds exponent (below + 1) with
  | false, false => none
  | true, false => some below
  | false, true => some (below + 1)
  | true, true =>
    if 2 * remainder < unit then some below
    else if unit < 2 * remainder then some (below + 1)
    else if below % 2 = 0 then some below
    else some (below + 1)

/-- The decimal without its trailing zeros, `fuel` of them at most. -/
def Numeral.trimZeros : Nat → Numeral → Numeral
  | 0, d => d
  | fuel + 1, d =>
    if d.digits ≠ 0 && d.digits % 10 = 0 then
      trimZeros fuel ⟨d.digits / 10, d.exponent + 1⟩
    else d

/-- Number of decimal digits of a natural number; zero has one. -/
def digitCount (n : Nat) : Nat :=
  (Nat.toDigits 10 n).length

/-- The exponent of the leading digit of the number. -/
def Rounding.leading (r : Rounding) : Int :=
  if r.denominator ≤ r.value then
    (digitCount (r.value / r.denominator) : Int) - 1
  else
    let estimate := digitCount (r.denominator / r.value)
    if r.denominator ≤ r.value * Nat.pow 10 (estimate - 1) then 1 - (estimate : Int)
    else -(estimate : Int)

/-- The first grid that holds a decimal reading back as the number, from `10 ^ exponent` down. -/
def Rounding.search (r : Rounding) : Nat → Int → Numeral
  | 0, exponent => ⟨(r.onGrid? exponent).getD 0, exponent⟩
  | fuel + 1, exponent =>
    match r.onGrid? exponent with
    | some count => if count = 0 then r.search fuel (exponent - 1) else ⟨count, exponent⟩
    | none => r.search fuel (exponent - 1)

/-- The shortest decimal that reads back as the number. -/
def Rounding.shortest (r : Rounding) : Numeral :=
  (r.search 20 (r.leading + 1)).trimZeros 400

/-- What a floating-point number is, seen from its bits. -/
inductive Class where
  | nan
  | infinite (negative : Bool)
  | zero (negative : Bool)
  | finite (negative : Bool) (magnitude : Rounding)

/-- The class of the number with the given bits. -/
def Class.ofBits (bits : Nat) : Class :=
  let negative := bits >>> 63 = 1
  let exponent := (bits >>> 52) % (1 <<< 11)
  let mantissa := bits % (1 <<< 52)
  if exponent = 2047 then
    if mantissa = 0 then .infinite negative else .nan
  else if exponent = 0 && mantissa = 0 then .zero negative
  else .finite negative (.ofFields mantissa exponent)

/-- How a format writes numbers. -/
structure Layout where
  /-- Numbers whose leading digit has an exponent from here … -/
  leastPositional : Option Int
  /-- … to here are written without an exponent; `none` sets no bound. -/
  greatestPositional : Option Int
  /-- Whether a whole number is written with `.0`. -/
  keepsPoint : Bool
  /-- Whether a positive exponent has a sign. -/
  signsExponent : Bool
  /-- The least number of digits of an exponent. -/
  exponentDigits : Nat
  nan : String
  infinity : String
  negativeInfinity : String

/-- The text of a number written with an exponent. -/
def Layout.scientific (layout : Layout) (digits : List Char) (leading : Int) : List Char :=
  let fraction := digits.drop 1
  let point := if fraction.isEmpty then [] else '.' :: fraction
  let sign := if leading < 0 then ['-'] else if layout.signsExponent then ['+'] else []
  let exponent := Nat.toDigits 10 leading.natAbs
  let padding := List.replicate (layout.exponentDigits - exponent.length) '0'
  digits.take 1 ++ point ++ ['e'] ++ sign ++ padding ++ exponent

/-- The text of a number written without an exponent. -/
def Layout.positional (layout : Layout) (digits : List Char) (leading : Int) : List Char :=
  if leading < 0 then
    ['0', '.'] ++ List.replicate (leading.natAbs - 1) '0' ++ digits
  else
    let whole := leading.toNat + 1
    if digits.length ≤ whole then
      digits ++ List.replicate (whole - digits.length) '0' ++
        (if layout.keepsPoint then ['.', '0'] else [])
    else
      digits.take whole ++ ['.'] ++ digits.drop whole

/-- The text of a positive decimal. -/
def Layout.decimal (layout : Layout) (d : Numeral) : List Char :=
  let digits := Nat.toDigits 10 d.digits
  let leading := d.exponent + (digits.length : Int) - 1
  if layout.leastPositional.all (· ≤ leading) && layout.greatestPositional.all (leading ≤ ·) then
    layout.positional digits leading
  else
    layout.scientific digits leading

/-- The text of the number with the given bits. -/
def Layout.ofBits (layout : Layout) (bits : Nat) : String :=
  match Class.ofBits bits with
  | .nan => layout.nan
  | .infinite negative => if negative then layout.negativeInfinity else layout.infinity
  | .zero negative =>
    (if negative then "-" else "") ++ String.ofList (layout.positional ['0'] 0)
  | .finite negative magnitude =>
    (if negative then "-" else "") ++ String.ofList (layout.decimal magnitude.shortest)

/-- The text of a floating-point number. -/
def Layout.write (layout : Layout) (x : Float) : String :=
  layout.ofBits x.toBits.toNat

end DocPress.Decimal
