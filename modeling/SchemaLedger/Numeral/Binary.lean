/-!
# Binary floating-point numbers

A format is given by the number of bits in its significand and the range of its exponents. `ofRatio`
rounds a quotient of naturals to the nearest number of a format, a tie to the even significand.
`shortest` goes the other way: among the decimals that round to a given number it picks one with the
fewest digits, of those the nearest, and of two equally near ones the one that the given rule for
ties prefers. Both work on naturals alone, so they are exact.
-/

namespace SchemaLedger.Numeral

-- powers of naturals are those of the core library, whatever instances are in scope
attribute [local instance (high)] instPowNat

/-- A binary floating-point format. -/
structure BinaryFormat where
  /-- Bits of the significand, the leading one included. -/
  precision : Nat
  /-- Exponent of the last place of the smallest numbers. -/
  minExponent : Int
  /-- Exponent of the last place of the largest numbers. -/
  maxExponent : Int

/-- Single precision, 32 bits. -/
def BinaryFormat.single : BinaryFormat := ⟨24, -149, 104⟩

/-- Double precision, 64 bits. -/
def BinaryFormat.double : BinaryFormat := ⟨53, -1074, 971⟩

/-- The absolute value of a floating-point number. -/
inductive Magnitude where
  /-- The number `mantissa * 2 ^ exponent`. -/
  | finite (mantissa : Nat) (exponent : Int)
  | infinite
deriving DecidableEq, Repr

/-- The decimal number `digits * 10 ^ exponent`. -/
structure Decimal where
  digits : Nat
  exponent : Int
deriving DecidableEq, Repr

/-- The quotient rounded to the nearest natural number, a tie to the even one. -/
def roundedQuotient (num den : Nat) : Nat :=
  let q := num / den
  match compare (2 * (num % den)) den with
  | .lt => q
  | .gt => q + 1
  | .eq => if q % 2 = 0 then q else q + 1

/-- The quotient `num / (den * 2 ^ exponent)`, rounded. -/
def roundedAt (num den : Nat) (exponent : Int) : Nat :=
  roundedQuotient (num * 2 ^ (-exponent).toNat) (den * 2 ^ exponent.toNat)

/-- The number of the format nearest to `num / den`. -/
def Magnitude.ofRatio (format : BinaryFormat) (num den : Nat) : Magnitude :=
  if num = 0 then .finite 0 format.minExponent
  else
    -- the quotient lies between `2 ^ (size - 1)` and `2 ^ (size + 1)`
    let size : Int := (num.log2 : Int) - den.log2
    let wide := size - (format.precision - 1)
    let fits := den * 2 ^ (format.precision - 1) * 2 ^ wide.toNat ≤ num * 2 ^ (-wide).toNat
    let exponent := max (if fits then wide else wide - 1) format.minExponent
    let mantissa := roundedAt num den exponent
    let (mantissa, exponent) :=
      if mantissa = 2 ^ format.precision then (2 ^ (format.precision - 1), exponent + 1)
      else (mantissa, exponent)
    if format.maxExponent < exponent then .infinite else .finite mantissa exponent

/-- A number as a quotient of naturals. Infinity counts as zero. -/
def Magnitude.ratio : Magnitude → Nat × Nat
  | .finite m q => (m * 2 ^ q.toNat, 2 ^ (-q).toNat)
  | .infinite => (0, 1)

/-- The product of two numbers, rounded. -/
def Magnitude.times (format : BinaryFormat) (x y : Magnitude) : Magnitude :=
  .ofRatio format (x.ratio.1 * y.ratio.1) (x.ratio.2 * y.ratio.2)

/-- The quotient of two numbers, rounded. -/
def Magnitude.over (format : BinaryFormat) (x y : Magnitude) : Magnitude :=
  .ofRatio format (x.ratio.1 * y.ratio.2) (x.ratio.2 * y.ratio.1)

/-- The number of the format nearest to a decimal. -/
def Magnitude.ofDecimal (format : BinaryFormat) (d : Decimal) : Magnitude :=
  .ofRatio format (d.digits * 10 ^ d.exponent.toNat) (10 ^ (-d.exponent).toNat)

/-- Compares the decimal `d` with `n * 2 ^ q`. -/
def Decimal.compareBinary (d : Decimal) (n : Nat) (q : Int) : Ordering :=
  compare (d.digits * 10 ^ d.exponent.toNat * 2 ^ (-q).toNat)
    (n * 2 ^ q.toNat * 10 ^ (-d.exponent).toNat)

/-- The decimal rounds to `m * 2 ^ q`: it lies between the points halfway to the two neighbours. The
neighbour below the first number of a binade is only half as far away. -/
def Decimal.roundsTo (format : BinaryFormat) (m : Nat) (q : Int) (d : Decimal) : Bool :=
  let narrow := m = 2 ^ (format.precision - 1) && format.minExponent < q
  let low := d.compareBinary (if narrow then 4 * m - 1 else 4 * m - 2) (q - 2)
  let high := d.compareBinary (4 * m + 2) (q - 2)
  if m % 2 = 0 then low != .lt && high != .gt else low == .gt && high == .lt

/-- Which of two equally near neighbours on a grid is taken. -/
inductive Tie where
  /-- The larger one. -/
  | upward
  /-- The one whose last digit is even. -/
  | even
deriving DecidableEq, Repr

/-- Of the neighbours `below` and `below + 1`, the smaller one is taken. -/
def Tie.takesLower (tie : Tie) (below : Nat) : Bool :=
  match tie with
  | .upward => false
  | .even => below % 2 = 0

/-- The decimals of the grid `10 ^ exponent` next to `m * 2 ^ q` that round to it, nearest first. -/
def nearestOnGrid (format : BinaryFormat) (tie : Tie) (m : Nat) (q exponent : Int) :
    List Decimal :=
  let below := m * 2 ^ q.toNat * 10 ^ (-exponent).toNat / (2 ^ (-q).toNat * 10 ^ exponent.toNat)
  -- the point halfway between the two neighbours decides which is the nearer
  let halfway : Decimal := ⟨10 * below + 5, exponent - 1⟩
  let lowerFirst := match halfway.compareBinary m q with
    | .gt => true
    | .eq => tie.takesLower below
    | .lt => false
  let candidates : List Decimal :=
    if lowerFirst then [⟨below, exponent⟩, ⟨below + 1, exponent⟩]
    else [⟨below + 1, exponent⟩, ⟨below, exponent⟩]
  candidates.filter (Decimal.roundsTo format m q)

/-- The decimal with the fewest digits that rounds to `m * 2 ^ q`, for a positive `m`. -/
def shortest (format : BinaryFormat) (tie : Tie) (m : Nat) (q : Int) : Decimal :=
  -- a power of ten above the number: 0.30 and 0.31 enclose the logarithm of two
  let size : Int := m.log2 + 1 + q
  let top : Int := if 0 ≤ size then size * 31 / 100 + 1 else size * 30 / 100 + 1
  let nearest (n : Nat) := (nearestOnGrid format tie m q (top - n)).head?
  match (List.range 32).findSome? nearest with
  | some d => d
  | none => ⟨m * 2 ^ q.toNat * 5 ^ (-q).toNat, min q 0⟩

/-- A decimal without an exponent: `1200`, `1.25`, `0.005`. -/
def Decimal.positional (d : Decimal) : List Char :=
  let digits := Nat.toDigits 10 d.digits
  if 0 ≤ d.exponent then digits ++ List.replicate d.exponent.toNat '0'
  else
    let places := (-d.exponent).toNat
    if places < digits.length then
      digits.take (digits.length - places) ++ '.' :: digits.drop (digits.length - places)
    else ['0', '.'] ++ List.replicate (places - digits.length) '0' ++ digits

end SchemaLedger.Numeral
