import SchemaLedger.Numeral.Binary
import SchemaLedger.Numeral.Unsigned

/-!
# Single precision numbers

A number is written as an optional sign, digits with at most one point among or beside them, and an
optional exponent; `inf`, `infinity` and `nan` are accepted in any case. It is read to the nearest
single precision number and shown with the fewest digits that read back, never with an exponent.
-/

namespace SchemaLedger.Numeral

-- powers of naturals are those of the core library, whatever instances are in scope
attribute [local instance (high)] instPowNat

/-- A single precision number. -/
inductive Single where
  /-- A number with its sign; zero has one too. -/
  | finite (negative : Bool) (mantissa : Nat) (exponent : Int)
  | infinite (negative : Bool)
  | nan
deriving DecidableEq, Repr

/-- Why a text is no floating-point number. -/
inductive FloatError where
  | empty
  | invalid
deriving DecidableEq, Repr

/-- The text shown for each cause. -/
def FloatError.message : FloatError → String
  | .empty => "cannot parse float from empty string"
  | .invalid => "invalid float literal"

namespace Single

/-- The number with this sign and absolute value. -/
def ofMagnitude (negative : Bool) : Magnitude → Single
  | .finite m q => .finite negative m q
  | .infinite => .infinite negative

/-- The single precision number nearest to a decimal. Decimals far beyond either end of the range
are recognised by their number of digits. -/
def ofDecimal (negative : Bool) (d : Decimal) : Single :=
  let size := (Nat.toDigits 10 d.digits).length + d.exponent
  if d.digits = 0 || size < -60 then .finite negative 0 (-149)
  else if 60 < size then .infinite negative
  else ofMagnitude negative (.ofDecimal .single d)

/-- The digits at the front of a text, and the rest. -/
def splitDigits (s : List Char) : List Char × List Char :=
  (s.takeWhile Char.isDigit, s.dropWhile Char.isDigit)

/-- The natural number with the given digits. -/
def ofDigits (digits : List Char) : Nat :=
  digits.foldl (fun n c => 10 * n + (c.toNat - '0'.toNat)) 0

/-- Reads what may stand after the mantissa: nothing, or an exponent. -/
def readExponent : List Char → Option Int
  | [] => some 0
  | c :: rest =>
    if c = 'e' || c = 'E' then
      let (negative, digits) := match rest with
        | '-' :: digits => (true, digits)
        | '+' :: digits => (false, digits)
        | digits => (false, digits)
      if digits.isEmpty || !digits.all Char.isDigit then none
      else some (if negative then -(ofDigits digits : Int) else ofDigits digits)
    else none

/-- Reads a decimal without sign. -/
def readDecimal (s : List Char) : Option Decimal :=
  let (whole, rest) := splitDigits s
  let (places, rest) := match rest with
    | '.' :: rest => splitDigits rest
    | rest => ([], rest)
  if whole.isEmpty && places.isEmpty then none
  else (readExponent rest).map fun e => ⟨ofDigits (whole ++ places), e - places.length⟩

/-- Reads a number without sign. -/
def readUnsignedPart (negative : Bool) (s : List Char) : Option Single :=
  let name := String.ofList (s.map Char.toLower)
  if name = "inf" || name = "infinity" then some (.infinite negative)
  else if name = "nan" then some .nan
  else (readDecimal s).map (ofDecimal negative)

/-- Reads a number. -/
def read (s : List Char) : Except FloatError Single :=
  match s with
  | [] => .error .empty
  | c :: rest =>
    let number :=
      if c = '-' then readUnsignedPart true rest
      else if c = '+' then readUnsignedPart false rest
      else readUnsignedPart false s
    match number with
    | some x => .ok x
    | none => .error .invalid

/-- A minus sign in front of a negative number. -/
def signed (negative : Bool) (text : List Char) : String :=
  String.ofList (if negative then '-' :: text else text)

/-- The number with the fewest digits that read back; where two such numbers are equally near, the
larger one is shown. -/
def render : Single → String
  | .finite negative 0 _ => signed negative ['0']
  | .finite negative m q => signed negative (shortest .single .upward m q).positional
  | .infinite negative => signed negative ['i', 'n', 'f']
  | .nan => "NaN"

/-- The number lies between zero and one. A zero of either sign does. -/
def IsProbability : Single → Prop
  | .finite negative m q => m = 0 ∨ (negative = false ∧ m * 2 ^ q.toNat ≤ 2 ^ (-q).toNat)
  | .infinite _ => False
  | .nan => False

instance : DecidablePred IsProbability := fun x =>
  match x with
  | .finite negative m q =>
    inferInstanceAs (Decidable (m = 0 ∨ (negative = false ∧ m * 2 ^ q.toNat ≤ 2 ^ (-q).toNat)))
  | .infinite _ => inferInstanceAs (Decidable False)
  | .nan => inferInstanceAs (Decidable False)

/-- The 32 bits of the number in the interchange format: sign, biased exponent, fraction. -/
def bits : Single → Nat
  | .finite negative m q =>
    (if negative then 2 ^ (31 : Nat) else 0) +
      (if m < 2 ^ (23 : Nat) then m else (q + 150).toNat * 2 ^ (23 : Nat) + (m - 2 ^ (23 : Nat)))
  | .infinite negative => (if negative then 2 ^ (31 : Nat) else 0) + 0x7F800000
  | .nan => 0x7FC00000

end Single

end SchemaLedger.Numeral
