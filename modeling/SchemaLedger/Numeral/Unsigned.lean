/-!
# Unsigned decimal numbers

An unsigned number is an optional plus sign and one or more ASCII digits; leading zeros are allowed.
A number that does not fit is noticed at the digit where it grows too large, so of a number that is
both too large and misspelled the first fault in reading order is reported.
-/

namespace SchemaLedger.Numeral

/-- Why a text is no unsigned number of the wanted size. -/
inductive UnsignedError where
  | empty
  | invalidDigit
  | tooLarge
deriving DecidableEq, Repr

/-- The text shown for each cause. -/
def UnsignedError.message : UnsignedError → String
  | .empty => "cannot parse integer from empty string"
  | .invalidDigit => "invalid digit found in string"
  | .tooLarge => "number too large to fit in target type"

/-- The value of an ASCII digit. -/
def digit? (c : Char) : Option Nat :=
  if c.isDigit then some (c.toNat - '0'.toNat) else none

/-- Reads the digits that continue `value`, which has to stay below `bound`. -/
def readDigits (bound value : Nat) : List Char → Except UnsignedError Nat
  | [] => .ok value
  | c :: rest =>
    match digit? c with
    | none => .error .invalidDigit
    | some d =>
      if 10 * value + d < bound then readDigits bound (10 * value + d) rest
      else .error .tooLarge

/-- Reads an unsigned number below `bound`. -/
def readBelow (bound : Nat) : List Char → Except UnsignedError Nat
  | [] => .error .empty
  | ['+'] => .error .invalidDigit
  | '+' :: rest => readDigits bound 0 rest
  | s => readDigits bound 0 s

/-- Reads an unsigned number of 32 bits. -/
def readUInt32 (s : List Char) : Except UnsignedError UInt32 :=
  (readBelow UInt32.size s).map Nat.toUInt32

/-- Reads an unsigned number of 64 bits. -/
def readUInt64 (s : List Char) : Except UnsignedError UInt64 :=
  (readBelow UInt64.size s).map Nat.toUInt64

end SchemaLedger.Numeral
