import SchemaLedger.Json.Basic
import SchemaLedger.Numeral.Binary
import SchemaLedger.Numeral.Unsigned

/-!
# Reading JSON

The reader follows the grammar to the letter: no comments, no trailing commas or text, no leading
zeros, no bare control characters in strings. A scalar that follows the grammar without having a
value becomes `Json.unreadable`, so that it only matters where its value is asked for.

A number without point and exponent that is a natural below 2^64 or a negative integer down to -2^63
is an integer; any other is a double, `1.0` and `1e3` among them. Its digits are taken up as long as
they fit 64 bits, and what they give is scaled by a power of ten in one rounding step; the result
may differ from the nearest double in the last place.
-/

namespace SchemaLedger.Json

open Numeral

-- powers of naturals are those of the core library, whatever instances are in scope
attribute [local instance (high)] instPowNat

/-- The blanks that may stand between tokens. -/
def isSpace (c : Char) : Bool := c = ' ' || c = '\n' || c = '\t' || c = '\r'

/-- A text without the blanks at its front. -/
def skipSpace (s : List Char) : List Char := s.dropWhile isSpace

/-! ### Strings -/

/-- A character of a string as it stands, or the 16-bit unit that an escape gives. -/
inductive StringPart where
  | char (c : Char)
  | unit (n : Nat)

/-- The value of a hexadecimal digit. -/
def hexDigit? (c : Char) : Option Nat :=
  if c.isDigit then some (c.toNat - '0'.toNat)
  else if 'a' ≤ c && c ≤ 'f' then some (c.toNat - 'a'.toNat + 10)
  else if 'A' ≤ c && c ≤ 'F' then some (c.toNat - 'A'.toNat + 10)
  else none

/-- The value of four hexadecimal digits. -/
def hexUnit? (a b c d : Char) : Option Nat := do
  let a ← hexDigit? a
  let b ← hexDigit? b
  let c ← hexDigit? c
  let d ← hexDigit? d
  return ((a * 16 + b) * 16 + c) * 16 + d

/-- The character that a letter behind a backslash stands for. -/
def unescape? : Char → Option Char
  | '"' => some '"'
  | '\\' => some '\\'
  | '/' => some '/'
  | 'b' => some '\x08'
  | 'f' => some '\x0c'
  | 'n' => some '\n'
  | 'r' => some '\r'
  | 't' => some '\t'
  | _ => none

/-- The parts of a string up to the closing quote, and the text behind it. -/
def readParts : List Char → Option (List StringPart × List Char)
  | [] => none
  | '"' :: rest => some ([], rest)
  | '\\' :: 'u' :: a :: b :: c :: d :: rest => do
    let n ← hexUnit? a b c d
    let (parts, rest) ← readParts rest
    return (.unit n :: parts, rest)
  | '\\' :: c :: rest => do
    let c ← unescape? c
    let (parts, rest) ← readParts rest
    return (.char c :: parts, rest)
  | c :: rest => do
    guard (0x20 ≤ c.toNat)
    let (parts, rest) ← readParts rest
    return (.char c :: parts, rest)

/-- Joins the halves of surrogate pairs; a half on its own has no meaning. -/
def joinParts : List StringPart → Option (List Char)
  | [] => some []
  | .char c :: rest => (joinParts rest).map (c :: ·)
  | .unit high :: .unit low :: rest =>
    if 0xD800 ≤ high && high < 0xDC00 then
      if 0xDC00 ≤ low && low < 0xE000 then
        let c := Char.ofNat (0x10000 + (high - 0xD800) * 0x400 + (low - 0xDC00))
        (joinParts rest).map (c :: ·)
      else none
    else if 0xDC00 ≤ high && high < 0xE000 then none
    else (joinParts (.unit low :: rest)).map (Char.ofNat high :: ·)
  | .unit n :: rest =>
    if 0xD800 ≤ n && n < 0xE000 then none
    else (joinParts rest).map (Char.ofNat n :: ·)

/-- Reads a string behind its opening quote. The text is missing if it has no meaning. -/
def readString (s : List Char) : Option (Option String × List Char) := do
  let (parts, rest) ← readParts s
  return ((joinParts parts).map String.ofList, rest)

/-! ### Numbers -/

/-- Takes up digits as long as the value fits 64 bits. The second part counts the digits left. -/
def takeUp (value : Nat) : List Char → Nat × Nat
  | [] => (value, 0)
  | c :: rest =>
    let next := 10 * value + (c.toNat - '0'.toNat)
    if next < UInt64.size then takeUp next rest else (value, rest.length + 1)

/-- The greatest exponent that is still counted. -/
def maxExponent : Nat := 2147483647

/-- The power of ten as a double. -/
def powerOfTen (n : Nat) : Magnitude := .ofDecimal .double ⟨1, n⟩

/-- Scales a double by a power of ten, at most 308 places in one step. There is no result if it is
out of range. -/
def scale (x : Magnitude) (exponent : Int) : Option Magnitude :=
  if exponent.natAbs ≤ 308 then
    let scaled :=
      if 0 ≤ exponent then x.times .double (powerOfTen exponent.natAbs)
      else x.over .double (powerOfTen exponent.natAbs)
    if scaled = .infinite then none else some scaled
  else if x.ratio.1 = 0 then some x
  else if 0 ≤ exponent then none
  else scale (x.over .double (powerOfTen 308)) (exponent + 308)
termination_by exponent.natAbs
decreasing_by omega

/-- The value of an exponent behind its mark, or nothing if it is too large to count. -/
def exponentOf (digits : List Char) : Option Nat :=
  digits.foldl (fun (n : Option Nat) c => do
    let n ← n
    let next := 10 * n + (c.toNat - '0'.toNat)
    guard (next ≤ maxExponent)
    return next) (some 0)

/-- A double with its sign, or an unreadable value if it is out of range. -/
def ofDouble (minus : Bool) : Option Magnitude → Json
  | some (.finite m q) => number (.float minus m q)
  | _ => unreadable

/-- The value of a number from its parts. The exponent comes with its sign. -/
def numberOf (minus : Bool) (whole places : List Char) (exponent : Option (Bool × List Char)) :
    Json :=
  let (value, left) := takeUp 0 whole
  let (value', left') := takeUp value places
  let rounded := Magnitude.ofRatio .double value' 1
  let shift : Int := (left : Int) - (places.length - left' : Nat)
  match exponent with
  | some (down, digits) =>
    match exponentOf digits with
    | some n => ofDouble minus (scale rounded (if down then shift - n else shift + n))
    | none =>
      if value' = 0 || down then number (.float minus 0 (-1074)) else unreadable
  | none =>
    if places.isEmpty && left = 0 then
      if !minus then number (.natural value.toUInt64)
      else if 0 < value && value ≤ 2 ^ (63 : Nat) then number (.negative value)
      else ofDouble minus (some rounded)
    else ofDouble minus (scale rounded shift)

/-- Reads digits; at least one is needed. -/
def readDigits1 (s : List Char) : Option (List Char × List Char) :=
  let digits := s.takeWhile Char.isDigit
  if digits.isEmpty then none else some (digits, s.dropWhile Char.isDigit)

/-- Reads the digits before the point. A zero stands alone. -/
def readWhole (s : List Char) : Option (List Char × List Char) := do
  let (digits, rest) ← readDigits1 s
  match digits with
  | '0' :: _ :: _ => none
  | _ => return (digits, rest)

/-- Reads the digits behind the point, if there is one. -/
def readPlaces : List Char → Option (List Char × List Char)
  | '.' :: rest => readDigits1 rest
  | s => some ([], s)

/-- Reads an exponent, if there is one. -/
def readExponent (s : List Char) : Option (Option (Bool × List Char) × List Char) :=
  match s with
  | [] => some (none, [])
  | c :: rest =>
    if c = 'e' || c = 'E' then do
      let (down, rest) := match rest with
        | '-' :: rest => (true, rest)
        | '+' :: rest => (false, rest)
        | rest => (false, rest)
      let (digits, rest) ← readDigits1 rest
      return (some (down, digits), rest)
    else some (none, s)

/-- Reads a number without sign. -/
def readUnsigned (minus : Bool) (s : List Char) : Option (Json × List Char) := do
  let (whole, rest) ← readWhole s
  let (places, rest) ← readPlaces rest
  let (exponent, rest) ← readExponent rest
  return (numberOf minus whole places exponent, rest)

/-- Reads a number. -/
def readNumber : List Char → Option (Json × List Char)
  | '-' :: rest => readUnsigned true rest
  | s => readUnsigned false s

/-! ### Values -/

mutual

/-- Reads a value. The first argument bounds the nesting. -/
def readValue : Nat → List Char → Option (Json × List Char)
  | 0, _ => none
  | fuel + 1, s =>
    match skipSpace s with
    | 'n' :: 'u' :: 'l' :: 'l' :: rest => some (null, rest)
    | 't' :: 'r' :: 'u' :: 'e' :: rest => some (bool true, rest)
    | 'f' :: 'a' :: 'l' :: 's' :: 'e' :: rest => some (bool false, rest)
    | '"' :: rest => do
      let (text, rest) ← readString rest
      return (match text with | some text => string text | none => unreadable, rest)
    | '[' :: rest =>
      match skipSpace rest with
      | ']' :: rest => some (array [], rest)
      | rest => do
        let (items, rest) ← readItems fuel rest
        return (array items, rest)
    | '{' :: rest =>
      match skipSpace rest with
      | '}' :: rest => some (object [], rest)
      | rest => do
        let (members, rest) ← readMembers fuel rest
        return (match members with | some members => object members | none => unreadable, rest)
    | rest => readNumber rest

/-- Reads the items of an array up to its closing bracket. There is at least one. -/
def readItems : Nat → List Char → Option (List Json × List Char)
  | 0, _ => none
  | fuel + 1, s => do
    let (v, rest) ← readValue fuel s
    match skipSpace rest with
    | ']' :: rest => return ([v], rest)
    | ',' :: rest =>
      let (items, rest) ← readItems fuel rest
      return (v :: items, rest)
    | _ => none

/-- Reads the members of an object up to its closing brace. There is at least one. The members are
missing if one of their names has no meaning. -/
def readMembers : Nat → List Char → Option (Option (List (String × Json)) × List Char)
  | 0, _ => none
  | fuel + 1, s =>
    match skipSpace s with
    | '"' :: rest => do
      let (name, rest) ← readString rest
      match skipSpace rest with
      | ':' :: rest =>
        let (v, rest) ← readValue fuel rest
        match skipSpace rest with
        | '}' :: rest => return (name.map fun name => [(name, v)], rest)
        | ',' :: rest =>
          let (members, rest) ← readMembers fuel rest
          return (name.bind fun name => members.map ((name, v) :: ·), rest)
        | _ => none
      | _ => none
    | _ => none

end

/-- Reads a document: one value with nothing but blanks around it. -/
def read (text : String) : Option Json :=
  let s := text.toList
  match readValue (2 * s.length + 2) s with
  | some (v, rest) => if skipSpace rest = [] then some v else none
  | none => none

end SchemaLedger.Json
