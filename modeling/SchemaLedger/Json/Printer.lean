import SchemaLedger.Json.Basic
import SchemaLedger.Numeral.Binary

/-!
# Writing JSON

Documents are written either without any blanks or with one item a line and two spaces for each
level. Quotes, backslashes and control characters are escaped, everything else stands as it is.
-/

namespace SchemaLedger.Json

open Numeral

/-- Where line breaks and blanks go. -/
inductive Layout where
  /-- No blanks at all. -/
  | compact
  /-- One item a line, two spaces for each level. -/
  | indented
deriving DecidableEq, Repr

/-- What stands before an item at the given level, and before the bracket that closes the level. -/
def Layout.lineBreak : Layout → Nat → List Char
  | compact, _ => []
  | indented, level => '\n' :: List.replicate (2 * level) ' '

/-- What stands between a name and its value. -/
def Layout.colon : Layout → List Char
  | compact => [':']
  | indented => [':', ' ']

/-- The written form of one character of a string. -/
def escape (c : Char) : List Char :=
  if c = '"' then ['\\', '"']
  else if c = '\\' then ['\\', '\\']
  else if c = '\x08' then ['\\', 'b']
  else if c = '\t' then ['\\', 't']
  else if c = '\n' then ['\\', 'n']
  else if c = '\x0c' then ['\\', 'f']
  else if c = '\r' then ['\\', 'r']
  else if c.toNat < 0x20 then
    ['\\', 'u', '0', '0', Nat.digitChar (c.toNat / 16), Nat.digitChar (c.toNat % 16)]
  else [c]

/-- A string in quotes. -/
def printString (s : String) : List Char := '"' :: s.toList.flatMap escape ++ ['"']

/-- The text of a positive double with the given digits: positional from `0.00001` up to but not
including `10^16`, and with a signed exponent elsewhere. -/
def printDouble (d : Decimal) : List Char :=
  let digits := Nat.toDigits 10 d.digits
  let leading := digits.length + d.exponent - 1
  if -5 ≤ leading && leading < 16 then
    if 0 ≤ d.exponent then d.positional ++ ['.', '0'] else d.positional
  else
    let power := Nat.toDigits 10 leading.natAbs
    digits.take 1 ++ (if digits.length = 1 then [] else '.' :: digits.drop 1) ++
      ['e', if leading < 0 then '-' else '+'] ++ power

/-- The written form of a number. A double has the fewest digits that read back; where two such
numbers are equally near, the even one is written. -/
def Number.print : Number → List Char
  | .natural n => Nat.toDigits 10 n.toNat
  | .negative n => '-' :: Nat.toDigits 10 n
  | .float minus m q =>
    (if minus then ['-'] else []) ++
      (if m = 0 then ['0', '.', '0'] else printDouble (shortest .double .even m q))

mutual

/-- The text of a value that stands at the given level. -/
def print (layout : Layout) (level : Nat) : Json → List Char
  | null => ['n', 'u', 'l', 'l']
  | bool true => ['t', 'r', 'u', 'e']
  | bool false => ['f', 'a', 'l', 's', 'e']
  | number n => n.print
  | string s => printString s
  | array [] => ['[', ']']
  | array items =>
    '[' :: printItems layout (level + 1) items ++ layout.lineBreak level ++ [']']
  | object [] => ['{', '}']
  | object members =>
    '{' :: printMembers layout (level + 1) members ++ layout.lineBreak level ++ ['}']
  | unreadable => ['n', 'u', 'l', 'l']

/-- The items of an array, with the commas between them. -/
def printItems (layout : Layout) (level : Nat) : List Json → List Char
  | [] => []
  | [v] => layout.lineBreak level ++ print layout level v
  | v :: rest =>
    layout.lineBreak level ++ print layout level v ++ ',' :: printItems layout level rest

/-- The members of an object, with the commas between them. -/
def printMembers (layout : Layout) (level : Nat) : List (String × Json) → List Char
  | [] => []
  | [(name, v)] =>
    layout.lineBreak level ++ printString name ++ layout.colon ++ print layout level v
  | (name, v) :: rest =>
    layout.lineBreak level ++ printString name ++ layout.colon ++ print layout level v ++
      ',' :: printMembers layout level rest

end

/-- The text of a document in the given layout. -/
def render (layout : Layout) (v : Json) : String := String.ofList (print layout 0 v)

end SchemaLedger.Json
