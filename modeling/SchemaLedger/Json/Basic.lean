/-!
# JSON values

Objects keep their members in the order of the text, repeated names included, because messages speak
about the first problem in that order. Numbers keep the class that their spelling gives them: a
natural number below 2^64, a negative integer down to -2^63, or a double precision number.
-/

namespace SchemaLedger

/-- A number of a document. -/
inductive Json.Number where
  | natural (n : UInt64)
  /-- The integer `-n`, where `n` is positive. -/
  | negative (n : Nat)
  /-- The double `mantissa * 2 ^ exponent` with its sign. -/
  | float (minus : Bool) (mantissa : Nat) (exponent : Int)
deriving DecidableEq, Repr

/-- A JSON value. -/
inductive Json where
  | null
  | bool (b : Bool)
  | number (n : Json.Number)
  | string (s : String)
  | array (items : List Json)
  | object (members : List (String × Json))
  /-- A value that follows the grammar and has no meaning: a string with half of a surrogate pair,
  an object with such a name, or a number beyond the range of a double. -/
  | unreadable

namespace Json

instance : Inhabited Json := ⟨null⟩

/-- A natural number as a value. -/
def ofUInt64 (n : UInt64) : Json := number (.natural n)

/-- A natural number of 32 bits as a value. -/
def ofUInt32 (n : UInt32) : Json := number (.natural n.toUInt64)

mutual

/-- How many arrays and objects lie inside one another. -/
def depth : Json → Nat
  | array items => depthOfItems items + 1
  | object members => depthOfMembers members + 1
  | _ => 0

/-- The greatest depth of the items. -/
def depthOfItems : List Json → Nat
  | [] => 0
  | v :: rest => max (depth v) (depthOfItems rest)

/-- The greatest depth of the members. -/
def depthOfMembers : List (String × Json) → Nat
  | [] => 0
  | (_, v) :: rest => max (depth v) (depthOfMembers rest)

end

mutual

/-- Every part of the value has a meaning. -/
def readable : Json → Bool
  | array items => readableItems items
  | object members => readableMembers members
  | unreadable => false
  | _ => true

/-- Every item is readable. -/
def readableItems : List Json → Bool
  | [] => true
  | v :: rest => readable v && readableItems rest

/-- The value of every member is readable. -/
def readableMembers : List (String × Json) → Bool
  | [] => true
  | (_, v) :: rest => readable v && readableMembers rest

end

/-- The deepest nesting of a document that is read in full. -/
def maxDepth : Nat := 127

/-- The value is readable and not nested too deeply to be read in full. -/
def isSound (v : Json) : Bool := readable v && depth v ≤ maxDepth

/-- The value of the first member with this name. -/
def get? (v : Json) (name : String) : Option Json :=
  match v with
  | object members => members.lookup name
  | _ => none

end Json

end SchemaLedger
