import SchemaLedger.Ident.Pair
import SchemaLedger.Json.Printer
import SchemaLedger.Text.Quoted

/-!
# Values that are not what was wanted

A document that follows the grammar may still hold a value of the wrong shape, or a record with the
wrong members. A mismatch says what was found and what was wanted instead.
-/

namespace SchemaLedger

open Text

namespace Json

/-- What a value looks like from outside. -/
inductive Shape where
  | null
  | bool (b : Bool)
  | number (n : Number)
  | string (s : String)
  | sequence
  | map
  | unreadable
deriving DecidableEq, Repr

/-- The shape of a value. -/
def shape : Json → Shape
  | null => .null
  | bool b => .bool b
  | number n => .number n
  | string s => .string s
  | array _ => .sequence
  | object _ => .map
  | unreadable => .unreadable

/-- The name of a number's class. -/
def Number.className : Number → String
  | .natural _ | .negative _ => "integer"
  | .float _ _ _ => "floating point"

/-- A number in a message. -/
def Number.describe (n : Number) : String :=
  let digits := String.ofList n.print
  s!"{n.className} `{digits}`"

/-- A value in a message. -/
def Shape.describe : Shape → String
  | .null => "null"
  | .bool b => if b then "boolean `true`" else "boolean `false`"
  | .number n => n.describe
  | .string s => s!"string {quoted s}"
  | .sequence => "sequence"
  | .map => "map"
  | .unreadable => "unreadable value"

/-- What may be wanted at a place in a document. -/
inductive Wanted where
  | text
  | boolean
  | list
  | word (bits : Nat)
  | idPair
  | record (name : String)
deriving DecidableEq, Repr

/-- A wanted value in a message. -/
def Wanted.describe : Wanted → String
  | .text => "a string"
  | .boolean => "a boolean"
  | .list => "a sequence"
  | .word bits => s!"u{bits}"
  | .idPair => "an \"id:uid\" string"
  | .record name => s!"struct {name}"

/-- Why a value is not what was wanted. -/
inductive Mismatch where
  | wrongShape (found : Shape) (wanted : Wanted)
  | outOfRange (found : Number) (bits : Nat)
  | missingField (name : String)
  | duplicateField (name : String)
  | unknownField (name : String) (known : List String)
  /-- A record given as a list ends before the field at this position, which is needed. -/
  | tooShort (position : Nat) (record : String) (size : Nat)
  /-- A record given as a list goes on behind its last field. -/
  | tooLong
  | malformedId (text : String) (fault : IdPair.Fault)
  | unknownKind (code : Nat)
deriving DecidableEq, Repr

/-- The names that may stand where an unknown one stands. -/
def Mismatch.expectation (known : List String) : String :=
  let names := ", ".intercalate (known.map fun name => s!"`{name}`")
  if known.length = 1 then s!"expected {names}" else s!"expected one of {names}"

/-- The text shown for each cause. -/
def Mismatch.message : Mismatch → String
  | .wrongShape found wanted => s!"invalid type: {found.describe}, expected {wanted.describe}"
  | .outOfRange found bits => s!"invalid value: {found.describe}, expected u{bits}"
  | .missingField name => s!"missing field `{name}`"
  | .duplicateField name => s!"duplicate field `{name}`"
  | .unknownField name known => s!"unknown field `{name}`, {expectation known}"
  | .tooShort position record size =>
    let elements := if size = 1 then "element" else "elements"
    s!"invalid length {position}, expected struct {record} with {size} {elements}"
  | .tooLong => "trailing characters"
  | .malformedId text fault => s!"malformed id '{text}': {fault.message}"
  | .unknownKind code => s!"unknown property type code {code}"

/-- Why a text does not give the wanted value. -/
inductive ReadError where
  /-- The text is no document at all. -/
  | illFormed
  | mismatch (cause : Mismatch)
deriving DecidableEq, Repr

/-- The text shown for each cause. -/
def ReadError.message : ReadError → String
  | .illFormed => "the document is not well-formed"
  | .mismatch cause => cause.message

end Json

end SchemaLedger
