import SchemaLedger.Json.Mismatch
import SchemaLedger.Json.Reader

/-!
# Records in documents

A record is an object with known members in any order, or a list of the values of its fields in
their order. Values are looked at in the order of the document, so the first problem in the text is
the one reported; that a field is missing is noticed at the end of the record, in the order of the
fields.
-/

namespace SchemaLedger.Json

-- powers of naturals are those of the core library, whatever instances are in scope
attribute [local instance (high)] instPowNat

/-! ### Simple values -/

/-- The value is not of the wanted shape. -/
def refuse {α : Type} (wanted : Wanted) (v : Json) : Except Mismatch α :=
  .error (.wrongShape v.shape wanted)

/-- Reads a text. -/
def readText : Json → Except Mismatch String
  | string s => .ok s
  | v => refuse .text v

/-- Reads a truth value. -/
def readBool : Json → Except Mismatch Bool
  | bool b => .ok b
  | v => refuse .boolean v

/-- Reads a natural number of the given number of bits. -/
def readWord (bits : Nat) : Json → Except Mismatch Nat
  | number (.natural n) =>
    if n.toNat < 2 ^ bits then .ok n.toNat else .error (.outOfRange (.natural n) bits)
  | number (.negative n) => .error (.outOfRange (.negative n) bits)
  | v => refuse (.word bits) v

/-- Reads a natural number of 32 bits. -/
def readUInt32 (v : Json) : Except Mismatch UInt32 := (readWord 32 v).map Nat.toUInt32

/-- Reads a natural number of 64 bits. -/
def readUInt64 (v : Json) : Except Mismatch UInt64 := (readWord 64 v).map Nat.toUInt64

/-- Reads each item of a list. -/
def readEach {α : Type} (read : Json → Except Mismatch α) : List Json → Except Mismatch (List α)
  | [] => .ok []
  | v :: rest => do
    let x ← read v
    let xs ← readEach read rest
    return x :: xs

/-- Reads a list. -/
def readList {α : Type} (read : Json → Except Mismatch α) : Json → Except Mismatch (List α)
  | array items => readEach read items
  | v => refuse .list v

/-- Reads a value that may be null. -/
def readNullable {α : Type} (read : Json → Except Mismatch α) : Json → Except Mismatch (Option α)
  | null => .ok none
  | v => (read v).map some

/-! ### Records -/

/-- A field of a record that is put together from its fields. -/
structure Field (α : Type) where
  name : String
  /-- The record is incomplete without the field. -/
  required : Bool
  /-- Takes up the value of the field. -/
  take : Json → α → Except Mismatch α

/-- A field that has to be there. -/
def Field.needed {α β : Type} (name : String) (read : Json → Except Mismatch β)
    (put : β → α → α) : Field α :=
  ⟨name, true, fun v record => (read v).map (put · record)⟩

/-- A field that may be left out. -/
def Field.optional {α β : Type} (name : String) (read : Json → Except Mismatch β)
    (put : β → α → α) : Field α :=
  ⟨name, false, fun v record => (read v).map (put · record)⟩

/-- The fields of a record in their order. -/
structure RecordFormat (α : Type) where
  name : String
  fields : List (Field α)
  /-- Members with other names are refused; otherwise they are passed over. -/
  strict : Bool
  /-- The record before any field is taken up. -/
  blank : α

namespace RecordFormat

variable {α : Type}

/-- The names of the fields. -/
def fieldNames (format : RecordFormat α) : List String := format.fields.map (·.name)

/-- Takes up the members of an object. Names of fields that were taken up before are in `seen`. -/
def takeMembers (format : RecordFormat α) (seen : List String) (record : α) :
    List (String × Json) → Except Mismatch α
  | [] =>
    match format.fields.find? fun field => field.required && !seen.contains field.name with
    | some field => .error (.missingField field.name)
    | none => .ok record
  | (name, v) :: rest =>
    match format.fields.find? fun field => field.name = name with
    | some field =>
      if seen.contains name then .error (.duplicateField name)
      else do
        let record ← field.take v record
        takeMembers format (name :: seen) record rest
    | none =>
      if format.strict then .error (.unknownField name format.fieldNames)
      else takeMembers format seen record rest

/-- Takes up the items of a list for the given fields, the first of which stands at `position`. -/
def takeItems (format : RecordFormat α) (position : Nat) (record : α) :
    List (Field α) → List Json → Except Mismatch α
  | [], [] => .ok record
  | [], _ :: _ => .error .tooLong
  | field :: fields, [] =>
    if field.required then .error (.tooShort position format.name format.fields.length)
    else takeItems format (position + 1) record fields []
  | field :: fields, v :: rest => do
    let record ← field.take v record
    takeItems format (position + 1) record fields rest

/-- Reads a record. -/
def read (format : RecordFormat α) : Json → Except Mismatch α
  | object members => format.takeMembers [] format.blank members
  | array items => format.takeItems 0 format.blank format.fields items
  | v => refuse (.record format.name) v

end RecordFormat

/-- Reads a document that holds one value of the wanted form. A problem with the form is only
reported if the document has a meaning as a whole. -/
def readDocument {α : Type} (read : Json → Except Mismatch α) (text : String) :
    Except ReadError α :=
  match Json.read text with
  | none => .error .illFormed
  | some v =>
    match read v with
    | .ok x => .ok x
    | .error cause => .error (if v.isSound then .mismatch cause else .illFormed)

end SchemaLedger.Json
