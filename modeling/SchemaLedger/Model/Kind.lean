import SchemaLedger.Text.Case

/-!
# Kinds of properties

The kind of a property says what its values are. Each kind has a number, which is what documents
store, and a name, which is accepted in any case.
-/

namespace SchemaLedger

open Text

/-- What the values of a property are. -/
inductive PropertyKind where
  | bool
  | byte
  | short
  | char
  | int
  | long
  | float
  | double
  | string
  | date
  | relation
  | dateNano
  | byteVector
  | floatVector
  | stringVector
deriving DecidableEq, Repr

namespace PropertyKind

/-- All kinds, by ascending number. -/
def all : List PropertyKind :=
  [bool, byte, short, char, int, long, float, double, string, date, relation, dateNano, byteVector,
    floatVector, stringVector]

/-- The number stored in documents. -/
def code : PropertyKind → Nat
  | bool => 1
  | byte => 2
  | short => 3
  | char => 4
  | int => 5
  | long => 6
  | float => 7
  | double => 8
  | string => 9
  | date => 10
  | relation => 11
  | dateNano => 12
  | byteVector => 23
  | floatVector => 28
  | stringVector => 30

/-- The name shown in messages. -/
def name : PropertyKind → String
  | bool => "Bool"
  | byte => "Byte"
  | short => "Short"
  | char => "Char"
  | int => "Int"
  | long => "Long"
  | float => "Float"
  | double => "Double"
  | string => "String"
  | date => "Date"
  | relation => "Relation"
  | dateNano => "DateNano"
  | byteVector => "ByteVector"
  | floatVector => "FloatVector"
  | stringVector => "StringVector"

/-- The kind with the given number. -/
def ofCode? (code : Nat) : Option PropertyKind := all.find? fun kind => kind.code = code

/-- The kind with the given name, in any case. -/
def ofName? (name : String) : Option PropertyKind := all.find? fun kind => SameName kind.name name

/-- The values are arrays. -/
def isVector : PropertyKind → Bool
  | byteVector | floatVector | stringVector => true
  | _ => false

theorem ofCode?_code (kind : PropertyKind) : ofCode? kind.code = some kind := by
  cases kind <;> decide

end PropertyKind

end SchemaLedger
