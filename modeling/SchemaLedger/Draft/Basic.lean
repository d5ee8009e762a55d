import SchemaLedger.Error.Basic
import SchemaLedger.Tag.Basic

/-!
# Drafts

A draft is an entity as a schema declares it: fields with types, and annotations that have been read
but not yet applied.
-/

namespace SchemaLedger

/-- A field as it is declared. -/
structure FieldDraft where
  name : String
  /-- The type of the field, or of its elements if it is a vector. -/
  base : PropertyKind
  unsigned : Bool := false
  isVector : Bool := false
  element : Option PropertyKind := none
  annotations : Annotations := .empty
deriving DecidableEq, Repr

/-- An entity as it is declared. -/
structure EntityDraft where
  name : String
  comments : List String := []
  annotations : Annotations := .empty
  fields : List FieldDraft := []
deriving DecidableEq, Repr

/-- The kind of the property that a field becomes. -/
def FieldDraft.kind (field : FieldDraft) : Except ModelError PropertyKind :=
  if field.isVector then
    match field.element with
    | some .string => .ok .stringVector
    | some .byte => .ok .byteVector
    | some .float => .ok .floatVector
    | some kind => .error (.unsupportedKind (.vectorOf kind))
    | none => .error (.unsupportedKind .vectorOfNothing)
  else if field.base = .relation then .error (.unsupportedKind .bareRelation)
  else .ok field.base

end SchemaLedger
