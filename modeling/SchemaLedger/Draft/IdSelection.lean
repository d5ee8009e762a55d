import SchemaLedger.Error.Check
import SchemaLedger.Model.Basic

/-!
# Selecting the ID

An entity has exactly one ID: the property marked as such, or else the only one named `id` of a kind
that may be an ID. The ID becomes a signed long. Names are compared without regard to case.
-/

namespace SchemaLedger

open Text

namespace Entity

/-- The positions of the properties that satisfy the condition. -/
def positionsOf (e : Entity) (p : Property → Bool) : List Nat :=
  (e.properties.zipIdx.filter fun x => p x.1).map Prod.snd

/-- The name of the property at the given position. -/
def propertyNameAt (e : Entity) (j : Nat) : String := (e.properties[j]?.map (·.name)).getD ""

/-- The position of the property that becomes the ID. -/
def selectId (kinds : List PropertyKind) (e : Entity) : Except ModelError Nat :=
  match e.positionsOf fun p => p.IsId with
  | [j] => .ok j
  | i :: j :: _ =>
    .error (.invalidModel (.twoMarkedIds (e.propertyNameAt i) (e.propertyNameAt j)))
  | [] =>
    match e.positionsOf fun p => SameName p.name "id" ∧ p.HasIdKind kinds with
    | [j] => .ok j
    | i :: j :: _ => .error (.ambiguousId (e.propertyNameAt i) (e.propertyNameAt j))
    | [] => .error .noId

/-- Fails if two properties or two relations have the same name. -/
def checkNames (e : Entity) : Check := do
  Check.eachAfter (fun before (p : Property) =>
    Check.require (∀ q ∈ before, ¬ SameName q.name p.name) (.duplicateName .property p.name))
    [] e.properties
  Check.eachAfter (fun before (r : Relation) =>
    Check.require (∀ q ∈ before, ¬ SameName q.name r.name) (.duplicateName .relation r.name))
    [] e.relations

/-- The ID as it is stored. -/
def asId (p : Property) : Property :=
  { p with flags := (p.flags ∪ .objectId).without .unsigned, kind := .long }

/-- Fails if the property at the given position cannot be an ID. -/
def checkIdKind (kinds : List PropertyKind) (e : Entity) (j : Nat) : Check :=
  Check.all (fun p =>
    (Place.property p.name).wrap <|
      Check.require (p.HasIdKind kinds) (.kindMismatch (.id p.kind))) e.properties[j]?.toList

/-- The entity with its ID selected. -/
def withId (kinds : List PropertyKind) (e : Entity) : Except ModelError Entity := do
  let j ← e.selectId kinds
  e.checkNames
  e.checkIdKind kinds j
  return { e with properties := e.properties.modify j asId }

end Entity

end SchemaLedger
