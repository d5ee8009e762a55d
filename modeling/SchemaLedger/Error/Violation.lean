import SchemaLedger.Ident.Pair
import SchemaLedger.Text.Quoted

/-!
# What can be wrong with a model

The causes name the elements as messages show them, so that a report can be made without the model.
-/

namespace SchemaLedger

open Text

/-- The elements that share one count of ids across the model. -/
inductive Scope where
  | entities
  | indexes
  | relations
deriving DecidableEq, Repr

/-- What the last identifier of a scope is called in a document. -/
def Scope.lastName : Scope → String
  | .entities => "lastEntityId"
  | .indexes => "lastIndexId"
  | .relations => "lastRelationId"

/-- A pair that has to be assigned and is not. -/
structure BadPair where
  pair : IdPair
  fault : IdPair.Fault
deriving DecidableEq, Repr

/-- The text shown for such a pair. -/
def BadPair.message (b : BadPair) : String :=
  s!"malformed id '{b.pair.text}': {b.fault.message}"

/-- A last identifier that does not fit the elements. -/
inductive OrderFault where
  | propertyAboveLast (name : String) (id last : IdPair)
  | propertyUnlikeLast (name : String) (id last : IdPair)
  | lostLastProperty (last : IdPair)
  | aboveLast (scope : Scope) (name : String) (id last : IdPair)
  | unlikeLast (scope : Scope) (name : String) (id last : IdPair)
  | lostLast (scope : Scope) (last : IdPair)
deriving DecidableEq, Repr

/-- The text shown for each cause. -/
def OrderFault.message : OrderFault → String
  | .propertyAboveLast name id last =>
    s!"property {quoted name} id {id.text} is higher than lastPropertyId {last.text}"
  | .propertyUnlikeLast name id last =>
    s!"lastPropertyId {last.text} does not match property {quoted name} {id.text}"
  | .lostLastProperty last => s!"lastPropertyId {last.text} doesn't match any property"
  | .aboveLast scope name id last =>
    s!"{scope.lastName} {last.text} is lower than {quoted name} {id.text}"
  | .unlikeLast scope name id last =>
    s!"{scope.lastName} {last.text} doesn't match {quoted name} {id.text}"
  | .lostLast scope last =>
    s!"{scope.lastName} {last.text} doesn't match any live or retired element"

/-- The place of a uid in a model. -/
inductive UidPlace where
  | entity (name : String)
  | property (owner name : String)
  | index (owner name : String)
  | relation (owner name : String)
  | retiredEntities
  | retiredIndexes
  | retiredProperties
  | retiredRelations
deriving DecidableEq, Repr

/-- The text shown for each place. -/
def UidPlace.text : UidPlace → String
  | .entity name => s!"entity {quoted name}"
  | .property owner name => s!"property {owner}.{name}"
  | .index owner name => s!"index of {owner}.{name}"
  | .relation owner name => s!"relation {owner}.{name}"
  | .retiredEntities => "retiredEntityUids"
  | .retiredIndexes => "retiredIndexUids"
  | .retiredProperties => "retiredPropertyUids"
  | .retiredRelations => "retiredRelationUids"

/-- How a uid comes to be used twice. -/
inductive UidClash where
  | places (first second : UidPlace)
  /-- The uid that is to replace another one is in use. -/
  | replacement
deriving DecidableEq, Repr

/-- The text shown for each cause. -/
def UidClash.message : UidClash → String
  | .places first second => s!"{first.text} and {second.text}"
  | .replacement => "the new uid of a reset property must not be used anywhere in the model"

/-- A condition on models that does not hold, or a request that makes no sense for the model. -/
inductive Violation where
  | noName
  | lastPropertyUnset
  /-- The pair in a field of the document is not assigned. -/
  | badPair (field : String) (cause : BadPair)
  | sharedPropertyId (first second : String) (id : UInt32)
  | severalIds (count : Nat)
  | unsignedId
  | noTarget
  | sharedEntityId (first second : String) (id : UInt32)
  | targetMissing (target : IdPair)
  | namedTargetMissing (name : String)
  | toOneTargetMissing (name : String)
  | lastUnset (scope : Scope) (name : String) (id : IdPair)
  | sharedId (first second : String) (id : UInt32)
  | twoMarkedIds (first second : String)
  | notIndexed (property : String)
  | noEntityAt (position : Nat)
  | noPropertyAt (position : Nat)
  | noRelationAt (position : Nat)
  | slotTooLarge (property : String) (id : IdPair)
deriving DecidableEq, Repr

/-- The text shown for each cause. -/
def Violation.message : Violation → String
  | .noName => "name is undefined"
  | .lastPropertyUnset => "lastPropertyId is undefined"
  | .badPair field cause => s!"{field}: {cause.message}"
  | .sharedPropertyId first second id =>
    s!"properties {quoted first} and {quoted second} share id {id.toNat}"
  | .severalIds count => s!"{count} properties are flagged as ID, expected exactly one"
  | .unsignedId => "property marked as ID must not be flagged as unsigned"
  | .noTarget => "target entity is undefined"
  | .sharedEntityId first second id =>
    s!"entities {quoted first} and {quoted second} share id {id.toNat}"
  | .targetMissing target => s!"target entity {target.text} not found"
  | .namedTargetMissing name => s!"target entity {quoted name} not found"
  | .toOneTargetMissing name => s!"relation target entity {quoted name} not found"
  | .lastUnset scope name id =>
    s!"{scope.lastName} is undefined while {quoted name} has id {id.text}"
  | .sharedId first second id => s!"{quoted first} and {quoted second} share the id {id.toNat}"
  | .twoMarkedIds first second => s!"multiple properties marked as ID: {first} and {second}"
  | .notIndexed property => s!"property {quoted property} has no index"
  | .noEntityAt position => s!"no entity at position {position}"
  | .noPropertyAt position => s!"no property at position {position}"
  | .noRelationAt position => s!"no relation at position {position}"
  | .slotTooLarge property id =>
    s!"can't calculate FlatBuffers vtable offset: property {property} id {id.text} is too large"

end SchemaLedger
