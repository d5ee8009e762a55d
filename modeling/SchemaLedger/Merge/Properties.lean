import SchemaLedger.Merge.Matching
import SchemaLedger.Merge.Notice

/-!
# Merging properties

Within an entity, properties without a match are removed or created, and every other one takes over
what the schema says. An index is kept, dropped or created. What happens to properties and indexes
of an entity that has just been created is not told separately, and neither is the index of a new
property.
-/

namespace SchemaLedger.Merge

/-- The property with another uid. Its old uid is retired, and if the property was the last one
created, the last identifier of the entity changes with it. -/
def resetProperty (i j : Nat) (new : UInt64) (m : Model) : Model :=
  match m.propertyAt? i j with
  | none => m
  | some p =>
    let id : IdPair := { p.id with uid := new }
    let m := m.modifyProperty i j fun p => { p with id }
    let m := m.modifyEntity i fun e =>
      if e.lastProperty = some p.id then { e with lastProperty := some id } else e
    { m with retired := { m.retired with properties := m.retired.properties ++ [p.id.uid] } }

/-- The position of the property with the given uid. -/
def locateProperty (i : Nat) (uid : UInt64) : Revision Nat := do
  let e ← Revision.entityAt i
  match e.findPropertyByUid? uid with
  | some j => return j
  | none => throw (.unknownPropertyUid e.name uid)

/-- Finds, resets or creates the property. Gives its position, and whether the index of the property
goes without notice. -/
def placeProperty (planned : Entity) (i : Nat) (isNew : Bool) (p : Property) :
    Option PropertyMatch → Revision (Nat × Bool × List Notice)
  | some (.existing uid) => do
    let j ← Revision.within (.property p.name) (locateProperty i uid)
    return (j, isNew, [])
  | some (.reset old new) => do
    let j ← Revision.within (.property p.name) (locateProperty i old)
    Revision.update (resetProperty i j new)
    return (j, isNew, [.propertyReset planned.name p.name old new])
  | none => do
    let j ← Revision.createProperty i p.name p.kind
    return (j, true, if isNew then [] else [.propertyAdded planned.name p.name])

/-- Drops or creates the index of a property, as the schema wants it. -/
def settleIndex (planned : Entity) (i j : Nat) (quiet : Bool) (p stored : Property) :
    Revision (List Notice) :=
  match stored.index, p.index with
  | some _, none => do
    Revision.update (·.dropIndex i j)
    return if quiet then [] else [.indexRemoved planned.name p.name]
  | none, some _ => do
    let index ← Revision.createIndex
    Revision.update (·.modifyProperty i j ({ · with index := some index }))
    return if quiet then [] else [.indexAdded planned.name p.name]
  | _, _ => return []

/-- The stored property with everything that the schema says, apart from identifiers. -/
def adoptProperty (p stored : Property) : Property :=
  { stored with
    name := p.name, kind := p.kind, flags := p.flags, target := p.target,
    vectorIndex := p.vectorIndex, optional := p.optional, uidRequested := false }

/-- Brings a stored property in line with the schema. -/
def settleProperty (planned : Entity) (i j : Nat) (quiet : Bool) (p : Property) :
    Revision (List Notice) := do
  let stored ← Revision.propertyAt i j
  let notices ← settleIndex planned i j quiet p stored
  Revision.update (·.modifyProperty i j (adoptProperty p))
  return notices ++
    if stored.name ≠ p.name then [.propertyRenamed planned.name stored.name p.name] else []

/-- Merges one property. Gives its uid. -/
def mergeProperty (planned : Entity) (i : Nat) (isNew : Bool) (p : Property)
    (found : Option PropertyMatch) : Revision (UInt64 × List Notice) := do
  let (j, quiet, placed) ← placeProperty planned i isNew p found
  let settled ← Revision.within (.property p.name) (settleProperty planned i j quiet p)
  let stored ← Revision.propertyAt i j
  return (stored.id.uid, placed ++ settled)

/-- Merges properties with their matches. Gives their uids in order. -/
def mergeEachProperty (planned : Entity) (i : Nat) (isNew : Bool) :
    List (Property × Option PropertyMatch) → Revision (List UInt64 × List Notice)
  | [] => return ([], [])
  | (p, found) :: rest => do
    let (uid, notices) ← mergeProperty planned i isNew p found
    let (uids, others) ← mergeEachProperty planned i isNew rest
    return (uid :: uids, notices ++ others)

/-- Merges the properties of the stored entity at position `i`. -/
def mergeProperties (planned : Entity) (i : Nat) (isNew : Bool) : Revision (List Notice) := do
  let owner ← Revision.entityAt i
  let found ← Revision.ofExcept (matchProperties (← get) planned owner)
  let kept := found.filterMap fun m => m.map PropertyMatch.storedUid
  Revision.update (·.keepProperties i (·.id.uid ∈ kept))
  let removed := (owner.properties.filter (·.id.uid ∉ kept)).map fun p =>
    Notice.propertyRemoved planned.name p.name
  let (order, notices) ← mergeEachProperty planned i isNew (planned.properties.zip found)
  Revision.update (·.modifyEntity i fun e =>
    { e with properties := reorder (·.id.uid) order e.properties })
  return removed ++ notices

end SchemaLedger.Merge
