import SchemaLedger.Merge.Matching
import SchemaLedger.Merge.Notice

/-!
# Merging relations

Relations are merged like properties. The target of a relation is the planned entity that has the
name of the target, whatever the stored entities are called while renames are half done.
-/

namespace SchemaLedger.Merge

open Text

/-- The uids of the merged entities under their names without regard to case. -/
abbrev Targets := List (String × UInt64)

/-- The position of the relation with the given uid. -/
def locateRelation (planned : Entity) (i : Nat) (uid : UInt64) : Revision Nat := do
  let e ← Revision.entityAt i
  match e.findRelationByUid? uid with
  | some j => return j
  | none => throw (.unknownRelationUid planned.name uid)

/-- Finds or creates the relation. Gives its position. -/
def placeRelation (planned : Entity) (i : Nat) (isNew : Bool) (r : Relation) :
    Option UInt64 → Revision (Nat × List Notice)
  | some uid => do
    let j ← Revision.within (.relation r.name) (locateRelation planned i uid)
    return (j, [])
  | none => do
    let j ← Revision.createRelation i r.name
    return (j, if isNew then [] else [.relationAdded planned.name r.name])

/-- The identifier of the entity that the relation points at. -/
def targetOf (targets : Targets) (m : Model) (r : Relation) : Except ModelError IdPair :=
  match (targets.lookup (foldCase r.target)).bind fun uid =>
      m.entities.find? fun e => e.id.uid = uid with
  | some e => .ok e.id
  | none => .error (.within (.relation r.name) (.invalidModel (.namedTargetMissing r.target)))

/-- The stored relation with everything that the schema says. -/
def adoptRelation (target : IdPair) (r stored : Relation) : Relation :=
  { stored with
    name := r.name, target := r.target, targetId := some target, uidRequested := false }

/-- Merges one relation. Gives its uid. -/
def mergeRelation (planned : Entity) (i : Nat) (isNew : Bool) (targets : Targets) (r : Relation)
    (found : Option UInt64) : Revision (UInt64 × List Notice) := do
  let (j, placed) ← placeRelation planned i isNew r found
  let target ← Revision.ofExcept (targetOf targets (← Revision.model) r)
  let stored ← Revision.relationAt i j
  Revision.update (·.modifyRelation i j (adoptRelation target r))
  return (stored.id.uid, placed ++
    if stored.name ≠ r.name then [.relationRenamed planned.name stored.name r.name] else [])

/-- Merges relations with their matches. Gives their uids in order. -/
def mergeEachRelation (planned : Entity) (i : Nat) (isNew : Bool) (targets : Targets) :
    List (Relation × Option UInt64) → Revision (List UInt64 × List Notice)
  | [] => return ([], [])
  | (r, found) :: rest => do
    let (uid, notices) ← mergeRelation planned i isNew targets r found
    let (uids, others) ← mergeEachRelation planned i isNew targets rest
    return (uid :: uids, notices ++ others)

/-- Merges the relations of the stored entity at position `i`. -/
def mergeRelations (planned : Entity) (i : Nat) (isNew : Bool) (targets : Targets) :
    Revision (List Notice) := do
  let owner ← Revision.entityAt i
  let found ← Revision.ofExcept (matchRelations planned owner)
  let kept := found.filterMap id
  Revision.update (·.keepRelations i (·.id.uid ∈ kept))
  let removed := (owner.relations.filter (·.id.uid ∉ kept)).map fun r =>
    Notice.relationRemoved planned.name r.name
  let (order, notices) ← mergeEachRelation planned i isNew targets (planned.relations.zip found)
  Revision.update (·.modifyEntity i fun e =>
    { e with relations := reorder (·.id.uid) order e.relations })
  return removed ++ notices

end SchemaLedger.Merge
