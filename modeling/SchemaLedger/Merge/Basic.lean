import SchemaLedger.Merge.Properties
import SchemaLedger.Merge.Relations

/-!
# Merging

Merging brings a stored model in line with a plan. Entities that match keep their identifiers, new
ones get fresh identifiers, and those that the plan does not have any more are removed, with all
their uids retired. In the end the elements stand in the order of the plan.

A merge that fails stops where it is and leaves the model half updated. Callers discard such a
model, so `Store.merge` gives the error alone.
-/

namespace SchemaLedger

open Text

namespace Merge

/-- The stored entity with what the schema says about the entity itself. -/
def adoptEntity (planned stored : Entity) : Entity :=
  { stored with
    name := planned.name, flags := planned.flags, comments := planned.comments,
    uidRequested := false }

/-- Brings the stored entity at position `i` in line with the plan. -/
def mergeEntity (planned : Entity) (i : Nat) (isNew : Bool) (targets : Targets) :
    Revision (List Notice) := do
  let stored ← Revision.entityAt i
  Revision.update (·.modifyEntity i (adoptEntity planned))
  let renamed :=
    if stored.name ≠ planned.name then [Notice.entityRenamed stored.name planned.name] else []
  let properties ← mergeProperties planned i isNew
  let relations ← mergeRelations planned i isNew targets
  return renamed ++ properties ++ relations

/-- The uid of each planned entity in the model, and whether the entity is new. Entities without a
match are created. -/
def settleEntities : List (Entity × Option UInt64) → Revision (List (UInt64 × Bool) × List Notice)
  | [] => return ([], [])
  | (_, some uid) :: rest => do
    let (settled, notices) ← settleEntities rest
    return ((uid, false) :: settled, notices)
  | (planned, none) :: rest => do
    let i ← Revision.createEntity planned.name
    let created ← Revision.entityAt i
    let (settled, notices) ← settleEntities rest
    return ((created.id.uid, true) :: settled, .entityAdded planned.name :: notices)

/-- Merges each planned entity into the stored entity with its uid. -/
def mergeEachEntity (targets : Targets) :
    List (Entity × UInt64 × Bool) → Revision (List Notice)
  | [] => return []
  | (planned, uid, isNew) :: rest => do
    match (← Revision.model).findByUid? uid with
    | none => throw (.unknownEntityUid uid)
    | some i =>
      let notices ←
        Revision.within (.entity planned.name) (mergeEntity planned i isNew targets)
      let others ← mergeEachEntity targets rest
      return notices ++ others

/-- The model in today's format, unless it is of a later one. -/
def upgrade (m : Model) : Model :=
  if m.formatVersion ≤ currentFormat then
    { m with formatVersion := currentFormat, parserMinimum := currentFormat }
  else m

/-- Nothing but the format is brought up to date. -/
theorem upgrade_eq (m : Model) : upgrade m = { m with
    formatVersion := (upgrade m).formatVersion, parserMinimum := (upgrade m).parserMinimum } := by
  unfold upgrade
  split <;> rfl

theorem upgrade_upgrade (m : Model) : upgrade (upgrade m) = upgrade m := by
  unfold upgrade
  split
  · rw [if_pos (UInt32.le_refl _)]
  · rfl

section Upgrade

variable {m : Model}

@[simp] theorem upgrade_notes : (upgrade m).notes = m.notes := by
  rw [upgrade_eq]

@[simp] theorem upgrade_version : (upgrade m).version = m.version := by
  rw [upgrade_eq]

@[simp] theorem upgrade_entities : (upgrade m).entities = m.entities := by
  rw [upgrade_eq]

@[simp] theorem upgrade_lastEntity : (upgrade m).lastEntity = m.lastEntity := by
  rw [upgrade_eq]

@[simp] theorem upgrade_lastIndex : (upgrade m).lastIndex = m.lastIndex := by
  rw [upgrade_eq]

@[simp] theorem upgrade_lastRelation : (upgrade m).lastRelation = m.lastRelation := by
  rw [upgrade_eq]

@[simp] theorem upgrade_retired : (upgrade m).retired = m.retired := by
  rw [upgrade_eq]

end Upgrade

/-- Merges a plan into the model. -/
def mergePlan (plan : List Entity) : Revision (List Notice) := do
  let stored ← Revision.model
  let found ← Revision.ofExcept (matchEntities stored plan)
  let kept := found.filterMap id
  Revision.update (·.keepEntities (·.id.uid ∈ kept))
  let removed := (stored.entities.filter (·.id.uid ∉ kept)).map fun e =>
    Notice.entityRemoved e.name
  let (settled, added) ← settleEntities (plan.zip found)
  let order := settled.map Prod.fst
  let targets : Targets := plan.zipWith (fun e uid => (foldCase e.name, uid)) order
  let notices ← mergeEachEntity targets (plan.zip settled)
  Revision.update fun m =>
    upgrade { m with entities := reorder (·.id.uid) order m.entities }
  return removed ++ added ++ notices

end Merge

/-- Merges a plan into a store. Gives the changes and the new store, or the error. -/
def Store.merge (plan : List Entity) (store : Store) : Except ModelError (List Notice × Store) :=
  match Merge.mergePlan plan store with
  | .ok notices store => .ok (notices, store)
  | .error e _ => .error e

end SchemaLedger
