import SchemaLedger.Error.Basic
import SchemaLedger.Ident.Source
import SchemaLedger.Model.Census

/-!
# Changing a model

A store is a model with the source of its uids. Elements get the id after the last one of their
scope and a uid that the model does not mention; the uids of removed elements are retired. What
happens to the model is a function of the model and the fresh uid; only drawing the uid needs the
source.
-/

namespace SchemaLedger

/-! ### Elements come -/

namespace Model

/-- Changes the entity at the given position. -/
def modifyEntity (m : Model) (i : Nat) (f : Entity → Entity) : Model :=
  { m with entities := m.entities.modify i f }

/-- Adds an entity at the end, with the given uid. -/
def addEntity (m : Model) (name : String) (uid : UInt64) : Model :=
  let id : IdPair := ⟨IdPair.next m.lastEntity, uid⟩
  { m with entities := m.entities ++ [{ id, name }], lastEntity := some id }

/-- Takes the next index id, with the given uid. -/
def addIndex (m : Model) (uid : UInt64) : IdPair × Model :=
  let id : IdPair := ⟨IdPair.next m.lastIndex, uid⟩
  (id, { m with lastIndex := some id })

/-- Adds a relation at the end of an entity, with the given uid. -/
def addRelation (m : Model) (i : Nat) (name : String) (uid : UInt64) : Model :=
  let id : IdPair := ⟨IdPair.next m.lastRelation, uid⟩
  { m.modifyEntity i (fun e => { e with relations := e.relations ++ [{ id, name }] }) with
    lastRelation := some id }

end Model

/-- The entity with one more property at the end, with the given uid. -/
def Entity.addProperty (e : Entity) (name : String) (kind : PropertyKind) (uid : UInt64) : Entity :=
  let id : IdPair := ⟨IdPair.next e.lastProperty, uid⟩
  { e with properties := e.properties ++ [{ id, name, kind }], lastProperty := some id }

/-! ### Elements go -/

/-- The uid of the index, unless the index has not got its identifier yet. -/
def Property.indexUid? (p : Property) : Option UInt64 :=
  (p.index.map (·.uid)).filter (· ≠ 0)

namespace Retired

/-- Retires an index. -/
def addIndex (r : Retired) (index : Option UInt64) : Retired :=
  { r with indexes := r.indexes ++ index.toList }

/-- Retires properties with their indexes. -/
def addProperties (r : Retired) (properties : List Property) : Retired :=
  { r with
    indexes := r.indexes ++ properties.filterMap Property.indexUid?
    properties := r.properties ++ properties.map (·.id.uid) }

/-- Retires relations. -/
def addRelations (r : Retired) (relations : List Relation) : Retired :=
  { r with relations := r.relations ++ relations.map (·.id.uid) }

/-- Retires entities with all that belongs to them. -/
def addEntities (r : Retired) (entities : List Entity) : Retired :=
  let r := (r.addProperties (entities.flatMap (·.properties))).addRelations
    (entities.flatMap (·.relations))
  { r with entities := r.entities ++ entities.map (·.id.uid) }

end Retired

namespace Model

/-- Keeps the entities that satisfy the condition and retires the others. -/
def keepEntities (m : Model) (keep : Entity → Bool) : Model :=
  { m with
    entities := m.entities.filter keep
    retired := m.retired.addEntities (m.entities.filter (!keep ·)) }

/-- Keeps the properties of an entity that satisfy the condition and retires the others. -/
def keepProperties (m : Model) (i : Nat) (keep : Property → Bool) : Model :=
  match m.entities[i]? with
  | some e =>
    { m.modifyEntity i (fun e => { e with properties := e.properties.filter keep }) with
      retired := m.retired.addProperties (e.properties.filter (!keep ·)) }
  | none => m

/-- Keeps the relations of an entity that satisfy the condition and retires the others. -/
def keepRelations (m : Model) (i : Nat) (keep : Relation → Bool) : Model :=
  match m.entities[i]? with
  | some e =>
    { m.modifyEntity i (fun e => { e with relations := e.relations.filter keep }) with
      retired := m.retired.addRelations (e.relations.filter (!keep ·)) }
  | none => m

/-- Changes a property of an entity. -/
def modifyProperty (m : Model) (i j : Nat) (f : Property → Property) : Model :=
  m.modifyEntity i fun e => { e with properties := e.properties.modify j f }

/-- Changes a relation of an entity. -/
def modifyRelation (m : Model) (i j : Nat) (f : Relation → Relation) : Model :=
  m.modifyEntity i fun e => { e with relations := e.relations.modify j f }

/-- The property at the given position of an entity. -/
def propertyAt? (m : Model) (i j : Nat) : Option Property :=
  m.entities[i]?.bind fun e => e.properties[j]?

/-- The relation at the given position of an entity. -/
def relationAt? (m : Model) (i j : Nat) : Option Relation :=
  m.entities[i]?.bind fun e => e.relations[j]?

/-- Drops the index of a property and retires its uid. -/
def dropIndex (m : Model) (i j : Nat) : Model :=
  { m.modifyProperty i j (fun p => { p with index := none }) with
    retired := m.retired.addIndex ((m.propertyAt? i j).bind Property.indexUid?) }

end Model

/-! ### Stores -/

/-- A model with the source of its uids. -/
structure Store where
  model : Model
  uids : UidSource

/-- How many candidates are tried before no uid is found. -/
def uidAttempts : Nat := 1000

/-- The first candidate that is not zero and not mentioned in the model. -/
def Model.freshUid? (m : Model) (source : UidSource) : Option UInt64 × UidSource :=
  source.search (fun uid => uid ≠ 0 ∧ ¬ m.Mentions uid) uidAttempts

/-- A change of a store, which gives a value or an error. What was changed before an error stays. -/
abbrev Revision := EStateM ModelError Store

namespace Revision

/-- Applies a function to the model. -/
def update (f : Model → Model) : Revision Unit := modify fun s => { s with model := f s.model }

/-- The model as it is now. -/
def model : Revision Model := return (← get).model

/-- Gives the value of a result or fails with its error. -/
def ofExcept {α : Type} : Except ModelError α → Revision α
  | .ok x => pure x
  | .error e => throw e

/-- Adds a place to the error of a change. -/
def within {α : Type} (place : Place) (change : Revision α) : Revision α := fun s =>
  match change s with
  | .ok x s' => .ok x s'
  | .error e s' => .error (.within place e) s'

/-- Draws a uid that the model does not mention. -/
def freshUid : Revision UInt64 := fun s =>
  match s.model.freshUid? s.uids with
  | (some uid, uids) => .ok uid { s with uids }
  | (none, uids) => .error (.uidsExhausted uidAttempts) { s with uids }

/-- Fails unless there is an entity at the given position. -/
def entityAt (i : Nat) : Revision Entity := do
  match (← model).entities[i]? with
  | some e => return e
  | none => throw (.invalidModel (.noEntityAt i))

/-- Fails unless there is a property at the given position. -/
def propertyAt (i j : Nat) : Revision Property := do
  let e ← entityAt i
  match e.properties[j]? with
  | some p => return p
  | none => throw (.invalidModel (.noPropertyAt j))

/-- Fails unless there is a relation at the given position. -/
def relationAt (i j : Nat) : Revision Relation := do
  let e ← entityAt i
  match e.relations[j]? with
  | some r => return r
  | none => throw (.invalidModel (.noRelationAt j))

/-- Adds an entity and gives its position. -/
def createEntity (name : String) : Revision Nat := do
  let uid ← freshUid
  let position := (← model).entities.length
  update (·.addEntity name uid)
  return position

/-- Adds a property to an entity and gives its position. -/
def createProperty (i : Nat) (name : String) (kind : PropertyKind) : Revision Nat := do
  let e ← entityAt i
  let uid ← freshUid
  update (·.modifyEntity i (·.addProperty name kind uid))
  return e.properties.length

/-- Adds a relation to an entity and gives its position. -/
def createRelation (i : Nat) (name : String) : Revision Nat := do
  let e ← entityAt i
  let uid ← freshUid
  update (·.addRelation i name uid)
  return e.relations.length

/-- Takes the next index id with a fresh uid. -/
def createIndex : Revision IdPair := do
  let uid ← freshUid
  let (index, m) := (← model).addIndex uid
  update fun _ => m
  return index

/-- Removes an entity with all that belongs to it, and gives what is left of it. -/
def removeEntity (i : Nat) : Revision Entity := do
  let e ← entityAt i
  update fun m =>
    { m with entities := m.entities.eraseIdx i, retired := m.retired.addEntities [e] }
  return { e with properties := [], relations := [] }

/-- Removes a property with its index, and gives what is left of it. -/
def removeProperty (i j : Nat) : Revision Property := do
  let p ← propertyAt i j
  update fun m =>
    { m.modifyEntity i (fun e => { e with properties := e.properties.eraseIdx j }) with
      retired := m.retired.addProperties [p] }
  return { p with index := none }

/-- Drops the index of a property. -/
def removeIndex (i j : Nat) : Revision Unit := do
  let p ← propertyAt i j
  match p.index with
  | some _ => update (·.dropIndex i j)
  | none => throw (.invalidModel (.notIndexed p.name))

/-- Removes a relation, and gives it. -/
def removeRelation (i j : Nat) : Revision Relation := do
  let r ← relationAt i j
  update fun m =>
    { m.modifyEntity i (fun e => { e with relations := e.relations.eraseIdx j }) with
      retired := m.retired.addRelations [r] }
  return r

end Revision

end SchemaLedger
