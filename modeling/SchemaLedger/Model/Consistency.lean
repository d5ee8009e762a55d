import SchemaLedger.Model.Census
import SchemaLedger.Model.Document
import SchemaLedger.Model.Graph

/-!
# Consistency

A model is consistent if its identifiers are assigned, distinct and covered by the last identifiers,
names are distinct, every entity has one ID, relations have targets and form no cycle, and no uid
occurs twice. The checks run in a fixed order and the first that fails is reported.
-/

namespace SchemaLedger

open Text

/-! ### Elements -/

/-- Checks the identifiers, the name and what an ID has to be. -/
def Property.check (p : Property) : Check := do
  p.id.check
  Check.all (IdPair.checkField "indexId") p.index.toList
  Check.require (p.name ≠ "") (.invalidModel .noName)
  Check.require (p.IsId → p.kind = .long) (.kindMismatch (.id p.kind))
  Check.require (p.IsId → ¬ p.flags.Contains .unsigned) (.invalidModel .unsignedId)

/-- Checks the identifiers and the name. -/
def Relation.check (r : Relation) : Check := do
  r.id.check
  Check.require (r.name ≠ "") (.invalidModel .noName)
  match r.targetId with
  | some target => target.checkField "targetId"
  | none => .error (.invalidModel .noTarget)

namespace Entity

/-- Checks a property against the last property identifier and the properties before it. -/
def checkProperty (last : IdPair) (before : List Property) (p : Property) : Check := do
  (Place.property p.name).wrap p.check
  Check.require (p.id.id ≤ last.id) (.idOrder (.propertyAboveLast p.name p.id last))
  Check.require (p.id.id = last.id → p.id.uid = last.uid)
    (.idOrder (.propertyUnlikeLast p.name p.id last))
  Check.all (fun q => do
    Check.require (¬ SameName q.name p.name) (.duplicateName .property p.name)
    Check.require (q.id.id ≠ p.id.id)
      (.invalidModel (.sharedPropertyId q.name p.name p.id.id))) before

/-- Checks that exactly one property is the ID. -/
def checkIdCount (e : Entity) : Check :=
  match e.properties.countP fun p => p.IsId with
  | 0 => .error .noId
  | 1 => .ok ()
  | count => .error (.invalidModel (.severalIds count))

/-- Checks a relation against the relations before it. -/
def checkRelation (before : List Relation) (r : Relation) : Check := do
  (Place.relation r.name).wrap r.check
  Check.require (∀ q ∈ before, ¬ SameName q.name r.name) (.duplicateName .relation r.name)

/-- Checks an entity by itself. An entity that never had a property is not looked at any further. -/
def check (e : Entity) : Check := do
  e.id.check
  Check.require (e.name ≠ "") (.invalidModel .noName)
  match e.lastProperty with
  | none => Check.require (e.properties = []) (.invalidModel .lastPropertyUnset)
  | some last => do
    last.checkField "lastPropertyId"
    Check.eachAfter (checkProperty last) [] e.properties
    e.checkIdCount
    Check.eachAfter checkRelation [] e.relations

end Entity

/-! ### The model as a whole -/

namespace Model

/-- Checks that the format version can be read. -/
def checkVersion (m : Model) : Check := do
  Check.require (oldestFormat ≤ m.formatVersion) (.modelTooOld m.formatVersion oldestFormat)
  Check.require
    (m.formatVersion ≤ currentFormat ∨ m.parserMinimum ≠ 0 ∧ m.parserMinimum ≤ currentFormat)
    (.modelTooNew m.formatVersion currentFormat)

/-- Checks that the last property identifier is that of a property or retired. -/
def checkLastProperty (m : Model) (e : Entity) : Check :=
  (Place.entity e.name).wrap <|
    Check.all (fun last =>
      Check.require ((∃ p ∈ e.properties, p.id = last) ∨ last.uid ∈ m.retired.properties)
        (.idOrder (.lostLastProperty last))) e.lastProperty.toList

/-- Checks an entity, by itself and against the entities before it. -/
def checkEntity (m : Model) (before : List Entity) (e : Entity) : Check := do
  (Place.entity e.name).wrap e.check
  Check.all (fun f => do
    Check.require (¬ SameName f.name e.name) (.duplicateName .entity e.name)
    Check.require (f.id.id ≠ e.id.id)
      (.invalidModel (.sharedEntityId f.name e.name e.id.id))) before
  m.checkLastProperty e

/-- Checks an identifier of a scope against the last identifier and the identifiers before it. -/
def checkScoped (scope : Scope) (last : IdPair) (before : List (String × IdPair))
    (element : String × IdPair) : Check := do
  let (name, id) := element
  Check.require (id.id ≤ last.id) (.idOrder (.aboveLast scope name id last))
  Check.require (id.id = last.id → id.uid = last.uid) (.idOrder (.unlikeLast scope name id last))
  match before.find? fun q => q.2.id = id.id with
  | some (other, _) => .error (.within (.last scope) (.invalidModel (.sharedId other name id.id)))
  | none => .ok ()

/-- Checks the last identifier of a scope against the identifiers in use and those retired. -/
def checkLast (scope : Scope) (last : Option IdPair) (live : List (String × IdPair))
    (retired : List UInt64) : Check :=
  match last, live with
  | none, [] => .ok ()
  | none, (name, id) :: _ => .error (.invalidModel (.lastUnset scope name id))
  | some last, live => do
    last.checkField scope.lastName
    Check.eachAfter (checkScoped scope last) [] live
    Check.require ((∃ q ∈ live, q.2.id = last.id) ∨ last.uid ∈ retired)
      (.idOrder (.lostLast scope last))

/-- The identifiers of all entities with their names. -/
def entityIds (m : Model) : List (String × IdPair) := m.entities.map fun e => (e.name, e.id)

/-- Checks the targets of an entity's relations and to-one properties. -/
def checkTargets (m : Model) (e : Entity) : Check := do
  Check.all (fun r =>
    (Place.entityRelation e.name r.name).wrap <|
      Check.all (fun target =>
        Check.require (∃ f ∈ m.entities, f.id = target) (.invalidModel (.targetMissing target)))
        r.targetId.toList) e.relations
  Check.all (fun p =>
    (Place.entityProperty e.name p.name).wrap <|
      Check.require (p.IsToOne → m.findByName? p.target ≠ none)
        (.invalidModel (.toOneTargetMissing p.target))) e.properties

/-- The uids in use in an entity, with their places. -/
def uidPlaces (e : Entity) : List (UInt64 × UidPlace) :=
  (e.id.uid, .entity e.name) ::
    (e.properties.flatMap fun p =>
      (p.id.uid, .property e.name p.name) ::
        (p.index.map fun index => (index.uid, UidPlace.index e.name p.name)).toList) ++
    e.relations.map fun r => (r.id.uid, .relation e.name r.name)

/-- The retired uids with their lists. -/
def retiredPlaces (r : Retired) : List (UInt64 × UidPlace) :=
  r.entities.map (·, .retiredEntities) ++ r.indexes.map (·, .retiredIndexes) ++
    r.properties.map (·, .retiredProperties) ++ r.relations.map (·, .retiredRelations)

/-- All uids in use and all retired ones, with their places. -/
def allUidPlaces (m : Model) : List (UInt64 × UidPlace) :=
  m.entities.flatMap uidPlaces ++ retiredPlaces m.retired

/-- Checks that a uid is at none of the places before. -/
def checkUid (before : List (UInt64 × UidPlace)) (use : UInt64 × UidPlace) : Check :=
  match before.lookup use.1 with
  | some place => .error (.uidCollision use.1 (.places place use.2))
  | none => .ok ()

/-- Fails with the first condition that the model does not meet. -/
def check (m : Model) : Check := do
  m.checkVersion
  Check.eachAfter m.checkEntity [] m.entities
  checkLast .entities m.lastEntity m.entityIds m.retired.entities
  checkLast .indexes m.lastIndex m.indexes m.retired.indexes
  checkLast .relations m.lastRelation m.relations m.retired.relations
  Check.all m.checkTargets m.entities
  Check.eachAfter checkUid [] m.allUidPlaces
  m.checkCycles

/-- The model meets every condition. -/
def IsConsistent (m : Model) : Prop := m.check = .ok ()

instance (m : Model) : Decidable m.IsConsistent :=
  match h : m.check with
  | .ok () => isTrue h
  | .error e => isFalse (by simp [IsConsistent, h])

/-- Reads a document, brings it up to date and checks it. -/
def read (text : String) : Except ModelError Model :=
  match Model.ofText text with
  | .error cause => .error (.modelCorrupt cause)
  | .ok m =>
    match m.fillIn.check with
    | .ok () => .ok m.fillIn
    | .error e => .error e

theorem read_eq_ok {text : String} {m : Model} :
    read text = .ok m ↔ ∃ m', Model.ofText text = .ok m' ∧ m = m'.fillIn ∧ m.IsConsistent := by
  unfold read IsConsistent
  split
  · simp_all
  · split <;> grind

end Model

end SchemaLedger
