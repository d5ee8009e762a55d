import SchemaLedger.Error.Check
import SchemaLedger.Model.Basic
import SchemaLedger.Tag.Basic
import SchemaLedger.Text.Blank

/-!
# What annotations do

Annotations are applied in a fixed order, so that which problem is reported first does not depend on
how a schema spells them. An element marked with `-` or `transient` is left out; then the result is
nothing.
-/

namespace SchemaLedger

open Numeral Text

/-! ### For every element -/

namespace Annotations

/-- The element is to be left out. No other annotation may be given then. -/
def isSkipped (sort : ElementSort) (set : Annotations) : Except ModelError Bool :=
  match ["-", "transient"].find? set.contains with
  | some name =>
    if set.size ≠ 1 ∨ ((set.get? name).map Annotation.text).getD "" ≠ "" then
      .error (.tagConflict (.skipped sort name))
    else .ok true
  | none => .ok false

/-- The name that the database uses instead of the declared one. -/
def storedName (sort : ElementSort) (set : Annotations) : Except ModelError (Option String) :=
  match set.get? "name" with
  | none => .ok none
  | some a =>
    if a.text = "" then .error (.tagRefused "name" (.emptyName sort))
    else .ok (some a.text)

end Annotations

/-- What an annotation says about a uid. -/
inductive UidMark where
  /-- The schema asks for the uid. -/
  | requested
  | given (uid : UInt64)
deriving DecidableEq, Repr

/-- Reads the value of a uid annotation. -/
def UidMark.read (value : String) : Except ModelError UidMark :=
  if value = "" then .ok .requested
  else match readUInt64 value.toList with
    | .ok uid => if uid = 0 then .error (.tagRefused "uid" .zeroUid) else .ok (.given uid)
    | .error cause => .error (.tagRefused "uid" (.notUnsigned value cause))

/-! ### Entities -/

namespace Entity

/-- Renames the entity. -/
def markName (set : Annotations) (e : Entity) : Except ModelError Entity := do
  match ← set.storedName .entity with
  | some name => return { e with name }
  | none => return e

/-- Sets the flags of synchronization. -/
def markSync (set : Annotations) (e : Entity) : Except ModelError Entity :=
  match set.get? "sync" with
  | none => .ok e
  | some .flag => .ok { e with flags := e.flags ∪ .synced }
  | some (.group _ details) =>
    let flags := if details.contains "sharedglobalids" then e.flags ∪ .sharedGlobalIds else e.flags
    .ok { e with flags := flags ∪ .synced }
  | some (.value value) =>
    if value = "" then .ok { e with flags := e.flags ∪ .synced }
    else .error (.tagRefused "sync" (.syncValue value))

/-- Sets the uid or the request for it. -/
def markUid (set : Annotations) (e : Entity) : Except ModelError Entity :=
  match set.get? "uid" with
  | none => .ok e
  | some a => do
    match ← UidMark.read a.text with
    | .requested => return { e with uidRequested := true }
    | .given uid => return { e with id := { e.id with uid } }

/-- Adds the relations. -/
def markRelations (set : Annotations) (e : Entity) : Except ModelError Entity := do
  if set.contains "relation" then
    .error (.tagRefused "relation" .relationWithoutDetails)
  let relations ← set.relations.mapM fun entry => relationOf entry.2
  return { e with relations := e.relations ++ relations }
where
  /-- The relation that a group declares. -/
  relationOf (group : Annotation) : Except ModelError Relation := do
    let name := (group.detail? "name").getD ""
    if name = "" then .error (.missingDetail "relation" "name")
    let target := (group.detail? "to").getD ""
    if target = "" then .error (.within (.relation name) (.missingDetail "relation" "to"))
    let relation : Relation := { id := .unassigned, name, target }
    match group.detail? "uid" with
    | none => return relation
    | some value =>
      match ← (Place.relation name).wrap (UidMark.read value) with
      | .requested => return { relation with uidRequested := true }
      | .given uid => return { relation with id := { relation.id with uid } }

/-- Applies annotations to an entity. -/
def annotate (set : Annotations) (e : Entity) : Except ModelError (Option Entity) := do
  if ← set.isSkipped .entity then return none
  let e ← e.markName set
  let e ← e.markSync set
  let e ← e.markUid set
  let e ← e.markRelations set
  return some e

end Entity

/-! ### Properties -/

namespace VectorIndex

/-- Reads a number with the given reader. -/
def readNumber {α : Type} (read : List Char → Except UnsignedError α) (key value : String) :
    Except ModelError α :=
  match read value.toList with
  | .ok n => .ok n
  | .error cause => .error (.tagRefused key (.notUnsigned value cause))

/-- Reads a probability. -/
def readProbability (key value : String) : Except ModelError Single :=
  match Single.read value.toList with
  | .error cause => .error (.tagRefused key (.notFloat value cause))
  | .ok x => if x.IsProbability then .ok x else .error (.tagRefused key (.notProbability x))

/-- Sets the parameter with the given key. -/
def setParameter (index : VectorIndex) (key value : String) : Except ModelError VectorIndex :=
  if key = "hnsw-dimensions" then do
    let n ← readNumber readUInt64 key value
    return { index with dimensions := some n }
  else if key = "hnsw-distance-type" then
    match Distance.ofName? value with
    | some distance => .ok { index with distance }
    | none => .error (.tagRefused key (.unknownDistance value))
  else if key = "hnsw-neighbors-per-node" then do
    let n ← readNumber readUInt32 key value
    return { index with neighborsPerNode := some n }
  else if key = "hnsw-indexing-search-count" then do
    let n ← readNumber readUInt32 key value
    return { index with indexingSearchCount := some n }
  else if key = "hnsw-reparation-backlink-probability" then do
    let x ← readProbability key value
    return { index with backlinkProbability := some x }
  else if key = "hnsw-vector-cache-hint-size-kb" then do
    let n ← readNumber readUInt64 key value
    return { index with cacheHintKb := some n }
  else if key = "hnsw-flags" then
    match readFlags value with
    | .ok flags => .ok { index with flags }
    | .error name => .error (.tagRefused key (.unknownFlag name))
  else .error (.tagUnknown key)

/-- Sets parameters, in order. -/
def setParameters (index : VectorIndex) :
    List (String × Annotation) → Except ModelError VectorIndex
  | [] => .ok index
  | (key, a) :: rest => do
    let index ← index.setParameter key a.text
    setParameters index rest

end VectorIndex

namespace Property

/-- Marks the ID. -/
def markId (set : Annotations) (p : Property) : Except ModelError Property :=
  match set.get? "id" with
  | none => .ok p
  | some a =>
    if a.text ≠ "" then .error (.tagRefused "id" (.idValue a.text))
    else
      let p := p.addFlags .objectId
      if a.details?.any (·.contains "assignable") then .ok (p.addFlags .selfAssigned) else .ok p

/-- Renames the property. -/
def markName (set : Annotations) (p : Property) : Except ModelError Property := do
  match ← set.storedName .property with
  | some name => return { p with name }
  | none => return p

/-- Makes a date of a long. -/
def markDate (set : Annotations) (p : Property) : Except ModelError Property :=
  let date := set.contains "date"
  let nano := set.contains "date-nano"
  if !date && !nano then .ok p
  else if date && nano then .error (.tagConflict .twoDates)
  else if p.kind ≠ .long then .error (.kindMismatch (.date p.kind))
  else .ok { p with kind := if date then .date else .dateNano }

/-- Marks a date that goes with the ID. -/
def markCompanion (set : Annotations) (p : Property) : Except ModelError Property :=
  if set.contains "id-companion" then
    if p.kind = .date ∨ p.kind = .dateNano then .ok (p.addFlags .idCompanion)
    else .error (.kindMismatch (.idCompanion p.kind))
  else .ok p

/-- Asks for an index of the given kind. -/
def requestIndexKind (kind : String) (p : Property) : Except ModelError Property :=
  if kind = "" then
    .ok (p.addFlags (if p.kind = .string then .hashIndexed else .indexed)).requestIndex
  else if kind = "value" then .ok (p.addFlags .indexed).requestIndex
  else if kind = "hash" then .ok (p.addFlags .hashIndexed).requestIndex
  else if kind = "hash64" then .ok (p.addFlags .hash64Indexed).requestIndex
  else if kind = "hnsw" then
    if p.kind = .floatVector then
      .ok ({ p with vectorIndex := some {} }.addFlags .indexed).requestIndex
    else .error (.kindMismatch (.vectorIndex p.kind))
  else .error (.tagRefused "index" (.indexKind kind))

/-- Marks unique values and asks for an index. A unique property always has one. -/
def markIndex (set : Annotations) (p : Property) : Except ModelError Property :=
  let unique := set.contains "unique"
  let p := if unique then p.addFlags .unique else p
  match set.get? "index" with
  | some a => p.requestIndexKind (foldCase a.text)
  | none => if unique then p.requestIndexKind "" else .ok p

/-- Sets the uid or the request for it. -/
def markUid (set : Annotations) (p : Property) : Except ModelError Property :=
  match set.get? "uid" with
  | none => .ok p
  | some a => do
    match ← UidMark.read a.text with
    | .requested => return { p with uidRequested := true }
    | .given uid => return { p with id := { p.id with uid } }

/-- Makes a to-one relation of a long. -/
def makeToOne (target : String) (p : Property) : Except ModelError Property :=
  if p.kind = .relation then .ok p
  else if p.kind ≠ .long then .error (.kindMismatch (.toOne p.kind))
  else if target = "" then .error (.missingDetail "relation" "target entity")
  else
    .ok ({ p with kind := .relation, target }.addFlags (.indexed ∪ .skipZero)).requestIndex

/-- Applies the annotations of to-one relations. -/
def markToOne (set : Annotations) (p : Property) : Except ModelError Property :=
  if set.relations ≠ [] then .error (.tagRefused "relation" .relationOnProperty)
  else match (set.get? "relation").or (set.get? "link") with
    | some a => p.makeToOne a.text
    | none => .ok p

/-- Sets how an absent value is wrapped. -/
def markOptional (set : Annotations) (p : Property) : Property :=
  match set.get? "optional" with
  | some a => { p with optional := some a.text }
  | none => p

/-- The annotations that are parameters of a vector index. -/
def vectorParameters (set : Annotations) : List (String × Annotation) :=
  set.entries.filter fun entry => ['h', 'n', 's', 'w', '-'].isPrefixOf entry.1.toList

/-- Sets the parameters of the vector index. The number of dimensions is needed. -/
def markVectorIndex (set : Annotations) (p : Property) : Except ModelError Property :=
  match p.vectorIndex, vectorParameters set with
  | none, [] => .ok p
  | none, (key, _) :: _ => .error (.tagRefused key .withoutVectorIndex)
  | some index, parameters => do
    let index ← index.setParameters parameters
    if index.dimensions = none then .error (.missingDetail "index=hnsw" "hnsw-dimensions")
    return { p with vectorIndex := some index }

/-- Applies annotations to a property. -/
def annotate (set : Annotations) (p : Property) : Except ModelError (Option Property) := do
  if ← set.isSkipped .property then return none
  let p ← p.markId set
  let p ← p.markName set
  let p ← p.markDate set
  let p ← p.markCompanion set
  let p ← p.markIndex set
  let p ← p.markUid set
  let p ← p.markToOne set
  let p ← (p.markOptional set).markVectorIndex set
  return some p

end Property

end SchemaLedger
