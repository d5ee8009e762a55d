import SchemaLedger.Ident.Pair
import SchemaLedger.Model.Kind
import SchemaLedger.Model.VectorIndex

/-!
# Models

A model holds the entities of a schema with all identifiers ever assigned. Elements that were
removed live on as retired uids, and the last identifier of every scope is kept, so that neither a
uid nor a local id is given to a second element.

Some fields describe the schema and are not stored: comments, vector index parameters, the optional
hint, the target name of a relation and the mark that a schema asks for a uid.
-/

namespace SchemaLedger

open Text

/-- A field of an entity. -/
structure Property where
  /-- The local id is unique within the entity. -/
  id : IdPair
  name : String := ""
  /-- The identifier of the index. A schema asks for an index with the pair `0:0`. -/
  index : Option IdPair := none
  kind : PropertyKind
  flags : Flags := Flags.none
  /-- The name of the entity that a to-one relation points at, empty for any other property. -/
  target : String := ""
  vectorIndex : Option VectorIndex := none
  /-- The schema asks which uid the property has. -/
  uidRequested : Bool := false
  /-- How a generated class wraps an absent value. -/
  optional : Option String := none
deriving DecidableEq, Repr

/-- A relation from one entity to many objects of another, kept apart from the properties. -/
structure Relation where
  /-- The local id is unique among the relations of the model. -/
  id : IdPair
  name : String := ""
  /-- The identifier of the target, once it is known. -/
  targetId : Option IdPair := none
  /-- The name of the target as the schema writes it. -/
  target : String := ""
  uidRequested : Bool := false
deriving DecidableEq, Repr

/-- A persistent class. -/
structure Entity where
  id : IdPair
  /-- The last property identifier assigned in this entity. -/
  lastProperty : Option IdPair := none
  name : String := ""
  flags : Flags := Flags.none
  properties : List Property := []
  relations : List Relation := []
  uidRequested : Bool := false
  comments : List String := []
deriving DecidableEq, Repr

/-- The uids of removed elements, in the order of their removal. -/
structure Retired where
  entities : List UInt64 := []
  indexes : List UInt64 := []
  properties : List UInt64 := []
  relations : List UInt64 := []
deriving DecidableEq, Repr

/-- Explanations for whoever opens the document. -/
structure Notes where
  first : String := ""
  second : String := ""
  third : String := ""
deriving DecidableEq, Repr

/-- The explanations that are written today. -/
def Notes.current : Notes where
  first := "KEEP THIS FILE! Check it into a version control system (VCS) like git."
  second := "ObjectBox manages crucial IDs for your object model. See docs for details."
  third :=
    "If you have VCS merge conflicts, you must resolve them according to ObjectBox docs."

/-- All entities with the identifiers assigned so far. -/
structure Model where
  notes : Notes := Notes.current
  entities : List Entity := []
  lastEntity : Option IdPair := none
  lastIndex : Option IdPair := none
  lastRelation : Option IdPair := none
  /-- The version of the document format. -/
  formatVersion : UInt32
  /-- The oldest format version that a reader has to know. -/
  parserMinimum : UInt32
  retired : Retired := {}
  /-- A version that users count themselves. -/
  version : UInt64 := 1
deriving DecidableEq, Repr

/-- The format version that is written today. -/
def currentFormat : UInt32 := 5

/-- The oldest format version that can be read. -/
def oldestFormat : UInt32 := 4

/-- A model without entities. -/
def Model.empty : Model where
  formatVersion := currentFormat
  parserMinimum := currentFormat

namespace Property

-- powers of naturals are those of the core library, whatever instances are in scope
attribute [local instance (high)] instPowNat

/-- The property is the ID of its entity. -/
def IsId (p : Property) : Prop := p.flags.Contains Flags.objectId

instance (p : Property) : Decidable p.IsId :=
  inferInstanceAs (Decidable (p.flags.Contains Flags.objectId))

/-- The property is a to-one relation. -/
def IsToOne (p : Property) : Prop := p.target ≠ ""

instance (p : Property) : Decidable p.IsToOne := inferInstanceAs (Decidable (p.target ≠ ""))

/-- The property with additional flags. -/
def addFlags (p : Property) (flags : Flags) : Property := { p with flags := p.flags ∪ flags }

/-- The property with a request for an index, unless it has an index or a request already. -/
def requestIndex (p : Property) : Property :=
  match p.index with
  | some _ => p
  | none => { p with index := some .unassigned }

/-- The kind of the property may be that of an ID: one of the given kinds, or a long if none are
given. -/
def HasIdKind (p : Property) (kinds : List PropertyKind) : Prop :=
  if kinds = [] then p.kind = .long else p.kind ∈ kinds

instance (p : Property) (kinds : List PropertyKind) : Decidable (p.HasIdKind kinds) :=
  inferInstanceAs (Decidable (if kinds = [] then p.kind = .long else p.kind ∈ kinds))

/-- The position of the property's slot in a stored record. -/
def slot (p : Property) : Nat := p.id.id.toNat - 1

/-- The offset of the slot in the record's table, if it fits 16 bits. -/
def tableOffset? (p : Property) : Option Nat :=
  let offset := 4 + 2 * p.slot
  if offset < 2 ^ (16 : Nat) then some offset else none

end Property

namespace Entity

/-- The position of the property with the given uid. -/
def findPropertyByUid? (e : Entity) (uid : UInt64) : Option Nat :=
  e.properties.findIdx? fun p => p.id.uid = uid

/-- The position of the property with the given name. -/
def findPropertyByName? (e : Entity) (name : String) : Option Nat :=
  e.properties.findIdx? fun p => SameName p.name name

/-- The property with the given name. -/
def property? (e : Entity) (name : String) : Option Property :=
  e.properties.find? fun p => SameName p.name name

/-- The position of the relation with the given uid. -/
def findRelationByUid? (e : Entity) (uid : UInt64) : Option Nat :=
  e.relations.findIdx? fun r => r.id.uid = uid

/-- The position of the relation with the given name. -/
def findRelationByName? (e : Entity) (name : String) : Option Nat :=
  e.relations.findIdx? fun r => SameName r.name name

/-- The relation with the given name. -/
def relation? (e : Entity) (name : String) : Option Relation :=
  e.relations.find? fun r => SameName r.name name

/-- The ID of the entity. -/
def idProperty? (e : Entity) : Option Property := e.properties.find? fun p => p.IsId

end Entity

namespace Model

/-- The position of the entity with the given uid. -/
def findByUid? (m : Model) (uid : UInt64) : Option Nat :=
  m.entities.findIdx? fun e => e.id.uid = uid

/-- The position of the entity with the given name. -/
def findByName? (m : Model) (name : String) : Option Nat :=
  m.entities.findIdx? fun e => SameName e.name name

/-- The position of the entity with the given identifier. -/
def findById? (m : Model) (id : IdPair) : Option Nat :=
  m.entities.findIdx? fun e => e.id = id

/-- The entity with the given name. -/
def entity? (m : Model) (name : String) : Option Entity :=
  m.entities.find? fun e => SameName e.name name

/-- The entity with the given local id. -/
def entityOfId? (m : Model) (id : UInt32) : Option Entity :=
  m.entities.find? fun e => e.id.id = id

/-- Some entity has a relation. -/
def hasRelations (m : Model) : Bool := m.entities.any fun e => !e.relations.isEmpty

end Model

end SchemaLedger
