import SchemaLedger.Model.Basic

/-!
# Which uids a model mentions

A uid is mentioned by a model if it belongs to an element, is retired, or is part of a last
identifier. Fresh uids are chosen among those that are not mentioned.
-/

namespace SchemaLedger

/-- The uid of the property and that of its index. -/
def Property.uids (p : Property) : List UInt64 := p.id.uid :: (p.index.map (·.uid)).toList

/-- The uids in an entity: its own, its last property identifier's, and its children's. -/
def Entity.uids (e : Entity) : List UInt64 :=
  e.id.uid :: (e.lastProperty.map (·.uid)).toList ++ e.properties.flatMap Property.uids ++
    e.relations.map (·.id.uid)

/-- All retired uids. -/
def Retired.uids (r : Retired) : List UInt64 :=
  r.entities ++ r.indexes ++ r.properties ++ r.relations

namespace Model

/-- The uids of the last identifiers of the model. -/
def lastUids (m : Model) : List UInt64 :=
  [m.lastEntity, m.lastIndex, m.lastRelation].filterMap fun last => last.map (·.uid)

/-- Every uid that occurs in the model. -/
def uids (m : Model) : List UInt64 := m.lastUids ++ m.retired.uids ++ m.entities.flatMap Entity.uids

/-- The uid occurs in the model. -/
def Mentions (m : Model) (uid : UInt64) : Prop := uid ∈ m.uids

instance (m : Model) (uid : UInt64) : Decidable (m.Mentions uid) :=
  inferInstanceAs (Decidable (uid ∈ m.uids))

/-- The identifiers of all indexes with the names of their properties. -/
def indexes (m : Model) : List (String × IdPair) :=
  m.entities.flatMap fun e => e.properties.filterMap fun p => p.index.map fun id => (p.name, id)

/-- The identifiers of all relations with their names. -/
def relations (m : Model) : List (String × IdPair) :=
  m.entities.flatMap fun e => e.relations.map fun r => (r.name, r.id)

end Model

end SchemaLedger
