import SchemaLedger.Model.Basic

/-!
# What relations point at

Whoever works with a merged model asks for the targets of its relations: those of relations are
found by identifier, those of to-one properties by name.
-/

namespace SchemaLedger.Model

/-- The entity that a relation points at. -/
def relationTarget? (m : Model) (r : Relation) : Option Entity :=
  r.targetId.bind fun target => m.entities.find? fun e => e.id = target

/-- The entity that a to-one property points at. -/
def propertyTarget? (m : Model) (p : Property) : Option Entity :=
  if p.IsToOne then m.entity? p.target else none

end SchemaLedger.Model
