import SchemaLedger.Proofs.Model.Characterization
import SchemaLedger.Proofs.Model.Lossless

/-!
# What can be relied on once the checks have passed

The identifiers of any consistent model are apart and counted, whatever document it comes from. Its
structure is as it should be wherever an entity has properties. An entity that never had one is left
alone before its relations are looked at, so there a document may hold a relation without a name,
without an identifier and without a target.
-/

open Relation

namespace SchemaLedger

open Text

/-! ### Identifiers -/

/-- The local ids of a scope are apart and none lies above the last one. The last identifier belongs
to an element in use, or no element has its local id any more and its uid is retired. -/
structure IsCounted (live : List IdPair) (last : Option IdPair) (retired : List UInt64) : Prop where
  distinct : (live.map (·.id)).Nodup
  below : ∀ id ∈ live, id.id ≤ IdPair.lastId last
  unset : last = none → live = []
  settled : ∀ l, last = some l → l ∈ live ∨ (∀ id ∈ live, id.id ≠ l.id) ∧ l.uid ∈ retired

/-- The identifiers of a model: counted in every scope, assigned where entities and properties are
concerned, and with uids of which none occurs twice among all that are in use or retired. -/
structure Model.HasCountedIds (m : Model) : Prop where
  entities : IsCounted (m.entities.map (·.id)) m.lastEntity m.retired.entities
  properties : ∀ e ∈ m.entities,
    IsCounted (e.properties.map (·.id)) e.lastProperty m.retired.properties
  indexes : IsCounted m.indexIds m.lastIndex m.retired.indexes
  relations : IsCounted m.relationIds m.lastRelation m.retired.relations
  entityIds : ∀ e ∈ m.entities, e.id.id ≠ 0
  propertyIds : ∀ e ∈ m.entities, ∀ p ∈ e.properties, p.id.id ≠ 0
  uids : m.census.Nodup

section Counting

variable {live : List IdPair} {last : Option IdPair} {retired : List UInt64}

/-- Where the element with the last local id has the last identifier, this identifier is settled. -/
theorem settled_of_like (like : ∀ l, last = some l → ∀ id ∈ live, id.id = l.id → id = l)
    (known : ∀ l, last = some l → l ∈ live ∨ l.uid ∈ retired) (l : IdPair)
    (is_last : last = some l) : l ∈ live ∨ (∀ id ∈ live, id.id ≠ l.id) ∧ l.uid ∈ retired := by
  by_cases used : ∃ id ∈ live, id.id = l.id
  · obtain ⟨id, hid, same⟩ := used
    exact .inl (like l is_last id hid same ▸ hid)
  · have unused : ∀ id ∈ live, id.id ≠ l.id := fun id hid same => used ⟨id, hid, same⟩
    rcases known l is_last with listed | gone
    · exact absurd rfl (unused l listed)
    · exact .inr ⟨unused, gone⟩

theorem IsInOrder.isCounted (h : IsInOrder live last retired) : IsCounted live last retired :=
  ⟨h.distinct, h.below, h.unset, settled_of_like h.like h.known⟩

end Counting

namespace Model

variable {m : Model} {e : Entity}

/-- The relations of a consistent model are counted, though in an entity without properties their
local ids need not be assigned. -/
theorem IsConsistent.relationsCounted (h : m.IsConsistent) :
    IsCounted m.relationIds m.lastRelation m.retired.relations := by
  obtain ⟨-, -, known, unset⟩ := of_checkLast h.checks.2.2.2.2.1
  refine ⟨h.distinctRelationIds, h.relationIds_le, fun none_last => ?_, settled_of_like ?_ ?_⟩
  · rw [Model.relationIds, unset none_last, List.map_nil]
  · intro l is_last
    exact List.forall_mem_map.mpr (known l is_last).2.2.1
  · intro l is_last
    exact (known l is_last).2.2.2

/-- In every consistent model the identifiers are apart and counted. -/
theorem hasCountedIds_of_isConsistent (h : m.IsConsistent) : m.HasCountedIds where
  entities := h.entityIds.isCounted
  properties _ he := (h.propertyIds he).isCounted
  indexes := h.indexIds.isCounted
  relations := h.relationsCounted
  entityIds _ he := (h.isChecked he).id
  propertyIds _ he p hp := ((h.isChecked he).properties p hp).id
  uids := h.census_nodup

theorem unusual_hasCountedIds : unusual.IsConsistent ∧ unusual.HasCountedIds :=
  have consistent : unusual.IsConsistent := by decide
  ⟨consistent, hasCountedIds_of_isConsistent consistent⟩

/-! ### Structure -/

/-- An entity of the model is as it should be: it has a name, its properties and its relations have
different names, one of its properties is the ID, a signed long, and its relations are assigned and
lead to entities. -/
structure IsWellBuiltAt (m : Model) (e : Entity) : Prop where
  name : e.name ≠ ""
  propertyNames : (∀ p ∈ e.properties, p.name ≠ "") ∧
    (e.properties.map fun p => foldCase p.name).Nodup
  relationNames : (∀ r ∈ e.relations, r.name ≠ "") ∧
    (e.relations.map fun r => foldCase r.name).Nodup
  oneId : (e.properties.countP fun p => p.IsId) = 1
  idKind : ∀ p ∈ e.properties, p.IsId → p.kind = .long ∧ ¬ p.flags.Contains .unsigned
  relations : ∀ r ∈ e.relations, r.id.id ≠ 0 ∧ r.id.uid ≠ 0 ∧
    ∃ f ∈ m.entities, r.targetId = some f.id
  toOne : ∀ p ∈ e.properties, p.IsToOne → ∃ f ∈ m.entities, SameName f.name p.target

/-- All entities of the model are as they should be, they have different names, and none points at
itself, be it through others. -/
structure IsWellBuilt (m : Model) : Prop where
  entities : ∀ e ∈ m.entities, m.IsWellBuiltAt e
  distinctNames : (m.entities.map fun e => foldCase e.name).Nodup
  acyclic : ∀ e, ¬ TransGen m.PointsTo e e

/-- What the checks see to: entities with properties are as they should be, the others never had
one, all entities have different names, a relation that has a target leads to an entity, and no
entity points at itself. -/
structure IsBuiltWhereUsed (m : Model) : Prop where
  used : ∀ e ∈ m.entities, e.properties ≠ [] → m.IsWellBuiltAt e
  unused : ∀ e ∈ m.entities, e.properties = [] → e.lastProperty = none
  names : (∀ e ∈ m.entities, e.name ≠ "") ∧ (m.entities.map fun e => foldCase e.name).Nodup
  targets : ∀ e ∈ m.entities, ∀ r ∈ e.relations, ∀ target, r.targetId = some target →
    ∃ f ∈ m.entities, f.id = target
  acyclic : ∀ e, ¬ TransGen m.PointsTo e e

/-- An entity from which all properties went has no ID, and the checks say so. -/
theorem IsConsistent.lastProperty_eq_none (h : m.IsConsistent) (he : e ∈ m.entities)
    (none_left : e.properties = []) : e.lastProperty = none := by
  obtain ⟨before, passed⟩ := h.checkEntity he
  cases stored : e.lastProperty with
  | none => rfl
  | some last =>
      simp only [Model.checkEntity, Entity.check, stored, Check.bind_eq_ok, Place.wrap_eq_ok,
        Entity.checkIdCount_eq_ok, none_left] at passed
      exact absurd passed.1.2.2.2.2.1 (by decide)

theorem IsConsistent.isWellBuiltAt (h : m.IsConsistent) (he : e ∈ m.entities)
    (used : e.properties ≠ []) : m.IsWellBuiltAt e := by
  have checked := h.isChecked he
  have sound := checked.relations used
  exact {
    name := checked.name
    propertyNames := ⟨fun p hp => (checked.properties p hp).name, checked.distinctNames⟩
    relationNames := ⟨fun r hr => (sound r hr).name, checked.distinctRelations used⟩
    oneId := checked.oneId used
    idKind := fun p hp isId =>
      ⟨(checked.properties p hp).kind isId, (checked.properties p hp).signed isId⟩
    relations := fun r hr => by
      obtain ⟨target, there, -⟩ := (sound r hr).target
      obtain ⟨f, hf, rfl⟩ := h.relationTarget he hr there
      exact ⟨(sound r hr).id, (sound r hr).uid, f, hf, there⟩
    toOne := fun p hp toOne => h.propertyTarget he hp toOne }

theorem IsConsistent.isBuiltWhereUsed (h : m.IsConsistent) : m.IsBuiltWhereUsed where
  used _ he used := h.isWellBuiltAt he used
  unused _ he none_left := h.lastProperty_eq_none he none_left
  names := ⟨fun _ he => (h.isChecked he).name, h.distinctNames⟩
  targets _ he _ hr _ there := h.relationTarget he hr there
  acyclic _ := h.acyclic

/-- A model that is built where it is used is built altogether exactly if every entity has
properties. -/
theorem IsBuiltWhereUsed.isWellBuilt_iff (h : m.IsBuiltWhereUsed) :
    m.IsWellBuilt ↔ ∀ e ∈ m.entities, e.properties ≠ [] := by
  constructor
  · intro built e he none_left
    have one := (built.entities e he).oneId
    rw [none_left] at one
    cases one
  · intro used
    exact ⟨fun e he => h.used e he (used e he), h.names.2, h.acyclic⟩

/-- A model that passed the checks, and so one that was read, is well built except for entities that
never had a property; it is well built altogether exactly if it holds none of them. -/
theorem wellBuilt_where_used (passed : m.IsConsistent ∨ ∃ s, Model.read s = .ok m) :
    m.IsBuiltWhereUsed ∧ (m.IsWellBuilt ↔ ∀ e ∈ m.entities, e.properties ≠ []) := by
  have consistent : m.IsConsistent := by
    rcases passed with consistent | ⟨s, run⟩
    · exact consistent
    · obtain ⟨-, -, -, consistent⟩ := read_eq_ok.mp run
      exact consistent
  exact ⟨consistent.isBuiltWhereUsed, consistent.isBuiltWhereUsed.isWellBuilt_iff⟩

theorem unusual_built_where_used : unusual.IsConsistent ∧ unusual.IsBuiltWhereUsed ∧
    ¬ unusual.IsWellBuilt := by
  have consistent : unusual.IsConsistent := by decide
  obtain ⟨used, built⟩ := wellBuilt_where_used (.inl consistent)
  exact ⟨consistent, used, fun h => absurd (built.mp h) (by decide)⟩

/-- An entity that never had a property, with a relation of which nothing is known. -/
def uncheckedEntity : Entity where
  id := ⟨1, 10⟩
  name := "Note"
  relations := [{ id := .unassigned }]

/-- A model with this entity. The last relation identifier is that of a relation now gone. -/
def unchecked : Model where
  entities := [uncheckedEntity]
  lastEntity := some ⟨1, 10⟩
  lastRelation := some ⟨1, 20⟩
  formatVersion := currentFormat
  parserMinimum := currentFormat
  retired := { relations := [20] }

/-- Its document is read, though its entity has no ID, and its relation has no name, no identifier
and no target. -/
theorem unchecked_is_read :
    Model.read unchecked.text = .ok unchecked ∧ ¬ unchecked.IsWellBuilt := by
  have consistent : unchecked.IsConsistent := by decide
  refine ⟨read_text consistent, fun built => ?_⟩
  have entity := built.entities uncheckedEntity List.mem_cons_self
  exact entity.relationNames.1 { id := .unassigned } List.mem_cons_self rfl

end Model

end SchemaLedger
