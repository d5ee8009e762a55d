import SchemaLedger.Proofs.Model.Acyclic

/-!
# Which models are consistent

Soundness says what is expected of a model, in terms of its elements and without any check. A model
in which every entity has properties is consistent exactly if it is sound, its format can be read
and its last identifiers agree with its elements. So none of the checks is stricter than it has to
be.
-/

open Relation

namespace SchemaLedger

open Text

/-- What is expected of a model: identifiers are assigned, distinct and covered in every scope,
names are there and distinct, every entity has one ID, no uid is used twice, and relations lead to
entities without leading back. -/
structure Model.IsSound (m : Model) : Prop where
  entityIds : IsCovered (m.entities.map (·.id)) m.lastEntity m.retired.entities
  propertyIds : ∀ e ∈ m.entities,
    IsCovered (e.properties.map (·.id)) e.lastProperty m.retired.properties
  indexIds : IsCovered m.indexIds m.lastIndex m.retired.indexes
  relationIds : IsCovered m.relationIds m.lastRelation m.retired.relations
  entityNames : (∀ e ∈ m.entities, e.name ≠ "") ∧ (m.entities.map fun e => foldCase e.name).Nodup
  propertyNames : ∀ e ∈ m.entities, (∀ p ∈ e.properties, p.name ≠ "") ∧
    (e.properties.map fun p => foldCase p.name).Nodup
  relationNames : ∀ e ∈ m.entities, (∀ r ∈ e.relations, r.name ≠ "") ∧
    (e.relations.map fun r => foldCase r.name).Nodup
  oneId : ∀ e ∈ m.entities, (e.properties.countP fun p => p.IsId) = 1
  idKind : ∀ e ∈ m.entities, ∀ p ∈ e.properties, p.IsId →
    p.kind = .long ∧ ¬ p.flags.Contains .unsigned
  /-- The census lists the uids of all elements and the four lists of retired uids. -/
  uids : ∀ uid ∈ m.census, m.census.count uid = 1
  assignedUids : ∀ e ∈ m.entities, ∀ uid ∈ e.ownUids, uid ≠ 0
  relationTargets : ∀ e ∈ m.entities, ∀ r ∈ e.relations,
    ∃ f ∈ m.entities, r.targetId = some f.id
  propertyTargets : ∀ e ∈ m.entities, ∀ p ∈ e.properties, p.IsToOne →
    ∃ f ∈ m.entities, SameName f.name p.target
  acyclic : ∀ e, ¬ TransGen m.PointsTo e e

namespace Model.IsConsistent

variable {m : Model} {e : Entity}

theorem ownUids_ne_zero (h : m.IsConsistent) (he : e ∈ m.entities) (used : e.properties ≠ []) :
    ∀ uid ∈ e.ownUids, uid ≠ 0 := by
  have checked := h.isChecked he
  intro uid hu
  rcases Entity.mem_ownUids.mp hu with rfl | ⟨p, hp, hu⟩ | ⟨r, hr, rfl⟩
  · exact checked.uid
  · rcases List.mem_cons.mp hu with rfl | hu
    · exact (checked.properties p hp).uid
    · obtain ⟨index, there, rfl⟩ := Option.map_eq_some_iff.mp (Option.mem_toList.mp hu)
      exact ((checked.properties p hp).index index there).2
  · exact (checked.relations used r hr).uid

/-- A consistent model in which every entity has properties is sound. -/
theorem isSound (h : m.IsConsistent) (used : ∀ e ∈ m.entities, e.properties ≠ []) : m.IsSound where
  entityIds := h.entityIds.toIsCovered
  propertyIds _ he := (h.propertyIds he).toIsCovered
  indexIds := h.indexIds.toIsCovered
  relationIds := (h.relationIds (h.relationIds_ne_zero used)).toIsCovered
  entityNames := ⟨fun _ he => (h.isChecked he).name, h.distinctNames⟩
  propertyNames _ he :=
    ⟨fun p hp => ((h.isChecked he).properties p hp).name, (h.isChecked he).distinctNames⟩
  relationNames e he :=
    ⟨fun r hr => ((h.isChecked he).relations (used e he) r hr).name,
      (h.isChecked he).distinctRelations (used e he)⟩
  oneId e he := (h.isChecked he).oneId (used e he)
  idKind _ he p hp isId :=
    have sound := (h.isChecked he).properties p hp
    ⟨sound.kind isId, sound.signed isId⟩
  uids _ hu := List.count_eq_one_of_mem h.census_nodup hu
  assignedUids e he := h.ownUids_ne_zero he (used e he)
  relationTargets e he r hr := by
    obtain ⟨target, there, -⟩ := ((h.isChecked he).relations (used e he) r hr).target
    obtain ⟨f, hf, rfl⟩ := h.relationTarget he hr there
    exact ⟨f, hf, there⟩
  propertyTargets _ he _ hp toOne := h.propertyTarget he hp toOne
  acyclic _ := h.acyclic

end Model.IsConsistent

namespace Model

variable {m : Model} {e : Entity}

/-- The identifiers of every scope are in order. -/
structure HasOrderedIds (m : Model) : Prop where
  entities : IsInOrder (m.entities.map (·.id)) m.lastEntity m.retired.entities
  properties : ∀ e ∈ m.entities,
    IsInOrder (e.properties.map (·.id)) e.lastProperty m.retired.properties
  indexes : IsInOrder m.indexIds m.lastIndex m.retired.indexes
  relations : IsInOrder m.relationIds m.lastRelation m.retired.relations

theorem IsConsistent.hasOrderedIds (h : m.IsConsistent)
    (used : ∀ e ∈ m.entities, e.properties ≠ []) : m.HasOrderedIds where
  entities := h.entityIds
  properties _ he := h.propertyIds he
  indexes := h.indexIds
  relations := h.relationIds (h.relationIds_ne_zero used)

namespace IsSound

theorem property (h : m.IsSound) (he : e ∈ m.entities) {p : Property} (hp : p ∈ e.properties) :
    p.IsSound := by
  have own {uid : UInt64} (hu : uid ∈ p.uids) : uid ≠ 0 :=
    h.assignedUids e he uid (Entity.mem_ownUids.mpr (.inr (.inl ⟨p, hp, hu⟩)))
  exact {
    id := (h.propertyIds e he).assigned _ (List.mem_map_of_mem hp)
    uid := own List.mem_cons_self
    index := fun index there =>
      ⟨h.indexIds.assigned index (mem_indexIds.mpr ⟨e, he, p, hp, there⟩),
        own (by simp [Property.uids, there])⟩
    name := (h.propertyNames e he).1 p hp
    kind := fun isId => (h.idKind e he p hp isId).1
    signed := fun isId => (h.idKind e he p hp isId).2 }

theorem relation (h : m.IsSound) (he : e ∈ m.entities) {r : Relation} (hr : r ∈ e.relations) :
    r.IsSound := by
  obtain ⟨f, hf, target⟩ := h.relationTargets e he r hr
  exact {
    id := h.relationIds.assigned _ (mem_relationIds.mpr ⟨e, he, r, hr, rfl⟩)
    uid := h.assignedUids e he _ (Entity.mem_ownUids.mpr (.inr (.inr ⟨r, hr, rfl⟩)))
    name := (h.relationNames e he).1 r hr
    target := ⟨f.id, target, h.entityIds.assigned _ (List.mem_map_of_mem hf),
      h.assignedUids f hf _ f.uid_mem_ownUids⟩ }

/-- Every entity of a sound model passes its own check if its property identifiers are in order. -/
theorem check_entity (h : m.IsSound) (he : e ∈ m.entities)
    (order : IsInOrder (e.properties.map (·.id)) e.lastProperty m.retired.properties) :
    e.check = .ok () := by
  simp only [Entity.check, Check.bind_eq_ok, IdPair.check_eq_ok, Check.require_eq_ok]
  refine ⟨⟨h.entityIds.assigned _ (List.mem_map_of_mem he),
    h.assignedUids e he _ e.uid_mem_ownUids⟩, h.entityNames.1 e he, ?_⟩
  cases stored : e.lastProperty with
  | none => simpa using order.unset stored
  | some last =>
      simp only [Check.bind_eq_ok, IdPair.checkField_eq_ok]
      refine ⟨order.assignedLast last stored, ?_, Entity.checkIdCount_eq_ok.mpr (h.oneId e he), ?_⟩
      · have distinct := order.distinct
        rw [List.map_map] at distinct
        refine Check.eachAfter_of_pairwise
          ((List.pairwise_map.mp (h.propertyNames e he).2).and (List.pairwise_map.mp distinct)) ?_
        intro before p hp apart
        have listed : p.id ∈ e.properties.map (·.id) := List.mem_map_of_mem hp
        refine Entity.checkProperty_eq_ok.mpr ⟨h.property he hp, ?_, ?_, apart⟩
        · simpa [stored] using order.below p.id listed
        · intro same
          rw [order.like last stored p.id listed same]
      · refine Check.eachAfter_of_pairwise (List.pairwise_map.mp (h.relationNames e he).2) ?_
        intro before r hr apart
        exact Entity.checkRelation_eq_ok.mpr ⟨h.relation he hr, apart⟩

theorem checkEntities (h : m.IsSound) (ids : m.HasOrderedIds) :
    Check.eachAfter m.checkEntity [] m.entities = .ok () := by
  have distinct := h.entityIds.distinct
  rw [List.map_map] at distinct
  refine Check.eachAfter_of_pairwise
    ((List.pairwise_map.mp h.entityNames.2).and (List.pairwise_map.mp distinct)) ?_
  intro before e he apart
  simp only [Model.checkEntity, checkLastProperty, Check.bind_eq_ok, Place.wrap_eq_ok,
    Check.all_eq_ok, Check.require_eq_ok, Option.mem_toList]
  refine ⟨h.check_entity he (ids.properties e he), apart, ?_⟩
  intro last stored
  exact ((ids.properties e he).known last stored).imp_left List.mem_map.mp

theorem checkTargets (h : m.IsSound) : Check.all m.checkTargets m.entities = .ok () := by
  refine Check.all_eq_ok.mpr fun e he => ?_
  simp only [Model.checkTargets, Check.bind_eq_ok, Check.all_eq_ok, Place.wrap_eq_ok,
    Check.require_eq_ok, Option.mem_toList]
  constructor
  · intro r hr target there
    obtain ⟨f, hf, same⟩ := h.relationTargets e he r hr
    exact ⟨f, hf, Option.some.inj (same.symm.trans there)⟩
  · intro p hp toOne
    obtain ⟨f, hf, named⟩ := h.propertyTargets e he p hp toOne
    simpa [findByName?] using ⟨f, hf, named⟩

/-- A sound model in order, with a format that can be read, passes every check. -/
theorem isConsistent (h : m.IsSound) (readable : m.checkVersion = .ok ())
    (ids : m.HasOrderedIds) : m.IsConsistent := by
  have entityIds : m.entityIds.map (·.2) = m.entities.map (·.id) := by
    simp [Model.entityIds, Function.comp_def]
  simp only [IsConsistent, check, Check.bind_eq_ok]
  refine ⟨readable, h.checkEntities ids, ?_, ?_, ?_, h.checkTargets, ?_,
    checkCycles_of_acyclic h.acyclic⟩
  · rw [checkLast_eq_ok (by rw [entityIds]; exact h.entityIds.assigned), entityIds]
    exact ids.entities
  · exact (checkLast_eq_ok h.indexIds.assigned).mpr ids.indexes
  · exact (checkLast_eq_ok h.relationIds.assigned).mpr ids.relations
  · exact checkUids_eq_ok.mpr (List.nodup_iff_count_eq_one.mpr h.uids)

end IsSound

/-- The checks accept exactly the sound models in order whose format can be read. -/
theorem isConsistent_iff (used : ∀ e ∈ m.entities, e.properties ≠ []) :
    m.IsConsistent ↔ m.checkVersion = .ok () ∧ m.HasOrderedIds ∧ m.IsSound :=
  ⟨fun h => ⟨h.checks.1, h.hasOrderedIds used, h.isSound used⟩,
    fun ⟨readable, ids, h⟩ => h.isConsistent readable ids⟩

end Model

end SchemaLedger
