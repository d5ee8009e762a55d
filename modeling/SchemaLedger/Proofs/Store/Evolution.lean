import Mathlib.Tactic.Tauto
import SchemaLedger.Model.Store

/-!
# What never gets lost

The uids in use and the retired ones are the census of a model. Whatever is done to a model, an
assigned uid that is in the census stays there, uids are only added to the lists of retired ones,
and no last identifier goes down. A model that comes from another one in this way evolves from it;
a uid that is fresh for the later model is fresh for the earlier one.
-/

namespace SchemaLedger

/-! ### Last identifiers -/

attribute [ext] IdPair

namespace IdPair

/-- The local id of a last identifier, or zero if none has been assigned. -/
def lastId : Option IdPair → UInt32
  | some p => p.id
  | none => 0

@[simp] theorem lastId_some (p : IdPair) : lastId (some p) = p.id := rfl

/-- The next local id lies above the last one, unless the ids are used up. -/
theorem lastId_lt_next {last : Option IdPair} (h : next last ≠ 0) : lastId last < next last := by
  cases last with
  | none => decide
  | some p =>
      simp only [next, lastId, ne_eq, UInt32.lt_iff_toNat_lt, ← UInt32.toNat_inj] at h ⊢
      have := p.id.toNat_lt
      simp only [UInt32.toNat_add, UInt32.toNat_one, UInt32.toNat_zero] at h ⊢
      omega

end IdPair

/-! ### The census -/

/-- The uids of an entity and of all that belongs to it. -/
def Entity.ownUids (e : Entity) : List UInt64 :=
  e.id.uid :: e.properties.flatMap Property.uids ++ e.relations.map (·.id.uid)

/-- The uids in use and the retired ones. -/
def Model.census (m : Model) : List UInt64 :=
  m.entities.flatMap Entity.ownUids ++ m.retired.uids

/-- What is among the uids of an entity: its own, those of its properties and of their indexes, and
those of its relations. -/
theorem Entity.mem_ownUids {e : Entity} {uid : UInt64} :
    uid ∈ e.ownUids ↔ uid = e.id.uid ∨ (∃ p ∈ e.properties, uid ∈ p.uids) ∨
      ∃ r ∈ e.relations, r.id.uid = uid := by
  simp [ownUids]

theorem Entity.uid_mem_ownUids (e : Entity) : e.id.uid ∈ e.ownUids :=
  mem_ownUids.mpr (.inl rfl)

theorem Model.mem_census {m : Model} {uid : UInt64} :
    uid ∈ m.census ↔ (∃ e ∈ m.entities, uid ∈ e.ownUids) ∨ uid ∈ m.retired.uids := by
  simp [census]

theorem Model.mem_census_of_entity {m : Model} {e : Entity} (he : e ∈ m.entities) {uid : UInt64}
    (hu : uid ∈ e.ownUids) : uid ∈ m.census :=
  mem_census.mpr (.inl ⟨e, he, hu⟩)

theorem Model.mem_census_of_retired {m : Model} {uid : UInt64} (hu : uid ∈ m.retired.uids) :
    uid ∈ m.census :=
  mem_census.mpr (.inr hu)

theorem Entity.mem_uids_of_mem_ownUids {e : Entity} {uid : UInt64} (h : uid ∈ e.ownUids) :
    uid ∈ e.uids := by
  simp only [ownUids, uids, List.cons_append, List.mem_cons, List.mem_append] at h ⊢
  tauto

theorem Model.mentions_of_mem_census {m : Model} {uid : UInt64} (h : uid ∈ m.census) :
    m.Mentions uid := by
  simp only [Mentions, uids, List.mem_append, List.mem_flatMap]
  rcases mem_census.mp h with ⟨e, he, hu⟩ | h
  · exact .inr ⟨e, he, Entity.mem_uids_of_mem_ownUids hu⟩
  · exact .inl (.inr h)

/-- Every assigned uid that is in use or retired in the first model is so in the second. -/
def Model.Retains (m m' : Model) : Prop := ∀ uid ≠ 0, uid ∈ m.census → uid ∈ m'.census

theorem Model.Retains.refl (m : Model) : m.Retains m := fun _ _ h => h

theorem Model.Retains.trans {m m' m'' : Model} (h : m.Retains m') (h' : m'.Retains m'') :
    m.Retains m'' := fun uid assigned hu => h' uid assigned (h uid assigned hu)

/-- The uid is assigned, and neither in use nor retired. -/
def Model.Fresh (m : Model) (uid : UInt64) : Prop := uid ≠ 0 ∧ uid ∉ m.census

theorem Model.Fresh.of_unmentioned {m : Model} {uid : UInt64} (assigned : uid ≠ 0)
    (unknown : ¬ m.Mentions uid) : m.Fresh uid :=
  ⟨assigned, fun h => unknown (mentions_of_mem_census h)⟩

/-- What is fresh stays fresh if one looks back. -/
theorem Model.Retains.fresh {m m' : Model} {uid : UInt64} (h : m.Retains m')
    (fresh : m'.Fresh uid) : m.Fresh uid :=
  ⟨fresh.1, fun hu => fresh.2 (h uid fresh.1 hu)⟩

/-- Uids are only ever added to the lists of retired ones, at their ends. -/
structure Retired.Extends (r r' : Retired) : Prop where
  entities : r.entities <+: r'.entities
  indexes : r.indexes <+: r'.indexes
  properties : r.properties <+: r'.properties
  relations : r.relations <+: r'.relations

theorem Retired.Extends.refl (r : Retired) : r.Extends r :=
  ⟨List.prefix_rfl, List.prefix_rfl, List.prefix_rfl, List.prefix_rfl⟩

theorem Retired.Extends.trans {r r' r'' : Retired} (h : r.Extends r') (h' : r'.Extends r'') :
    r.Extends r'' :=
  ⟨h.entities.trans h'.entities, h.indexes.trans h'.indexes, h.properties.trans h'.properties,
    h.relations.trans h'.relations⟩

theorem Retired.Extends.mem_uids {r r' : Retired} (h : r.Extends r') {uid : UInt64}
    (hu : uid ∈ r.uids) : uid ∈ r'.uids := by
  simp only [uids, List.mem_append] at hu ⊢
  exact hu.imp (Or.imp (Or.imp (h.entities.mem ·) (h.indexes.mem ·)) (h.properties.mem ·))
    (h.relations.mem ·)

/-- No last identifier goes down, and no uid is lost. -/
structure Model.Evolves (m m' : Model) : Prop where
  retains : m.Retains m'
  retired : m.retired.Extends m'.retired
  lastEntity : IdPair.lastId m.lastEntity ≤ IdPair.lastId m'.lastEntity
  lastIndex : IdPair.lastId m.lastIndex ≤ IdPair.lastId m'.lastIndex
  lastRelation : IdPair.lastId m.lastRelation ≤ IdPair.lastId m'.lastRelation

theorem Model.Evolves.refl (m : Model) : m.Evolves m :=
  ⟨.refl m, .refl _, UInt32.le_refl _, UInt32.le_refl _, UInt32.le_refl _⟩

theorem Model.Evolves.trans {m m' m'' : Model} (h : m.Evolves m') (h' : m'.Evolves m'') :
    m.Evolves m'' :=
  ⟨h.retains.trans h'.retains, h.retired.trans h'.retired,
    UInt32.le_trans h.lastEntity h'.lastEntity, UInt32.le_trans h.lastIndex h'.lastIndex,
    UInt32.le_trans h.lastRelation h'.lastRelation⟩

theorem Model.Evolves.fresh {m m' : Model} {uid : UInt64} (h : m.Evolves m')
    (fresh : m'.Fresh uid) : m.Fresh uid :=
  h.retains.fresh fresh

/-! ### Removal -/

/-- An assigned uid of a property is retired with it. -/
theorem Retired.mem_uids_addProperties {r : Retired} {properties : List Property} {p : Property}
    (hp : p ∈ properties) {uid : UInt64} (hu : uid ∈ p.uids) (assigned : uid ≠ 0) :
    uid ∈ (r.addProperties properties).uids := by
  simp only [uids, addProperties, List.mem_append, List.mem_filterMap,
    List.mem_map]
  rw [Property.uids, List.mem_cons] at hu
  rcases hu with rfl | hu
  · exact .inl (.inr (.inr ⟨p, hp, rfl⟩))
  · obtain ⟨index, there, rfl⟩ := Option.map_eq_some_iff.mp (Option.mem_toList.mp hu)
    exact .inl (.inl (.inr (.inr ⟨p, hp, by simp [Property.indexUid?, there, assigned]⟩)))

/-- An assigned uid of an entity is retired with it, whether it is its own or that of anything that
belongs to it. -/
theorem Retired.mem_uids_addEntities {r : Retired} {entities : List Entity} {e : Entity}
    (he : e ∈ entities) {uid : UInt64} (hu : uid ∈ e.ownUids) (assigned : uid ≠ 0) :
    uid ∈ (r.addEntities entities).uids := by
  rcases Entity.mem_ownUids.mp hu with rfl | ⟨p, hp, hu⟩ | ⟨q, hq, rfl⟩
  · simp only [uids, addEntities, List.mem_append, List.mem_map]
    exact .inl (.inl (.inl (.inr ⟨e, he, rfl⟩)))
  · have := mem_uids_addProperties (r := r) (List.mem_flatMap.mpr ⟨e, he, hp⟩) hu assigned
    simp only [uids, addEntities, addRelations, addProperties, List.mem_append] at this ⊢
    tauto
  · simp only [uids, addEntities, addRelations, List.mem_append, List.mem_map]
    exact .inr (.inr ⟨q, List.mem_flatMap.mpr ⟨e, he, hq⟩, rfl⟩)

namespace Model

theorem evolves_keepEntities (m : Model) (keep : Entity → Bool) :
    m.Evolves (m.keepEntities keep) := by
  have retired : m.retired.Extends (m.keepEntities keep).retired :=
    ⟨List.prefix_append _ _, List.prefix_append _ _, List.prefix_append _ _,
      List.prefix_append _ _⟩
  refine ⟨?_, retired, UInt32.le_refl _, UInt32.le_refl _, UInt32.le_refl _⟩
  intro uid assigned hu
  rcases mem_census.mp hu with ⟨e, he, hu⟩ | hu
  · cases hk : keep e with
    | true => exact mem_census_of_entity (List.mem_filter.mpr ⟨he, hk⟩) hu
    | false =>
        apply mem_census_of_retired
        exact Retired.mem_uids_addEntities (List.mem_filter.mpr ⟨he, by simp [hk]⟩) hu assigned
  · exact mem_census_of_retired (retired.mem_uids hu)

theorem keepEntities_eq_self (m : Model) {keep : Entity → Bool} (all : ∀ e ∈ m.entities, keep e) :
    m.keepEntities keep = m := by
  have kept : m.entities.filter keep = m.entities := List.filter_eq_self.mpr all
  have gone : m.entities.filter (!keep ·) = [] :=
    List.filter_eq_nil_iff.mpr fun e he => by simp [all e he]
  rw [keepEntities, kept, gone]
  simp [Retired.addEntities, Retired.addProperties, Retired.addRelations]

theorem retains_addEntity (m : Model) (name : String) (uid : UInt64) :
    m.Retains (m.addEntity name uid) := by
  intro u _ hu
  simp only [census, addEntity, List.flatMap_append, List.mem_append] at hu ⊢
  exact hu.imp_left .inl

theorem evolves_addEntity (m : Model) (name : String) (uid : UInt64)
    (numbered : IdPair.next m.lastEntity ≠ 0) : m.Evolves (m.addEntity name uid) :=
  ⟨m.retains_addEntity name uid, .refl _, UInt32.le_of_lt (IdPair.lastId_lt_next numbered),
    UInt32.le_refl _, UInt32.le_refl _⟩

end Model

end SchemaLedger
