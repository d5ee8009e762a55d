import Mathlib.Data.List.Nodup
import Mathlib.Data.List.Pairwise
import SchemaLedger.Model.Consistency
import SchemaLedger.Proofs.Error.Chains
import SchemaLedger.Proofs.Store.Evolution

/-!
# What the checks of a model ensure

For each check there is a statement of what it ensures, free of the order in which the checks are
run. An entity that never had a property is not looked at any further, so a consistent model may
hold relations in such an entity that meet no condition; apart from this, a consistent model is
sound, and a consistent model without such entities is sound altogether.
-/

namespace SchemaLedger

open Text

/-! ### Elements -/

/-- The identifiers of the property are assigned, it has a name, and as an ID it is a signed
long. -/
structure Property.IsSound (p : Property) : Prop where
  id : p.id.id ≠ 0
  uid : p.id.uid ≠ 0
  index : ∀ index, p.index = some index → index.id ≠ 0 ∧ index.uid ≠ 0
  name : p.name ≠ ""
  kind : p.IsId → p.kind = .long
  signed : p.IsId → ¬ p.flags.Contains .unsigned

theorem Property.check_eq_ok {p : Property} : p.check = .ok () ↔ p.IsSound := by
  simp only [check, Check.bind_eq_ok, IdPair.check_eq_ok, Check.require_eq_ok, Check.all_eq_ok,
    IdPair.checkField_eq_ok, Option.mem_toList]
  constructor
  · rintro ⟨id, index, name, kind, signed⟩
    exact ⟨id.1, id.2, index, name, kind, signed⟩
  · intro h
    exact ⟨⟨h.id, h.uid⟩, h.index, h.name, h.kind, h.signed⟩

/-- The identifiers of the relation and of its target are assigned, and it has a name. -/
structure Relation.IsSound (r : Relation) : Prop where
  id : r.id.id ≠ 0
  uid : r.id.uid ≠ 0
  name : r.name ≠ ""
  target : ∃ target, r.targetId = some target ∧ target.id ≠ 0 ∧ target.uid ≠ 0

theorem Relation.check_eq_ok {r : Relation} : r.check = .ok () ↔ r.IsSound := by
  simp only [check, Check.bind_eq_ok, IdPair.check_eq_ok, Check.require_eq_ok]
  constructor
  · rintro ⟨id, name, target⟩
    refine ⟨id.1, id.2, name, ?_⟩
    split at target
    · next t there => exact ⟨t, there, IdPair.checkField_eq_ok.mp target⟩
    · cases target
  · intro h
    obtain ⟨t, there, assigned⟩ := h.target
    refine ⟨⟨h.id, h.uid⟩, h.name, ?_⟩
    rw [there]
    exact IdPair.checkField_eq_ok.mpr assigned

/-- What holds within every entity that passes its check, and what holds if the entity has
properties. -/
structure Entity.IsChecked (e : Entity) : Prop where
  id : e.id.id ≠ 0
  uid : e.id.uid ≠ 0
  name : e.name ≠ ""
  properties : ∀ p ∈ e.properties, p.IsSound
  distinctIds : (e.properties.map (·.id.id)).Nodup
  distinctNames : (e.properties.map fun p => foldCase p.name).Nodup
  below : ∀ p ∈ e.properties, p.id.id ≤ IdPair.lastId e.lastProperty
  last : ∀ id, e.lastProperty = some id → id.id ≠ 0 ∧ id.uid ≠ 0
  like : ∀ l, e.lastProperty = some l → ∀ p ∈ e.properties, p.id.id = l.id → p.id = l
  unset : e.lastProperty = none → e.properties = []
  oneId : e.properties ≠ [] → (e.properties.countP fun p => p.IsId) = 1
  relations : e.properties ≠ [] → ∀ r ∈ e.relations, r.IsSound
  distinctRelations : e.properties ≠ [] → (e.relations.map fun r => foldCase r.name).Nodup

namespace Entity

variable {e : Entity}

theorem checkProperty_eq_ok {last : IdPair} {before : List Property} {p : Property} :
    checkProperty last before p = .ok () ↔
      p.IsSound ∧ p.id.id ≤ last.id ∧ (p.id.id = last.id → p.id.uid = last.uid) ∧
        ∀ q ∈ before, ¬ SameName q.name p.name ∧ q.id.id ≠ p.id.id := by
  simp only [checkProperty, Check.bind_eq_ok, Place.wrap_eq_ok, Check.require_eq_ok,
    Check.all_eq_ok, Property.check_eq_ok]

theorem checkRelation_eq_ok {before : List Relation} {r : Relation} :
    checkRelation before r = .ok () ↔ r.IsSound ∧ ∀ q ∈ before, ¬ SameName q.name r.name := by
  simp only [checkRelation, Check.bind_eq_ok, Place.wrap_eq_ok, Check.require_eq_ok,
    Relation.check_eq_ok]

theorem checkIdCount_eq_ok :
    e.checkIdCount = .ok () ↔ (e.properties.countP fun p => p.IsId) = 1 := by
  unfold checkIdCount
  split
  · next none_left => simp [none_left]
  · next one => simp [one]
  · next several => simpa using several

theorem isChecked_of_check (h : e.check = .ok ()) : e.IsChecked := by
  simp only [check, Check.bind_eq_ok, IdPair.check_eq_ok, Check.require_eq_ok] at h
  obtain ⟨id, name, h⟩ := h
  cases stored : e.lastProperty with
  | none =>
      have empty : e.properties = [] := by simpa [stored] using h
      exact {
        id := id.1, uid := id.2, name
        properties := by simp [empty]
        distinctIds := by simp [empty]
        distinctNames := by simp [empty]
        below := by simp [empty]
        last := by simp [stored]
        like := by simp [empty]
        unset := fun _ => empty
        oneId := fun h => absurd empty h
        relations := fun h => absurd empty h
        distinctRelations := fun h => absurd empty h }
  | some last =>
      simp only [stored, Check.bind_eq_ok, IdPair.checkField_eq_ok] at h
      obtain ⟨assigned, properties, ids, relations⟩ := h
      have each (p : Property) (hp : p ∈ e.properties) :
          p.IsSound ∧ p.id.id ≤ last.id ∧ (p.id.id = last.id → p.id = last) := by
        obtain ⟨_, hp⟩ := Check.forall_of_eachAfter properties p hp
        obtain ⟨sound, below, like, -⟩ := checkProperty_eq_ok.mp hp
        exact ⟨sound, below, fun same => IdPair.ext same (like same)⟩
      exact {
        id := id.1, uid := id.2, name
        properties := fun p hp => (each p hp).1
        distinctIds := List.pairwise_map.mpr (Check.pairwise_of_eachAfter properties
          fun _ p _ hp q hq => ((checkProperty_eq_ok.mp hp).2.2.2 q hq).2)
        distinctNames := List.pairwise_map.mpr (Check.pairwise_of_eachAfter properties
          fun _ p _ hp q hq => ((checkProperty_eq_ok.mp hp).2.2.2 q hq).1)
        below := fun p hp => by simpa [stored] using (each p hp).2.1
        last := fun id same => by
          obtain rfl : last = id := by simpa [stored] using same
          exact assigned
        like := fun l same p hp => by
          obtain rfl : last = l := by simpa [stored] using same
          exact (each p hp).2.2
        unset := by simp [stored]
        oneId := fun _ => checkIdCount_eq_ok.mp ids
        relations := fun _ r hr =>
          (checkRelation_eq_ok.mp (Check.forall_of_eachAfter relations r hr).choose_spec).1
        distinctRelations := fun _ => List.pairwise_map.mpr
          (Check.pairwise_of_eachAfter relations fun _ r _ hr => (checkRelation_eq_ok.mp hr).2) }

end Entity

/-! ### Scopes -/

/-- The local ids in a scope are assigned, distinct, and covered by the last identifier, which is
one of those in use or was one, with its uid now retired. -/
structure IsCovered (live : List IdPair) (last : Option IdPair) (retired : List UInt64) : Prop where
  assigned : ∀ id ∈ live, id.id ≠ 0
  distinct : (live.map (·.id)).Nodup
  below : ∀ id ∈ live, id.id ≤ IdPair.lastId last
  known : ∀ id, last = some id → id ∈ live ∨ id.uid ∈ retired
  unset : last = none → live = []

/-- The local ids in a scope are covered, and the last identifier is assigned and is that of the
element with its local id, if there is one. -/
structure IsInOrder (live : List IdPair) (last : Option IdPair) (retired : List UInt64) : Prop
    extends IsCovered live last retired where
  assignedLast : ∀ id, last = some id → id.id ≠ 0 ∧ id.uid ≠ 0
  like : ∀ l, last = some l → ∀ id ∈ live, id.id = l.id → id = l

namespace Model

variable {m : Model} {live : List (String × IdPair)} {last : Option IdPair} {retired : List UInt64}
variable {scope : Scope}

theorem checkScoped_eq_ok {last : IdPair} {before : List (String × IdPair)} {x : String × IdPair} :
    checkScoped scope last before x = .ok () ↔
      x.2.id ≤ last.id ∧ (x.2.id = last.id → x.2.uid = last.uid) ∧
        ∀ y ∈ before, y.2.id ≠ x.2.id := by
  have unused : (∀ y ∈ before, y.2.id ≠ x.2.id) ↔
      (before.find? fun q => q.2.id = x.2.id) = none := by
    simp [List.find?_eq_none]
  simp only [checkScoped, Check.bind_eq_ok, Check.require_eq_ok, unused]
  refine and_congr_right fun _ => and_congr_right fun _ => ?_
  split
  · next found => simp [found]
  · next none_found => simp [none_found]

theorem of_checkLast (h : checkLast scope last live retired = .ok ()) :
    (live.map (·.2.id)).Nodup ∧ (∀ x ∈ live, x.2.id ≤ IdPair.lastId last) ∧
      (∀ id, last = some id → id.id ≠ 0 ∧ id.uid ≠ 0 ∧
        (∀ x ∈ live, x.2.id = id.id → x.2 = id) ∧ (id ∈ live.map (·.2) ∨ id.uid ∈ retired)) ∧
      (last = none → live = []) := by
  cases last with
  | none =>
      cases live with
      | nil => simp
      | cons x rest => simp [checkLast] at h
  | some last =>
      simp only [checkLast, Check.bind_eq_ok, IdPair.checkField_eq_ok, Check.require_eq_ok] at h
      obtain ⟨assigned, each, known⟩ := h
      have passed := Check.forall_of_eachAfter each
      refine ⟨?_, ?_, ?_, fun unset => absurd unset (Option.some_ne_none _)⟩
      · refine List.pairwise_map.mpr (Check.pairwise_of_eachAfter each ?_)
        intro before x _ hx y hy
        exact (checkScoped_eq_ok.mp hx).2.2 y hy
      · intro x hx
        obtain ⟨before, hx⟩ := passed x hx
        exact (checkScoped_eq_ok.mp hx).1
      · intro id same
        obtain rfl := Option.some.inj same
        have like (x : String × IdPair) (hx : x ∈ live) (same : x.2.id = last.id) :
            x.2 = last := by
          obtain ⟨before, hx'⟩ := passed x hx
          exact IdPair.ext same ((checkScoped_eq_ok.mp hx').2.1 same)
        refine ⟨assigned.1, assigned.2, like, known.imp_left ?_⟩
        rintro ⟨x, hx, same⟩
        exact like x hx same ▸ List.mem_map_of_mem hx

/-- A scope whose local ids are assigned passes its check exactly if it is in order. -/
theorem checkLast_eq_ok (assigned : ∀ id ∈ live.map (·.2), id.id ≠ 0) :
    checkLast scope last live retired = .ok () ↔ IsInOrder (live.map (·.2)) last retired := by
  constructor
  · intro h
    obtain ⟨distinct, below, known, unset⟩ := of_checkLast h
    exact {
      assigned
      distinct := by rwa [List.map_map]
      below := List.forall_mem_map.mpr below
      known := fun id is_last => (known id is_last).2.2.2
      unset := fun none_last => by simp [unset none_last]
      assignedLast := fun id is_last => ⟨(known id is_last).1, (known id is_last).2.1⟩
      like := fun l is_last => List.forall_mem_map.mpr (known l is_last).2.2.1 }
  · intro h
    cases last with
    | none =>
        obtain rfl : live = [] := by simpa using h.unset rfl
        rfl
    | some last =>
        simp only [checkLast, Check.bind_eq_ok, IdPair.checkField_eq_ok, Check.require_eq_ok]
        refine ⟨h.assignedLast last rfl, ?_, (h.known last rfl).imp_left ?_⟩
        · have distinct := h.distinct
          rw [List.map_map] at distinct
          refine Check.eachAfter_of_pairwise (List.pairwise_map.mp distinct) ?_
          intro before x hx apart
          refine checkScoped_eq_ok.mpr ⟨h.below x.2 (List.mem_map_of_mem hx), ?_, apart⟩
          intro same
          rw [h.like last rfl x.2 (List.mem_map_of_mem hx) same]
        · intro live_last
          obtain ⟨x, hx, same⟩ := List.mem_map.mp live_last
          exact ⟨x, hx, by rw [same]⟩

theorem checkUid_eq_ok {before : List (UInt64 × UidPlace)} {use : UInt64 × UidPlace} :
    checkUid before use = .ok () ↔ ∀ x ∈ before, x.1 ≠ use.1 := by
  unfold checkUid
  split
  · next place found =>
      simp only [reduceCtorEq, false_iff, not_forall, not_not]
      obtain ⟨l, r, same, -⟩ := List.lookup_eq_some_iff.mp found
      exact ⟨(use.1, place), by simp [same], rfl⟩
  · next missing =>
      simp only [true_iff]
      intro x hx same
      have := List.lookup_eq_none_iff.mp missing x hx
      simp [same] at this

theorem allUidPlaces_map_fst (m : Model) : m.allUidPlaces.map Prod.fst = m.census := by
  have own (e : Entity) : (uidPlaces e).map Prod.fst = e.ownUids := by
    have one (p : Property) : ((p.id.uid, UidPlace.property e.name p.name) ::
        (p.index.map fun index => (index.uid, UidPlace.index e.name p.name)).toList).map Prod.fst =
        p.uids := by
      cases h : p.index <;> simp [Property.uids, h]
    simp only [uidPlaces, List.map_append, List.map_cons, List.map_flatMap, one, List.map_map,
      Entity.ownUids]
    rfl
  have retired : (retiredPlaces m.retired).map Prod.fst = m.retired.uids := by
    simp [retiredPlaces, Retired.uids, Function.comp_def]
  rw [allUidPlaces, List.map_append, List.map_flatMap, retired, census]
  simp only [own]

/-- The uids pass their check exactly if those in use and those retired are distinct. -/
theorem checkUids_eq_ok :
    Check.eachAfter checkUid [] m.allUidPlaces = .ok () ↔ m.census.Nodup := by
  rw [← allUidPlaces_map_fst]
  constructor
  · intro h
    refine List.pairwise_map.mpr (Check.pairwise_of_eachAfter h ?_)
    intro before use _ passed x hx
    exact checkUid_eq_ok.mp passed x hx
  · intro distinct
    exact Check.eachAfter_of_pairwise (List.pairwise_map.mp distinct)
      fun _ _ _ apart => checkUid_eq_ok.mpr apart

/-- The identifiers of all indexes. -/
def indexIds (m : Model) : List IdPair := m.indexes.map (·.2)

/-- The identifiers of all relations. -/
def relationIds (m : Model) : List IdPair := m.relations.map (·.2)

theorem mem_indexIds {id : IdPair} :
    id ∈ m.indexIds ↔ ∃ e ∈ m.entities, ∃ p ∈ e.properties, p.index = some id := by
  simp only [indexIds, indexes, List.map_flatMap, List.mem_flatMap, List.mem_map,
    List.mem_filterMap]
  constructor
  · rintro ⟨e, he, _, ⟨p, hp, there⟩, rfl⟩
    obtain ⟨index, stored, rfl⟩ := Option.map_eq_some_iff.mp there
    exact ⟨e, he, p, hp, stored⟩
  · rintro ⟨e, he, p, hp, stored⟩
    exact ⟨e, he, (p.name, id), ⟨p, hp, by simp [stored]⟩, rfl⟩

theorem mem_relationIds {id : IdPair} :
    id ∈ m.relationIds ↔ ∃ e ∈ m.entities, ∃ r ∈ e.relations, r.id = id := by
  simp [relationIds, relations, List.mem_flatMap, List.mem_map]

section Census

variable {e : Entity}

theorem ownUids_nodup_of_census (h : m.census.Nodup) (he : e ∈ m.entities) : e.ownUids.Nodup :=
  (List.nodup_flatMap.mp (List.nodup_append.mp h).1).1 e he

theorem distinctUids_of_census (h : m.census.Nodup) : (m.entities.map (·.id.uid)).Nodup := by
  apply List.pairwise_map.mpr
  apply (List.nodup_flatMap.mp (List.nodup_append.mp h).1).2.imp
  intro e f apart same
  exact apart e.uid_mem_ownUids (same ▸ f.uid_mem_ownUids)

theorem distinctPropertyUids_of_census (h : m.census.Nodup) (he : e ∈ m.entities) :
    (e.properties.map (·.id.uid)).Nodup := by
  have own := (List.nodup_cons.mp (List.nodup_append.mp (ownUids_nodup_of_census h he)).1).2
  refine List.pairwise_map.mpr ((List.nodup_flatMap.mp own).2.imp ?_)
  intro p q apart same
  exact apart (List.mem_cons_self) (same ▸ List.mem_cons_self)

theorem distinctRelationUids_of_census (h : m.census.Nodup) (he : e ∈ m.entities) :
    (e.relations.map (·.id.uid)).Nodup :=
  (List.nodup_append.mp (ownUids_nodup_of_census h he)).2.1

end Census

namespace IsConsistent

variable {e : Entity}

/-- The checks of a model, one by one. -/
theorem checks (h : m.IsConsistent) :
    m.checkVersion = .ok () ∧ Check.eachAfter m.checkEntity [] m.entities = .ok () ∧
      checkLast .entities m.lastEntity m.entityIds m.retired.entities = .ok () ∧
      checkLast .indexes m.lastIndex m.indexes m.retired.indexes = .ok () ∧
      checkLast .relations m.lastRelation m.relations m.retired.relations = .ok () ∧
      Check.all m.checkTargets m.entities = .ok () ∧
      Check.eachAfter checkUid [] m.allUidPlaces = .ok () ∧ m.checkCycles = .ok () := by
  simpa only [IsConsistent, check, Check.bind_eq_ok] using h

theorem checkEntity (h : m.IsConsistent) (he : e ∈ m.entities) :
    ∃ before, m.checkEntity before e = .ok () :=
  Check.forall_of_eachAfter h.checks.2.1 e he

/-- Every entity passes its own check. -/
theorem isChecked (h : m.IsConsistent) (he : e ∈ m.entities) : e.IsChecked := by
  obtain ⟨before, passed⟩ := h.checkEntity he
  simp only [Model.checkEntity, Check.bind_eq_ok, Place.wrap_eq_ok] at passed
  exact Entity.isChecked_of_check passed.1

/-- The last property identifier of an entity is that of a property, or its uid is retired. -/
theorem lastProperty (h : m.IsConsistent) (he : e ∈ m.entities) {last : IdPair}
    (stored : e.lastProperty = some last) :
    last ∈ e.properties.map (·.id) ∨ last.uid ∈ m.retired.properties := by
  obtain ⟨before, passed⟩ := h.checkEntity he
  simp only [Model.checkEntity, checkLastProperty, Check.bind_eq_ok, Place.wrap_eq_ok,
    Check.all_eq_ok, Check.require_eq_ok] at passed
  exact (passed.2.2 last (by simp [stored])).imp_left List.mem_map.mpr

/-- No two entities have the same name. -/
theorem distinctNames (h : m.IsConsistent) :
    (m.entities.map fun e => foldCase e.name).Nodup := by
  refine List.pairwise_map.mpr
    (Check.pairwise_of_eachAfter h.checks.2.1 fun before f _ passed e he => ?_)
  simp only [Model.checkEntity, Check.bind_eq_ok, Check.all_eq_ok, Check.require_eq_ok] at passed
  exact (passed.2.1 e he).1

/-- The identifiers of entities are in order. -/
theorem entityIds (h : m.IsConsistent) :
    IsInOrder (m.entities.map (·.id)) m.lastEntity m.retired.entities := by
  have ids : m.entityIds.map (·.2) = m.entities.map (·.id) := by
    simp [Model.entityIds, Function.comp_def]
  rw [← ids]
  apply (checkLast_eq_ok ?_).mp h.checks.2.2.1
  intro id hid
  rw [ids] at hid
  obtain ⟨e, he, rfl⟩ := List.mem_map.mp hid
  exact (h.isChecked he).id

/-- The identifiers of properties are in order in every entity. -/
theorem propertyIds (h : m.IsConsistent) (he : e ∈ m.entities) :
    IsInOrder (e.properties.map (·.id)) e.lastProperty m.retired.properties := by
  have checked := h.isChecked he
  exact {
    assigned := List.forall_mem_map.mpr fun p hp => (checked.properties p hp).id
    distinct := by
      rw [List.map_map]
      exact checked.distinctIds
    below := List.forall_mem_map.mpr checked.below
    known := fun id last => h.lastProperty he last
    unset := fun none_last => by simp [checked.unset none_last]
    assignedLast := checked.last
    like := fun l last => List.forall_mem_map.mpr (checked.like l last) }

/-- The uids in use and the retired ones are all distinct. -/
theorem census_nodup (h : m.IsConsistent) : m.census.Nodup :=
  checkUids_eq_ok.mp h.checks.2.2.2.2.2.2.1

/-- The identifiers of indexes are in order. -/
theorem indexIds (h : m.IsConsistent) :
    IsInOrder m.indexIds m.lastIndex m.retired.indexes := by
  apply (checkLast_eq_ok ?_).mp h.checks.2.2.2.1
  intro id hid
  obtain ⟨e, he, p, hp, stored⟩ := mem_indexIds.mp hid
  exact (((h.isChecked he).properties p hp).index id stored).1

/-- The identifiers of relations are in order if their local ids are assigned. -/
theorem relationIds (h : m.IsConsistent) (assigned : ∀ id ∈ m.relationIds, id.id ≠ 0) :
    IsInOrder m.relationIds m.lastRelation m.retired.relations :=
  (checkLast_eq_ok assigned).mp h.checks.2.2.2.2.1

theorem relationIds_ne_zero (h : m.IsConsistent) (used : ∀ e ∈ m.entities, e.properties ≠ []) :
    ∀ id ∈ m.relationIds, id.id ≠ 0 := by
  intro id hid
  obtain ⟨e, he, r, hr, rfl⟩ := mem_relationIds.mp hid
  exact ((h.isChecked he).relations (used e he) r hr).id

/-- No two relations have the same local id, be it assigned or not. -/
theorem distinctRelationIds (h : m.IsConsistent) : (m.relationIds.map (·.id)).Nodup := by
  rw [Model.relationIds, List.map_map]
  exact (of_checkLast h.checks.2.2.2.2.1).1

theorem relationIds_le (h : m.IsConsistent) :
    ∀ id ∈ m.relationIds, id.id ≤ IdPair.lastId m.lastRelation := by
  intro id hid
  obtain ⟨x, hx, rfl⟩ := List.mem_map.mp hid
  exact (of_checkLast h.checks.2.2.2.2.1).2.1 x hx

/-- A target that a relation has is the identifier of an entity. -/
theorem relationTarget (h : m.IsConsistent) (he : e ∈ m.entities) {r : Relation}
    (hr : r ∈ e.relations) {target : IdPair} (there : r.targetId = some target) :
    ∃ f ∈ m.entities, f.id = target := by
  have passed := Check.all_eq_ok.mp h.checks.2.2.2.2.2.1 e he
  simp only [checkTargets, Check.bind_eq_ok, Check.all_eq_ok, Place.wrap_eq_ok,
    Check.require_eq_ok] at passed
  exact passed.1 r hr target (by simp [there])

/-- The target of a to-one property is the name of an entity. -/
theorem propertyTarget (h : m.IsConsistent) (he : e ∈ m.entities) {p : Property}
    (hp : p ∈ e.properties) (toOne : p.IsToOne) : ∃ f ∈ m.entities, SameName f.name p.target := by
  have passed := Check.all_eq_ok.mp h.checks.2.2.2.2.2.1 e he
  simp only [checkTargets, Check.bind_eq_ok, Check.all_eq_ok, Place.wrap_eq_ok,
    Check.require_eq_ok] at passed
  simpa [findByName?] using passed.2 p hp toOne

/-! ### Uids -/

/-- No two entities have the same uid. -/
theorem distinctUids (h : m.IsConsistent) : (m.entities.map (·.id.uid)).Nodup :=
  distinctUids_of_census h.census_nodup

/-- No two properties of an entity have the same uid. -/
theorem distinctPropertyUids (h : m.IsConsistent) (he : e ∈ m.entities) :
    (e.properties.map (·.id.uid)).Nodup :=
  distinctPropertyUids_of_census h.census_nodup he

/-- No two relations of an entity have the same uid. -/
theorem distinctRelationUids (h : m.IsConsistent) (he : e ∈ m.entities) :
    (e.relations.map (·.id.uid)).Nodup :=
  distinctRelationUids_of_census h.census_nodup he

/-- The uid of a last identifier is in use or retired. -/
theorem last_mem_census (h : m.IsConsistent) {id : IdPair}
    (last : m.lastEntity = some id ∨ m.lastIndex = some id ∨ m.lastRelation = some id) :
    id.uid ∈ m.census := by
  rcases last with last | last | last
  · rcases h.entityIds.known id last with live | retired
    · obtain ⟨e, he, rfl⟩ := List.mem_map.mp live
      exact mem_census_of_entity he e.uid_mem_ownUids
    · exact mem_census_of_retired (by simp [Retired.uids, retired])
  · rcases h.indexIds.known id last with live | retired
    · obtain ⟨e, he, p, hp, stored⟩ := mem_indexIds.mp live
      have own : id.uid ∈ p.uids := by simp [Property.uids, stored]
      exact mem_census_of_entity he (Entity.mem_ownUids.mpr (.inr (.inl ⟨p, hp, own⟩)))
    · exact mem_census_of_retired (by simp [Retired.uids, retired])
  · rcases ((of_checkLast h.checks.2.2.2.2.1).2.2.1 id last).2.2.2 with live | retired
    · obtain ⟨e, he, r, hr, rfl⟩ := mem_relationIds.mp live
      exact mem_census_of_entity he (Entity.mem_ownUids.mpr (.inr (.inr ⟨r, hr, rfl⟩)))
    · exact mem_census_of_retired (by simp [Retired.uids, retired])

/-- A consistent model mentions no uid that is neither in use nor retired. -/
theorem mem_census_of_mentions (h : m.IsConsistent) {uid : UInt64} (known : m.Mentions uid) :
    uid ∈ m.census := by
  simp only [Mentions, uids, List.mem_append, List.mem_flatMap] at known
  rcases known with (last | retired) | ⟨e, he, known⟩
  · obtain ⟨last, there, known⟩ := List.mem_filterMap.mp last
    obtain ⟨id, rfl, rfl⟩ := Option.map_eq_some_iff.mp known
    exact h.last_mem_census (by simpa [eq_comm] using there)
  · exact mem_census_of_retired retired
  · simp only [Entity.uids, List.cons_append, List.mem_cons, List.mem_append, List.mem_flatMap,
      List.mem_map] at known
    rcases known with rfl | (last | known) | known
    · exact mem_census_of_entity he e.uid_mem_ownUids
    · obtain ⟨id, stored, rfl⟩ := Option.map_eq_some_iff.mp (Option.mem_toList.mp last)
      rcases h.lastProperty he stored with live | retired
      · obtain ⟨p, hp, rfl⟩ := List.mem_map.mp live
        have own : p.id.uid ∈ p.uids := List.mem_cons_self
        exact mem_census_of_entity he (Entity.mem_ownUids.mpr (.inr (.inl ⟨p, hp, own⟩)))
      · exact mem_census_of_retired (by simp [Retired.uids, retired])
    · exact mem_census_of_entity he (Entity.mem_ownUids.mpr (.inr (.inl known)))
    · exact mem_census_of_entity he (Entity.mem_ownUids.mpr (.inr (.inr known)))

/-- What is fresh for a consistent model is not mentioned in it. -/
theorem not_mentions_of_fresh (h : m.IsConsistent) {uid : UInt64} (fresh : m.Fresh uid) :
    ¬ m.Mentions uid :=
  fun known => fresh.2 (h.mem_census_of_mentions known)

end IsConsistent

end Model

end SchemaLedger
