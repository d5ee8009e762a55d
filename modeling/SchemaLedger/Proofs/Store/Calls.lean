import SchemaLedger.Proofs.Store.Failure
import SchemaLedger.Proofs.Store.Numbering

/-!
# Calls from outside

Whoever holds a store may create elements, give indexes to properties and remove what is there, in
any order and at any position. A call either fails, and then the model is as before, or it is one of
four kinds of steps: nothing, one more entity, one entity less, or a change at a site whose books
balance. It gives at most one identifier, with a fresh uid.
-/

namespace SchemaLedger

/-! ### Lists with one element changed -/

section Lists

variable {α β : Type} {xs : List α} {j : Nat} {x : α}

theorem eraseIdx_perm_flatMap (there : xs[j]? = some x) (of : α → List β) :
    ((xs.eraseIdx j).flatMap of ++ of x).Perm (xs.flatMap of) := by
  obtain ⟨lt, rfl⟩ := List.getElem?_eq_some_iff.mp there
  exact List.perm_append_comm.trans ((List.getElem_cons_eraseIdx_perm lt).flatMap_right of)

theorem set_perm_flatMap (there : xs[j]? = some x) (y : α) (of : α → List β) :
    ((xs.set j y).flatMap of ++ of x).Perm (xs.flatMap of ++ of y) := by
  obtain ⟨lt, rfl⟩ := List.getElem?_eq_some_iff.mp there
  have changed := ((List.set_perm_cons_eraseIdx lt y).flatMap_right of).append_right (of xs[j])
  have erased := (eraseIdx_perm_flatMap there of).append_left (of y)
  rw [List.flatMap_cons, List.append_assoc] at changed
  exact changed.trans (erased.trans List.perm_append_comm)

end Lists

/-! ### Changes at a site -/

namespace Site

variable {counted : IdSort → Prop} {j : Nat} {p : Property} {r : Relation}

theorem turnover_addProperty (b : Site) (name : String) (kind : PropertyKind) (uid : UInt64) :
    Turnover counted (fun _ => [])
      (IdSort.only .property [⟨IdPair.next b.entity.lastProperty, uid⟩]) b.books
      { b with entity := b.entity.addProperty name kind uid : Site }.books := by
  refine turnover_of_properties ?_ (fun _ => by simp) ?_ rfl rfl
  · intro sort
    cases sort <;> simp [Entity.addProperty, IdSort.only, Property.idsOf]
  · intro sort _
    cases sort
    case property => exact .single _ _
    all_goals exact .nil

theorem turnover_addRelation (b : Site) (name : String) (uid : UInt64) :
    Turnover counted (fun _ => []) (IdSort.only .relation [⟨IdPair.next b.lastRelation, uid⟩])
      b.books
      { b.withRelations (b.entity.relations ++ [{ id := ⟨IdPair.next b.lastRelation, uid⟩, name }])
        with lastRelation := some ⟨IdPair.next b.lastRelation, uid⟩ : Site }.books := by
  refine turnover_of_relations ?_ (fun _ => by simp [withRelations]) ?_ rfl rfl
  · intro sort
    cases sort <;> simp [withRelations, IdSort.only, Relation.idsOf]
  · intro sort _
    cases sort
    case relation => exact .single _ _
    all_goals exact .nil

theorem turnover_attachIndex (b : Site) (there : b.entity.properties[j]? = some p)
    (free : p.index = none) (uid : UInt64) :
    Turnover counted (fun _ => []) (IdSort.only .index [⟨IdPair.next b.lastIndex, uid⟩]) b.books
      { b.withProperties (b.entity.properties.set j
          { p with index := some ⟨IdPair.next b.lastIndex, uid⟩ }) with
        lastIndex := some ⟨IdPair.next b.lastIndex, uid⟩ : Site }.books := by
  refine turnover_of_properties ?_ (fun _ => by simp [withProperties]) ?_ rfl rfl
  · intro sort
    have changed := set_perm_flatMap there
      { p with index := some ⟨IdPair.next b.lastIndex, uid⟩ } (·.idsOf sort)
    cases sort <;>
      simpa [IdSort.only, Property.idsOf, free, withProperties,
        List.perm_append_right_iff] using changed
  · intro sort _
    cases sort
    case index => exact .single _ _
    all_goals exact .nil

theorem turnover_dropIndex (b : Site) (there : b.entity.properties[j]? = some p)
    (assigned : p.HasIndexUid) :
    Turnover counted (IdSort.only .index p.index.toList) (fun _ => []) b.books
      { b.withProperties (b.entity.properties.set j { p with index := none }) with
        retired := b.retired.addIndex p.indexUid? : Site }.books := by
  refine turnover_of_properties ?_ ?_ ?_ rfl rfl
  · intro sort
    have changed := set_perm_flatMap there { p with index := none } (·.idsOf sort)
    cases sort <;>
      simpa [IdSort.only, Property.idsOf, withProperties,
        List.perm_append_right_iff] using changed
  · intro sort
    cases sort <;>
      simp [IdSort.only, Retired.uidsOf, Retired.addIndex, Property.toList_indexUid? assigned]
  · intro sort _
    cases sort <;> exact .nil

theorem turnover_eraseProperty (b : Site) (there : b.entity.properties[j]? = some p)
    (assigned : p.HasIndexUid) :
    Turnover counted p.idsOf (fun _ => []) b.books
      { b.withProperties (b.entity.properties.eraseIdx j) with
        retired := b.retired.addProperties [p] : Site }.books := by
  refine turnover_of_properties ?_ ?_ ?_ rfl rfl
  · intro sort
    rw [List.append_nil]
    exact eraseIdx_perm_flatMap there (·.idsOf sort)
  · intro sort
    have each : ∀ q ∈ [p], q.HasIndexUid := by simpa using assigned
    simpa using Retired.uidsOf_addProperties (r := b.retired) each sort
  · intro sort _
    cases sort <;> exact .nil

theorem turnover_eraseRelation (b : Site) (there : b.entity.relations[j]? = some r) :
    Turnover counted r.idsOf (fun _ => []) b.books
      { b.withRelations (b.entity.relations.eraseIdx j) with
        retired := b.retired.addRelations [r] : Site }.books := by
  refine turnover_of_relations ?_ ?_ ?_ rfl rfl
  · intro sort
    rw [List.append_nil]
    exact eraseIdx_perm_flatMap there (·.idsOf sort)
  · intro sort
    simpa using Retired.uidsOf_addRelations (r := b.retired) [r] sort
  · intro sort _
    cases sort <;> exact .nil

end Site

/-! ### Steps of a model -/

namespace Model

variable {m m' : Model} {i : Nat} {e : Entity} {ids : IdSort → List IdPair}

/-- The model without the entity at position `i`, which is retired with all that belongs to it. -/
def eraseEntity (m : Model) (i : Nat) (e : Entity) : Model :=
  { m with entities := m.entities.eraseIdx i, retired := m.retired.addEntities [e] }

/-- What a call does to a model, and the identifiers that it gives. -/
inductive Step (m : Model) : (IdSort → List IdPair) → Model → Prop
  | unchanged : Step m (fun _ => []) m
  | entityAdded (name : String) (uid : UInt64) :
    Step m (IdSort.only .entity [⟨IdPair.next m.lastEntity, uid⟩]) (m.addEntity name uid)
  | entityErased {i : Nat} {e : Entity} (there : m.entities[i]? = some e) :
    Step m (fun _ => []) (m.eraseEntity i e)
  | within {i : Nat} {e : Entity} {b : Site} {gone new : IdSort → List IdPair}
    (there : m.entities[i]? = some e)
    (turnover : Turnover (fun _ => True) gone new (m.siteOf e).books b.books) :
    Step m new (m.place i b)

/-- At most one identifier is given, and its uid is fresh. -/
inductive Mints (m : Model) : (IdSort → List IdPair) → Prop
  | nothing : Mints m (fun _ => [])
  | one {sort : IdSort} {id : IdPair} (fresh : m.Fresh id.uid) : Mints m (sort.only [id])

theorem turnover_eraseEntity {counted : IdSort → Prop} (there : m.entities[i]? = some e)
    (assigned : ∀ p ∈ e.properties, p.HasIndexUid) :
    Turnover counted e.idsOf (fun _ => []) m.books (m.eraseEntity i e).books := by
  refine ⟨?_, ?_, ?_⟩
  · intro sort
    rw [List.append_nil]
    exact eraseIdx_perm_flatMap there (·.idsOf sort)
  · intro sort
    have each : ∀ x ∈ [e], ∀ p ∈ x.properties, p.HasIndexUid := by simpa using assigned
    have retired := Retired.uidsOf_addEntities (r := m.retired) each sort
    rwa [List.flatMap_singleton] at retired
  · intro sort _
    cases sort <;> exact .nil

/-- A change of the entity at position `i` is a change at its site. -/
theorem modifyEntity_eq_place (there : m.entities[i]? = some e) (f : Entity → Entity) :
    m.modifyEntity i f = m.place i { m.siteOf e with entity := f e } := by
  obtain ⟨lt, -⟩ := List.getElem?_eq_some_iff.mp there
  have placed := modifyEntity_place (b := m.siteOf e) lt f
  rwa [place_siteOf there] at placed

/-- The books balance over every step. -/
theorem Step.turnover (h : Step m ids m')
    (assigned : ∀ e ∈ m.entities, ∀ p ∈ e.properties, p.HasIndexUid) :
    ∃ gone, Turnover (fun sort => sort ≠ .property) gone ids m.books m'.books := by
  cases h with
  | unchanged => exact ⟨_, .refl _⟩
  | entityAdded name uid => exact ⟨_, m.turnover_addEntity name uid⟩
  | entityErased there =>
      exact ⟨_, turnover_eraseEntity there (assigned _ (List.mem_of_getElem? there))⟩
  | within there turnover =>
      obtain ⟨lt, -⟩ := List.getElem?_eq_some_iff.mp there
      have placed := turnover_place lt turnover
      rw [place_siteOf there] at placed
      exact ⟨_, placed.mono fun sort other => ⟨other, trivial⟩⟩

end Model

/-! ### What is created is found -/

namespace Revision

variable {s t : Store} {i j : Nat} {name : String}

theorem entity_of_createEntity (h : createEntity name s = .ok i t) :
    ∃ uid, s.model.Fresh uid ∧ t.model = s.model.addEntity name uid ∧
      t.model.entities[i]? = some { id := ⟨IdPair.next s.model.lastEntity, uid⟩, name } := by
  obtain ⟨uid, assigned, unknown, rfl, grown⟩ := of_createEntity h
  exact ⟨uid, .of_unmentioned assigned unknown, grown, by simp [grown, Model.addEntity]⟩

theorem property_of_createProperty {kind : PropertyKind}
    (h : createProperty i name kind s = .ok j t) :
    ∃ e uid, s.model.entities[i]? = some e ∧ s.model.Fresh uid ∧
      t.model = s.model.place i
        { s.model.siteOf e with entity := e.addProperty name kind uid } ∧
      t.model.propertyAt? i j = some { id := ⟨IdPair.next e.lastProperty, uid⟩, name, kind } := by
  obtain ⟨e, uid, there, assigned, unknown, rfl, grown⟩ := of_createProperty h
  obtain ⟨lt, -⟩ := List.getElem?_eq_some_iff.mp there
  rw [Model.modifyEntity_eq_place there] at grown
  refine ⟨e, uid, there, .of_unmentioned assigned unknown, grown, ?_⟩
  rw [grown, Model.propertyAt_place lt]
  simp [Entity.addProperty]

theorem relation_of_createRelation (h : createRelation i name s = .ok j t) :
    ∃ e uid, s.model.entities[i]? = some e ∧ s.model.Fresh uid ∧
      t.model = s.model.place i { (s.model.siteOf e).withRelations (e.relations ++
          [{ id := ⟨IdPair.next s.model.lastRelation, uid⟩, name }])
        with lastRelation := some ⟨IdPair.next s.model.lastRelation, uid⟩ } ∧
      t.model.relationAt? i j =
        some { id := ⟨IdPair.next s.model.lastRelation, uid⟩, name } := by
  obtain ⟨e, uid, there, assigned, unknown, rfl, grown⟩ := of_createRelation h
  obtain ⟨lt, -⟩ := List.getElem?_eq_some_iff.mp there
  have placed := Model.addRelation_place (b := s.model.siteOf e) lt name uid
  rw [Model.place_siteOf there] at placed
  rw [placed] at grown
  refine ⟨e, uid, there, .of_unmentioned assigned unknown, grown, ?_⟩
  rw [grown, Model.relationAt_place lt]
  simp [Site.withRelations, Model.siteOf]

/-- Storing a created index in a property is a change at the site of its entity. -/
theorem of_createIndex_stored {e : Entity} {p : Property} {index : IdPair}
    (h : createIndex s = .ok index t) (there : s.model.entities[i]? = some e)
    (at_j : e.properties[j]? = some p) :
    ∃ uid, s.model.Fresh uid ∧ index = ⟨IdPair.next s.model.lastIndex, uid⟩ ∧
      t.model.modifyProperty i j ({ · with index := some index }) = s.model.place i
        { (s.model.siteOf e).withProperties (e.properties.set j { p with index := some index }) with
          lastIndex := some index } := by
  obtain ⟨uid, assigned, unknown, same, counted⟩ := of_createIndex h
  obtain ⟨lt, -⟩ := List.getElem?_eq_some_iff.mp there
  have before : t.model = s.model.place i { s.model.siteOf e with lastIndex := some index } := by
    rw [counted]
    simp [Model.place, Model.siteOf, set_eq_self there]
  exact ⟨uid, .of_unmentioned assigned unknown, same,
    before ▸ Model.modifyProperty_place lt at_j ({ · with index := some index })⟩

end Revision

/-! ### Calls -/

/-- A call that creates or removes an element. To attach an index to a property is to create one
and to store it there. -/
inductive Call where
  | createEntity (name : String)
  | createProperty (i : Nat) (name : String) (kind : PropertyKind)
  | createRelation (i : Nat) (name : String)
  | attachIndex (i j : Nat)
  | removeEntity (i : Nat)
  | removeProperty (i j : Nat)
  | removeIndex (i j : Nat)
  | removeRelation (i j : Nat)
deriving DecidableEq, Repr

namespace Call

open Revision

/-- Makes a call and gives the identifier of what was created, as it stands in the model then. Where
the property has an index already, none is attached. -/
def run : Call → Revision (IdSort → List IdPair)
  | createEntity name => do
    let i ← Revision.createEntity name
    let e ← entityAt i
    return IdSort.only .entity [e.id]
  | createProperty i name kind => do
    let j ← Revision.createProperty i name kind
    let p ← propertyAt i j
    return IdSort.only .property [p.id]
  | createRelation i name => do
    let j ← Revision.createRelation i name
    let r ← relationAt i j
    return IdSort.only .relation [r.id]
  | attachIndex i j => do
    let p ← propertyAt i j
    match p.index with
    | some _ => return fun _ => []
    | none =>
      let index ← createIndex
      update (·.modifyProperty i j ({ · with index := some index }))
      return IdSort.only .index [index]
  | removeEntity i => do
    let _ ← Revision.removeEntity i
    return fun _ => []
  | removeProperty i j => do
    let _ ← Revision.removeProperty i j
    return fun _ => []
  | removeIndex i j => do
    Revision.removeIndex i j
    return fun _ => []
  | removeRelation i j => do
    let _ ← Revision.removeRelation i j
    return fun _ => []

/-- The identifiers that a call gives and the store that it leaves. A call that fails gives none. -/
def result (c : Call) (s : Store) : (IdSort → List IdPair) × Store :=
  match c.run s with
  | .ok ids t => (ids, t)
  | .error _ t => (fun _ => [], t)

variable {c : Call} {s t : Store} {ids : IdSort → List IdPair} {e : ModelError}

theorem of_run_createEntity {name : String} (h : (createEntity name).run s = .ok ids t) :
    s.model.Step ids t.model ∧ s.model.Mints ids := by
  simp only [run, bind_eq_ok, entityAt_eq_ok, pure_eq_ok] at h
  obtain ⟨_, _, created, e, _, ⟨found, rfl⟩, rfl, rfl⟩ := h
  obtain ⟨uid, fresh, grown, there⟩ := entity_of_createEntity created
  obtain rfl := Option.some.inj (there.symm.trans found)
  rw [grown]
  exact ⟨.entityAdded name uid, .one fresh⟩

theorem of_run_createProperty {i : Nat} {name : String} {kind : PropertyKind}
    (h : (createProperty i name kind).run s = .ok ids t) :
    s.model.Step ids t.model ∧ s.model.Mints ids := by
  simp only [run, bind_eq_ok, propertyAt_eq_ok, pure_eq_ok] at h
  obtain ⟨_, _, created, p, _, ⟨found, rfl⟩, rfl, rfl⟩ := h
  obtain ⟨e, uid, there, fresh, grown, at_j⟩ := property_of_createProperty created
  obtain rfl := Option.some.inj (at_j.symm.trans found)
  rw [grown]
  exact ⟨.within there ((s.model.siteOf e).turnover_addProperty name kind uid), .one fresh⟩

theorem of_run_createRelation {i : Nat} {name : String}
    (h : (createRelation i name).run s = .ok ids t) :
    s.model.Step ids t.model ∧ s.model.Mints ids := by
  simp only [run, bind_eq_ok, relationAt_eq_ok, pure_eq_ok] at h
  obtain ⟨_, _, created, r, _, ⟨found, rfl⟩, rfl, rfl⟩ := h
  obtain ⟨e, uid, there, fresh, grown, at_j⟩ := relation_of_createRelation created
  obtain rfl := Option.some.inj (at_j.symm.trans found)
  rw [grown]
  exact ⟨.within there ((s.model.siteOf e).turnover_addRelation name uid), .one fresh⟩

theorem of_run_attachIndex {i j : Nat} (h : (attachIndex i j).run s = .ok ids t) :
    s.model.Step ids t.model ∧ s.model.Mints ids := by
  simp only [run, bind_eq_ok, propertyAt_eq_ok] at h
  obtain ⟨p, _, ⟨found, rfl⟩, h⟩ := h
  cases free : p.index with
  | some index =>
      simp only [free, pure_eq_ok] at h
      obtain ⟨rfl, rfl⟩ := h
      exact ⟨.unchanged, .nothing⟩
  | none =>
      simp only [free, bind_eq_ok, update_eq_ok, pure_eq_ok] at h
      obtain ⟨index, r, created, _, _, rfl, rfl, rfl⟩ := h
      obtain ⟨e, there, at_j⟩ := Option.bind_eq_some_iff.mp found
      obtain ⟨uid, fresh, rfl, stored⟩ := of_createIndex_stored created there at_j
      rw [stored]
      exact ⟨.within there ((s.model.siteOf e).turnover_attachIndex at_j free uid), .one fresh⟩

section Removal

variable {i j : Nat} (assigned : ∀ e ∈ s.model.entities, ∀ p ∈ e.properties, p.HasIndexUid)

include assigned

theorem of_run_removeProperty (h : (removeProperty i j).run s = .ok ids t) :
    s.model.Step ids t.model ∧ s.model.Mints ids := by
  simp only [run, bind_eq_ok, pure_eq_ok] at h
  obtain ⟨_, _, removed, rfl, rfl⟩ := h
  obtain ⟨p, found, gone⟩ := of_removeProperty removed
  obtain ⟨e, there, at_j⟩ := Option.bind_eq_some_iff.mp found
  have uid := assigned e (List.mem_of_getElem? there) p (List.mem_of_getElem? at_j)
  rw [Model.modifyEntity_eq_place there] at gone
  rw [gone]
  exact ⟨.within there ((s.model.siteOf e).turnover_eraseProperty at_j uid), .nothing⟩

theorem of_run_removeIndex (h : (removeIndex i j).run s = .ok ids t) :
    s.model.Step ids t.model ∧ s.model.Mints ids := by
  simp only [run, bind_eq_ok, pure_eq_ok] at h
  obtain ⟨_, _, removed, rfl, rfl⟩ := h
  obtain ⟨p, index, found, -, gone⟩ := of_removeIndex removed
  obtain ⟨e, there, at_j⟩ := Option.bind_eq_some_iff.mp found
  obtain ⟨lt, -⟩ := List.getElem?_eq_some_iff.mp there
  have uid := assigned e (List.mem_of_getElem? there) p (List.mem_of_getElem? at_j)
  have placed := Model.dropIndex_place (b := s.model.siteOf e) lt at_j
  rw [Model.place_siteOf there] at placed
  rw [gone, placed]
  exact ⟨.within there ((s.model.siteOf e).turnover_dropIndex at_j uid), .nothing⟩

end Removal

theorem of_run_removeRelation {i j : Nat} (h : (removeRelation i j).run s = .ok ids t) :
    s.model.Step ids t.model ∧ s.model.Mints ids := by
  simp only [run, bind_eq_ok, pure_eq_ok] at h
  obtain ⟨_, _, removed, rfl, rfl⟩ := h
  obtain ⟨r, found, gone⟩ := of_removeRelation removed
  obtain ⟨e, there, at_j⟩ := Option.bind_eq_some_iff.mp found
  rw [Model.modifyEntity_eq_place there] at gone
  rw [gone]
  exact ⟨.within there ((s.model.siteOf e).turnover_eraseRelation at_j), .nothing⟩

/-- A call that succeeds is a step of the model. -/
theorem of_run (h : c.run s = .ok ids t)
    (assigned : ∀ e ∈ s.model.entities, ∀ p ∈ e.properties, p.HasIndexUid) :
    s.model.Step ids t.model ∧ s.model.Mints ids := by
  cases c with
  | createEntity name => exact of_run_createEntity h
  | createProperty i name kind => exact of_run_createProperty h
  | createRelation i name => exact of_run_createRelation h
  | attachIndex i j => exact of_run_attachIndex h
  | removeEntity i =>
      simp only [run, bind_eq_ok, pure_eq_ok] at h
      obtain ⟨_, _, removed, rfl, rfl⟩ := h
      obtain ⟨e, there, gone⟩ := of_removeEntity removed
      rw [gone]
      exact ⟨.entityErased there, .nothing⟩
  | removeProperty i j => exact of_run_removeProperty assigned h
  | removeIndex i j => exact of_run_removeIndex assigned h
  | removeRelation i j => exact of_run_removeRelation h

/-- A call that fails leaves the model as it is. -/
theorem model_of_run_eq_error (h : c.run s = .error e t) : t.model = s.model := by
  cases c <;> simp only [run, bind_eq_error, pure_ne_error, and_false, exists_false, or_false] at h
  case createEntity name =>
    rcases h with failed | ⟨i, r, created, missing⟩
    · exact model_of_createEntity_eq_error failed
    · obtain ⟨uid, -, -, there⟩ := entity_of_createEntity created
      exact absurd missing (entityAt_ne_error there)
  case createProperty i name kind =>
    rcases h with failed | ⟨j, r, created, missing⟩
    · exact model_of_createProperty_eq_error failed
    · obtain ⟨_, uid, -, -, -, there⟩ := property_of_createProperty created
      exact absurd missing (propertyAt_ne_error there)
  case createRelation i name =>
    rcases h with failed | ⟨j, r, created, missing⟩
    · exact model_of_createRelation_eq_error failed
    · obtain ⟨_, uid, -, -, -, there⟩ := relation_of_createRelation created
      exact absurd missing (relationAt_ne_error there)
  case attachIndex i j =>
    rcases h with missing | ⟨p, r, found, failed⟩
    · rw [eq_of_propertyAt_eq_error missing]
    · obtain ⟨-, rfl⟩ := propertyAt_eq_ok.mp found
      cases free : p.index with
      | some index => simp [free] at failed
      | none =>
          simp only [free, bind_eq_error, update_ne_error, pure_ne_error, and_false, exists_false,
            or_false] at failed
          exact model_of_createIndex_eq_error failed
  case removeEntity i => rw [eq_of_removeEntity_eq_error h]
  case removeProperty i j => rw [eq_of_removeProperty_eq_error h]
  case removeIndex i j => rw [eq_of_removeIndex_eq_error h]
  case removeRelation i j => rw [eq_of_removeRelation_eq_error h]

/-- Whether it succeeds or fails, a call is a step of the model. -/
theorem step_result (c : Call) (s : Store)
    (assigned : ∀ e ∈ s.model.entities, ∀ p ∈ e.properties, p.HasIndexUid) :
    s.model.Step (c.result s).1 (c.result s).2.model ∧ s.model.Mints (c.result s).1 := by
  unfold result
  cases run : c.run s with
  | ok ids t => exact of_run run assigned
  | error e t =>
      simp only [model_of_run_eq_error run]
      exact ⟨.unchanged, .nothing⟩

end Call

/-- Makes one call after the other, whether they succeed or fail, and gives all identifiers that
they give. -/
def callEach : List Call → Store → (IdSort → List IdPair) × Store
  | [], s => (fun _ => [], s)
  | c :: calls, s =>
    let (ids, t) := c.result s
    let (ids', u) := callEach calls t
    (fun sort => ids sort ++ ids' sort, u)

end SchemaLedger
