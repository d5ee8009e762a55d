import SchemaLedger.Proofs.Merge.Outcome
import SchemaLedger.Proofs.Model.Persistence
import SchemaLedger.Proofs.Run.Phases

/-!
# What one run does to identifiers

A model succeeds another one if it evolves from it and every identifier in it either comes from the
earlier model or lies above all identifiers of the earlier model in its scope. A property may get
another uid, but then the reset has been reported. Merging makes a successor of the stored model, a
document keeps all that matters for it, and a successor of a successor is a successor.
-/

open Relation

namespace SchemaLedger

open Merge

/-- Some notice reports that a property with the first uid has got the second one. -/
def ReportsReset (notices : List Notice) (old new : UInt64) : Prop :=
  ∃ owner name, .propertyReset owner name old new ∈ notices

namespace Model

/-- The later entity `y` is the entity `x` of the earlier model: it has the same identifier, and its
properties are those of `x`, apart from resets, or have got local ids of their own. -/
structure Continues (notices : List Notice) (x y : Entity) : Prop where
  id : y.id = x.id
  lastProperty : IdPair.lastId x.lastProperty ≤ IdPair.lastId y.lastProperty
  properties : ∀ q ∈ y.properties,
    (∃ p ∈ x.properties, p.id.id = q.id.id ∧
      ReflTransGen (ReportsReset notices) p.id.uid q.id.uid) ∨
    IdPair.lastId x.lastProperty < q.id.id

/-- The second model succeeds the first one, with these notices reported in between. -/
structure Succeeds (notices : List Notice) (A B : Model) : Prop where
  evolves : A.Evolves B
  entities : ∀ y ∈ B.entities, (∃ x ∈ A.entities, Continues notices x y) ∨
    IdPair.lastId A.lastEntity < y.id.id ∧ A.Fresh y.id.uid
  indexes : ∀ i ∈ B.indexIds, i ∈ A.indexIds ∨ IdPair.lastId A.lastIndex < i.id
  relations : ∀ i ∈ B.relationIds, i ∈ A.relationIds ∨ IdPair.lastId A.lastRelation < i.id

section Order

variable {A B C : Model} {x y z : Entity} {notices notices' : List Notice}

theorem Continues.refl (x : Entity) : Continues notices x x :=
  ⟨rfl, UInt32.le_refl _, fun q hq => .inl ⟨q, hq, rfl, .refl⟩⟩

theorem Continues.mono (h : Continues notices x y) (more : notices ⊆ notices') :
    Continues notices' x y := by
  refine ⟨h.id, h.lastProperty, ?_⟩
  intro q hq
  apply (h.properties q hq).imp_left
  rintro ⟨p, hp, same, resets⟩
  refine ⟨p, hp, same, ReflTransGen.mono ?_ _ _ resets⟩
  rintro u v ⟨owner, name, told⟩
  exact ⟨owner, name, more told⟩

theorem Continues.trans (h : Continues notices x y) (h' : Continues notices y z) :
    Continues notices x z := by
  refine ⟨h'.id.trans h.id, UInt32.le_trans h.lastProperty h'.lastProperty, ?_⟩
  intro q hq
  rcases h'.properties q hq with ⟨p, hp, same, resets⟩ | above
  · rcases h.properties p hp with ⟨o, ho, same', resets'⟩ | above
    · exact .inl ⟨o, ho, same'.trans same, resets'.trans resets⟩
    · exact .inr (same ▸ above)
  · exact .inr (UInt32.lt_of_le_of_lt h.lastProperty above)

theorem Succeeds.refl (A : Model) : A.Succeeds notices A where
  evolves := .refl A
  entities x hx := .inl ⟨x, hx, .refl x⟩
  indexes _ hi := .inl hi
  relations _ hi := .inl hi

theorem Succeeds.mono (h : A.Succeeds notices B) (more : notices ⊆ notices') :
    A.Succeeds notices' B where
  evolves := h.evolves
  entities y hy := by
    apply (h.entities y hy).imp_left
    rintro ⟨x, hx, continues⟩
    exact ⟨x, hx, continues.mono more⟩
  indexes := h.indexes
  relations := h.relations

theorem Succeeds.trans (h : A.Succeeds notices B) (h' : B.Succeeds notices C) :
    A.Succeeds notices C where
  evolves := h.evolves.trans h'.evolves
  entities z hz := by
    rcases h'.entities z hz with ⟨y, hy, continues⟩ | ⟨above, fresh⟩
    · rcases h.entities y hy with ⟨x, hx, continued⟩ | ⟨above, fresh⟩
      · exact .inl ⟨x, hx, continued.trans continues⟩
      · exact .inr (continues.id ▸ ⟨above, fresh⟩)
    · exact .inr ⟨UInt32.lt_of_le_of_lt h.evolves.lastEntity above, h.evolves.fresh fresh⟩
  indexes i hi := by
    rcases h'.indexes i hi with there | above
    · exact h.indexes i there
    · exact .inr (UInt32.lt_of_le_of_lt h.evolves.lastIndex above)
  relations i hi := by
    rcases h'.relations i hi with there | above
    · exact h.relations i there
    · exact .inr (UInt32.lt_of_le_of_lt h.evolves.lastRelation above)

/-- A document keeps all that matters. -/
theorem Succeeds.kept (h : A.Succeeds notices B) : A.Succeeds notices B.kept where
  evolves := by
    have census : B.kept.census = B.census := by
      rw [← allUidPlaces_map_fst, allUidPlaces_kept, allUidPlaces_map_fst]
    refine ⟨?_, h.evolves.retired, h.evolves.lastEntity, h.evolves.lastIndex,
      h.evolves.lastRelation⟩
    intro uid assigned hu
    exact census ▸ h.evolves.retains uid assigned hu
  entities y hy := by
    obtain ⟨y', hy', rfl⟩ := List.mem_map.mp hy
    apply (h.entities y' hy').imp_left
    rintro ⟨x, hx, id, lastProperty, properties⟩
    refine ⟨x, hx, id, lastProperty, ?_⟩
    intro q hq
    obtain ⟨q', hq', rfl⟩ := List.mem_map.mp hq
    exact properties q' hq'
  indexes i hi := h.indexes i (by rwa [indexIds, indexes_kept] at hi)
  relations i hi := h.relations i (by rwa [relationIds, relations_kept] at hi)

/-- The version that users count does not matter. -/
theorem Succeeds.stamp (h : A.Succeeds notices B) (settings : RunSettings) :
    A.Succeeds notices (settings.stamp B) := by
  unfold RunSettings.stamp
  split
  · exact ⟨⟨h.evolves.retains, h.evolves.retired, h.evolves.lastEntity, h.evolves.lastIndex,
      h.evolves.lastRelation⟩, h.entities, h.indexes, h.relations⟩
  · exact h

end Order

end Model

/-! ### One run -/

section Step

variable {S M : Model} {targets : Targets} {ids : List IdPair} {e : Entity} {o : Settled Entity}
variable {notices : List Notice} {owner : Entity} {p : Property} {q : Settled Property}

/-- A property comes from a stored one or has a local id of its own. -/
theorem Merge.PropertyOutcome.continues (h : PropertyOutcome S owner e.name p q)
    (told : q.notices ⊆ notices) :
    (∃ s ∈ owner.properties, s.id.id = q.made.id.id ∧
      ReflTransGen (ReportsReset notices) s.id.uid q.made.id.uid) ∨
    IdPair.lastId owner.lastProperty < q.made.id.id := by
  cases found : q.found with
  | none => exact .inr (h.origin.local_id.2 found)
  | some s =>
      obtain ⟨there, same⟩ := h.origin.local_id.1 s found
      refine .inl ⟨s, there, same, ?_⟩
      by_cases uid : s.id.uid = q.made.id.uid
      · rw [uid]
      · exact .single ⟨e.name, p.name, told (h.reset s found uid)⟩

theorem Merge.EntityOutcome.continues (h : EntityOutcome S targets ids e o)
    (told : o.notices ⊆ notices) :
    (∃ x ∈ S.entities, Model.Continues notices x o.made) ∨
      IdPair.lastId S.lastEntity < o.made.id.id ∧ S.Fresh o.made.id.uid := by
  have contents := h.contents
  cases found : o.found with
  | none =>
      have origin := h.origin
      rw [found] at origin
      cases origin with
      | created _ _ _ above fresh => exact .inr ⟨above, fresh⟩
  | some x =>
      obtain ⟨there, id⟩ := h.origin.mem (fun _ named => (entity?_eq_some named).1) found
      rw [found] at contents
      refine .inl ⟨x, there, id.symm, contents.lastProperty, ?_⟩
      obtain ⟨ps, each, properties, reported⟩ := contents.properties
      intro q hq
      rw [properties] at hq
      obtain ⟨r, hr, rfl⟩ := List.mem_map.mp hq
      obtain ⟨p, -, outcome⟩ := exists_of_forall₂ each hr
      apply outcome.continues
      intro n hn
      exact told (reported r hr hn)

/-- What an entity is merged into is stored or has nothing in it. -/
theorem Merge.EntityOutcome.stored_or_blank (h : EntityOutcome S targets ids e o) {owner : Entity}
    (same : o.found.getD { id := o.made.id, name := e.name } = owner) :
    owner ∈ S.entities ∨ owner.properties = [] ∧ owner.relations = [] := by
  cases found : o.found with
  | none =>
      rw [found] at same
      subst same
      exact .inr ⟨rfl, rfl⟩
  | some x =>
      rw [found] at same
      subst same
      exact .inl (h.origin.mem (fun _ named => (entity?_eq_some named).1) found).1

/-- An index is a stored one or has a local id of its own. -/
theorem Merge.EntityOutcome.indexes (h : EntityOutcome S targets ids e o) {q : Property}
    (there : q ∈ o.made.properties) {index : IdPair} (indexed : q.index = some index) :
    index ∈ S.indexIds ∨ IdPair.lastId S.lastIndex < index.id := by
  obtain ⟨ps, each, properties, -⟩ := h.contents.properties
  rw [properties] at there
  obtain ⟨r, hr, rfl⟩ := List.mem_map.mp there
  obtain ⟨p, -, outcome⟩ := exists_of_forall₂ each hr
  have origin := outcome.index
  rw [indexed] at origin
  generalize stored : r.found.bind (·.index) = before at origin
  generalize p.index = wanted at origin
  cases origin with
  | kept =>
      obtain ⟨s, found, same⟩ := Option.bind_eq_some_iff.mp stored
      have listed := (outcome.origin.local_id.1 s found).1
      rcases h.stored_or_blank rfl with stored | ⟨none_stored, -⟩
      · exact .inl (Model.mem_indexIds.mpr ⟨_, stored, s, listed, same⟩)
      · simp [none_stored] at listed
  | created above _ => exact .inr above

/-- A relation is a stored one or has a local id of its own. -/
theorem Merge.EntityOutcome.relations (h : EntityOutcome S targets ids e o) {z : Relation}
    (there : z ∈ o.made.relations) :
    z.id ∈ S.relationIds ∨ IdPair.lastId S.lastRelation < z.id.id := by
  obtain ⟨rs, each, relations⟩ := h.contents.relations
  rw [relations] at there
  obtain ⟨x, hx, rfl⟩ := List.mem_map.mp there
  obtain ⟨r, -, outcome⟩ := exists_of_forall₂ each hx
  cases found : x.found with
  | none =>
      have origin := outcome.origin
      rw [RelationOrigin, found] at origin
      cases origin with
      | created _ _ _ above _ => exact .inr above
  | some s =>
      obtain ⟨listed, same⟩ :=
        outcome.origin.mem (fun _ named => (relation?_eq_some named).1) found
      rcases h.stored_or_blank rfl with stored | ⟨-, none_stored⟩
      · exact .inl (Model.mem_relationIds.mpr ⟨_, stored, s, listed, same⟩)
      · simp [none_stored] at listed

/-- Merging makes a successor of a consistent model, if the result is consistent. -/
theorem Merge.succeeds_of_merge {plan : List Entity} {store store' : Store}
    (run : store.merge plan = .ok (notices, store'))
    (some_planned : ∀ e ∈ plan, e.properties ≠ []) (stored : store.model.IsConsistent)
    (merged : store'.model.IsConsistent) : store.model.Succeeds notices store'.model := by
  obtain ⟨evolves, os, made, told, outcomes⟩ := outcome_of_merge run some_planned stored merged
  have each (y : Entity) (hy : y ∈ store'.model.entities) :
      ∃ o ∈ os, o.made = y ∧ ∃ e, EntityOutcome store.model
        (targetsOf plan (os.map (·.made.id.uid))) (store'.model.entities.map (·.id)) e o := by
    rw [made] at hy
    obtain ⟨o, ho, rfl⟩ := List.mem_map.mp hy
    obtain ⟨e, -, outcome⟩ := exists_of_forall₂ outcomes ho
    exact ⟨o, ho, rfl, e, outcome⟩
  refine ⟨evolves, ?_, ?_, ?_⟩
  · intro y hy
    obtain ⟨o, ho, rfl, e, outcome⟩ := each y hy
    exact outcome.continues (told o ho)
  · intro i hi
    obtain ⟨y, hy, q, hq, stored⟩ := Model.mem_indexIds.mp hi
    obtain ⟨o, -, rfl, e, outcome⟩ := each y hy
    exact outcome.indexes hq stored
  · intro i hi
    obtain ⟨y, hy, z, hz, rfl⟩ := Model.mem_relationIds.mp hi
    obtain ⟨o, -, rfl, e, outcome⟩ := each y hy
    exact outcome.relations hz

end Step

end SchemaLedger
