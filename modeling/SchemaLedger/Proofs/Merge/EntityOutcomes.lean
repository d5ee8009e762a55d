import SchemaLedger.Merge.Basic
import SchemaLedger.Proofs.Merge.PropertyOutcomes
import SchemaLedger.Proofs.Merge.RelationOutcomes

/-!
# What becomes of the entities of a model

Entities that nobody claims are retired, the entities that are missing are created, and then each
planned entity is merged into the one that was settled on. What happens within one entity leaves the
others alone, so in the end every planned entity has been merged into the entity that was stored for
it, as it was stored.
-/

namespace SchemaLedger.Merge

open Text

/-! ### One entity after the other -/

/-- The notice of a change of name, if there is one. -/
def entityRenamed (before after : String) : List Notice :=
  if before ≠ after then [.entityRenamed before after] else []

/-- The site of an entity once it has taken over what the plan says about the entity itself. -/
def adoptedSite (m : Model) (planned x : Entity) : Site :=
  { m.siteOf x with entity := adoptEntity planned x }

theorem modifyEntity_adopt {m : Model} {i : Nat} {x : Entity} (planned : Entity)
    (at_i : m.entities[i]? = some x) :
    m.modifyEntity i (adoptEntity planned) = m.place i (adoptedSite m planned x) := by
  conv_lhs => rw [← Model.place_siteOf at_i]
  exact Model.modifyEntity_place (List.getElem?_eq_some_iff.mp at_i).1 _

theorem evolves_adopt {m : Model} {i : Nat} {x : Entity} (planned : Entity)
    (at_i : m.entities[i]? = some x) : m.Evolves (m.place i (adoptedSite m planned x)) := by
  conv_lhs => rw [← Model.place_siteOf at_i]
  exact Model.evolves_place (List.getElem?_eq_some_iff.mp at_i).1
    ⟨rfl, fun _ _ h => h, .refl _, UInt32.le_refl _, UInt32.le_refl _, UInt32.le_refl _⟩

/-- What merging a planned entity into the entity with its uid does to the model. -/
def EntityStep (targets : Targets) (m : Model) (a : Entity × UInt64 × Bool) (r : Settled Entity)
    (m' : Model) : Prop :=
  ∃ i x fs ps b₁ told₁ gs rs b₂ told₂, m.entities[i]? = some x ∧ x.id.uid = a.2.1 ∧
    PropertiesMerged m i a.1 a.2.2 (adoptedSite m a.1 x) fs ps b₁ told₁ ∧
    RelationsMerged m i a.1 a.2.2 targets b₁ gs rs b₂ told₂ ∧
    m' = m.place i b₂ ∧
    r = ⟨some x, b₂.entity, entityRenamed x.name a.1.name ++ told₁ ++ told₂⟩

section Steps

variable {i : Nat} {s t : Store} {planned : Entity} {isNew : Bool} {notices : List Notice}
variable {targets : Targets}

/-- Merging an entity adopts what is planned and then merges its properties and its relations. -/
theorem mergeEntity_eq_ok :
    mergeEntity planned i isNew targets s = .ok notices t ↔
      ∃ x told s' told', s.model.entities[i]? = some x ∧
        mergeProperties planned i isNew ⟨s.model.modifyEntity i (adoptEntity planned), s.uids⟩ =
          .ok told s' ∧
        mergeRelations planned i isNew targets s' = .ok told' t ∧
        notices = entityRenamed x.name planned.name ++ told ++ told' := by
  simp only [mergeEntity, Revision.bind_eq_ok, Revision.entityAt_eq_ok, Revision.update_eq_ok,
    Revision.pure_eq_ok]
  constructor
  · rintro ⟨x, _, ⟨at_i, rfl⟩, -, _, rfl, told, s', properties, told', _, relations, rfl, rfl⟩
    exact ⟨x, told, s', told', at_i, properties, relations, rfl⟩
  · rintro ⟨x, told, s', told', at_i, properties, relations, rfl⟩
    exact ⟨x, _, ⟨at_i, rfl⟩, (), _, rfl, told, s', properties, told', t, relations, rfl, rfl⟩

theorem of_mergeEntity {x : Entity} (at_i : s.model.entities[i]? = some x)
    (run : mergeEntity planned i isNew targets s = .ok notices t) :
    ∃ r, EntityStep targets s.model (planned, x.id.uid, isNew) r t.model ∧
      notices = r.notices := by
  have lt := (List.getElem?_eq_some_iff.mp at_i).1
  obtain ⟨stored, told₁, t₁, told₂, found, properties, relations, rfl⟩ := mergeEntity_eq_ok.mp run
  obtain rfl := Option.some.inj (at_i.symm.trans found)
  obtain ⟨fs, ps, b₁, properties, at_site⟩ :=
    of_mergeProperties (modifyEntity_adopt planned at_i) lt properties
  obtain ⟨gs, rs, b₂, relations, at_site⟩ := of_mergeRelations at_site lt relations
  exact ⟨_, ⟨i, x, _, _, b₁, _, _, _, b₂, _, at_i, rfl, properties, relations, at_site, rfl⟩, rfl⟩

/-- The first entity is merged into the stored one with its uid, and then the others are merged. -/
theorem mergeEachEntity_cons_eq_ok {a : Entity × UInt64 × Bool} {xs : List (Entity × UInt64 × Bool)} :
    mergeEachEntity targets (a :: xs) s = .ok notices t ↔
      ∃ i told s' others, s.model.findByUid? a.2.1 = some i ∧
        mergeEntity a.1 i a.2.2 targets s = .ok told s' ∧
        mergeEachEntity targets xs s' = .ok others t ∧ notices = told ++ others := by
  obtain ⟨planned, uid, isNew⟩ := a
  simp only [mergeEachEntity, Revision.bind_eq_ok, Revision.model_eq_ok]
  constructor
  · rintro ⟨_, _, ⟨rfl, rfl⟩, run⟩
    cases located : s.model.findByUid? uid with
    | none => simp [located] at run
    | some i =>
        simp only [located, Revision.bind_eq_ok, Revision.within_eq_ok, Revision.pure_eq_ok] at run
        obtain ⟨told, s', first, others, _, rest, rfl, rfl⟩ := run
        exact ⟨i, told, s', others, rfl, first, rest, rfl⟩
  · rintro ⟨i, told, s', others, located, first, rest, rfl⟩
    refine ⟨_, _, ⟨rfl, rfl⟩, ?_⟩
    simp only [located, Revision.bind_eq_ok, Revision.within_eq_ok, Revision.pure_eq_ok]
    exact ⟨told, s', first, others, t, rest, rfl, rfl⟩

/-- Merging entities one after the other goes through them. -/
theorem of_mergeEachEntity {xs : List (Entity × UInt64 × Bool)}
    (run : mergeEachEntity targets xs s = .ok notices t) :
    ∃ rs, Traversal (EntityStep targets) s.model xs rs t.model ∧
      notices = rs.flatMap (·.notices) := by
  induction xs generalizing s notices with
  | nil =>
      simp only [mergeEachEntity, Revision.pure_eq_ok] at run
      obtain ⟨rfl, rfl⟩ := run
      exact ⟨[], .nil, rfl⟩
  | cons a xs ih =>
      obtain ⟨i, told, _, others, located, first, rest, rfl⟩ := mergeEachEntity_cons_eq_ok.mp run
      obtain ⟨x, at_i, same⟩ := of_findIdx? located
      obtain ⟨r, step, rfl⟩ := of_mergeEntity at_i first
      obtain ⟨rs, steps, rfl⟩ := ih rest
      rw [same] at step
      exact ⟨r :: rs, .cons step steps, rfl⟩

end Steps

/-! ### What is in an entity -/

/-- No two properties of the entity have the same uid, and no two relations. -/
structure DistinctUids (e : Entity) : Prop where
  properties : (e.properties.map (·.id.uid)).Nodup
  relations : (e.relations.map (·.id.uid)).Nodup

/-- The properties, indexes and relations of the entity have local ids, the relations at least if
there are properties. -/
structure AllNumbered (e : Entity) : Prop where
  properties : ∀ p ∈ e.properties, Numbered p
  relations : e.properties ≠ [] → ∀ r ∈ e.relations, r.id.id ≠ 0

/-- What becomes of a planned entity that is merged into the stored entity `x`. -/
structure EntityContents (S : Model) (targets : Targets) (ids : List IdPair) (e x : Entity)
    (r : Settled Entity) : Prop where
  made : r.made = { e with
    id := x.id, lastProperty := r.made.lastProperty, properties := r.made.properties
    relations := r.made.relations, uidRequested := false }
  lastProperty : IdPair.lastId x.lastProperty ≤ IdPair.lastId r.made.lastProperty
  properties : ∃ ps, List.Forall₂ (PropertyOutcome S x e.name) e.properties ps ∧
    r.made.properties = ps.map (·.made) ∧ ∀ p ∈ ps, p.notices ⊆ r.notices
  relations : ∃ rs, List.Forall₂ (RelationOutcome S x targets ids) e.relations rs ∧
    r.made.relations = rs.map (·.made)

section Contents

variable {S m m' : Model} {targets : Targets} {ids : List IdPair} {e x x' : Entity}
variable {a : Entity × UInt64 × Bool} {r : Settled Entity}

theorem PropertyOutcome.congr {name : String} {p : Property} {q : Settled Property}
    (h : PropertyOutcome S x name p q) (properties : x.properties = x'.properties)
    (last : x.lastProperty = x'.lastProperty) : PropertyOutcome S x' name p q := by
  refine { h with origin := ?_ }
  have same (n : String) : x.property? n = x'.property? n := by
    simp [Entity.property?, properties]
  have origin := h.origin
  generalize q.made.id = id at origin ⊢
  generalize q.found = found at origin ⊢
  cases origin with
  | byUid given there uid => exact .byUid given (properties ▸ there) uid
  | reset given unlisted named fresh =>
      exact .reset given (properties ▸ unlisted) ((same _).symm.trans named) fresh
  | byName none_given silent named =>
      exact .byName none_given silent ((same _).symm.trans named)
  | created none_given silent unnamed above fresh =>
      exact .created none_given silent ((same _).symm.trans unnamed) (last ▸ above) fresh

theorem RelationOutcome.congr {r : Relation} {q : Settled Relation}
    (h : RelationOutcome S x targets ids r q) (relations : x.relations = x'.relations) :
    RelationOutcome S x' targets ids r q := by
  have same : x.relation? r.name = x'.relation? r.name := by
    simp [Entity.relation?, relations]
  refine { h with origin := ?_ }
  rw [RelationOrigin, ← relations, ← same]
  exact h.origin

/-- A step replaces the entity with its uid, and all entities keep their identifiers. -/
theorem EntityStep.replaces (h : EntityStep targets m a r m') :
    Touches m.entities r.found r.made m'.entities ∧ r.found.map (·.id.uid) = some a.2.1 ∧
      r.made.id.uid = a.2.1 ∧ m'.entities.map (·.id) = m.entities.map (·.id) := by
  obtain ⟨i, x, fs, ps, b₁, told₁, gs, rs, b₂, told₂, at_i, same, properties, relations, rfl,
    rfl⟩ := h
  have id : b₂.entity.id = x.id := by
    rw [relations.entity_eq, properties.entity_eq]
    rfl
  refine ⟨Touches.set _ at_i, by simpa using same, by rw [← same, ← id], ?_⟩
  conv_rhs => rw [← Model.place_siteOf at_i]
  exact ids_place _ id

/-- A step loses no uid. -/
theorem EntityStep.retains (h : EntityStep targets m a r m') : m.Retains m' := by
  obtain ⟨i, x, fs, ps, b₁, told₁, gs, rs, b₂, told₂, at_i, -, properties, relations, rfl, -⟩ := h
  have lt := (List.getElem?_eq_some_iff.mp at_i).1
  exact (evolves_adopt a.1 at_i).retains.trans
    (Model.retains_place lt (properties.retains.trans relations.retains))

/-- A step only concerns its entity, and leaves it with what the plan says. -/
theorem EntityStep.contents (h : EntityStep targets m a r m') (some_planned : a.1.properties ≠ [])
    (found : r.found = some x)
    (distinct : DistinctUids x) (numbered : AllNumbered r.made) (distinct' : DistinctUids r.made)
    (later : S.Evolves m) :
    m.Evolves m' ∧ EntityContents S targets (m.entities.map (·.id)) a.1 x r := by
  obtain ⟨i, x, fs, ps, b₁, told₁, gs, rs, b₂, told₂, at_i, -, properties, relations, rfl, rfl⟩ :=
    h
  obtain rfl := Option.some.inj found
  have lt := (List.getElem?_eq_some_iff.mp at_i).1
  have entity₁ := properties.entity_eq
  have entity₂ := relations.entity_eq
  have relations₁ : b₁.entity.relations = x.relations := by rw [entity₁]; rfl
  have properties₂ : b₂.entity.properties = b₁.entity.properties := by rw [entity₂]
  have start := evolves_adopt a.1 at_i
  obtain ⟨evolves₁, each₁⟩ := properties.outcomes lt distinct.properties
    (by rw [← properties₂]; exact numbered.properties) (later.trans start)
  have middle := start.trans (Model.evolves_place lt evolves₁)
  have made₂ : b₂.entity.properties = ps.map (·.made) :=
    properties₂.trans (properties.properties_eq lt distinct.properties
      (by rw [← properties₂]; exact distinct'.properties))
  have some_made : b₂.entity.properties ≠ [] := by
    rw [made₂]
    intro none_made
    obtain rfl : ps = [] := by simpa using none_made
    exact some_planned (List.forall₂_nil_right_iff.mp each₁)
  obtain ⟨evolves₂, each₂⟩ := relations.outcomes lt
    (by rw [relations₁]; exact distinct.relations) (numbered.relations some_made)
    (later.trans middle)
  have ids₁ : (m.place i b₁).entities.map (·.id) = m.entities.map (·.id) := by
    conv_rhs => rw [← Model.place_siteOf at_i]
    exact ids_place _ evolves₁.id
  rw [ids₁] at each₂
  refine ⟨middle.trans (Model.evolves_place lt evolves₂), ?_⟩
  have last₂ : b₂.entity.lastProperty = b₁.entity.lastProperty := by rw [entity₂]
  exact {
    made := by
      change b₂.entity = _
      conv_lhs => rw [entity₂, entity₁]
      simp only [properties₂, last₂]
      rfl
    lastProperty := by
      change _ ≤ IdPair.lastId b₂.entity.lastProperty
      rw [last₂]
      exact evolves₁.lastProperty
    properties := by
      refine ⟨ps, each₁.imp fun _ _ h => h.congr rfl rfl, made₂, ?_⟩
      intro p hp n hn
      rw [properties.notices]
      exact List.mem_append_left _ (List.mem_append_right _
        (List.mem_append_right _ (List.mem_flatMap.mpr ⟨p, hp, hn⟩)))
    relations := ⟨rs, each₂.imp fun _ _ h => h.congr relations₁,
      relations.relations_eq lt (by rw [relations₁]; exact distinct.relations)
        distinct'.relations⟩ }

end Contents

end SchemaLedger.Merge
