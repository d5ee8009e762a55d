import SchemaLedger.Proofs.Store.Evolution

/-!
# Changes within one entity

While an entity is merged, a model changes in this entity, in the last index and relation
identifiers, and in the retired uids, and nowhere else. A site holds just these parts. Every
operation on the entity at a position is an operation on its site, and the rest of the model is
carried along.
-/

namespace SchemaLedger

theorem modify_eq_set {β : Type} {xs : List β} {i : Nat} {x : β} (f : β → β)
    (h : xs[i]? = some x) : xs.modify i f = xs.set i (f x) := by
  obtain ⟨lt, rfl⟩ := List.getElem?_eq_some_iff.mp h
  apply List.ext_getElem?
  intro j
  rw [List.getElem?_modify, List.getElem?_set]
  by_cases same : i = j
  · subst same
    simp [lt]
  · simp [same]

theorem set_eq_self {β : Type} {xs : List β} {i : Nat} {x : β} (h : xs[i]? = some x) :
    xs.set i x = xs := by
  obtain ⟨lt, rfl⟩ := List.getElem?_eq_some_iff.mp h
  exact List.set_getElem_self lt

/-- An entity with what a change within it may touch beyond it. -/
structure Site where
  entity : Entity
  lastIndex : Option IdPair
  lastRelation : Option IdPair
  retired : Retired

namespace Site

variable (b : Site)

/-- The uids that are in use or retired at the site. -/
def census : List UInt64 := b.entity.ownUids ++ b.retired.uids

/-- The site with another list of properties. -/
def withProperties (properties : List Property) : Site :=
  { b with entity := { b.entity with properties } }

/-- The site with another list of relations. -/
def withRelations (relations : List Relation) : Site :=
  { b with entity := { b.entity with relations } }

/-- The site with the properties that satisfy the condition. The others are retired. -/
def keepProperties (keep : Property → Bool) : Site :=
  { b.withProperties (b.entity.properties.filter keep) with
    retired := b.retired.addProperties (b.entity.properties.filter (!keep ·)) }

/-- The site with the relations that satisfy the condition. The others are retired. -/
def keepRelations (keep : Relation → Bool) : Site :=
  { b.withRelations (b.entity.relations.filter keep) with
    retired := b.retired.addRelations (b.entity.relations.filter (!keep ·)) }

theorem keepProperties_eq_self {keep : Property → Bool} (all : ∀ p ∈ b.entity.properties, keep p) :
    b.keepProperties keep = b := by
  have kept : b.entity.properties.filter keep = b.entity.properties := List.filter_eq_self.mpr all
  have gone : b.entity.properties.filter (!keep ·) = [] :=
    List.filter_eq_nil_iff.mpr fun p hp => by simp [all p hp]
  rw [keepProperties, kept, gone]
  simp [withProperties, Retired.addProperties]

theorem keepRelations_eq_self {keep : Relation → Bool} (all : ∀ r ∈ b.entity.relations, keep r) :
    b.keepRelations keep = b := by
  have kept : b.entity.relations.filter keep = b.entity.relations := List.filter_eq_self.mpr all
  have gone : b.entity.relations.filter (!keep ·) = [] :=
    List.filter_eq_nil_iff.mpr fun r hr => by simp [all r hr]
  rw [keepRelations, kept, gone]
  simp [withRelations, Retired.addRelations]

/-- Every assigned uid that is in use or retired at the first site is so at the second. -/
def Retains (b b' : Site) : Prop := ∀ uid ≠ 0, uid ∈ b.census → uid ∈ b'.census

theorem Retains.trans {b b' b'' : Site} (h : b.Retains b') (h' : b'.Retains b'') :
    b.Retains b'' := fun uid assigned hu => h' uid assigned (h uid assigned hu)

/-- At a site, no last identifier goes down, and no uid is lost. -/
structure Evolves (b b' : Site) : Prop where
  id : b'.entity.id = b.entity.id
  retains : b.Retains b'
  retired : b.retired.Extends b'.retired
  lastProperty : IdPair.lastId b.entity.lastProperty ≤ IdPair.lastId b'.entity.lastProperty
  lastIndex : IdPair.lastId b.lastIndex ≤ IdPair.lastId b'.lastIndex
  lastRelation : IdPair.lastId b.lastRelation ≤ IdPair.lastId b'.lastRelation

theorem Evolves.refl (b : Site) : b.Evolves b :=
  ⟨rfl, fun _ _ h => h, .refl _, UInt32.le_refl _, UInt32.le_refl _, UInt32.le_refl _⟩

theorem Evolves.trans {b b' b'' : Site} (h : b.Evolves b') (h' : b'.Evolves b'') : b.Evolves b'' :=
  ⟨h'.id.trans h.id, h.retains.trans h'.retains, h.retired.trans h'.retired,
    UInt32.le_trans h.lastProperty h'.lastProperty, UInt32.le_trans h.lastIndex h'.lastIndex,
    UInt32.le_trans h.lastRelation h'.lastRelation⟩

theorem evolves_keepProperties (keep : Property → Bool) : b.Evolves (b.keepProperties keep) := by
  have retired : b.retired.Extends (b.keepProperties keep).retired :=
    ⟨List.prefix_rfl, List.prefix_append _ _, List.prefix_append _ _, List.prefix_rfl⟩
  refine ⟨rfl, ?_, retired, UInt32.le_refl _, UInt32.le_refl _, UInt32.le_refl _⟩
  intro uid assigned hu
  simp only [census, Entity.ownUids, List.cons_append, List.mem_cons, List.mem_append,
    List.mem_flatMap] at hu ⊢
  rcases hu with hu | (⟨p, hp, hu⟩ | hu) | hu
  · exact .inl hu
  · cases hk : keep p with
    | true => exact .inr (.inl (.inl ⟨p, List.mem_filter.mpr ⟨hp, hk⟩, hu⟩))
    | false =>
        exact .inr (.inr (Retired.mem_uids_addProperties
          (List.mem_filter.mpr ⟨hp, by simp [hk]⟩) hu assigned))
  · exact .inr (.inl (.inr hu))
  · exact .inr (.inr (retired.mem_uids hu))

theorem evolves_keepRelations (keep : Relation → Bool) : b.Evolves (b.keepRelations keep) := by
  have retired : b.retired.Extends (b.keepRelations keep).retired :=
    ⟨List.prefix_rfl, List.prefix_rfl, List.prefix_rfl, List.prefix_append _ _⟩
  refine ⟨rfl, ?_, retired, UInt32.le_refl _, UInt32.le_refl _, UInt32.le_refl _⟩
  intro uid assigned hu
  simp only [census, Entity.ownUids, List.cons_append, List.mem_cons, List.mem_append,
    List.mem_map] at hu ⊢
  rcases hu with hu | (hu | ⟨r, hr, rfl⟩) | hu
  · exact .inl hu
  · exact .inr (.inl (.inl hu))
  · cases hk : keep r with
    | true => exact .inr (.inl (.inr ⟨r, List.mem_filter.mpr ⟨hr, hk⟩, rfl⟩))
    | false =>
        refine .inr (.inr ?_)
        simp only [keepRelations, Retired.uids, Retired.addRelations, List.mem_append, List.mem_map]
        exact .inr (.inr ⟨r, List.mem_filter.mpr ⟨hr, by simp [hk]⟩, rfl⟩)
  · exact .inr (.inr (retired.mem_uids hu))

/-- Properties may change their order. -/
theorem evolves_withProperties {properties : List Property}
    (perm : properties.Perm b.entity.properties) : b.Evolves (b.withProperties properties) := by
  refine ⟨rfl, ?_, .refl _, UInt32.le_refl _, UInt32.le_refl _, UInt32.le_refl _⟩
  intro uid _ hu
  simp only [census, Entity.ownUids, List.cons_append, List.mem_cons, List.mem_append] at hu ⊢
  exact hu.imp_right (Or.imp_left (Or.imp_left ((perm.flatMap_right _).mem_iff.mpr ·)))

/-- Relations may change their order. -/
theorem evolves_withRelations {relations : List Relation}
    (perm : relations.Perm b.entity.relations) : b.Evolves (b.withRelations relations) := by
  refine ⟨rfl, ?_, .refl _, UInt32.le_refl _, UInt32.le_refl _, UInt32.le_refl _⟩
  intro uid _ hu
  simp only [census, Entity.ownUids, List.cons_append, List.mem_cons, List.mem_append] at hu ⊢
  exact hu.imp_right (Or.imp_left (Or.imp_right ((perm.map _).mem_iff.mpr ·)))

end Site

namespace Model

variable {m : Model} {i j : Nat} {b : Site} {e : Entity}

/-- The site of an entity of the model. -/
def siteOf (m : Model) (e : Entity) : Site := ⟨e, m.lastIndex, m.lastRelation, m.retired⟩

/-- The model with what is at the site in place of its entity at position `i`. -/
def place (m : Model) (i : Nat) (b : Site) : Model :=
  { m with
    entities := m.entities.set i b.entity, lastIndex := b.lastIndex
    lastRelation := b.lastRelation, retired := b.retired }

@[simp] theorem place_lastIndex : (m.place i b).lastIndex = b.lastIndex := rfl

@[simp] theorem place_lastRelation : (m.place i b).lastRelation = b.lastRelation := rfl

@[simp] theorem place_retired : (m.place i b).retired = b.retired := rfl

@[simp] theorem place_lastEntity : (m.place i b).lastEntity = m.lastEntity := rfl

@[simp] theorem place_place (b' : Site) : (m.place i b).place i b' = m.place i b' := by
  simp [place]

theorem place_siteOf (h : m.entities[i]? = some e) : m.place i (m.siteOf e) = m := by
  simp [place, siteOf, set_eq_self h]

@[simp] theorem length_place : (m.place i b).entities.length = m.entities.length := by
  simp [place]

theorem place_entity (h : i < m.entities.length) : (m.place i b).entities[i]? = some b.entity := by
  simp [place, h]

theorem modifyEntity_place (h : i < m.entities.length) (f : Entity → Entity) :
    (m.place i b).modifyEntity i f = m.place i { b with entity := f b.entity } := by
  rw [modifyEntity, modify_eq_set f (place_entity h)]
  simp [place]

theorem propertyAt_place (h : i < m.entities.length) :
    (m.place i b).propertyAt? i j = b.entity.properties[j]? := by
  simp [propertyAt?, place_entity h]

theorem relationAt_place (h : i < m.entities.length) :
    (m.place i b).relationAt? i j = b.entity.relations[j]? := by
  simp [relationAt?, place_entity h]

theorem modifyProperty_place (h : i < m.entities.length) {p : Property}
    (hp : b.entity.properties[j]? = some p) (f : Property → Property) :
    (m.place i b).modifyProperty i j f =
      m.place i (b.withProperties (b.entity.properties.set j (f p))) := by
  rw [modifyProperty, modifyEntity_place h, modify_eq_set f hp]
  rfl

theorem modifyRelation_place (h : i < m.entities.length) {r : Relation}
    (hr : b.entity.relations[j]? = some r) (f : Relation → Relation) :
    (m.place i b).modifyRelation i j f =
      m.place i (b.withRelations (b.entity.relations.set j (f r))) := by
  rw [modifyRelation, modifyEntity_place h, modify_eq_set f hr]
  rfl

theorem dropIndex_place (h : i < m.entities.length) {p : Property}
    (hp : b.entity.properties[j]? = some p) :
    (m.place i b).dropIndex i j = m.place i
      { b.withProperties (b.entity.properties.set j { p with index := none }) with
        retired := b.retired.addIndex p.indexUid? } := by
  rw [dropIndex, modifyProperty_place h hp, propertyAt_place h, hp]
  rfl

theorem addProperty_place (h : i < m.entities.length) (name : String) (kind : PropertyKind)
    (uid : UInt64) :
    (m.place i b).modifyEntity i (·.addProperty name kind uid) =
      m.place i { b with entity := b.entity.addProperty name kind uid } :=
  modifyEntity_place h _

theorem addRelation_place (h : i < m.entities.length) (name : String) (uid : UInt64) :
    (m.place i b).addRelation i name uid = m.place i
      { b.withRelations (b.entity.relations ++ [{ id := ⟨IdPair.next b.lastRelation, uid⟩, name }])
        with lastRelation := some ⟨IdPair.next b.lastRelation, uid⟩ } := by
  rw [addRelation, modifyEntity_place h]
  rfl

theorem keepProperties_place (h : i < m.entities.length) (keep : Property → Bool) :
    (m.place i b).keepProperties i keep = m.place i (b.keepProperties keep) := by
  rw [keepProperties, place_entity h]
  simp only
  rw [modifyEntity_place h]
  rfl

theorem keepRelations_place (h : i < m.entities.length) (keep : Relation → Bool) :
    (m.place i b).keepRelations i keep = m.place i (b.keepRelations keep) := by
  rw [keepRelations, place_entity h]
  simp only
  rw [modifyEntity_place h]
  rfl

/-- The uids of the entities around a position. -/
def uidsAround (m : Model) (i : Nat) : List UInt64 := (m.entities.eraseIdx i).flatMap Entity.ownUids

theorem mem_census_place (h : i < m.entities.length) {uid : UInt64} :
    uid ∈ (m.place i b).census ↔ uid ∈ b.census ∨ uid ∈ m.uidsAround i := by
  have split : (m.entities.set i b.entity).flatMap Entity.ownUids =
      (m.entities.take i).flatMap Entity.ownUids ++ b.entity.ownUids ++
        (m.entities.drop (i + 1)).flatMap Entity.ownUids := by
    rw [List.set_eq_take_append_cons_drop, if_pos h]
    simp
  simp only [census, place, split, Site.census, uidsAround, List.eraseIdx_eq_take_drop_succ,
    List.flatMap_append, List.mem_append]
  tauto

theorem mem_census_place_of_property (h : i < m.entities.length) {p : Property}
    (hp : b.entity.properties[j]? = some p) : p.id.uid ∈ (m.place i b).census := by
  rw [mem_census_place h]
  exact .inl (List.mem_append_left _ (Entity.mem_ownUids.mpr
    (.inr (.inl ⟨p, List.mem_of_getElem? hp, List.mem_cons_self⟩))))

/-- What a site retains, the model retains. -/
theorem retains_place {b' : Site} (h : i < m.entities.length) (hb : b.Retains b') :
    (m.place i b).Retains (m.place i b') := by
  intro uid assigned hu
  rw [mem_census_place h] at hu ⊢
  exact hu.imp_left (hb uid assigned)

/-- A model evolves with each of its sites. -/
theorem evolves_place {b' : Site} (h : i < m.entities.length) (hb : b.Evolves b') :
    (m.place i b).Evolves (m.place i b') :=
  ⟨retains_place h hb.retains, hb.retired, UInt32.le_refl _, hb.lastIndex, hb.lastRelation⟩

end Model

end SchemaLedger
