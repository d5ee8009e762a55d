import SchemaLedger.Proofs.Merge.Outcome

/-!
# Merging what is there already

A model conforms to a plan if it has the planned elements, with the names and uids that the plan
gives, and nothing else. Merging finds every element again, changes no identifier, draws no uid and
has nothing to report: it only takes over what the plan says beyond identifiers.
-/

namespace SchemaLedger.Merge

open Text

/-! ### Conformance -/

/-- The stored element has the name that is planned, and the uid if one is given. -/
structure IsNamesake (given : UInt64) (asked : Bool) (planned stored : String) (uid : UInt64) :
    Prop where
  sameName : stored = planned
  sameUid : given ≠ 0 → uid = given
  silent : given = 0 → asked = false

/-- The stored property `q` is the one that is planned. -/
structure PropertyConforms (p q : Property) : Prop where
  namesake : IsNamesake p.id.uid p.uidRequested p.name q.name q.id.uid
  index : q.index.isSome = p.index.isSome

/-- The stored relation `q` is the one that is planned, and it points where it should. -/
structure RelationConforms (targets : Targets) (entities : List Entity) (r q : Relation) :
    Prop where
  namesake : IsNamesake r.id.uid r.uidRequested r.name q.name q.id.uid
  target : ∃ f ∈ entities, targets.lookup (foldCase r.target) = some f.id.uid ∧
    q.targetId = some f.id

/-- The stored entity `x` is the one that is planned, with all that is in it. -/
structure EntityConforms (targets : Targets) (entities : List Entity) (e x : Entity) : Prop where
  namesake : IsNamesake e.id.uid e.uidRequested e.name x.name x.id.uid
  properties : List.Forall₂ PropertyConforms e.properties x.properties
  relations : List.Forall₂ (RelationConforms targets entities) e.relations x.relations

/-- The stored relation with everything that the plan says apart from its target. -/
def refreshRelation (r stored : Relation) : Relation :=
  { stored with name := r.name, target := r.target, uidRequested := false }

/-- The stored entity with everything that the plan says. -/
def refreshEntity (planned stored : Entity) : Entity :=
  { adoptEntity planned stored with
    properties := List.zipWith adoptProperty planned.properties stored.properties
    relations := List.zipWith refreshRelation planned.relations stored.relations }

/-! ### Finding elements again -/

section Lookups

variable {β : Type} {key : β → UInt64} {name : β → String} {xs done rest : List β} {x : β}

theorem findIdx?_of_nodup (distinct : ((done ++ x :: rest).map key).Nodup) :
    (done ++ x :: rest).findIdx? (key · = key x) = some done.length := by
  have apart : ∀ y ∈ done, key y ≠ key x := by
    intro y hy same
    rw [List.map_append, List.nodup_append] at distinct
    exact distinct.2.2 _ (List.mem_map_of_mem hy) _ (by simp) same
  refine List.findIdx?_eq_some_iff_getElem.mpr ⟨by simp, by simp, fun j hj => ?_⟩
  rw [List.getElem_append_left hj]
  simpa using apart _ (List.getElem_mem hj)

theorem find?_of_nodup (distinct : (xs.map fun x => foldCase (name x)).Nodup) (there : x ∈ xs)
    {n : String} (same : name x = n) : xs.find? (fun y => SameName (name y) n) = some x := by
  subst same
  apply find?_eq_some_of_only there (decide_eq_true (SameName.refl _))
  intro y hy same
  exact List.inj_on_of_nodup_map distinct hy there (of_decide_eq_true same)

/-- Elements that are refreshed keep their keys. -/
theorem map_zipWith {α γ : Type} {refresh : α → β → β} {f : β → γ} {as : List α}
    (same : ∀ a x, f (refresh a x) = f x) (length : as.length = xs.length) :
    (List.zipWith refresh as xs).map f = xs.map f := by
  induction as generalizing xs with
  | nil =>
      obtain rfl := List.length_eq_zero_iff.mp length.symm
      rfl
  | cons a as ih =>
      cases xs with
      | nil => simp at length
      | cons x xs => simp [same, ih (by simpa using length)]

theorem reorder_zipWith {α : Type} {refresh : α → β → β} {as : List α}
    (same : ∀ a x, key (refresh a x) = key x) (length : as.length = xs.length)
    (distinct : (xs.map key).Nodup) :
    reorder key (xs.map key) (List.zipWith refresh as xs) = List.zipWith refresh as xs := by
  rw [← map_zipWith same length] at distinct ⊢
  exact reorder_eq (.refl _) distinct

theorem map_uid_of_map_id {es fs : List Entity} (ids : es.map (·.id) = fs.map (·.id)) :
    es.map (·.id.uid) = fs.map (·.id.uid) := by
  have uids := congrArg (List.map IdPair.uid) ids
  rwa [List.map_map, List.map_map] at uids

/-- An element with the planned name and uid is the match. -/
theorem IsNamesake.matched {id : β → IdPair} {named : Option β} {present : List UInt64}
    {given : UInt64} {asked : Bool} {planned : String}
    (h : IsNamesake given asked planned (name x) (id x).uid) (there : (id x).uid ∈ present)
    (is_named : named = some x) :
    Matched present (named.map fun x => (id x).uid) given asked (some (id x).uid) := by
  by_cases none_given : given = 0
  · rw [is_named]
    exact .byName none_given (h.silent none_given)
  · rw [h.sameUid none_given] at there ⊢
    exact .byUid none_given there

end Lookups

/-! ### Properties -/

section Properties

variable {m : Model} {i : Nat} (planned : Entity) (b : Site) (uids : UidSource) {p q : Property}
variable {ps qs done rest : List Property}

/-- A property that conforms is the match. -/
theorem PropertyConforms.matched {stored : Model} {owner : Entity} (h : PropertyConforms p q)
    (there : q ∈ owner.properties)
    (distinct : (owner.properties.map fun q => foldCase q.name).Nodup) :
    PropertyMatched stored owner p (some (.existing q.id.uid)) := by
  have listed : q.id.uid ∈ owner.properties.map (·.id.uid) := List.mem_map_of_mem there
  have named : owner.property? p.name = some q :=
    find?_of_nodup distinct there h.namesake.sameName
  by_cases none_given : p.id.uid = 0
  · have found : PropertyMatched stored owner p _ :=
      .byName none_given (h.namesake.silent none_given)
    rwa [named] at found
  · rw [h.namesake.sameUid none_given] at listed ⊢
    exact .byUid none_given listed

/-- Merging a property that conforms only refreshes it. -/
theorem mergeProperty_of_conforms (lt : i < m.entities.length) (conforms : PropertyConforms p q)
    (distinct : ((done ++ q :: rest).map (·.id.uid)).Nodup) :
    mergeProperty planned i false p (some (.existing q.id.uid))
        ⟨m.place i (b.withProperties (done ++ q :: rest)), uids⟩ =
      .ok (q.id.uid, [])
        ⟨m.place i (b.withProperties (done ++ adoptProperty p q :: rest)), uids⟩ := by
  let s : Store := ⟨m.place i (b.withProperties (done ++ q :: rest)), uids⟩
  let t : Store := ⟨m.place i (b.withProperties (done ++ adoptProperty p q :: rest)), uids⟩
  have there : (done ++ q :: rest)[done.length]? = some q := by simp
  have there' : (done ++ adoptProperty p q :: rest)[done.length]? = some (adoptProperty p q) := by
    simp
  have located : locateProperty i q.id.uid s = .ok done.length s :=
    (locateProperty_eq_ok (b := b.withProperties (done ++ q :: rest)) rfl lt).mpr
      ⟨findIdx?_of_nodup distinct, rfl⟩
  have index : settleIndex planned i done.length false p q s = .ok [] s := by
    have same := conforms.index
    unfold settleIndex
    cases hq : q.index <;> cases hp : p.index <;> simp_all
  have placed : placeProperty planned i false p (some (.existing q.id.uid)) s =
      .ok (done.length, false, []) s := by
    simp only [placeProperty, Revision.bind_eq_ok, Revision.within_eq_ok, Revision.pure_eq_ok]
    exact ⟨done.length, s, located, rfl, rfl⟩
  have adopted :
      ({ s with model := s.model.modifyProperty i done.length (adoptProperty p) } : Store) =
      t := by
    simp only [s, t]
    rw [Model.modifyProperty_place lt there]
    simp [Site.withProperties]
  have settled : settleProperty planned i done.length false p s = .ok [] t := by
    simp only [settleProperty, Revision.bind_eq_ok, Revision.propertyAt_eq_ok,
      Revision.update_eq_ok, Revision.pure_eq_ok]
    refine ⟨q, s, ⟨(Model.propertyAt_place lt).trans there, rfl⟩, [], s, index, (), t, adopted, ?_,
      rfl⟩
    simp [conforms.namesake.sameName]
  simp only [mergeProperty, Revision.bind_eq_ok, Revision.within_eq_ok, Revision.propertyAt_eq_ok,
    Revision.pure_eq_ok]
  exact ⟨(done.length, false, []), s, placed, [], t, settled, adoptProperty p q, t,
    ⟨(Model.propertyAt_place lt).trans there', rfl⟩, rfl, rfl⟩

theorem mergeEachProperty_of_conforms (done : List Property) (lt : i < m.entities.length)
    (conforms : List.Forall₂ PropertyConforms ps qs)
    (distinct : ((done ++ qs).map (·.id.uid)).Nodup) :
    mergeEachProperty planned i false (ps.zip (qs.map fun q => some (.existing q.id.uid)))
        ⟨m.place i (b.withProperties (done ++ qs)), uids⟩ =
      .ok (qs.map (·.id.uid), [])
        ⟨m.place i (b.withProperties (done ++ List.zipWith adoptProperty ps qs)), uids⟩ := by
  induction conforms generalizing done with
  | nil => rfl
  | @cons p q ps qs first _ ih =>
      have step := mergeProperty_of_conforms planned b uids lt first distinct
      have next := ih (done ++ [adoptProperty p q]) (by simpa [adoptProperty] using distinct)
      simp only [List.append_assoc, List.singleton_append] at next
      rw [List.map_cons, List.zip_cons_cons, List.map_cons, List.zipWith_cons_cons]
      exact mergeEachProperty_cons_eq_ok.mpr
        ⟨q.id.uid, [], _, qs.map (·.id.uid), [], step, next, rfl, rfl⟩

/-- Merging properties that conform only refreshes them. -/
theorem mergeProperties_of_conforms (lt : i < m.entities.length)
    (conforms : List.Forall₂ PropertyConforms planned.properties b.entity.properties)
    (distinct : (b.entity.properties.map (·.id.uid)).Nodup)
    (distinctNames : (b.entity.properties.map fun q => foldCase q.name).Nodup) :
    mergeProperties planned i false ⟨m.place i b, uids⟩ =
      .ok [] ⟨m.place i (b.withProperties
        (List.zipWith adoptProperty planned.properties b.entity.properties)), uids⟩ := by
  let found := b.entity.properties.map fun q => some (PropertyMatch.existing q.id.uid)
  have claims : claimed PropertyMatch.storedUid found = b.entity.properties.map (·.id.uid) := by
    simp [claimed, found, List.filterMap_map, Function.comp_def, PropertyMatch.storedUid]
  have matched : matchProperties ⟨m.place i b, uids⟩ planned b.entity = .ok found := by
    refine matchProperties_eq_ok.mpr ⟨List.forall₂_map_right_iff.mpr ?_, by rwa [claims]⟩
    apply (forall₂_and_mem conforms).imp
    intro p q h
    exact h.1.matched h.2 distinctNames
  have kept : (m.place i b).keepProperties i (·.id.uid ∈ b.entity.properties.map (·.id.uid)) =
      m.place i b := by
    rw [Model.keepProperties_place lt, b.keepProperties_eq_self fun p hp => ?_]
    exact decide_eq_true (List.mem_map_of_mem hp)
  have removed : b.entity.properties.filter
      (·.id.uid ∉ b.entity.properties.map (·.id.uid)) = [] :=
    List.filter_eq_nil_iff.mpr fun p hp => by simpa using ⟨p, hp, rfl⟩
  let refreshed := List.zipWith adoptProperty planned.properties b.entity.properties
  have each : mergeEachProperty planned i false (planned.properties.zip found)
      ⟨m.place i b, uids⟩ = .ok (b.entity.properties.map (·.id.uid), [])
        ⟨m.place i (b.withProperties refreshed), uids⟩ :=
    mergeEachProperty_of_conforms planned b uids [] lt conforms distinct
  have order : reorder (·.id.uid) (b.entity.properties.map (·.id.uid)) refreshed = refreshed :=
    reorder_zipWith (fun _ _ => rfl) conforms.length_eq distinct
  refine mergeProperties_eq_ok.mpr ⟨b.entity, found, b.entity.properties.map (·.id.uid), [],
    ⟨m.place i (b.withProperties refreshed), uids⟩, Model.place_entity lt, matched, ?_, ?_, ?_⟩
  · simp only [claims, kept]
    exact each
  · rw [Model.modifyEntity_place lt]
    simp only [Site.withProperties, order]
    rfl
  · rw [claims, removed]
    rfl

end Properties

/-! ### Relations -/

section Relations

variable {m : Model} {i : Nat} (planned : Entity) (b : Site) (uids : UidSource) {r q : Relation}
variable {rs qs rest : List Relation} {targets : Targets} {entities : List Entity}

/-- A relation that conforms is the match. -/
theorem RelationConforms.matched {owner : Entity} (h : RelationConforms targets entities r q)
    (there : q ∈ owner.relations)
    (distinct : (owner.relations.map fun q => foldCase q.name).Nodup) :
    RelationMatched owner r (some q.id.uid) :=
  h.namesake.matched (List.mem_map_of_mem there)
    (find?_of_nodup distinct there h.namesake.sameName)

/-- The target of a relation that conforms is found again. -/
theorem RelationConforms.targetOf_eq {m : Model} (h : RelationConforms targets entities r q)
    (ids : m.entities.map (·.id) = entities.map (·.id))
    (distinct : (entities.map (·.id.uid)).Nodup) :
    ∃ target, targetOf targets m r = .ok target ∧
      adoptRelation target r q = refreshRelation r q := by
  obtain ⟨f, hf, listed, there⟩ := h.target
  have found : targetOf targets m r = .ok f.id := by
    have uids : (m.entities.map (·.id.uid)).Nodup := map_uid_of_map_id ids ▸ distinct
    have present : f.id ∈ m.entities.map (·.id) := ids ▸ List.mem_map_of_mem hf
    obtain ⟨x, hx, same⟩ := List.mem_map.mp present
    have located : m.entities.find? (·.id.uid = f.id.uid) = some x := by
      apply find?_eq_some_of_only hx (by simp [same])
      intro y hy uid
      exact List.inj_on_of_nodup_map uids hy hx ((of_decide_eq_true uid).trans (by rw [same]))
    rw [targetOf, listed, Option.bind_some, located, ← same]
  refine ⟨f.id, found, ?_⟩
  simp [adoptRelation, refreshRelation, ← there]

/-- Merging a relation that conforms only refreshes it. -/
theorem mergeRelation_of_conforms {done : List Relation} (lt : i < m.entities.length)
    (conforms : RelationConforms targets entities r q)
    (ids : (m.place i b).entities.map (·.id) = entities.map (·.id))
    (distinctUids : (entities.map (·.id.uid)).Nodup)
    (distinct : ((done ++ q :: rest).map (·.id.uid)).Nodup) :
    mergeRelation planned i false targets r (some q.id.uid)
        ⟨m.place i (b.withRelations (done ++ q :: rest)), uids⟩ =
      .ok (q.id.uid, [])
        ⟨m.place i (b.withRelations (done ++ refreshRelation r q :: rest)), uids⟩ := by
  let s : Store := ⟨m.place i (b.withRelations (done ++ q :: rest)), uids⟩
  let t : Store := ⟨m.place i (b.withRelations (done ++ refreshRelation r q :: rest)), uids⟩
  have there : (done ++ q :: rest)[done.length]? = some q := by simp
  have located : locateRelation planned i q.id.uid s = .ok done.length s :=
    (locateRelation_eq_ok (b := b.withRelations (done ++ q :: rest)) rfl lt).mpr
      ⟨findIdx?_of_nodup distinct, rfl⟩
  have placed : placeRelation planned i false r (some q.id.uid) s = .ok (done.length, []) s := by
    simp only [placeRelation, Revision.bind_eq_ok, Revision.within_eq_ok, Revision.pure_eq_ok]
    exact ⟨done.length, s, located, rfl, rfl⟩
  have same : s.model.entities.map (·.id) = entities.map (·.id) :=
    (ids_place (b := b) (b.withRelations (done ++ q :: rest)) rfl).trans ids
  obtain ⟨target, points, refreshed⟩ := conforms.targetOf_eq same distinctUids
  have adopted : ({ s with
      model := s.model.modifyRelation i done.length (adoptRelation target r) } : Store) = t := by
    simp only [s, t]
    rw [Model.modifyRelation_place lt there, refreshed]
    simp [Site.withRelations]
  simp only [mergeRelation, Revision.bind_eq_ok, Revision.model_eq_ok, Revision.ofExcept_eq_ok,
    Revision.relationAt_eq_ok, Revision.update_eq_ok, Revision.pure_eq_ok]
  refine ⟨(done.length, []), s, placed, s.model, s, ⟨rfl, rfl⟩, target, s, ⟨points, rfl⟩, q, s,
    ⟨(Model.relationAt_place lt).trans there, rfl⟩, (), t, adopted, ?_, rfl⟩
  simp [conforms.namesake.sameName]

theorem mergeEachRelation_of_conforms (done : List Relation) (lt : i < m.entities.length)
    (conforms : List.Forall₂ (RelationConforms targets entities) rs qs)
    (ids : (m.place i b).entities.map (·.id) = entities.map (·.id))
    (distinctUids : (entities.map (·.id.uid)).Nodup)
    (distinct : ((done ++ qs).map (·.id.uid)).Nodup) :
    mergeEachRelation planned i false targets (rs.zip (qs.map fun q => some q.id.uid))
        ⟨m.place i (b.withRelations (done ++ qs)), uids⟩ =
      .ok (qs.map (·.id.uid), [])
        ⟨m.place i (b.withRelations (done ++ List.zipWith refreshRelation rs qs)), uids⟩ := by
  induction conforms generalizing done with
  | nil => rfl
  | @cons r q rs qs first _ ih =>
      have step := mergeRelation_of_conforms planned b uids lt first ids distinctUids distinct
      have next := ih (done ++ [refreshRelation r q]) (by simpa [refreshRelation] using distinct)
      simp only [List.append_assoc, List.singleton_append] at next
      rw [List.map_cons, List.zip_cons_cons, List.map_cons, List.zipWith_cons_cons]
      exact mergeEachRelation_cons_eq_ok.mpr
        ⟨q.id.uid, [], _, qs.map (·.id.uid), [], step, next, rfl, rfl⟩

/-- Merging relations that conform only refreshes them. -/
theorem mergeRelations_of_conforms (lt : i < m.entities.length)
    (conforms :
      List.Forall₂ (RelationConforms targets entities) planned.relations b.entity.relations)
    (ids : (m.place i b).entities.map (·.id) = entities.map (·.id))
    (distinctUids : (entities.map (·.id.uid)).Nodup)
    (distinct : (b.entity.relations.map (·.id.uid)).Nodup)
    (distinctNames : (b.entity.relations.map fun q => foldCase q.name).Nodup) :
    mergeRelations planned i false targets ⟨m.place i b, uids⟩ =
      .ok [] ⟨m.place i (b.withRelations
        (List.zipWith refreshRelation planned.relations b.entity.relations)), uids⟩ := by
  let found := b.entity.relations.map fun q => some q.id.uid
  have claims : claimed id found = b.entity.relations.map (·.id.uid) := by
    simp [claimed, found, List.filterMap_map]
  have matched : matchRelations planned b.entity = .ok found := by
    refine matchRelations_eq_ok.mpr ⟨List.forall₂_map_right_iff.mpr ?_, by rwa [claims]⟩
    apply (forall₂_and_mem conforms).imp
    intro r q h
    exact h.1.matched h.2 distinctNames
  have kept : (m.place i b).keepRelations i (·.id.uid ∈ b.entity.relations.map (·.id.uid)) =
      m.place i b := by
    rw [Model.keepRelations_place lt, b.keepRelations_eq_self fun r hr => ?_]
    exact decide_eq_true (List.mem_map_of_mem hr)
  have removed : b.entity.relations.filter
      (·.id.uid ∉ b.entity.relations.map (·.id.uid)) = [] :=
    List.filter_eq_nil_iff.mpr fun r hr => by simpa using ⟨r, hr, rfl⟩
  let refreshed := List.zipWith refreshRelation planned.relations b.entity.relations
  have each : mergeEachRelation planned i false targets (planned.relations.zip found)
      ⟨m.place i b, uids⟩ = .ok (b.entity.relations.map (·.id.uid), [])
        ⟨m.place i (b.withRelations refreshed), uids⟩ :=
    mergeEachRelation_of_conforms planned b uids [] lt conforms ids distinctUids distinct
  have order : reorder (·.id.uid) (b.entity.relations.map (·.id.uid)) refreshed = refreshed :=
    reorder_zipWith (fun _ _ => rfl) conforms.length_eq distinct
  refine mergeRelations_eq_ok.mpr ⟨b.entity, found, b.entity.relations.map (·.id.uid), [],
    ⟨m.place i (b.withRelations refreshed), uids⟩, Model.place_entity lt, matched, ?_, ?_, ?_⟩
  · simp only [claims, kept]
    exact each
  · rw [Model.modifyEntity_place lt]
    simp only [Site.withRelations, order]
    rfl
  · rw [claims, removed]
    rfl

end Relations

/-! ### Entities -/

/-- No two properties of the entity have the same name, and no two relations. -/
structure DistinctNames (e : Entity) : Prop where
  properties : (e.properties.map fun p => foldCase p.name).Nodup
  relations : (e.relations.map fun r => foldCase r.name).Nodup

section Entities

variable {m : Model} {i : Nat} {e x : Entity} {plan xs : List Entity} {targets : Targets}
variable {entities : List Entity} (uids : UidSource)

/-- Merging an entity that conforms only refreshes it. -/
theorem mergeEntity_of_conforms (at_i : m.entities[i]? = some x)
    (conforms : EntityConforms targets entities e x)
    (ids : m.entities.map (·.id) = entities.map (·.id))
    (distinctEntities : (entities.map (·.id.uid)).Nodup) (distinctUids : DistinctUids x)
    (distinctNames : DistinctNames x) :
    mergeEntity e i false targets ⟨m, uids⟩ =
      .ok [] ⟨{ m with entities := m.entities.set i (refreshEntity e x) }, uids⟩ := by
  have lt := (List.getElem?_eq_some_iff.mp at_i).1
  let b := adoptedSite m e x
  have adopted : m.modifyEntity i (adoptEntity e) = m.place i b := modifyEntity_adopt e at_i
  have same : (m.place i (b.withProperties
      (List.zipWith adoptProperty e.properties x.properties))).entities.map (·.id) =
      entities.map (·.id) := by
    rw [← ids]
    conv_rhs => rw [← Model.place_siteOf at_i]
    exact ids_place _ rfl
  have properties := mergeProperties_of_conforms e b uids lt conforms.properties
    distinctUids.properties distinctNames.properties
  have relations := mergeRelations_of_conforms e (b.withProperties
    (List.zipWith adoptProperty e.properties x.properties)) uids lt conforms.relations same
    distinctEntities distinctUids.relations distinctNames.relations
  rw [← adopted] at properties
  refine mergeEntity_eq_ok.mpr ⟨x, [], _, [], at_i, properties, relations, ?_⟩
  simp [entityRenamed, conforms.namesake.sameName]

/-- The entities around those that are refreshed stay as they are. -/
theorem mergeEachEntity_of_conforms (m : Model) (done : List Entity)
    (conforms : List.Forall₂ (EntityConforms targets entities) plan xs)
    (ids : (done ++ xs).map (·.id) = entities.map (·.id))
    (distinctEntities : (entities.map (·.id.uid)).Nodup)
    (distinctUids : ∀ x ∈ xs, DistinctUids x) (distinctNames : ∀ x ∈ xs, DistinctNames x) :
    mergeEachEntity targets (plan.zip (xs.map fun x => (x.id.uid, false)))
        ⟨{ m with entities := done ++ xs }, uids⟩ =
      .ok [] ⟨{ m with entities := done ++ List.zipWith refreshEntity plan xs }, uids⟩ := by
  induction conforms generalizing done with
  | nil => rfl
  | @cons e x plan xs first _ ih =>
      have distinct : ((done ++ x :: xs).map (·.id.uid)).Nodup :=
        map_uid_of_map_id ids ▸ distinctEntities
      have located : ({ m with entities := done ++ x :: xs } : Model).findByUid? x.id.uid =
          some done.length := findIdx?_of_nodup distinct
      have step := mergeEntity_of_conforms uids (m := { m with entities := done ++ x :: xs })
        (i := done.length) (by simp) first ids distinctEntities (distinctUids x List.mem_cons_self)
        (distinctNames x List.mem_cons_self)
      have replaced : (done ++ x :: xs).set done.length (refreshEntity e x) =
          done ++ refreshEntity e x :: xs := by simp
      rw [replaced] at step
      have next := ih (done ++ [refreshEntity e x])
        (by simpa [refreshEntity, adoptEntity] using ids)
        (fun y hy => distinctUids y (List.mem_cons_of_mem _ hy))
        (fun y hy => distinctNames y (List.mem_cons_of_mem _ hy))
      simp only [List.append_assoc, List.singleton_append] at next
      exact mergeEachEntity_cons_eq_ok.mpr ⟨done.length, [], _, [], located, step, next, rfl⟩

/-- Where all planned entities are matched, none is created. -/
theorem settleEntities_of_found (s : Store) (length : plan.length = xs.length) :
    settleEntities (plan.zip (xs.map fun x => some x.id.uid)) s =
      .ok (xs.map (fun x => (x.id.uid, false)), []) s := by
  induction plan generalizing xs with
  | nil =>
      obtain rfl := List.length_eq_zero_iff.mp length.symm
      rfl
  | cons e plan ih =>
      cases xs with
      | nil => simp at length
      | cons x xs =>
          have rest : plan.length = xs.length := by simpa using length
          simp only [List.map_cons, List.zip_cons_cons, settleEntities, Revision.bind_eq_ok,
            Revision.pure_eq_ok]
          exact ⟨(xs.map fun x => (x.id.uid, false), []), s, ih rest, rfl, rfl⟩

/-- Merging a plan into a model that conforms to it changes no identifier, draws no uid and has
nothing to report. -/
theorem merge_of_conforms {m : Model}
    (conforms : List.Forall₂
      (EntityConforms (targetsOf plan (m.entities.map (·.id.uid))) m.entities)
      plan m.entities)
    (distinct : (m.entities.map (·.id.uid)).Nodup)
    (distinctEntities : (m.entities.map fun e => foldCase e.name).Nodup)
    (distinctUids : ∀ x ∈ m.entities, DistinctUids x)
    (distinctNames : ∀ x ∈ m.entities, DistinctNames x) :
    Store.merge plan ⟨m, uids⟩ =
      .ok ([],
        ⟨upgrade { m with entities := List.zipWith refreshEntity plan m.entities }, uids⟩) := by
  let found := m.entities.map fun x => some x.id.uid
  have claims : found.filterMap id = m.entities.map (·.id.uid) := by
    simp [found, List.filterMap_map]
  have matched : matchEntities m plan = .ok found := by
    refine matchEntities_eq_ok.mpr ⟨List.forall₂_map_right_iff.mpr ?_, ?_⟩
    · apply (forall₂_and_mem conforms).imp
      intro e x h
      exact h.1.namesake.matched (List.mem_map_of_mem h.2)
        (find?_of_nodup distinctEntities h.2 h.1.namesake.sameName)
    · simpa [claimed, found, List.filterMap_map] using distinct
  have kept : m.keepEntities (·.id.uid ∈ m.entities.map (·.id.uid)) = m :=
    m.keepEntities_eq_self fun x hx => decide_eq_true (List.mem_map_of_mem hx)
  have removed : m.entities.filter (·.id.uid ∉ m.entities.map (·.id.uid)) = [] :=
    List.filter_eq_nil_iff.mpr fun x hx => by simpa using ⟨x, hx, rfl⟩
  have settled : settleEntities (plan.zip found) ⟨m, uids⟩ =
      .ok (m.entities.map (fun x => (x.id.uid, false)), []) ⟨m, uids⟩ :=
    settleEntities_of_found ⟨m, uids⟩ conforms.length_eq
  have firsts : (m.entities.map fun x => (x.id.uid, false)).map Prod.fst =
      m.entities.map (·.id.uid) := by simp
  let refreshed := List.zipWith refreshEntity plan m.entities
  have order : reorder (·.id.uid) (m.entities.map (·.id.uid)) refreshed = refreshed :=
    reorder_zipWith (fun _ _ => rfl) conforms.length_eq distinct
  have each : mergeEachEntity (targetsOf plan (m.entities.map (·.id.uid)))
      (plan.zip (m.entities.map fun x => (x.id.uid, false))) ⟨m, uids⟩ =
      .ok [] ⟨{ m with entities := refreshed }, uids⟩ :=
    mergeEachEntity_of_conforms uids m [] conforms rfl distinct distinctUids distinctNames
  have run : mergePlan plan ⟨m, uids⟩ =
      .ok [] ⟨upgrade { m with entities := refreshed }, uids⟩ := by
    simp only [mergePlan, Revision.bind_eq_ok, Revision.model_eq_ok, Revision.ofExcept_eq_ok,
      Revision.update_eq_ok, Revision.pure_eq_ok]
    refine ⟨m, _, ⟨rfl, rfl⟩, found, _, ⟨matched, rfl⟩, (), ⟨m, uids⟩, by rw [claims, kept],
      (m.entities.map fun x => (x.id.uid, false), []), _, settled, [],
      ⟨{ m with entities := refreshed }, uids⟩, ?_, (), _, rfl, ?_, ?_⟩
    · rw [firsts]
      exact each
    · rw [claims, removed]
      rfl
    · rw [firsts, order]
  rw [Store.merge, run]

end Entities

end SchemaLedger.Merge
