import SchemaLedger.Proofs.Merge.Retirement
import SchemaLedger.Proofs.Merge.Turns
import SchemaLedger.Proofs.Model.Collisions

/-!
# Uids stay unique

A uid that is drawn is in use nowhere, and a uid that the schema gives to a property is only taken
if the model does not mention it when the properties of the entity are matched. Between this moment
and the reset, other uids are drawn. So merging keeps the uids apart provided that the schema gives
no uid twice and that none of them is drawn before it has its turn; without the last condition it
does not.

The induction goes along the run and carries how far the store has grown since the merge began: by
the uids that have been given so far, and by what was taken from the source. `Awaits` says this, and
that the uids still to be given are others.
-/

namespace SchemaLedger

/-! ### Models -/

/-- No uid occurs twice among those in use and those retired, and every index has one. -/
structure Model.HasUniqueUids (m : Model) : Prop where
  census : m.census.Nodup
  indexes : ∀ e ∈ m.entities, ∀ p ∈ e.properties, p.HasIndexUid

theorem hasUniqueUids_of_isConsistent {m : Model} (h : m.IsConsistent) : m.HasUniqueUids :=
  ⟨h.census_nodup, fun _ he p hp index there =>
    (((h.isChecked he).properties p hp).index index there).2⟩

namespace Model

variable {m m' : Model} {counted : IdSort → Prop} {gone new : IdSort → List IdPair}
variable {b b' : Site} {i : Nat}

theorem HasUniqueUids.entityUids (h : m.HasUniqueUids) : (m.entities.map (·.id.uid)).Nodup :=
  distinctUids_of_census h.census

theorem HasUniqueUids.distinctUids (h : m.HasUniqueUids) {e : Entity} (he : e ∈ m.entities) :
    Merge.DistinctUids e :=
  ⟨distinctPropertyUids_of_census h.census he, distinctRelationUids_of_census h.census he⟩

theorem HasUniqueUids.keepEntities (h : m.HasUniqueUids) (keep : Entity → Bool) :
    (m.keepEntities keep).HasUniqueUids :=
  have turnover : Turnover (fun _ => True) _ _ m.books (m.keepEntities keep).books :=
    m.turnover_keepEntities keep h.indexes
  ⟨census_nodup_of_unchanged turnover h.census,
    fun e he => h.indexes e (List.mem_of_mem_filter he)⟩

/-- What happens at a site leaves the other entities as they are. -/
theorem HasUniqueUids.place (h : (m.place i b).HasUniqueUids) (lt : i < m.entities.length)
    (turnover : Turnover counted gone new b.books b'.books)
    (apart : ([IdSort.entity, .property, .index, .relation].flatMap fun sort =>
      (new sort).map (·.uid)).Nodup)
    (unused : ∀ sort, ∀ id ∈ new sort, id.uid ∉ (m.place i b).census)
    (indexes : ∀ p ∈ b'.entity.properties, p.HasIndexUid) : (m.place i b').HasUniqueUids := by
  refine ⟨census_nodup_of_turnover (turnover_place lt turnover) h.census apart unused, ?_⟩
  intro e he
  rw [← place_place (b := b)] at he
  rcases List.mem_or_eq_of_mem_set he with he | rfl
  · exact h.indexes e he
  · exact indexes

theorem HasUniqueUids.place_of_unchanged (h : (m.place i b).HasUniqueUids)
    (lt : i < m.entities.length) (turnover : Turnover counted gone (fun _ => []) b.books b'.books)
    (indexes : ∀ p ∈ b'.entity.properties, p.HasIndexUid) : (m.place i b').HasUniqueUids :=
  h.place lt turnover (by simp) nofun indexes

/-- The indexes of the entity at the site have uids. -/
theorem HasUniqueUids.at_site (h : (m.place i b).HasUniqueUids) (lt : i < m.entities.length) :
    ∀ p ∈ b.entity.properties, p.HasIndexUid :=
  h.indexes _ (List.mem_of_getElem? (place_entity lt))

theorem HasUniqueUids.keepProperties (h : (m.place i b).HasUniqueUids) (lt : i < m.entities.length)
    (keep : Property → Bool) : (m.place i (b.keepProperties keep)).HasUniqueUids := by
  have assigned := h.at_site lt
  have turnover : Turnover (fun _ => True) _ _ b.books _ :=
    b.turnover_keepProperties keep assigned
  exact h.place_of_unchanged lt turnover fun p hp => assigned p (List.mem_of_mem_filter hp)

theorem HasUniqueUids.keepRelations (h : (m.place i b).HasUniqueUids) (lt : i < m.entities.length)
    (keep : Relation → Bool) : (m.place i (b.keepRelations keep)).HasUniqueUids := by
  have turnover : Turnover (fun _ => True) _ _ b.books _ := b.turnover_keepRelations keep
  exact h.place_of_unchanged lt turnover (h.at_site lt)

/-- Properties may change their order. -/
theorem HasUniqueUids.withProperties (h : (m.place i b).HasUniqueUids)
    (lt : i < m.entities.length) {properties : List Property}
    (perm : properties.Perm b.entity.properties) :
    (m.place i (b.withProperties properties)).HasUniqueUids := by
  have turnover : Turnover (fun _ => True) _ _ b.books _ := b.turnover_withProperties perm
  exact h.place_of_unchanged lt turnover fun p hp => h.at_site lt p (perm.mem_iff.mp hp)

/-- Relations may change their order. -/
theorem HasUniqueUids.withRelations (h : (m.place i b).HasUniqueUids)
    (lt : i < m.entities.length) {relations : List Relation}
    (perm : relations.Perm b.entity.relations) :
    (m.place i (b.withRelations relations)).HasUniqueUids := by
  have turnover : Turnover (fun _ => True) _ _ b.books _ := b.turnover_withRelations perm
  exact h.place_of_unchanged lt turnover (h.at_site lt)

end Model

namespace Merge

/-! ### Uids that are still to be given -/

/-- Since the first store, some uids have been given, and those that are still to be given differ
from them and from each other and are new to the first store. -/
structure Awaits (start : Store) (given coming : List UInt64) (s : Store) : Prop where
  grown : start.GrowsTo given s
  distinct : (given ++ coming).Nodup
  unmentioned : ∀ uid ∈ coming, ¬ start.model.Mentions uid

namespace Awaits

variable {start s t : Store} {given coming now later : List UInt64}

theorem sublist (h : Awaits start given coming s) (fewer : now.Sublist coming) :
    Awaits start given now s :=
  ⟨h.grown, h.distinct.sublist (fewer.append_left given),
    fun uid hu => h.unmentioned uid (fewer.subset hu)⟩

theorem first (h : Awaits start given (now ++ later) s) : Awaits start given now s :=
  h.sublist (List.sublist_append_left _ _)

/-- What happens before the next uids are given only takes uids from the source. -/
theorem quiet (h : Awaits start given coming s) (step : s.GrowsTo given t) :
    Awaits start given coming t :=
  ⟨h.grown.trans step, h.distinct, h.unmentioned⟩

theorem next (h : Awaits start given (now ++ later) s) (step : s.GrowsTo now t) :
    Awaits start (given ++ now) later t :=
  ⟨h.grown.trans_append step, by rw [List.append_assoc]; exact h.distinct,
    fun uid hu => h.unmentioned uid (List.mem_append_right _ hu)⟩

/-- A uid that has not been taken by now can be given. -/
theorem not_mentions (h : Awaits start given coming s) {uid : UInt64} (hu : uid ∈ coming)
    (left : ¬ start.uids.Yields s.uids uid) : ¬ s.model.Mentions uid :=
  h.grown.not_mentions (h.unmentioned uid hu)
    (fun known => (List.nodup_append.mp h.distinct).2.2 uid known uid hu rfl) left

end Awaits

/-! ### Properties -/

section Properties

variable {m : Model} {i : Nat} {b b' : Site} {owner : String} {isNew : Bool} {start s t : Store}
variable {a : Property × Option PropertyMatch} {r : Settled Property} {planned : Entity}
variable {given : List UInt64}

/-- A merged property has an index uid if it has an index. -/
theorem PropertyStep.hasIndexUid (h : PropertyStep m i owner isNew b a r b')
    (assigned : ∀ p ∈ b.entity.properties, p.HasIndexUid) :
    ∀ p ∈ b'.entity.properties, p.HasIndexUid := by
  have indexed := h.indexed
  have made : r.made.HasIndexUid := by
    intro index there
    rw [there] at indexed
    generalize stored : r.found.bind (·.index) = before at indexed
    generalize now : some index = after at indexed
    generalize a.1.index = wanted at indexed
    generalize b'.lastIndex = last' at indexed
    cases indexed with
    | kept =>
        obtain ⟨q, found, there⟩ := Option.bind_eq_some_iff.mp stored
        obtain rfl := Option.some.inj now
        exact assigned q (h.touches.found_mem found) index there
    | dropped => cases now
    | created fresh =>
        obtain rfl := Option.some.inj now
        exact fresh.1
    | absent => cases now
  intro p hp
  rcases h.touches.eq_or_mem hp with rfl | hp
  · exact made
  · exact assigned p hp

/-- The uids that come into use with a property differ from each other. -/
theorem PropertyStep.addedIds_nodup (h : PropertyStep m i owner isNew b a r b') :
    ([IdSort.entity, .property, .index, .relation].flatMap fun sort =>
      (addedIds a r sort).map (·.uid)).Nodup := by
  have apart := h.apart
  obtain ⟨p, f⟩ := a
  by_cases stored : r.found.bind (·.index) = none
  · cases made : r.made.index with
    | none => rcases f with _ | ⟨_ | _⟩ <;> simp [addedIds, stored, made]
    | some index =>
        have other := (apart stored index made).symm
        rcases f with _ | ⟨_ | _⟩ <;> simp [addedIds, stored, made, other]
  · rcases f with _ | ⟨_ | _⟩ <;> simp [addedIds, stored]

/-- Merging a property keeps the uids apart, provided that a reset gives it a new one. -/
theorem PropertyStep.hasUniqueUids (h : PropertyStep m i owner isNew b a r b')
    (lt : i < m.entities.length) (unique : (m.place i b).HasUniqueUids)
    (unmentioned : ∀ uid ∈ newUids a.2, ¬ (m.place i b).Mentions uid) :
    (m.place i b').HasUniqueUids := by
  have assigned := unique.at_site lt
  have turnover := h.turnover fun q found => assigned q (h.touches.found_mem found)
  refine unique.place lt turnover h.addedIds_nodup ?_ (h.hasIndexUid assigned)
  intro sort id hid known
  rcases h.fresh hid with fresh | ⟨old, reset⟩
  · exact fresh.2 known
  · exact unmentioned id.uid (by simp [reset, newUids]) (Model.mentions_of_mem_census known)

/-- Merging properties one after the other keeps the uids apart, provided that the uids given by
resets are awaited and none of them is drawn early. -/
theorem hasUniqueUids_of_mergeEachProperty {xs : List (Property × Option PropertyMatch)}
    {uids : List UInt64} {notices : List Notice} (at_site : s.model = m.place i b)
    (lt : i < m.entities.length) (unique : s.model.HasUniqueUids)
    (awaits : Awaits start given (xs.flatMap (newUids ·.2)) s)
    (inTime : AreInTime start.uids (resetTurns planned i isNew xs s))
    (run : mergeEachProperty planned i isNew xs s = .ok (uids, notices) t) :
    ∃ b', t.model = m.place i b' ∧ t.model.HasUniqueUids := by
  induction xs generalizing s b given uids notices with
  | nil =>
      simp only [mergeEachProperty, Revision.pure_eq_ok] at run
      obtain ⟨-, rfl⟩ := run
      exact ⟨b, at_site, unique⟩
  | cons a xs ih =>
      obtain ⟨_, _, s', _, _, first, rest, -, -⟩ := mergeEachProperty_cons_eq_ok.mp run
      obtain ⟨r, b', step, at_site', -, -⟩ := of_mergeProperty at_site lt first
      rw [resetTurns_cons first, areInTime_append] at inTime
      rw [List.flatMap_cons] at awaits
      rw [at_site] at unique
      have unique' := step.hasUniqueUids lt unique fun uid hu => by
        rw [← at_site]
        exact awaits.first.not_mentions hu (inTime.1 ⟨uid, s.uids⟩ (mem_turnsAt.mpr ⟨hu, rfl⟩))
      have awaits' := awaits.next ((draws_mergeProperty a.2).of_ok first)
      exact ih at_site' (by rwa [at_site']) awaits' inTime.2 rest

/-- Merging the properties of an entity keeps the uids apart, provided that the uids that the schema
gives them are awaited and none of them is drawn early. -/
theorem hasUniqueUids_of_mergeProperties {notices : List Notice} (at_site : s.model = m.place i b)
    (lt : i < m.entities.length) (unique : s.model.HasUniqueUids)
    (awaits : Awaits start given (givenUids planned) s)
    (inTime : AreInTime start.uids (propertyTurns planned i isNew s))
    (run : mergeProperties planned i isNew s = .ok notices t) : t.model.HasUniqueUids := by
  obtain ⟨x, found, order, told, s', at_i, match_ok, each, rfl, -⟩ := mergeProperties_eq_ok.mp run
  rw [propertyTurns_of_matched at_i match_ok, areInTime_append] at inTime
  rw [at_site, Model.place_entity lt] at at_i
  obtain rfl := Option.some.inj at_i
  obtain ⟨matched, -⟩ := matchProperties_eq_ok.mp match_ok
  rw [at_site] at unique
  have kept := Model.keepProperties_place (b := b) lt
    (·.id.uid ∈ claimed PropertyMatch.storedUid found)
  rw [← at_site] at kept
  have awaits' : Awaits start given (givenUids planned) (keptPropertiesStore i found s) :=
    awaits.quiet ((s.model.adds_keepProperties i _).growsTo s.uids)
  obtain ⟨b', at_site', unique'⟩ := hasUniqueUids_of_mergeEachProperty
    (s := keptPropertiesStore i found s) kept lt
    (by rw [keptPropertiesStore, kept]; exact unique.keepProperties lt _)
    (awaits'.sublist (newUids_sublist matched)) inTime.2 each
  rw [at_site'] at unique' ⊢
  rw [Model.modifyEntity_place lt]
  exact unique'.withProperties lt (reorder_perm order _)

end Properties

/-! ### Relations -/

section Relations

variable {m : Model} {i : Nat} {b b' : Site} {owner : String} {isNew : Bool} {targets : Targets}
variable {a : Relation × Option UInt64} {x : Settled Relation}

theorem RelationStep.hasUniqueUids (h : RelationStep m i owner isNew targets b a x b')
    (lt : i < m.entities.length) (unique : (m.place i b).HasUniqueUids) :
    (m.place i b').HasUniqueUids := by
  have turnover : Turnover (fun _ => True) _ _ b.books b'.books := h.turnover
  refine unique.place lt turnover ?_ (fun sort id hid => (h.fresh hid).2) ?_
  · by_cases matched : a.2 = none <;> simp [addedRelationIds, IdSort.only, matched]
  · have properties : b'.entity.properties = b.entity.properties := by rw [h.entity]
    rw [properties]
    exact unique.at_site lt

theorem RelationsMerged.hasUniqueUids {planned : Entity} {found : List (Option UInt64)}
    {xs : List (Settled Relation)} {notices : List Notice}
    (h : RelationsMerged m i planned isNew targets b found xs b' notices)
    (lt : i < m.entities.length) (unique : (m.place i b).HasUniqueUids) :
    (m.place i b').HasUniqueUids := by
  obtain ⟨c, steps, rfl⟩ := h.steps
  refine Model.HasUniqueUids.withRelations ?_ lt (reorder_perm _ _)
  exact steps.preserves (I := fun c => (m.place i c).HasUniqueUids) (unique.keepRelations lt _)
    fun _ _ _ _ _ _ step so_far => step.hasUniqueUids lt so_far

end Relations

/-! ### Entities -/

section Entities

variable {i : Nat} {isNew : Bool} {start s t : Store} {planned : Entity} {targets : Targets}
variable {notices : List Notice} {given : List UInt64}

theorem hasUniqueUids_adopt {m : Model} {x : Entity} (at_i : m.entities[i]? = some x)
    (unique : m.HasUniqueUids) : (m.place i (adoptedSite m planned x)).HasUniqueUids := by
  have lt := (List.getElem?_eq_some_iff.mp at_i).1
  rw [← Model.place_siteOf at_i] at unique
  have turnover : Turnover (fun _ => True) _ _ (m.siteOf x).books (adoptedSite m planned x).books :=
    .refl _
  exact unique.place_of_unchanged lt turnover (unique.at_site lt)

/-- What the plan says about an entity itself mentions no uids. -/
theorem growsTo_adoptedStore (planned : Entity) (i : Nat) (s : Store) :
    s.GrowsTo given (adoptedStore planned i s) := by
  have adopted : Model.Adds given s.model (adoptedStore planned i s).model :=
    adds_modifyEntity_of_uids fun _ _ => id
  exact adopted.growsTo s.uids

/-- Merging an entity keeps the uids apart, provided that the uids that the schema gives to its
properties are awaited and none of them is drawn early. -/
theorem hasUniqueUids_of_mergeEntity (unique : s.model.HasUniqueUids)
    (awaits : Awaits start given (givenUids planned) s)
    (inTime : AreInTime start.uids (propertyTurns planned i isNew (adoptedStore planned i s)))
    (run : mergeEntity planned i isNew targets s = .ok notices t) : t.model.HasUniqueUids := by
  obtain ⟨x, _, s₁, _, at_i, properties, relations, -⟩ := mergeEntity_eq_ok.mp run
  have lt := (List.getElem?_eq_some_iff.mp at_i).1
  have adopted : (adoptedStore planned i s).model = _ := adoptedStore_model at_i
  have unique₁ := hasUniqueUids_of_mergeProperties adopted lt
    (by rw [adopted]; exact hasUniqueUids_adopt at_i unique)
    (awaits.quiet (growsTo_adoptedStore planned i s)) inTime properties
  obtain ⟨fs, ps, b, -, at_site⟩ := of_mergeProperties adopted lt properties
  obtain ⟨gs, rs, b', merged, at_site'⟩ := of_mergeRelations at_site lt relations
  rw [at_site] at unique₁
  rw [at_site']
  exact merged.hasUniqueUids lt unique₁

/-- Merging entities one after the other keeps the uids apart, provided that the uids that the
schema gives to their properties are awaited and none of them is drawn early. -/
theorem hasUniqueUids_of_mergeEachEntity {xs : List (Entity × UInt64 × Bool)}
    (unique : s.model.HasUniqueUids) (awaits : Awaits start given (xs.flatMap (givenUids ·.1)) s)
    (inTime : AreInTime start.uids (entityTurns targets xs s))
    (run : mergeEachEntity targets xs s = .ok notices t) : t.model.HasUniqueUids := by
  induction xs generalizing s given notices with
  | nil =>
      simp only [mergeEachEntity, Revision.pure_eq_ok] at run
      obtain ⟨-, rfl⟩ := run
      exact unique
  | cons a xs ih =>
      obtain ⟨i, _, s', _, located, first, rest, -⟩ := mergeEachEntity_cons_eq_ok.mp run
      rw [entityTurns_cons located first, areInTime_append] at inTime
      rw [List.flatMap_cons] at awaits
      have unique' := hasUniqueUids_of_mergeEntity unique awaits.first inTime.1 first
      have awaits' := awaits.next ((draws_mergeEntity a.1 i a.2.2 targets).of_ok first)
      exact ih unique' awaits' inTime.2 rest

theorem hasUniqueUids_of_settling {m m' : Model} {xs : List (Entity × Option UInt64)}
    {settled : List (UInt64 × Bool)} (h : Traversal EntityPlaced m xs settled m')
    (unique : m.HasUniqueUids) : m'.HasUniqueUids := by
  refine h.preserves (I := Model.HasUniqueUids) unique ?_
  intro m m' a _ u _ step so_far
  cases step with
  | found => exact so_far
  | @created e uid fresh =>
      have turnover : Turnover (fun _ => True) _ _ m.books _ := m.turnover_addEntity e.name uid
      refine ⟨Model.census_nodup_of_turnover turnover so_far.census (by simp [IdSort.only]) ?_, ?_⟩
      · intro sort id hid
        obtain rfl := List.mem_singleton.mp (IdSort.mem_only.mp hid).2
        exact fresh.2
      · intro e he
        rcases List.mem_append.mp he with he | he
        · exact so_far.indexes e he
        · obtain rfl := List.mem_singleton.mp he
          simp

end Entities

/-! ### Plans -/

section Plans

variable {plan : List Entity} {notices : List Notice} {s t : Store} {e : ModelError}

/-- When the merging of entities begins, the uids that the schema gives are awaited, since uids have
only been taken from the source until then. -/
theorem awaits_of_settleEntities (distinct : (plan.flatMap givenUids).Nodup)
    (unmentioned : ∀ uid ∈ plan.flatMap givenUids, ¬ s.model.Mentions uid)
    {found : List (Option UInt64)} {xs : List (Entity × Option UInt64)}
    {settled : List (UInt64 × Bool)}
    (settle : settleEntities xs (keptStore found s) = .ok (settled, notices) t) :
    Awaits s [] (plan.flatMap givenUids) t :=
  ⟨Store.GrowsTo.trans ((s.model.adds_keepEntities _).growsTo s.uids)
    ((draws_settleEntities xs).of_ok settle), distinct, unmentioned⟩

theorem flatMap_givenUids_zip {settled : List (UInt64 × Bool)}
    (lengths : plan.length = settled.length) :
    (plan.zip settled).flatMap (givenUids ·.1) = plan.flatMap givenUids := by
  conv_rhs => rw [← List.map_fst_zip (Nat.le_of_eq lengths), List.flatMap_map]

/-- Merging a plan keeps the uids apart, provided that the schema gives uids that are new, none of
them twice, and none of them is drawn early. -/
theorem hasUniqueUids_of_mergePlan (unique : s.model.HasUniqueUids)
    (distinct : (plan.flatMap givenUids).Nodup)
    (unmentioned : ∀ uid ∈ plan.flatMap givenUids, ¬ s.model.Mentions uid)
    (inTime : DrawsNoneEarly plan s)
    (run : mergePlan plan s = .ok notices t) : t.model.HasUniqueUids := by
  simp only [mergePlan, Revision.bind_eq_ok, Revision.model_eq_ok, Revision.ofExcept_eq_ok,
    Revision.update_eq_ok, Revision.pure_eq_ok, Prod.exists] at run
  obtain ⟨_, _, ⟨rfl, rfl⟩, found, _, ⟨match_ok, rfl⟩, -, _, rfl, settled, added, s₁, settle,
    told, s₂, each, -, _, rfl, -, rfl⟩ := run
  have same : found.filterMap id = claimed id found := by simp [claimed]
  rw [same] at settle
  obtain ⟨matched, -⟩ := matchEntities_eq_ok.mp match_ok
  have placed := (of_settleEntities settle).1
  have awaits := awaits_of_settleEntities distinct unmentioned settle
  rw [← flatMap_givenUids_zip (length_settled placed matched)] at awaits
  rw [DrawsNoneEarly, turns_of_settled match_ok settle] at inTime
  have unique₂ := hasUniqueUids_of_mergeEachEntity
    (hasUniqueUids_of_settling placed (unique.keepEntities _)) awaits inTime each
  refine ⟨?_, ?_⟩
  · have ordered : (reorder (·.id.uid) (settled.map Prod.fst) s₂.model.entities).Perm
      s₂.model.entities := reorder_perm _ _
    have turnover : Turnover (fun _ => True) _ _ s₂.model.books _ := turnover_upgrade ordered
    exact Model.census_nodup_of_unchanged turnover unique₂.census
  · intro x hx
    rw [upgrade_entities] at hx
    exact unique₂.indexes x (mem_reorder.mp hx)

/-- What is known of the store and of the planned entity when merging this entity fails: the uids
are apart, the model does not mention the uids that the schema gives, and every entity that was
settled on is there. -/
structure IsAtEntity (plan : List Entity) (planned x : Entity) (i : Nat) (order : List UInt64)
    (s : Store) : Prop where
  listed : planned ∈ plan
  there : s.model.entities[i]? = some x
  unique : s.model.HasUniqueUids
  unmentioned : ∀ uid ∈ givenUids planned, ¬ s.model.Mentions uid
  lengths : plan.length = order.length
  settled : order ⊆ s.model.entities.map (·.id.uid)

/-- When the entities before a planned one have been merged, the uids that the schema gives to this
one are still new, since they differ from those given before and none of them has been drawn. -/
theorem isAtEntity_of_mergeEachEntity {start : Store} {targets : Targets}
    {settled : List (UInt64 × Bool)} {before after : List (Entity × UInt64 × Bool)}
    {a : Entity × UInt64 × Bool} {x : Entity} {i : Nat} (lengths : plan.length = settled.length)
    (split : plan.zip settled = before ++ a :: after)
    (unique : s.model.HasUniqueUids) (awaits : Awaits start [] (plan.flatMap givenUids) s)
    (inTime : AreInTime start.uids (entityTurns targets (plan.zip settled) s))
    (there : settled.map Prod.fst ⊆ s.model.entities.map (·.id.uid))
    (merged : mergeEachEntity targets before s = .ok notices t)
    (at_i : t.model.entities[i]? = some x) (same : x.id.uid = a.2.1) :
    IsAtEntity plan a.1 x i (settled.map Prod.fst) t := by
  have listed : a ∈ plan.zip settled := by
    rw [split]
    exact List.mem_append_right _ List.mem_cons_self
  rw [← flatMap_givenUids_zip lengths, split, List.flatMap_append, List.flatMap_cons] at awaits
  rw [split, entityTurns_append merged, areInTime_append] at inTime
  have awaits' := awaits.next ((draws_mergeEachEntity _ before).of_ok merged)
  refine ⟨(List.of_mem_zip listed).1, at_i, ?_, ?_, by simpa using lengths, ?_⟩
  · exact hasUniqueUids_of_mergeEachEntity unique awaits.first inTime.1 merged
  · intro uid hu
    obtain ⟨j, located⟩ := Option.isSome_iff_exists.mp
      ((findIdx?_isSome_iff (·.id.uid) t.model.entities a.2.1).mpr
        (List.mem_map.mpr ⟨x, List.mem_of_getElem? at_i, same⟩))
    have located : t.model.findByUid? a.2.1 = some j := located
    have turn : ⟨uid, t.uids⟩ ∈ entityTurns targets (a :: after) t :=
      mem_entityTurns_of_given located hu
    exact awaits'.first.not_mentions hu (inTime.2 _ turn)
  · intro uid hu
    rw [entityUids_of_mergeEachEntity merged]
    exact there hu

/-- Why merging a plan fails: its entities cannot be matched, or no uid is left, or the properties
or relations of an entity cannot be matched, or a relation has no target. -/
theorem of_mergePlan_eq_error_of_unique (unique : s.model.HasUniqueUids)
    (distinct : (plan.flatMap givenUids).Nodup)
    (unmentioned : ∀ uid ∈ plan.flatMap givenUids, ¬ s.model.Mentions uid)
    (inTime : DrawsNoneEarly plan s) (run : mergePlan plan s = .error e t) :
    matchEntities s.model plan = .error e ∨ e.root = .uidsExhausted uidAttempts ∨
      ∃ planned x i order s' e', IsAtEntity plan planned x i order s' ∧ e.root = e'.root ∧
        (matchProperties (adoptedStore planned i s') planned (adoptEntity planned x) = .error e' ∨
          (∃ owner, owner.name = planned.name ∧ owner.relations = x.relations ∧
            matchRelations planned owner = .error e') ∨
          ∃ r ∈ planned.relations,
            LacksTarget (targetsOf plan order) (s'.model.entities.map (·.id)) r e') := by
  rcases of_mergePlan_eq_error run with unmatched | exhausted |
    ⟨found, settled, added, s₁, matched, claims, settle, failed⟩
  · exact .inl unmatched
  · exact .inr (.inl exhausted)
  have placed := (of_settleEntities settle).1
  have lengths := length_settled placed matched
  obtain ⟨-, uids⟩ := uids_perm_settled placed unique.entityUids matched claims
  have there : settled.map Prod.fst ⊆ s₁.model.entities.map (·.id.uid) := uids.symm.subset
  rw [DrawsNoneEarly, turns_of_settled (matchEntities_eq_ok.mpr ⟨matched, claims⟩) settle] at inTime
  obtain ⟨before, a, after, told, s', i, x, e', split, merged, at_i, same, stuck, rfl⟩ :=
    of_mergeEachEntity_eq_error
      (fun a ha => there (List.mem_map_of_mem (List.of_mem_zip ha).2)) failed
  have here := isAtEntity_of_mergeEachEntity lengths split
    (hasUniqueUids_of_settling placed (unique.keepEntities _))
    (awaits_of_settleEntities distinct unmentioned settle) inTime there merged at_i same
  rcases of_mergeEntity_eq_error at_i stuck with unmatched | unmatched | lacks | exhausted
  · exact .inr (.inr ⟨a.1, x, i, _, s', e', here, rfl, .inl unmatched⟩)
  · exact .inr (.inr ⟨a.1, x, i, _, s', e', here, rfl, .inr (.inl unmatched)⟩)
  · exact .inr (.inr ⟨a.1, x, i, _, s', e', here, rfl, .inr (.inr lacks)⟩)
  · exact .inr (.inl exhausted)

end Plans

/-! ### Collisions -/

section Collisions

variable {plan : List Entity} {notices : List Notice} {store store' : Store} {e : ModelError}

theorem not_isCollision_of_matchEntities {m : Model} (h : matchEntities m plan = .error e) :
    ¬ e.IsCollision := by
  cases entityFault_of_matchEntities h <;> exact not_false

theorem not_isCollision_of_matchRelations {planned owner : Entity}
    (h : matchRelations planned owner = .error e) : ¬ e.IsCollision := by
  cases relationFault_of_matchRelations h <;> exact not_false

/-- Matching properties reports a collision only if the model mentions a uid that the schema
gives. -/
theorem not_isCollision_of_matchProperties {planned owner : Entity}
    (unmentioned : ∀ uid ∈ givenUids planned, ¬ store.model.Mentions uid)
    (h : matchProperties store planned owner = .error e) : ¬ e.IsCollision := by
  cases propertyFault_of_matchProperties h with
  | unknown => exact not_false
  | used hp given mentioned =>
      have listed : _ ∈ givenUids planned :=
        List.mem_filter.mpr ⟨List.mem_map_of_mem hp, by simpa using given⟩
      exact absurd mentioned (unmentioned _ listed)
  | @asked p _ _ =>
      rcases propertyQuestion_cases store planned p _ with ⟨-, is⟩ | ⟨_, _, -, is, -⟩ | is <;>
        (rw [is]; exact not_false)
  | claimedTwice => exact not_false

theorem IsAtEntity.adopted_unmentioned {planned x : Entity} {i : Nat} {order : List UInt64}
    {s : Store} (h : IsAtEntity plan planned x i order s) :
    ∀ uid ∈ givenUids planned, ¬ (adoptedStore planned i s).model.Mentions uid := by
  intro uid hu
  have adopted : s.GrowsTo [] (adoptedStore planned i s) := growsTo_adoptedStore planned i s
  exact adopted.not_mentions (h.unmentioned uid hu) List.not_mem_nil UidSource.not_yields_self

/-- If the schema gives no uid twice to its properties and none that the stored model mentions, and
if none of them is drawn before it has its turn, then merging does not fail because of a collision,
and in the resulting model no uid occurs twice among those in use and those retired, nor does its
check say so. -/
theorem never_collides_of_merge (stored : store.model.IsConsistent)
    (distinct : (plan.flatMap givenUids).Nodup)
    (unmentioned : ∀ uid ∈ plan.flatMap givenUids, ¬ store.model.Mentions uid)
    (inTime : DrawsNoneEarly plan store) :
    (∀ e, store.merge plan = .error e → ¬ e.IsCollision) ∧
      ∀ notices store', store.merge plan = .ok (notices, store') →
        store'.model.census.Nodup ∧ ∀ e, store'.model.check = .error e → ¬ e.IsCollision := by
  have unique : store.model.HasUniqueUids := hasUniqueUids_of_isConsistent stored
  unfold Store.merge
  cases run : mergePlan plan store with
  | error e' t =>
      refine ⟨?_, nofun⟩
      rintro _ ⟨⟩
      rcases of_mergePlan_eq_error_of_unique unique distinct unmentioned inTime run with
        unmatched | exhausted | ⟨planned, x, i, order, s', e', here, same, failed⟩
      · exact not_isCollision_of_matchEntities unmatched
      · rw [ModelError.isCollision_iff, exhausted]
        nofun
      · rw [ModelError.isCollision_iff, same, ← ModelError.isCollision_iff]
        rcases failed with failed | ⟨owner, -, -, failed⟩ | ⟨r, -, lacks, -⟩
        · exact not_isCollision_of_matchProperties here.adopted_unmentioned failed
        · exact not_isCollision_of_matchRelations failed
        · rw [ModelError.isCollision_iff, lacks]
          nofun
  | ok notices t =>
      refine ⟨nofun, ?_⟩
      rintro _ _ ⟨⟩
      have unique' := hasUniqueUids_of_mergePlan unique distinct unmentioned inTime run
      exact ⟨unique'.census, Model.neverCollides_check unique'.census⟩

/-- A schema in which the ID of an entity is reset between new properties. -/
def resetAmongNew : List EntityDraft :=
  [{ name := "Task"
     fields := [
      { name := "done", base := .bool },
      { name := "id", base := .long, annotations := KeyMap.empty.insert "uid" (.value "5") },
      { name := "due", base := .date },
      { name := "note", base := .string }] }]

/-- The first new property takes the candidates up to 3. The reset has its turn then, and the 5 is
passed over when the last new property comes to it. -/
theorem never_collides_of_merge_resetAmongNew :
    ∃ plan notices store', Plan.ofDrafts [] resetAmongNew = .ok plan ∧
      plan.flatMap givenUids = [5] ∧
      Store.merge plan ⟨oneEntity "Task", .counting⟩ = .ok (notices, store') ∧
      UidSource.counting.Yields store'.uids 5 ∧
      store'.model.census.Nodup ∧ ∀ e, store'.model.check = .error e → ¬ e.IsCollision := by
  have run : (do
      let plan ← Plan.ofDrafts [] resetAmongNew
      let merged ← Store.merge plan ⟨oneEntity "Task", .counting⟩
      return (plan.flatMap givenUids, decide (UidSource.counting.Yields merged.2.uids 5),
        decide (DrawsNoneEarly plan ⟨oneEntity "Task", .counting⟩))) = .ok ([5], true, true) := by
    decide +kernel
  simp only [except_bind_eq_ok, except_pure_eq_ok, Prod.exists, Prod.mk.injEq,
    decide_eq_true_eq] at run
  obtain ⟨plan, planned, notices, store', merged, given, passed, inTime⟩ := run
  refine ⟨plan, notices, store', planned, given, merged, passed, ?_⟩
  refine (never_collides_of_merge (by decide) ?_ ?_ inTime).2 notices store' merged
  · rw [given]
    decide
  · intro uid hu
    rw [given, List.mem_singleton] at hu
    rw [hu]
    decide

/-- A schema in which the ID of an entity is reset after a new property. -/
def newThenReset : List EntityDraft :=
  [{ name := "Task"
     fields := [
      { name := "done", base := .bool },
      { name := "id", base := .long, annotations := KeyMap.empty.insert "uid" (.value "3") }] }]

/-- A source that offers the uid next gives it to the new property, and the reset gives it again. -/
theorem collides_of_merge_newThenReset :
    ∃ plan notices store', Plan.ofDrafts [] newThenReset = .ok plan ∧
      (oneEntity "Task").IsConsistent ∧ plan.flatMap givenUids = [3] ∧
      ¬ (oneEntity "Task").Mentions 3 ∧
      Store.merge plan ⟨oneEntity "Task", .counting⟩ = .ok (notices, store') ∧
      ¬ store'.model.census.Nodup ∧
      store'.model.check = .error
        (.uidCollision 3 (.places (.property "Task" "id") (.property "Task" "done"))) := by
  have run : (do
      let plan ← Plan.ofDrafts [] newThenReset
      let merged ← Store.merge plan ⟨oneEntity "Task", .counting⟩
      return (plan.flatMap givenUids, decide merged.2.model.census.Nodup, merged.2.model.check)) =
      .ok ([3], false, .error
        (.uidCollision 3 (.places (.property "Task" "id") (.property "Task" "done")))) := by
    decide
  simp only [except_bind_eq_ok, except_pure_eq_ok, Prod.exists, Prod.mk.injEq,
    decide_eq_false_iff_not] at run
  obtain ⟨plan, planned, notices, store', merged, given, shared, found⟩ := run
  exact ⟨plan, notices, store', planned, by decide, given, by decide, merged, shared, found⟩

end Collisions

end Merge

end SchemaLedger
