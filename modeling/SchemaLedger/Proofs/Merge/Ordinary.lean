import SchemaLedger.Proofs.Merge.Contents
import SchemaLedger.Proofs.Merge.Idempotence
import SchemaLedger.Proofs.Merge.Numbering

/-!
# Ordinary schema changes go through

A plan is ordinary if it gives no uid and asks for none, everything in it has a name, and relations
lead to entities of the plan without leading back. Merging such a plan into a consistent model only
fails for want of a uid, and unless a count of local ids comes to its end, the resulting model
passes every check: its contents are those of the plan, and its identifiers stay in order and apart.
-/

open Relation

namespace SchemaLedger

open Text

/-! ### Ordinary plans -/

/-- Among the entities, a relation or a to-one property of the first one has the name of the second
one as its target. -/
def RefersTo (entities : List Entity) (a b : Entity) : Prop :=
  a ∈ entities ∧ b ∈ entities ∧ ((∃ r ∈ a.relations, SameName b.name r.target) ∨
    ∃ p ∈ a.properties, p.IsToOne ∧ SameName b.name p.target)

/-- The schema gives no uid and asks for none, everything has a name, and targets are entities of
the plan that do not lead back. -/
structure IsOrdinary (plan : List Entity) : Prop where
  entities : ∀ e ∈ plan, e.id.uid = 0 ∧ e.uidRequested = false
  properties : ∀ e ∈ plan, ∀ p ∈ e.properties, p.id.uid = 0 ∧ p.uidRequested = false
  relations : ∀ e ∈ plan, ∀ r ∈ e.relations, r.id.uid = 0 ∧ r.uidRequested = false
  entityNames : ∀ e ∈ plan, e.name ≠ ""
  propertyNames : ∀ e ∈ plan, ∀ p ∈ e.properties, p.name ≠ ""
  relationTargets : ∀ e ∈ plan, ∀ r ∈ e.relations, ∃ f ∈ plan, SameName f.name r.target
  propertyTargets : ∀ e ∈ plan, ∀ p ∈ e.properties, p.IsToOne →
    ∃ f ∈ plan, SameName f.name p.target
  acyclic : ∀ e, ¬ TransGen (RefersTo plan) e e

namespace Merge

/-! ### Nothing stands in the way -/

section Matching

/-- Elements with different names are not matched with the same stored element. -/
theorem claimed_nodup_of_names {α β μ : Type} {name : α → String} {storedName : β → String}
    {uid : β → UInt64} {find : String → Option β} {match' : UInt64 → μ} {storedUid : μ → UInt64}
    {xs : List α} {stored : List β} (back : Function.LeftInverse storedUid match')
    (finds : ∀ n y, find n = some y → y ∈ stored ∧ SameName (storedName y) n)
    (names : (xs.map fun x => foldCase (name x)).Nodup) (uids : (stored.map uid).Nodup) :
    (claimed storedUid (xs.map fun x => ((find (name x)).map uid).map match')).Nodup := by
  rw [claimed, List.filterMap_map]
  refine List.pairwise_filterMap.mpr ((List.pairwise_map.mp names).imp ?_)
  intro a b apart u hu v hv same
  obtain ⟨y, found_y, rfl⟩ : ∃ y, find (name a) = some y ∧ uid y = u := by
    simpa [back _] using hu
  obtain ⟨z, found_z, rfl⟩ : ∃ z, find (name b) = some z ∧ uid z = v := by
    simpa [back _] using hv
  obtain ⟨hy, named_y⟩ := finds _ _ found_y
  obtain ⟨hz, named_z⟩ := finds _ _ found_z
  obtain rfl := List.inj_on_of_nodup_map uids hy hz same
  exact apart (named_y.symm.trans named_z)

variable {m : Model} {plan : List Entity} {planned owner : Entity} {store : Store}

/-- Entities for which the schema neither gives nor asks for a uid are matched by their names. -/
theorem matchEntities_of_silent (silent : ∀ e ∈ plan, e.id.uid = 0 ∧ e.uidRequested = false)
    (names : (plan.map fun e => foldCase e.name).Nodup)
    (uids : (m.entities.map (·.id.uid)).Nodup) :
    matchEntities m plan = .ok (plan.map fun e => (m.entity? e.name).map (·.id.uid)) := by
  refine matchEntities_eq_ok.mpr ⟨?_, ?_⟩
  · refine List.forall₂_map_right_iff.mpr (List.forall₂_same.mpr fun e he => ?_)
    exact .byName (silent e he).1 (silent e he).2
  · simpa using claimed_nodup_of_names (fun _ => rfl : Function.LeftInverse id id)
      (fun _ _ => entity?_eq_some) names uids

theorem matchProperties_of_silent
    (silent : ∀ p ∈ planned.properties, p.id.uid = 0 ∧ p.uidRequested = false)
    (names : (planned.properties.map fun p => foldCase p.name).Nodup)
    (uids : (owner.properties.map (·.id.uid)).Nodup) :
    matchProperties store planned owner = .ok (planned.properties.map fun p =>
      ((owner.property? p.name).map (·.id.uid)).map .existing) := by
  refine matchProperties_eq_ok.mpr ⟨?_, ?_⟩
  · refine List.forall₂_map_right_iff.mpr (List.forall₂_same.mpr fun p hp => ?_)
    exact .byName (silent p hp).1 (silent p hp).2
  · exact claimed_nodup_of_names (fun _ => rfl) (fun _ _ => property?_eq_some) names uids

theorem matchRelations_of_silent
    (silent : ∀ r ∈ planned.relations, r.id.uid = 0 ∧ r.uidRequested = false)
    (names : (planned.relations.map fun r => foldCase r.name).Nodup)
    (uids : (owner.relations.map (·.id.uid)).Nodup) :
    matchRelations planned owner = .ok (planned.relations.map fun r =>
      (owner.relation? r.name).map (·.id.uid)) := by
  refine matchRelations_eq_ok.mpr ⟨?_, ?_⟩
  · refine List.forall₂_map_right_iff.mpr (List.forall₂_same.mpr fun r hr => ?_)
    exact .byName (silent r hr).1 (silent r hr).2
  · simpa using claimed_nodup_of_names (fun _ => rfl : Function.LeftInverse id id)
      (fun _ _ => relation?_eq_some) names uids

end Matching

section Targets

variable {plan : List Entity} {order : List UInt64} {r : Relation}

theorem mem_targetsOf {n : String} {uid : UInt64} :
    (n, uid) ∈ targetsOf plan order ↔ ∃ e, (e, uid) ∈ plan.zip order ∧ foldCase e.name = n := by
  simp [targetsOf, ← List.map_uncurry_zip_eq_zipWith, Prod.exists]

/-- A name of a planned entity leads to an entity that was settled on. -/
theorem exists_pointsAt {ids : List IdPair} (lengths : plan.length = order.length)
    (settled : order ⊆ ids.map (·.uid)) {f : Entity} (hf : f ∈ plan)
    (named : SameName f.name r.target) : ∃ t, PointsAt (targetsOf plan order) ids r t := by
  rw [← List.map_fst_zip (Nat.le_of_eq lengths)] at hf
  obtain ⟨⟨f, uid⟩, listed, rfl⟩ := List.mem_map.mp hf
  have target := mem_targetsOf.mpr ⟨f, listed, named⟩
  cases looked_up : (targetsOf plan order).lookup (foldCase r.target) with
  | none =>
      have other := List.lookup_eq_none_iff.mp looked_up _ target
      simp at other
  | some uid' =>
      obtain ⟨front, back, split, -⟩ := List.lookup_eq_some_iff.mp looked_up
      obtain ⟨g, hg, -⟩ := mem_targetsOf.mp (split ▸ List.mem_append_right front List.mem_cons_self)
      obtain ⟨t, ht, rfl⟩ := List.mem_map.mp (settled (List.of_mem_zip hg).2)
      exact ⟨t, looked_up, ht⟩

end Targets

section Failing

variable {plan : List Entity} {s t : Store} {e : ModelError}

theorem givenUids_eq_nil {planned : Entity} (ungiven : ∀ p ∈ planned.properties, p.id.uid = 0) :
    givenUids planned = [] :=
  List.filter_eq_nil_iff.mpr fun uid hu => by
    obtain ⟨p, hp, rfl⟩ := List.mem_map.mp hu
    simpa using ungiven p hp

theorem flatMap_givenUids_eq_nil (ordinary : IsOrdinary plan) : plan.flatMap givenUids = [] :=
  List.flatMap_eq_nil_iff.mpr fun _ he =>
    givenUids_eq_nil fun p hp => (ordinary.properties _ he p hp).1

/-- Merging an ordinary plan only fails for want of a uid. -/
theorem exhausted_of_mergePlan (ordinary : IsOrdinary plan) (planned : ∀ e ∈ plan, e.IsPlanned)
    (names : (plan.map fun e => foldCase e.name).Nodup) (unique : s.model.HasUniqueUids)
    (run : mergePlan plan s = .error e t) : e.root = .uidsExhausted uidAttempts := by
  have given := flatMap_givenUids_eq_nil ordinary
  rcases of_mergePlan_eq_error_of_unique unique (by simp [given]) (by simp [given])
      (drawsNoneEarly_of_nothing_given given) run with
    unmatched | exhausted | ⟨entity, x, i, order, s', e', here, same, failed⟩
  · rw [matchEntities_of_silent ordinary.entities names unique.entityUids] at unmatched
    cases unmatched
  · exact exhausted
  · have listed := here.listed
    have distinct := here.unique.distinctUids (List.mem_of_getElem? here.there)
    rcases failed with unmatched | ⟨owner, -, same, unmatched⟩ | ⟨r, hr, -, lost⟩
    · have adopted : ((adoptEntity entity x).properties.map (·.id.uid)).Nodup := distinct.properties
      rw [matchProperties_of_silent (ordinary.properties entity listed)
        (planned entity listed).propertyNames adopted] at unmatched
      cases unmatched
    · rw [matchRelations_of_silent (ordinary.relations entity listed)
        (planned entity listed).relationNames.2 (by rw [same]; exact distinct.relations)]
        at unmatched
      cases unmatched
    · obtain ⟨f, hf, named⟩ := ordinary.relationTargets entity listed r hr
      have settled : order ⊆ (s'.model.entities.map (·.id)).map (·.uid) := by
        simpa [Function.comp_def] using here.settled
      obtain ⟨t, points⟩ := exists_pointsAt here.lengths settled hf named
      exact absurd points (lost t)

end Failing

/-! ### What the result says -/

section Contents

variable {plan entities : List Entity} {e y : Entity}

theorem Entity.name_eq_of_bare_eq (same : y.bare = e.bare) : y.name = e.name := by
  simp only [Entity.bare, Entity.mk.injEq] at same
  tauto

theorem exists_property_of_bare_eq (same : y.bare = e.bare) {p : Property}
    (hp : p ∈ y.properties) : ∃ q ∈ e.properties, q.bare = p.bare := by
  have all : y.properties.map Property.bare = e.properties.map Property.bare :=
    congrArg Entity.properties same
  exact List.mem_map.mp (all ▸ List.mem_map_of_mem hp)

theorem exists_relation_of_bare_eq (same : y.bare = e.bare) {r : Relation}
    (hr : r ∈ y.relations) : ∃ q ∈ e.relations, q.bare = r.bare := by
  have all : y.relations.map Relation.bare = e.relations.map Relation.bare :=
    congrArg Entity.relations same
  exact List.mem_map.mp (all ▸ List.mem_map_of_mem hr)

/-- What a schema ensures of an entity does not depend on identifiers. -/
theorem isPlanned_of_bare_eq (h : e.IsPlanned) (same : y.bare = e.bare) : y.IsPlanned := by
  have properties : y.properties.map Property.bare = e.properties.map Property.bare :=
    congrArg Entity.properties same
  have relations : y.relations.map Relation.bare = e.relations.map Relation.bare :=
    congrArg Entity.relations same
  have ids (x : Entity) : (x.properties.countP fun p => p.IsId) =
      (x.properties.map Property.bare).countP fun p => p.IsId := by
    rw [List.countP_map]
    rfl
  have propertyNames (x : Entity) : (x.properties.map fun p => foldCase p.name) =
      (x.properties.map Property.bare).map fun p => foldCase p.name := by
    rw [List.map_map]
    rfl
  have relationNames (x : Entity) : (x.relations.map fun r => foldCase r.name) =
      (x.relations.map Relation.bare).map fun r => foldCase r.name := by
    rw [List.map_map]
    rfl
  refine ⟨?_, ?_, ?_, ?_, ?_⟩
  · rw [ids, properties, ← ids]
    exact h.oneId
  · intro p hp isId
    obtain ⟨q, hq, same⟩ := exists_property_of_bare_eq same hp
    obtain ⟨-, kind, flags, -⟩ := Property.of_bare_eq same
    rw [← kind, ← flags]
    refine h.idKind q hq ?_
    rw [Property.IsId, flags]
    exact isId
  · rw [propertyNames, properties, ← propertyNames]
    exact h.propertyNames
  · intro r hr
    obtain ⟨q, hq, same⟩ := exists_relation_of_bare_eq same hr
    exact (Relation.of_bare_eq same).1 ▸ h.relationNames.1 q hq
  · rw [relationNames, relations, ← relationNames]
    exact h.relationNames.2

/-- To what an entity refers does not depend on identifiers. -/
theorem refersTo_of_bare_eq {a b f : Entity} (h : RefersTo entities a b) (he : e ∈ plan)
    (hf : f ∈ plan) (same : a.bare = e.bare) (same' : b.bare = f.bare) : RefersTo plan e f := by
  have name := Entity.name_eq_of_bare_eq same'
  obtain ⟨-, -, refers⟩ := h
  refine ⟨he, hf, refers.imp ?_ ?_⟩
  · rintro ⟨r, hr, named⟩
    obtain ⟨q, hq, same⟩ := exists_relation_of_bare_eq same hr
    obtain ⟨-, target⟩ := Relation.of_bare_eq same
    exact ⟨q, hq, by rwa [target, ← name]⟩
  · rintro ⟨p, hp, toOne, named⟩
    obtain ⟨q, hq, same⟩ := exists_property_of_bare_eq same hp
    obtain ⟨-, -, -, target, -⟩ := Property.of_bare_eq same
    exact ⟨q, hq, by rwa [Property.IsToOne, target], by rwa [target, ← name]⟩

/-- If two lists of entities say the same, then so do the ways from entity to entity in them. -/
theorem transGen_refersTo_of_bare_eq (same : ∀ y ∈ entities, ∃ e ∈ plan, y.bare = e.bare)
    {a b : Entity} (way : TransGen (RefersTo entities) a b) (he : e ∈ plan)
    (same_a : a.bare = e.bare) {f : Entity} (hf : f ∈ plan) (same_b : b.bare = f.bare) :
    TransGen (RefersTo plan) e f := by
  induction way generalizing f with
  | single refers => exact .single (refersTo_of_bare_eq refers he hf same_a same_b)
  | tail _ refers ih =>
      obtain ⟨g, hg, same_g⟩ := same _ refers.1
      exact (ih hg same_g).tail (refersTo_of_bare_eq refers hg hf same_g same_b)

end Contents

section Result

variable {S M m : Model} {plan entities : List Entity} {notices : List Notice}
variable {found : List (Option UInt64)} {settled : List (UInt64 × Bool)}
variable {rs : List (Settled Entity)} {targets : Targets}

theorem checkVersion_upgrade (h : m.checkVersion = .ok ()) : (upgrade m).checkVersion = .ok () := by
  unfold upgrade
  split
  · simp only [Model.checkVersion, Check.bind_eq_ok, Check.require_eq_ok]
    exact ⟨by decide, .inl (UInt32.le_refl _)⟩
  · exact h

/-- A format that can be read stays one. -/
theorem PlanMerged.checkVersion (h : PlanMerged S plan M notices found settled rs)
    (stored : S.checkVersion = .ok ()) : M.checkVersion = .ok () := by
  obtain ⟨m, rfl, -, -, format, minimum⟩ := h.eq_upgrade
  refine checkVersion_upgrade ?_
  rwa [Model.checkVersion, format, minimum]

/-- A merged relation points at a merged entity, which is the target that the plan names. -/
theorem EntityOutcome.target {e : Entity} {o : Settled Entity}
    (h : EntityOutcome S targets (entities.map (·.id)) e o) {r : Relation}
    (hr : r ∈ o.made.relations) :
    ∃ f ∈ entities, r.targetId = some f.id ∧
      targets.lookup (foldCase r.target) = some f.id.uid := by
  obtain ⟨qs, each, relations⟩ := h.contents.relations
  rw [relations] at hr
  obtain ⟨q, hq, rfl⟩ := List.mem_map.mp hr
  obtain ⟨r, -, outcome⟩ := exists_of_forall₂ each hq
  obtain ⟨t, there, looked_up, listed⟩ := outcome.target
  obtain ⟨f, hf, rfl⟩ := List.mem_map.mp listed
  refine ⟨f, hf, there, ?_⟩
  rw [outcome.made]
  exact looked_up

/-- The entities of the model say what those of the plan say, in the same order, and their relations
point at the entities that have the names of the targets. -/
structure Realizes (plan : List Entity) (M : Model) : Prop where
  reads : List.Forall₂ (fun e y => y.bare = e.bare) plan M.entities
  targets : ∀ y ∈ M.entities, ∀ r ∈ y.relations, ∃ f ∈ M.entities, r.targetId = some f.id ∧
    (targetsOf plan (M.entities.map (·.id.uid))).lookup (foldCase r.target) = some f.id.uid

/-- The result of merging a plan realizes it. -/
theorem PlanMerged.realizes (h : PlanMerged S plan M notices found settled rs)
    (some_planned : ∀ e ∈ plan, e.properties ≠ []) (unique : S.HasUniqueUids)
    (assigned : IsAssigned M) : Realizes plan M := by
  obtain ⟨-, os, made, -, outcomes⟩ := h.outcome some_planned unique.entityUids
    (fun _ he => unique.distinctUids he) assigned
  have order : os.map (·.made.id.uid) = M.entities.map (·.id.uid) := by simp [made]
  rw [order] at outcomes
  constructor
  · rw [made]
    exact List.forall₂_map_right_iff.mpr (outcomes.imp fun e o outcome => outcome.bare_eq.1)
  · intro y hy r hr
    have listed := hy
    rw [made] at listed
    obtain ⟨o, ho, rfl⟩ := List.mem_map.mp listed
    obtain ⟨e, -, outcome⟩ := exists_of_forall₂ outcomes ho
    exact outcome.target hr

namespace Realizes

variable (h : Realizes plan M)
include h

theorem exists_planned {y : Entity} (hy : y ∈ M.entities) : ∃ e ∈ plan, y.bare = e.bare :=
  exists_of_forall₂ h.reads hy

theorem exists_merged {e : Entity} (he : e ∈ plan) : ∃ y ∈ M.entities, y.bare = e.bare :=
  exists_of_forall₂ h.reads.flip he

theorem isPlanned (planned : ∀ e ∈ plan, e.IsPlanned) {y : Entity} (hy : y ∈ M.entities) :
    y.IsPlanned := by
  obtain ⟨e, he, same⟩ := h.exists_planned hy
  exact isPlanned_of_bare_eq (planned e he) same

theorem names : (M.entities.map fun y => foldCase y.name) = plan.map fun e => foldCase e.name := by
  refine List.forall₂_eq_eq_eq ▸ List.forall₂_map_left_iff.mpr
    (List.forall₂_map_right_iff.mpr (h.reads.flip.imp ?_))
  intro y e same
  rw [Entity.name_eq_of_bare_eq same]

/-- The entity that a merged relation points at has the name of its target. -/
theorem sameName_of_target (distinct : (M.entities.map (·.id.uid)).Nodup) {y f : Entity}
    (hy : y ∈ M.entities) (hf : f ∈ M.entities) {r : Relation} (hr : r ∈ y.relations)
    (target : r.targetId = some f.id) : SameName f.name r.target := by
  obtain ⟨g, hg, target', looked_up⟩ := h.targets y hy r hr
  obtain ⟨front, back, split, -⟩ := List.lookup_eq_some_iff.mp looked_up
  obtain ⟨e, listed, named⟩ :=
    mem_targetsOf.mp (split ▸ List.mem_append_right front List.mem_cons_self)
  rw [List.zip_map_right] at listed
  obtain ⟨⟨e', z⟩, paired, same⟩ := List.mem_map.mp listed
  obtain ⟨rfl, uid⟩ : e' = e ∧ z.id.uid = g.id.uid := Prod.mk.inj same
  have same_id : g.id = f.id := Option.some.inj (target'.symm.trans target)
  obtain rfl : z = f := List.inj_on_of_nodup_map distinct (List.of_mem_zip paired).2 hf
    (by rw [uid, same_id])
  have name := Entity.name_eq_of_bare_eq ((List.forall₂_iff_zip.mp h.reads).2 paired)
  rwa [SameName, name]

/-- Where a merged entity points, there it refers. -/
theorem refersTo_of_pointsTo (distinct : (M.entities.map (·.id.uid)).Nodup) {a b : Entity}
    (points : M.PointsTo a b) : RefersTo M.entities a b := by
  obtain ⟨ha, hb, points⟩ := points
  refine ⟨ha, hb, points.imp_left ?_⟩
  rintro ⟨r, hr, target⟩
  exact ⟨r, hr, h.sameName_of_target distinct ha hb hr target⟩

theorem acyclic (ordinary : IsOrdinary plan) (distinct : (M.entities.map (·.id.uid)).Nodup)
    (a : Entity) : ¬ TransGen M.PointsTo a a := by
  intro way
  have refers : TransGen (RefersTo M.entities) a a :=
    TransGen.mono (fun _ _ points => h.refersTo_of_pointsTo distinct points) _ _ way
  obtain ⟨b, ⟨ha, -⟩, -⟩ := TransGen.head'_iff.mp refers
  obtain ⟨e, he, same⟩ := h.exists_planned ha
  exact ordinary.acyclic e
    (transGen_refersTo_of_bare_eq (fun _ hy => h.exists_planned hy) refers he same he same)

theorem propertyName_ne (ordinary : IsOrdinary plan) {y : Entity} (hy : y ∈ M.entities)
    {p : Property} (hp : p ∈ y.properties) : p.name ≠ "" := by
  obtain ⟨e, he, same⟩ := h.exists_planned hy
  obtain ⟨q, hq, same⟩ := exists_property_of_bare_eq same hp
  exact (Property.of_bare_eq same).1 ▸ ordinary.propertyNames e he q hq

theorem exists_propertyTarget (ordinary : IsOrdinary plan) {y : Entity} (hy : y ∈ M.entities)
    {p : Property} (hp : p ∈ y.properties) (toOne : p.IsToOne) :
    ∃ z ∈ M.entities, SameName z.name p.target := by
  obtain ⟨e, he, same⟩ := h.exists_planned hy
  obtain ⟨q, hq, same⟩ := exists_property_of_bare_eq same hp
  obtain ⟨-, -, -, target, -⟩ := Property.of_bare_eq same
  obtain ⟨f, hf, named⟩ := ordinary.propertyTargets e he q hq (by rwa [Property.IsToOne, target])
  obtain ⟨z, hz, same⟩ := h.exists_merged hf
  exact ⟨z, hz, by rwa [← target, Entity.name_eq_of_bare_eq same]⟩

end Realizes

/-- A model that results from an ordinary plan is sound, provided that its identifiers are in order
and apart. -/
theorem PlanMerged.isSound (h : PlanMerged S plan M notices found settled rs)
    (ordinary : IsOrdinary plan) (planned : ∀ e ∈ plan, e.IsPlanned)
    (names : (plan.map fun e => foldCase e.name).Nodup) (unique : S.HasUniqueUids)
    (assigned : ∀ e ∈ S.entities, ∀ uid ∈ e.ownUids, uid ≠ 0) (unique' : M.HasUniqueUids)
    (ids : M.HasOrderedIds) : M.IsSound := by
  have realizes : Realizes plan M := h.realizes (fun e he => (planned e he).properties_ne_nil)
    unique (isAssigned_of_hasOrderedIds ids unique')
  have each (y : Entity) (hy : y ∈ M.entities) : y.IsPlanned := realizes.isPlanned planned hy
  have leads := h.leadTo unique.entityUids (fun _ he => unique.distinctUids he) unique.indexes
  exact {
    entityIds := ids.entities.toIsCovered
    propertyIds := fun e he => (ids.properties e he).toIsCovered
    indexIds := ids.indexes.toIsCovered
    relationIds := ids.relations.toIsCovered
    entityNames := by
      refine ⟨fun y hy => ?_, by rwa [realizes.names]⟩
      obtain ⟨e, he, same⟩ := realizes.exists_planned hy
      exact Entity.name_eq_of_bare_eq same ▸ ordinary.entityNames e he
    propertyNames := fun y hy =>
      ⟨fun p hp => realizes.propertyName_ne ordinary hy hp, (each y hy).propertyNames⟩
    relationNames := fun y hy => (each y hy).relationNames
    oneId := fun y hy => (each y hy).oneId
    idKind := fun y hy => (each y hy).idKind
    uids := fun uid hu => List.count_eq_one_of_mem unique'.census hu
    assignedUids := by
      refine Model.assignedUids_iff.mpr fun sort id hid => ?_
      rcases leads.mem_live hid with live | fresh
      · exact Model.assignedUids_iff.mp assigned sort id live
      · exact fresh.1
    relationTargets := by
      intro y hy r hr
      obtain ⟨f, hf, target, -⟩ := realizes.targets y hy r hr
      exact ⟨f, hf, target⟩
    propertyTargets := fun y hy p hp toOne => realizes.exists_propertyTarget ordinary hy hp toOne
    acyclic := realizes.acyclic ordinary unique'.entityUids }

end Result

section Ordinary

variable {kinds : List PropertyKind} {drafts : List EntityDraft} {plan : List Entity}
variable {store : Store}

/-- Merging an ordinary plan into a consistent model in which every entity has properties only fails
for want of a uid, and unless a count of local ids comes to its end, the result is consistent. -/
theorem exhausted_or_isConsistent_of_merge (planned : Plan.ofDrafts kinds drafts = .ok plan)
    (ordinary : IsOrdinary plan) (stored : store.model.IsConsistent)
    (used : ∀ e ∈ store.model.entities, e.properties ≠ []) :
    (∀ e, store.merge plan = .error e → e.root = .uidsExhausted uidAttempts) ∧
      ∀ notices store', store.merge plan = .ok (notices, store') → store.model.HasRoom →
        store'.model.HasRoom → store'.model.IsConsistent := by
  have unique := hasUniqueUids_of_isConsistent stored
  have each := Plan.isPlanned planned
  have names := Plan.distinctNames planned
  unfold Store.merge
  cases run : mergePlan plan store with
  | error e t =>
      refine ⟨?_, nofun⟩
      rintro _ ⟨⟩
      exact exhausted_of_mergePlan ordinary each names unique run
  | ok notices t =>
      refine ⟨nofun, ?_⟩
      rintro _ _ ⟨⟩ room room'
      have given := flatMap_givenUids_eq_nil ordinary
      have unique' : t.model.HasUniqueUids :=
        hasUniqueUids_of_mergePlan unique (by simp [given]) (by simp [given])
          (drawsNoneEarly_of_nothing_given given) run
      obtain ⟨found, settled, rs, phases⟩ := of_mergePlan run
      have ids : t.model.HasOrderedIds := phases.hasOrderedIds unique (stored.hasOrderedIds used)
        (fun e he p hp => (ordinary.properties e he p hp).1) room room'
      have sound : t.model.IsSound := phases.isSound ordinary each names unique
        (fun e he => stored.ownUids_ne_zero he (used e he)) unique' ids
      exact sound.isConsistent (phases.checkVersion stored.checks.1) ids

/-- A schema in which an entity changes the case of its name and links to a new one. -/
def linkToNew : List EntityDraft :=
  [{ name := "TASK"
     fields := [
      { name := "id", base := .long },
      { name := "note", base := .long,
        annotations := KeyMap.empty.insert "link" (.value "NOTE") }] },
    .onlyId "Note"]

/-- The plan of `linkToNew`. -/
def planLinkToNew : List Entity :=
  [{ id := .unassigned, name := "TASK"
     properties := [
      { id := .unassigned, name := "id", kind := .long, flags := .objectId },
      { id := .unassigned, name := "note", index := some .unassigned, kind := .relation,
        flags := .indexed ∪ .skipZero, target := "NOTE" }] },
    { id := .unassigned, name := "Note"
      properties := [{ id := .unassigned, name := "id", kind := .long, flags := .objectId }] }]

theorem isOrdinary_planLinkToNew : IsOrdinary planLinkToNew where
  entities := by decide
  properties := by decide
  relations := by decide
  entityNames := by decide
  propertyNames := by decide
  relationTargets := by decide
  propertyTargets := by decide
  acyclic := by
    -- whatever refers is `TASK`, and what is referred to is not
    have step : ∀ a ∈ planLinkToNew, ∀ b ∈ planLinkToNew,
        ((∃ r ∈ a.relations, SameName b.name r.target) ∨
          ∃ p ∈ a.properties, p.IsToOne ∧ SameName b.name p.target) →
        a.name = "TASK" ∧ b.name ≠ "TASK" := by decide
    intro e way
    obtain ⟨b, ⟨he, hb, first⟩, -⟩ := TransGen.head'_iff.mp way
    obtain ⟨c, -, hc, he', last⟩ := TransGen.tail'_iff.mp way
    exact (step c hc e he' last).2 (step e he b hb first).1

theorem exhausted_or_isConsistent_of_merge_linkToNew :
    ∃ notices store', Plan.ofDrafts [] linkToNew = .ok planLinkToNew ∧
      Store.merge planLinkToNew ⟨oneEntity "Task", .counting⟩ = .ok (notices, store') ∧
      store'.model.HasRoom ∧ store'.model.IsConsistent := by
  have planned : Plan.ofDrafts [] linkToNew = .ok planLinkToNew := by decide
  have run : (do
      let merged ← Store.merge planLinkToNew ⟨oneEntity "Task", .counting⟩
      return decide merged.2.model.HasRoom) = .ok true := by decide
  simp only [except_bind_eq_ok, except_pure_eq_ok, Prod.exists, decide_eq_true_eq] at run
  obtain ⟨notices, store', merged, room⟩ := run
  refine ⟨notices, store', planned, merged, room, ?_⟩
  exact (exhausted_or_isConsistent_of_merge planned isOrdinary_planLinkToNew (by decide)
    (by decide)).2 notices store' merged (by decide) room

end Ordinary

end Merge

end SchemaLedger
