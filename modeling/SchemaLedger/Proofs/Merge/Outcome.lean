import SchemaLedger.Proofs.Draft.Plan
import SchemaLedger.Proofs.Merge.EntityOutcomes
import SchemaLedger.Proofs.Model.Soundness

/-!
# What becomes of a model

Merging keeps what is claimed, creates what is missing, merges entity after entity and puts them in
order. `PlanMerged` records these phases. If the resulting model assigns its identifiers properly,
they add up to a statement about the stored model alone: every planned entity, property and relation
has become what the matching with the stored model says.
-/

namespace SchemaLedger.Merge

open Text

/-! ### Settling on entities -/

/-- The entity that a planned entity is to be merged into: the one it was matched with, or a new one
at the end. -/
inductive EntityPlaced : Model → Entity × Option UInt64 → UInt64 × Bool → Model → Prop
  | found {m : Model} {e : Entity} {uid : UInt64} : EntityPlaced m (e, some uid) (uid, false) m
  | created {m : Model} {e : Entity} {uid : UInt64} : m.Fresh uid →
      EntityPlaced m (e, none) (uid, true) (m.addEntity e.name uid)

/-- The notice of a new entity, if the planned entity has no match. -/
def additionNotices (a : Entity × Option UInt64) : List Notice :=
  match a.2 with
  | some _ => []
  | none => [.entityAdded a.1.name]

theorem of_settleEntities {xs : List (Entity × Option UInt64)} {settled : List (UInt64 × Bool)}
    {notices : List Notice} {s t : Store}
    (run : settleEntities xs s = .ok (settled, notices) t) :
    Traversal EntityPlaced s.model xs settled t.model ∧ notices = xs.flatMap additionNotices := by
  induction xs generalizing s settled notices with
  | nil =>
      simp only [settleEntities, Revision.pure_eq_ok, Prod.mk.injEq] at run
      obtain ⟨⟨rfl, rfl⟩, rfl⟩ := run
      exact ⟨.nil, rfl⟩
  | cons a xs ih =>
      obtain ⟨e, _ | uid⟩ := a
      · simp only [settleEntities, Revision.bind_eq_ok, Revision.entityAt_eq_ok,
          Revision.pure_eq_ok, Prod.exists, Prod.mk.injEq] at run
        obtain ⟨i, s', create, c, _, ⟨there, rfl⟩, rest, told, t', run, ⟨rfl, rfl⟩, rfl⟩ := run
        obtain ⟨uid, assigned, unknown, rfl, after⟩ := Revision.of_createEntity create
        rw [after] at there
        obtain rfl : ({ id := ⟨IdPair.next s.model.lastEntity, uid⟩, name := e.name } : Entity) =
          c := by simpa [Model.addEntity] using there
        obtain ⟨steps, rfl⟩ := ih run
        rw [after] at steps
        exact ⟨.cons (.created (.of_unmentioned assigned unknown)) steps, rfl⟩
      · simp only [settleEntities, Revision.bind_eq_ok, Revision.pure_eq_ok, Prod.exists,
          Prod.mk.injEq] at run
        obtain ⟨rest, told, t', run, ⟨rfl, rfl⟩, rfl⟩ := run
        obtain ⟨steps, rfl⟩ := ih run
        exact ⟨.cons .found steps, rfl⟩

section Settling

variable {S m m' : Model} {xs : List (Entity × Option UInt64)} {settled : List (UInt64 × Bool)}

/-- The entity that was settled on: one that was there before, or a new one that belongs to the
model now. -/
inductive EntitySettled (S : Model) (entities : List Entity) :
    Entity × Option UInt64 → UInt64 × Bool → Prop
  | found {e : Entity} {uid : UInt64} : EntitySettled S entities (e, some uid) (uid, false)
  | created {e : Entity} {id : IdPair} : { id, name := e.name } ∈ entities →
      IdPair.lastId S.lastEntity < id.id → S.Fresh id.uid →
      EntitySettled S entities (e, none) (id.uid, true)

/-- Settling on entities only adds entities. -/
theorem entities_grow (h : Traversal EntityPlaced m xs settled m') :
    m.entities <+: m'.entities := by
  induction h with
  | nil => exact List.prefix_rfl
  | cons step _ ih =>
      cases step with
      | found => exact ih
      | created => exact (List.prefix_append _ _).trans ih

/-- Every planned entity has one that was settled on, provided that the local ids are not used
up. -/
theorem entities_settled (h : Traversal EntityPlaced m xs settled m')
    (numbered : ∀ e ∈ m'.entities, e.id.id ≠ 0) (later : S.Evolves m) :
    m.Evolves m' ∧ List.Forall₂ (EntitySettled S m'.entities) xs settled := by
  induction h with
  | nil => exact ⟨.refl _, .nil⟩
  | @cons m _ _ _ _ _ _ step rest ih =>
      cases step with
      | found =>
          obtain ⟨evolves, each⟩ := ih numbered later
          exact ⟨evolves, .cons .found each⟩
      | @created e uid fresh =>
          have there := (entities_grow rest).mem
            (List.mem_append_right m.entities List.mem_cons_self)
          have number := numbered _ there
          have step := m.evolves_addEntity e.name uid number
          obtain ⟨evolves, each⟩ := ih numbered (later.trans step)
          refine ⟨step.trans evolves, .cons ?_ each⟩
          exact .created there
            (UInt32.lt_of_le_of_lt later.lastEntity (IdPair.lastId_lt_next number))
            (later.fresh fresh)

/-- The uids of the entities are those that were settled on, without those that were not claimed. -/
theorem uids_settled (h : Traversal EntityPlaced m xs settled m') :
    (m'.entities.map (·.id.uid) ++ claimed id (xs.map Prod.snd)).Perm
      (m.entities.map (·.id.uid) ++ settled.map Prod.fst) := by
  induction h with
  | nil => exact .refl _
  | cons step _ ih =>
      cases step with
      | found => exact (List.perm_middle.trans (ih.cons _)).trans List.perm_middle.symm
      | created => simpa [Model.addEntity, claimed] using ih

/-- The uids of the entities stay distinct. -/
theorem uids_nodup (h : Traversal EntityPlaced m xs settled m')
    (nodup : (m.entities.map (·.id.uid)).Nodup) : (m'.entities.map (·.id.uid)).Nodup := by
  refine h.preserves (I := fun m => (m.entities.map (·.id.uid)).Nodup) nodup ?_
  intro m m' a _ u _ step so_far
  cases step with
  | found => exact so_far
  | created fresh =>
      simp only [Model.addEntity, List.map_append, List.map_cons, List.map_nil]
      refine List.nodup_append.mpr ⟨so_far, List.nodup_singleton _, ?_⟩
      rintro u hu v hv rfl
      obtain rfl := List.mem_singleton.mp hv
      obtain ⟨x, hx, same⟩ := List.mem_map.mp hu
      exact fresh.2 (same ▸ Model.mem_census_of_entity hx x.uid_mem_ownUids)

end Settling

/-! ### The phases of merging -/

/-- The uids of the planned entities under their names. -/
def targetsOf (plan : List Entity) (order : List UInt64) : Targets :=
  plan.zipWith (fun e uid => (foldCase e.name, uid)) order

/-- What merging does to a model. -/
structure PlanMerged (S : Model) (plan : List Entity) (M : Model) (notices : List Notice)
    (found : List (Option UInt64)) (settled : List (UInt64 × Bool)) (rs : List (Settled Entity)) :
    Prop where
  matched : List.Forall₂ (EntityMatched S) plan found
  distinct : (claimed id found).Nodup
  steps : ∃ m₁ m₂,
    Traversal EntityPlaced (S.keepEntities (·.id.uid ∈ claimed id found)) (plan.zip found) settled
      m₁ ∧
    Traversal (EntityStep (targetsOf plan (settled.map Prod.fst))) m₁ (plan.zip settled) rs m₂ ∧
    M = upgrade
      { m₂ with entities := reorder (·.id.uid) (settled.map Prod.fst) m₂.entities }
  notices : notices =
    (S.entities.filter (·.id.uid ∉ claimed id found)).map (fun e => .entityRemoved e.name) ++
      (plan.zip found).flatMap additionNotices ++ rs.flatMap (·.notices)

theorem of_mergePlan {plan : List Entity} {notices : List Notice} {s t : Store}
    (run : mergePlan plan s = .ok notices t) :
    ∃ found settled rs, PlanMerged s.model plan t.model notices found settled rs := by
  simp only [mergePlan, Revision.bind_eq_ok, Revision.model_eq_ok, Revision.ofExcept_eq_ok,
    Revision.update_eq_ok, Revision.pure_eq_ok, Prod.exists] at run
  obtain ⟨_, _, ⟨rfl, rfl⟩, found, _, ⟨match_ok, rfl⟩, -, _, rfl, settled, added, s₁, settle,
    told, s₂, each, -, _, rfl, rfl, rfl⟩ := run
  obtain ⟨matched, distinct⟩ := matchEntities_eq_ok.mp match_ok
  have same : found.filterMap id = claimed id found := by simp [claimed]
  rw [same] at settle
  obtain ⟨placed, rfl⟩ := of_settleEntities settle
  obtain ⟨rs, steps, rfl⟩ := of_mergeEachEntity each
  exact ⟨found, settled, rs, matched, distinct, ⟨_, _, placed, steps, rfl⟩, by rw [same]⟩

/-- Merging a plan into a store goes through these phases. -/
theorem of_merge {plan : List Entity} {notices : List Notice} {store store' : Store}
    (run : store.merge plan = .ok (notices, store')) :
    ∃ found settled rs, PlanMerged store.model plan store'.model notices found settled rs := by
  unfold Store.merge at run
  split at run
  · next merged =>
      obtain ⟨rfl, rfl⟩ := Prod.mk.inj (Except.ok.inj run)
      exact of_mergePlan merged
  · cases run

/-! ### The outcome -/

/-- The identifiers of the model are assigned, and no two elements of a scope have the same uid. -/
structure IsAssigned (m : Model) : Prop where
  numbered : ∀ e ∈ m.entities, e.id.id ≠ 0
  allNumbered : ∀ e ∈ m.entities, AllNumbered e
  distinct : (m.entities.map (·.id.uid)).Nodup
  distinctUids : ∀ e ∈ m.entities, DistinctUids e

/-- Where the identifier of a merged entity comes from, given what is stored. -/
abbrev EntityOrigin (S : Model) (e : Entity) : Option Entity → IdPair → Prop :=
  Origin Entity.id S.entities (S.entity? e.name) e.id.uid e.uidRequested S.lastEntity S.Fresh

/-- What becomes of a planned entity, given the stored model. A new entity is like one that was
stored with nothing in it. -/
structure EntityOutcome (S : Model) (targets : Targets) (ids : List IdPair) (e : Entity)
    (o : Settled Entity) : Prop where
  origin : EntityOrigin S e o.found o.made.id
  contents : EntityContents S targets ids e (o.found.getD { id := o.made.id, name := e.name }) o

section Outcome

variable {S M m m' : Model} {plan : List Entity} {notices : List Notice}
variable {found : List (Option UInt64)} {settled : List (UInt64 × Bool)}
variable {rs : List (Settled Entity)} {targets : Targets} {ids : List IdPair}

theorem entity?_eq_some {n : String} {x : Entity} (h : S.entity? n = some x) :
    x ∈ S.entities ∧ SameName x.name n :=
  ⟨List.mem_of_find?_eq_some h, by simpa using List.find?_some h⟩

theorem EntityMatched.mem {e : Entity} {uid : UInt64} (h : EntityMatched S e (some uid)) :
    uid ∈ S.entities.map (·.id.uid) :=
  Matched.mem h fun _ named => List.mem_map_of_mem (entity?_eq_some named).1

/-- Nothing is in a new entity. -/
theorem distinctUids_settled {xs : List (Entity × Option UInt64)}
    (h : Traversal EntityPlaced m xs settled m') (start : ∀ e ∈ m.entities, DistinctUids e) :
    ∀ e ∈ m'.entities, DistinctUids e := by
  refine h.preserves (I := fun m => ∀ e ∈ m.entities, DistinctUids e) start ?_
  intro m m' a _ u _ step so_far
  cases step with
  | found => exact so_far
  | created =>
      intro e he
      rcases List.mem_append.mp he with he | he
      · exact so_far e he
      · obtain rfl := List.mem_singleton.mp he
        exact ⟨List.nodup_nil, List.nodup_nil⟩

/-- The entities that are kept are those that were matched. -/
theorem kept_perm_claimed (distinct : (S.entities.map (·.id.uid)).Nodup)
    (matched : List.Forall₂ (EntityMatched S) plan found) (nodup : (claimed id found).Nodup) :
    ((S.entities.filter (·.id.uid ∈ claimed id found)).map (·.id.uid)).Perm
      (claimed id found) := by
  have present : claimed id found ⊆ S.entities.map (·.id.uid) :=
    claimed_subset matched fun _ _ => EntityMatched.mem
  have kept := (filter_perm_select distinct nodup present).map (·.id.uid)
  rwa [map_select present] at kept

/-- The entities after settling are those that were settled on. -/
theorem uids_perm_settled (placed : Traversal EntityPlaced
      (S.keepEntities (·.id.uid ∈ claimed id found)) (plan.zip found) settled m)
    (distinct : (S.entities.map (·.id.uid)).Nodup)
    (matched : List.Forall₂ (EntityMatched S) plan found) (nodup : (claimed id found).Nodup) :
    (m.entities.map (·.id.uid)).Nodup ∧
      (m.entities.map (·.id.uid)).Perm (settled.map Prod.fst) := by
  have kept := kept_perm_claimed distinct matched nodup
  have uids := uids_settled placed
  rw [List.map_snd_zip (Nat.le_of_eq matched.length_eq.symm)] at uids
  refine ⟨uids_nodup placed (kept.nodup_iff.mpr nodup), ?_⟩
  exact (List.perm_append_right_iff _).mp
    ((uids.trans (kept.append_right _)).trans List.perm_append_comm)

/-- For every planned entity one is settled on. -/
theorem length_settled {s : Model} (placed : Traversal EntityPlaced s (plan.zip found) settled m)
    (matched : List.Forall₂ (EntityMatched S) plan found) : plan.length = settled.length := by
  have zipped := placed.length_eq
  have lengths := matched.length_eq
  rw [List.length_zip] at zipped
  omega

theorem zip_map_uid {xs : List Entity} (lengths : xs.length = settled.length) :
    (xs.zip settled).map (·.2.1) = settled.map Prod.fst := by
  have snd : (xs.zip settled).map Prod.snd = settled := List.map_snd_zip (Nat.le_of_eq lengths.symm)
  conv_rhs => rw [← snd, List.map_map]
  rfl

/-- The entities that were settled on are found, in the order of the plan, and what is made of them
takes their place. -/
theorem entitySteps_settle {xs : List Entity}
    (h : Traversal (EntityStep targets) m (xs.zip settled) rs m')
    (lengths : xs.length = settled.length)
    (nodup : (m.entities.map (·.id.uid)).Nodup)
    (perm : (m.entities.map (·.id.uid)).Perm (settled.map Prod.fst)) :
    rs.filterMap (·.found) = select (·.id.uid) m.entities (settled.map Prod.fst) ∧
      m'.entities.Perm (rs.map (·.made)) := by
  have want : (xs.zip settled).filterMap (fun a => some a.2.1) = settled.map Prod.fst := by
    rw [List.filterMap_eq_map', zip_map_uid lengths]
  have present : ∀ k ∈ settled.map Prod.fst, k ∈ m.entities.map (·.id.uid) :=
    fun k hk => perm.mem_iff.mpr hk
  have parts := filter_perm_select nodup (perm.nodup_iff.mp nodup) present
  have all : m.entities.filter (·.id.uid ∈ settled.map Prod.fst) = m.entities :=
    List.filter_eq_self.mpr (by
      intro e he
      exact decide_eq_true (perm.mem_iff.mp (List.mem_map_of_mem he)))
  rw [all, ← List.nil_append (select _ _ _)] at parts
  obtain ⟨found, final⟩ := h.settles (·.entities) (·.id.uid) (fun a => some a.2.1)
    (fun m a r m' step => step.replaces.1) (fun m a r m' step => step.replaces.2.1)
    (fun m m' a _ r _ step => .inl (by rw [step.replaces.2.2.1]))
    parts (by rw [want, map_select present]) (by rw [want]; exact perm.nodup_iff.mp nodup)
    (by simp) (List.Subset.refl _)
  exact ⟨found, by simpa using final⟩

theorem EntityContents.mono {e x : Entity} {r : Settled Entity} {ids' : List IdPair}
    (h : EntityContents S targets ids e x r) (more : ids ⊆ ids') :
    EntityContents S targets ids' e x r := by
  obtain ⟨qs, each, eq⟩ := h.relations
  refine { h with relations := ⟨qs, ?_, eq⟩ }
  apply each.imp
  intro r q outcome
  obtain ⟨t, there, points⟩ := outcome.target
  exact { outcome with target := ⟨t, there, points.1, more points.2⟩ }

/-- Merging entities changes no identifier of an entity. -/
theorem entitySteps_ids {xs : List (Entity × UInt64 × Bool)}
    (h : Traversal (EntityStep targets) m xs rs m') :
    m'.entities.map (·.id) = m.entities.map (·.id) ∧
      rs.map (·.made.id.uid) = xs.map (·.2.1) := by
  obtain ⟨ids, each⟩ := h.invariant (I := fun m₁ => m₁.entities.map (·.id) = m.entities.map (·.id))
    (R := fun a r => a.2.1 = r.made.id.uid) rfl (by
      intro m₁ m₂ a _ r _ step so_far
      obtain ⟨-, -, uid, ids⟩ := step.replaces
      exact ⟨ids.trans so_far, uid.symm⟩)
  refine ⟨ids, (List.forall₂_eq_eq_eq ▸ ?_ : _ = _).symm⟩
  exact List.forall₂_map_left_iff.mpr (List.forall₂_map_right_iff.mpr each)

/-- Entities keep their uids and their places while they are merged one after the other. -/
theorem entityUids_of_mergeEachEntity {xs : List (Entity × UInt64 × Bool)} {s t : Store}
    {notices : List Notice} (run : mergeEachEntity targets xs s = .ok notices t) :
    t.model.entities.map (·.id.uid) = s.model.entities.map (·.id.uid) := by
  obtain ⟨rs, steps, -⟩ := of_mergeEachEntity run
  simpa [Function.comp_def] using congrArg (List.map (·.uid)) (entitySteps_ids steps).1

/-- In the order of the plan, the entities are those that were made. -/
theorem reorder_made {xs : List Entity}
    (h : Traversal (EntityStep targets) m (xs.zip settled) rs m')
    (lengths : xs.length = settled.length) (perm : m'.entities.Perm (rs.map (·.made)))
    (nodup : (settled.map Prod.fst).Nodup) :
    (rs.map (·.made)).map (·.id.uid) = settled.map Prod.fst ∧
      reorder (·.id.uid) (settled.map Prod.fst) m'.entities = rs.map (·.made) := by
  have order : (rs.map (·.made)).map (·.id.uid) = settled.map Prod.fst := by
    rw [← zip_map_uid lengths, ← (entitySteps_ids h).2]
    simp
  refine ⟨order, ?_⟩
  rw [← order] at nodup ⊢
  exact reorder_eq perm nodup

/-- The step in which the planned entity `a.1` is merged, as part of a traversal from `m` on: it is
taken in a model `m₁` that evolves from the stored one, and the entity `x` has not changed
before. -/
structure EntityTurn (S m : Model) (targets : Targets) (a : Entity × UInt64 × Bool)
    (r : Settled Entity) (m₁ m₂ : Model) (x : Entity) : Prop where
  step : EntityStep targets m₁ a r m₂
  some_planned : a.1.properties ≠ []
  found : r.found = some x
  there : x ∈ m.entities
  uid : x.id.uid = a.2.1
  distinct : DistinctUids x
  numbered : AllNumbered r.made
  distinct' : DistinctUids r.made
  later : S.Evolves m₁
  ids : m₁.entities.map (·.id) = m.entities.map (·.id)

theorem EntityTurn.contents {m₁ m₂ : Model} {a : Entity × UInt64 × Bool} {r : Settled Entity}
    {x : Entity} (h : EntityTurn S m targets a r m₁ m₂ x) :
    m₁.Evolves m₂ ∧ EntityContents S targets (m.entities.map (·.id)) a.1 x r := by
  rw [← h.ids]
  exact h.step.contents h.some_planned h.found h.distinct h.numbered h.distinct' h.later

/-- Every planned entity has its turn. -/
theorem entitySteps_turns {xs : List Entity}
    (h : Traversal (EntityStep targets) m (xs.zip settled) rs m')
    (some_planned : ∀ e ∈ xs, e.properties ≠ [])
    (found : ∀ r ∈ rs, ∀ x, r.found = some x → x ∈ m.entities)
    (distinct : ∀ e ∈ m.entities, DistinctUids e)
    (made : ∀ r ∈ rs, AllNumbered r.made ∧ DistinctUids r.made) (later : S.Evolves m) :
    m.Evolves m' ∧ List.Forall₂ (fun a r => ∃ m₁ m₂ x, EntityTurn S m targets a r m₁ m₂ x)
      (xs.zip settled) rs := by
  obtain ⟨⟨evolves, -⟩, each⟩ := h.invariant
    (I := fun m₁ => m.Evolves m₁ ∧ m₁.entities.map (·.id) = m.entities.map (·.id))
    (R := fun a r => ∃ m₁ m₂ x, EntityTurn S m targets a r m₁ m₂ x) ⟨.refl _, rfl⟩ (by
      rintro m₁ m₂ a ha r hr step ⟨so_far, same⟩
      obtain ⟨-, stored, -, ids⟩ := step.replaces
      obtain ⟨x, hx, uid⟩ := Option.map_eq_some_iff.mp stored
      have there := found r hr x hx
      have turn : EntityTurn S m targets a r m₁ m₂ x := {
        step, some_planned := some_planned _ (List.of_mem_zip ha).1, found := hx, there, uid
        distinct := distinct x there, numbered := (made r hr).1, distinct' := (made r hr).2
        later := later.trans so_far, ids := same }
      exact ⟨⟨so_far.trans turn.contents.1, ids.trans same⟩, m₁, m₂, x, turn⟩)
  exact ⟨evolves, each⟩

/-- The entity that was settled on for a planned one is the stored entity that it was matched with,
or a new one. -/
theorem EntitySettled.outcome {e x : Entity} {f : Option UInt64} {u : UInt64 × Bool}
    {r : Settled Entity} (settled : EntitySettled S m.entities (e, f) u)
    (matched : EntityMatched S e f) (distinct : (S.entities.map (·.id.uid)).Nodup)
    (distinct' : (m.entities.map (·.id.uid)).Nodup)
    (kept : ∀ uid, f = some uid → ∀ y ∈ S.entities, y.id.uid = uid → y ∈ m.entities)
    (there : x ∈ m.entities) (same : x.id.uid = u.1)
    (contents : EntityContents S targets ids e x r) :
    ∃ o, EntityOutcome S targets ids e o ∧ o.made = r.made ∧ o.notices = r.notices := by
  have id : r.made.id = x.id := by rw [contents.made]
  cases settled with
  | @found e uid =>
      obtain ⟨y, hy, uid⟩ := List.mem_map.mp (EntityMatched.mem matched)
      obtain rfl : y = x := List.inj_on_of_nodup_map distinct' (kept _ rfl y hy uid) there
        (uid.trans same.symm)
      refine ⟨⟨some y, r.made, r.notices⟩, ⟨?_, ⟨contents.made, contents.lastProperty,
        contents.properties, contents.relations⟩⟩, rfl, rfl⟩
      change EntityOrigin S e (some y) r.made.id
      rw [id]
      rw [← uid] at matched
      apply Origin.of_found matched hy
      intro z named same
      exact List.inj_on_of_nodup_map distinct (entity?_eq_some named).1 hy same
  | @created e new added above fresh =>
      obtain rfl : ({ id := new, name := e.name } : Entity) = x :=
        List.inj_on_of_nodup_map distinct' added there same.symm
      refine ⟨⟨none, r.made, r.notices⟩, ⟨?_, ?_⟩, rfl, rfl⟩
      · change EntityOrigin S e none r.made.id
        rw [id]
        exact .of_created matched above fresh
      · have blank : ({ id := r.made.id, name := e.name } : Entity) =
            { id := new, name := e.name } := by rw [id]
        change EntityContents S targets ids e { id := r.made.id, name := e.name } _
        rw [blank]
        exact ⟨contents.made, contents.lastProperty, contents.properties, contents.relations⟩

/-- What is known of each position in each phase, put together. -/
theorem outcomes_of_phases (distinct : (S.entities.map (·.id.uid)).Nodup)
    (distinct' : (m.entities.map (·.id.uid)).Nodup)
    (kept : ∀ uid, some uid ∈ found → ∀ y ∈ S.entities, y.id.uid = uid → y ∈ m.entities)
    (matched : List.Forall₂ (EntityMatched S) plan found)
    (placed : List.Forall₂ (EntitySettled S m.entities) (plan.zip found) settled)
    (merged : List.Forall₂ (fun a r => ∃ x ∈ m.entities, x.id.uid = a.2.1 ∧
      EntityContents S targets ids a.1 x r) (plan.zip settled) rs) :
    ∃ os, List.Forall₂ (EntityOutcome S targets ids) plan os ∧
      os.map (·.made) = rs.map (·.made) ∧ os.map (·.notices) = rs.map (·.notices) := by
  induction matched generalizing settled rs with
  | nil =>
      cases placed
      cases merged
      exact ⟨[], .nil, rfl, rfl⟩
  | cons first _ ih =>
      cases placed with
      | cons settle placed =>
          cases merged with
          | cons merge merged =>
              obtain ⟨x, there, same, contents⟩ := merge
              obtain ⟨o, outcome, made, told⟩ := settle.outcome first distinct distinct'
                (fun uid hf => kept uid (by simp [hf])) there same contents
              obtain ⟨os, each, mades, tolds⟩ := ih
                (fun uid hf => kept uid (List.mem_cons_of_mem _ hf)) placed merged
              exact ⟨o :: os, .cons outcome each, by simp [made, mades], by simp [told, tolds]⟩

theorem evolves_upgrade {entities : List Entity} (perm : entities.Perm m.entities) :
    m.Evolves (upgrade { m with entities }) := by
  have ordered : m.Evolves { m with entities } := by
    refine ⟨?_, .refl _, UInt32.le_refl _, UInt32.le_refl _, UInt32.le_refl _⟩
    intro uid _ hu
    simp only [Model.census, List.mem_append] at hu ⊢
    exact hu.imp_left ((perm.flatMap_right _).mem_iff.mpr ·)
  apply ordered.trans
  rw [upgrade_eq]
  exact ⟨.refl _, .refl _, UInt32.le_refl _, UInt32.le_refl _, UInt32.le_refl _⟩

/-- What is known about a merge once all entities have been settled on in the model `m`, if its
result assigns its identifiers. -/
structure EntitiesSettled (S : Model) (plan : List Entity) (M : Model)
    (found : List (Option UInt64)) (settled : List (UInt64 × Bool)) (rs : List (Settled Entity))
    (m : Model) : Prop where
  distinct : (m.entities.map (·.id.uid)).Nodup
  /-- The entities that were matched are still as they were stored. -/
  kept : ∀ uid, some uid ∈ found → ∀ y ∈ S.entities, y.id.uid = uid → y ∈ m.entities
  placed : List.Forall₂ (EntitySettled S m.entities) (plan.zip found) settled
  turns : List.Forall₂
    (fun a r => ∃ m₁ m₂ x, EntityTurn S m (targetsOf plan (settled.map Prod.fst)) a r m₁ m₂ x)
    (plan.zip settled) rs
  evolves : S.Evolves M
  made : M.entities = rs.map (·.made)
  order : rs.map (·.made.id.uid) = settled.map Prod.fst
  /-- No entity comes or goes any more. -/
  ids : (m.entities.map (·.id)).Perm (M.entities.map (·.id))

/-- Whatever plan is merged into a model whose uids are distinct, if the result assigns its
identifiers properly, then the phases can be gone through with all local ids known to be
assigned. -/
theorem PlanMerged.entitiesSettled (h : PlanMerged S plan M notices found settled rs)
    (some_planned : ∀ e ∈ plan, e.properties ≠ [])
    (distinct : (S.entities.map (·.id.uid)).Nodup) (distinctUids : ∀ e ∈ S.entities, DistinctUids e)
    (assigned : IsAssigned M) : ∃ m, EntitiesSettled S plan M found settled rs m := by
  obtain ⟨m₁, m₂, placed, steps, rfl⟩ := h.steps
  have lengths := length_settled placed h.matched
  obtain ⟨distinct₁, uids⟩ := uids_perm_settled placed distinct h.matched h.distinct
  obtain ⟨all, perm⟩ := entitySteps_settle steps lengths distinct₁ uids
  obtain ⟨order, entities⟩ := reorder_made steps lengths perm (uids.nodup_iff.mp distinct₁)
  rw [entities] at assigned ⊢
  have same_ids : (m₁.entities.map (·.id)).Perm ((rs.map (·.made)).map (·.id)) := by
    rw [← (entitySteps_ids steps).1]
    exact perm.map _
  have numbered : ∀ e ∈ m₁.entities, e.id.id ≠ 0 := by
    intro e he zero
    have listed : e.id ∈ (rs.map (·.made)).map (·.id) :=
      same_ids.mem_iff.mp (List.mem_map_of_mem he)
    obtain ⟨y, hy, same⟩ := List.mem_map.mp listed
    exact assigned.numbered y (by simpa using hy) (by rw [same]; exact zero)
  have sound : ∀ r ∈ rs, AllNumbered r.made ∧ DistinctUids r.made := by
    intro r hr
    have there : r.made ∈ rs.map (·.made) := List.mem_map_of_mem hr
    exact ⟨assigned.allNumbered _ (by simpa using there),
      assigned.distinctUids _ (by simpa using there)⟩
  have kept : ∀ uid, some uid ∈ found → ∀ y ∈ S.entities, y.id.uid = uid → y ∈ m₁.entities := by
    intro uid hf y hy same
    have claims : y.id.uid ∈ claimed id found :=
      List.mem_filterMap.mpr ⟨some uid, hf, by simp [same]⟩
    exact (entities_grow placed).mem (List.mem_filter.mpr ⟨hy, decide_eq_true claims⟩)
  have start := S.evolves_keepEntities (·.id.uid ∈ claimed id found)
  obtain ⟨evolves₁, settles⟩ := entities_settled placed numbered start
  obtain ⟨evolves₂, turns⟩ := entitySteps_turns steps some_planned
    (fun _ hr _ found => mem_of_found all hr found)
    (distinctUids_settled placed fun e he => distinctUids e (List.mem_of_mem_filter he)) sound
    (start.trans evolves₁)
  exact ⟨m₁, {
    distinct := distinct₁, kept, placed := settles, turns
    evolves := ((start.trans evolves₁).trans evolves₂).trans (evolves_upgrade perm.symm)
    made := by simp
    order := by simpa [Function.comp_def] using order
    ids := by simpa using same_ids }⟩

/-- Whatever plan is merged into a model whose uids are distinct: if the result assigns its
identifiers properly, then it evolves from the stored model, and every planned entity has become
what the matching with the stored model says, in the order of the plan. -/
theorem PlanMerged.outcome (h : PlanMerged S plan M notices found settled rs)
    (some_planned : ∀ e ∈ plan, e.properties ≠ [])
    (distinct : (S.entities.map (·.id.uid)).Nodup) (distinctUids : ∀ e ∈ S.entities, DistinctUids e)
    (assigned : IsAssigned M) :
    S.Evolves M ∧ ∃ os, M.entities = os.map (·.made) ∧ (∀ o ∈ os, o.notices ⊆ notices) ∧
      List.Forall₂ (EntityOutcome S (targetsOf plan (os.map (·.made.id.uid)))
        (M.entities.map (·.id))) plan os := by
  obtain ⟨m, phases⟩ := h.entitiesSettled some_planned distinct distinctUids assigned
  have merged : List.Forall₂ (fun a r => ∃ x ∈ m.entities, x.id.uid = a.2.1 ∧
      EntityContents S (targetsOf plan (settled.map Prod.fst)) (m.entities.map (·.id)) a.1 x r)
      (plan.zip settled) rs := by
    apply phases.turns.imp
    rintro a r ⟨_, _, x, turn⟩
    exact ⟨x, turn.there, turn.uid, turn.contents.2⟩
  obtain ⟨os, outcomes, mades, tolds⟩ := outcomes_of_phases distinct phases.distinct phases.kept
    h.matched phases.placed merged
  refine ⟨phases.evolves, os, by rw [phases.made, mades], ?_, ?_⟩
  · intro o ho n hn
    rw [h.notices]
    have told : o.notices ∈ rs.map (·.notices) := tolds ▸ List.mem_map_of_mem ho
    obtain ⟨r, hr, same⟩ := List.mem_map.mp told
    exact List.mem_append_right _ (List.mem_flatMap.mpr ⟨r, hr, by rw [same]; exact hn⟩)
  · have targets : os.map (·.made.id.uid) = settled.map Prod.fst := by
      have uids := congrArg (List.map (·.id.uid)) mades
      simp only [List.map_map] at uids
      exact uids.trans phases.order
    rw [targets]
    apply outcomes.imp
    intro e o outcome
    exact ⟨outcome.origin, outcome.contents.mono fun i hi => phases.ids.mem_iff.mp hi⟩

end Outcome

/-! ### Consistent models -/

section Consistent

variable {S M m : Model} {plan : List Entity} {notices : List Notice} {store store' : Store}

theorem distinctUids_of_isConsistent (h : m.IsConsistent) : ∀ e ∈ m.entities, DistinctUids e :=
  fun _ he => ⟨h.distinctPropertyUids he, h.distinctRelationUids he⟩

theorem isAssigned_of_isConsistent (h : m.IsConsistent) : IsAssigned m where
  numbered _ he := (h.isChecked he).id
  allNumbered _ he := {
    properties := fun p hp =>
      have sound := (h.isChecked he).properties p hp
      ⟨sound.id, fun index there => (sound.index index there).1⟩
    relations := fun some_made r hr => ((h.isChecked he).relations some_made r hr).id }
  distinct := h.distinctUids
  distinctUids := distinctUids_of_isConsistent h

/-- What becomes of a consistent model into which a plan is merged, if the result is consistent
too. -/
theorem outcome_of_merge (run : store.merge plan = .ok (notices, store'))
    (some_planned : ∀ e ∈ plan, e.properties ≠ []) (stored : store.model.IsConsistent)
    (merged : store'.model.IsConsistent) :
    store.model.Evolves store'.model ∧ ∃ os, store'.model.entities = os.map (·.made) ∧
      (∀ o ∈ os, o.notices ⊆ notices) ∧
      List.Forall₂ (EntityOutcome store.model (targetsOf plan (os.map (·.made.id.uid)))
        (store'.model.entities.map (·.id))) plan os := by
  obtain ⟨found, settled, rs, phases⟩ := of_merge run
  exact phases.outcome some_planned stored.distinctUids (distinctUids_of_isConsistent stored)
    (isAssigned_of_isConsistent merged)

/-- If drafts can be merged into a store with a consistent result, then there is a plan of them that
is merged. -/
theorem exists_plan_of_merge (kinds : List PropertyKind) (drafts : List EntityDraft) (store : Store)
    (h : (do
      let plan ← Plan.ofDrafts kinds drafts
      let (_, store') ← store.merge plan
      store'.model.check) = .ok ()) :
    ∃ plan notices store', Plan.ofDrafts kinds drafts = .ok plan ∧
      store.merge plan = .ok (notices, store') ∧ store'.model.IsConsistent := by
  simp only [except_bind_eq_ok, Prod.exists] at h
  obtain ⟨plan, planned, notices, store', merged, consistent⟩ := h
  exact ⟨plan, notices, store', planned, merged, consistent⟩

/-- A model with one entity that has nothing but an ID. -/
def oneEntity (name : String) : Model :=
  { Model.empty with
    entities := [{
      id := ⟨1, 1⟩, lastProperty := some ⟨1, 2⟩, name,
      properties := [{ id := ⟨1, 2⟩, name := "id", kind := .long, flags := .objectId }] }]
    lastEntity := some ⟨1, 1⟩ }

end Consistent

end SchemaLedger.Merge
