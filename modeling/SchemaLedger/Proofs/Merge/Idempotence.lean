import SchemaLedger.Proofs.Merge.Conformance
import SchemaLedger.Proofs.Model.Persistence

/-!
# Merging twice

A model into which a plan has been merged conforms to the plan, and so does what a document keeps of
this model. Merging the plan again therefore gives the same model, with all that only the schema
knows, and without drawing a uid.
-/

namespace SchemaLedger.Merge

open Text

/-! ### What merging leaves alone -/

/-- Until the format is brought up to date in the end, merging leaves alone what is neither an
element nor an identifier. -/
theorem PlanMerged.eq_upgrade {S M : Model} {plan : List Entity} {notices : List Notice}
    {found : List (Option UInt64)} {settled : List (UInt64 × Bool)} {rs : List (Settled Entity)}
    (h : PlanMerged S plan M notices found settled rs) :
    ∃ m, M = upgrade m ∧ m.notes = S.notes ∧ m.version = S.version ∧
      m.formatVersion = S.formatVersion ∧ m.parserMinimum = S.parserMinimum := by
  obtain ⟨m₁, m₂, placed, steps, rfl⟩ := h.steps
  let Kept (m : Model) : Prop := m.notes = S.notes ∧ m.version = S.version ∧
    m.formatVersion = S.formatVersion ∧ m.parserMinimum = S.parserMinimum
  have first : Kept m₁ := by
    refine placed.preserves (I := Kept) ⟨rfl, rfl, rfl, rfl⟩ ?_
    intro m m' a _ u _ step so_far
    cases step with
    | found => exact so_far
    | created => exact so_far
  have second : Kept m₂ := by
    refine steps.preserves (I := Kept) first ?_
    intro m m' a _ r _ step so_far
    obtain ⟨i, x, fs, ps, b₁, told₁, gs, rs, b₂, told₂, -, -, -, -, rfl, -⟩ := step
    exact so_far
  exact ⟨_, rfl, second⟩

/-- The notes of the model stay as they are, and so does the version that users count. The format is
up to date in the end. -/
theorem PlanMerged.header {S M : Model} {plan : List Entity} {notices : List Notice}
    {found : List (Option UInt64)} {settled : List (UInt64 × Bool)} {rs : List (Settled Entity)}
    (h : PlanMerged S plan M notices found settled rs) :
    M.notes = S.notes ∧ M.version = S.version ∧ upgrade M = M := by
  obtain ⟨m, rfl, notes, version, -, -⟩ := h.eq_upgrade
  exact ⟨by simpa using notes, by simpa using version, upgrade_upgrade _⟩

/-! ### Conformance of the result -/

section Outcomes

variable {S : Model} {targets : Targets} {entities : List Entity} {e owner : Entity}
variable {p : Property} {r : Relation} {name : String}

theorem Origin.namesake {β : Type} {id : β → IdPair} {stored : List β} {named found : Option β}
    {given : UInt64} {asked : Bool} {last : Option IdPair} {got : IdPair} {planned made : String}
    (h : Origin id stored named given asked last S.Fresh found got) (same : made = planned) :
    IsNamesake given asked planned made got.uid := by
  cases h with
  | byUid is_given _ uid => exact ⟨same, fun _ => uid, fun zero => absurd zero is_given⟩
  | byName zero silent _ => exact ⟨same, fun given => absurd zero given, fun _ => silent⟩
  | created zero silent _ _ _ => exact ⟨same, fun given => absurd zero given, fun _ => silent⟩

theorem PropertyOrigin.namesake {found : Option Property} {got : IdPair} {made : String}
    (h : PropertyOrigin S owner p found got) (same : made = p.name) :
    IsNamesake p.id.uid p.uidRequested p.name made got.uid := by
  cases h with
  | byUid is_given _ uid => exact ⟨same, fun _ => uid, fun zero => absurd zero is_given⟩
  | reset is_given _ _ _ => exact ⟨same, fun _ => rfl, fun zero => absurd zero is_given⟩
  | byName zero silent _ => exact ⟨same, fun given => absurd zero given, fun _ => silent⟩
  | created zero silent _ _ _ => exact ⟨same, fun given => absurd zero given, fun _ => silent⟩

theorem IndexOrigin.isSome_eq {stored wanted got : Option IdPair}
    (h : IndexOrigin S stored wanted got) : got.isSome = wanted.isSome := by
  cases h <;> rfl

theorem PropertyOutcome.conforms {q : Settled Property} (h : PropertyOutcome S owner name p q) :
    PropertyConforms p q.made ∧ adoptProperty p q.made = q.made := by
  refine ⟨⟨h.origin.namesake (by rw [h.made]), h.index.isSome_eq⟩, ?_⟩
  conv_rhs => rw [h.made]
  rfl

theorem RelationOutcome.conforms {q : Settled Relation}
    (h : RelationOutcome S owner targets (entities.map (·.id)) r q) :
    RelationConforms targets entities r q.made ∧ refreshRelation r q.made = q.made := by
  obtain ⟨t, there, listed, present⟩ := h.target
  obtain ⟨f, hf, rfl⟩ := List.mem_map.mp present
  refine ⟨⟨h.origin.namesake (by rw [h.made]), f, hf, listed, there⟩, ?_⟩
  conv_rhs => rw [h.made]
  rfl

/-- What stays the same element by element stays the same as a list. -/
theorem zipWith_eq_map {α β : Type} {refresh : α → β → β} {as : List α} {qs : List (Settled β)}
    {R : α → Settled β → Prop} (h : List.Forall₂ R as qs)
    (same : ∀ a q, R a q → refresh a q.made = q.made) :
    List.zipWith refresh as (qs.map (·.made)) = qs.map (·.made) := by
  induction h with
  | nil => rfl
  | cons first _ ih => simp [same _ _ first, ih]

theorem EntityOutcome.conforms {o : Settled Entity}
    (h : EntityOutcome S targets (entities.map (·.id)) e o) :
    EntityConforms targets entities e o.made ∧ refreshEntity e o.made = o.made := by
  obtain ⟨ps, each, properties, -⟩ := h.contents.properties
  obtain ⟨rs, each', relations⟩ := h.contents.relations
  constructor
  · refine ⟨h.origin.namesake (by rw [h.contents.made]), ?_, ?_⟩
    · rw [properties]
      apply List.forall₂_map_right_iff.mpr
      apply each.imp
      intro p q outcome
      exact outcome.conforms.1
    · rw [relations]
      apply List.forall₂_map_right_iff.mpr
      apply each'.imp
      intro r q outcome
      exact outcome.conforms.1
  · have same := zipWith_eq_map each fun p q outcome => outcome.conforms.2
    have same' := zipWith_eq_map each' fun r q outcome => outcome.conforms.2
    rw [← properties] at same
    rw [← relations] at same'
    have made := h.contents.made
    rw [← (congrArg Entity.id made : o.made.id = _)] at made
    rw [refreshEntity, same, same']
    conv_rhs => rw [made]
    rfl

end Outcomes

/-! ### The same plan again -/

/-- The model conforms to the plan and says everything that the plan says. -/
structure Fulfils (m : Model) (plan : List Entity) : Prop where
  conforms : List.Forall₂ (EntityConforms (targetsOf plan (m.entities.map (·.id.uid))) m.entities)
    plan m.entities
  refreshed : List.zipWith refreshEntity plan m.entities = m.entities
  upgraded : upgrade m = m

section Again

variable {m : Model} {plan : List Entity} {notices : List Notice} {store store' : Store}

/-- Merging leaves a model that fulfils the plan. -/
theorem fulfils_of_merge (run : store.merge plan = .ok (notices, store'))
    (some_planned : ∀ e ∈ plan, e.properties ≠ []) (stored : store.model.IsConsistent)
    (merged : store'.model.IsConsistent) :
    Fulfils store'.model plan ∧ store'.model.notes = store.model.notes ∧
      store'.model.version = store.model.version := by
  obtain ⟨found, settled, rs, phases⟩ := of_merge run
  obtain ⟨notes, version, upgraded⟩ := phases.header
  obtain ⟨-, os, made, -, outcomes⟩ := outcome_of_merge run some_planned stored merged
  have uids : os.map (·.made.id.uid) = store'.model.entities.map (·.id.uid) := by simp [made]
  rw [uids] at outcomes
  refine ⟨⟨?_, ?_, upgraded⟩, notes, version⟩
  · have each := List.forall₂_map_right_iff.mpr
      (outcomes.imp fun e o outcome => outcome.conforms.1)
    rwa [← made] at each
  · have same := zipWith_eq_map outcomes fun e o outcome => outcome.conforms.2
    rwa [← made] at same

/-- A consistent model that conforms to a plan has distinct names. -/
theorem distinctNames_of_isConsistent (consistent : m.IsConsistent)
    (used : ∀ e ∈ m.entities, e.properties ≠ []) : ∀ e ∈ m.entities, DistinctNames e :=
  fun e he => ⟨(consistent.isChecked he).distinctNames,
    (consistent.isChecked he).distinctRelations (used e he)⟩

theorem Fulfils.properties_ne_nil (h : Fulfils m plan)
    (some_planned : ∀ e ∈ plan, e.properties ≠ []) : ∀ x ∈ m.entities, x.properties ≠ [] := by
  intro x hx none_left
  obtain ⟨e, he, conforms⟩ := exists_of_forall₂ h.conforms hx
  have each := conforms.properties
  rw [none_left] at each
  exact some_planned e he (List.forall₂_nil_right_iff.mp each)

/-- Merging a plan into a model that fulfils it leaves everything as it is. -/
theorem Fulfils.merge_eq (h : Fulfils m plan) (some_planned : ∀ e ∈ plan, e.properties ≠ [])
    (consistent : m.IsConsistent) (uids : UidSource) :
    Store.merge plan ⟨m, uids⟩ = .ok ([], ⟨m, uids⟩) := by
  rw [merge_of_conforms uids h.conforms consistent.distinctUids consistent.distinctNames
    (distinctUids_of_isConsistent consistent)
    (distinctNames_of_isConsistent consistent (h.properties_ne_nil some_planned)), h.refreshed]
  change Except.ok ([], (⟨upgrade m, uids⟩ : Store)) = _
  rw [h.upgraded]

theorem EntityConforms.kept {targets : Targets} {entities : List Entity} {e x : Entity}
    (h : EntityConforms targets entities e x) :
    EntityConforms targets (entities.map Entity.kept) e x.kept where
  namesake := h.namesake
  properties := by
    apply List.forall₂_map_right_iff.mpr
    apply h.properties.imp
    intro p q conforms
    exact ⟨conforms.namesake, conforms.index⟩
  relations := by
    apply List.forall₂_map_right_iff.mpr
    apply h.relations.imp
    intro r q conforms
    obtain ⟨f, hf, listed, there⟩ := conforms.target
    exact ⟨conforms.namesake, f.kept, List.mem_map_of_mem hf, listed, there⟩

/-- What is not kept is taken from the plan anyway. -/
theorem refreshEntity_kept (e x : Entity) : refreshEntity e x.kept = refreshEntity e x := by
  simp only [refreshEntity, Entity.kept, List.zipWith_map_right]
  rfl

/-- Merging a plan into what a document keeps of a model that fulfils it brings back what only the
schema knows. -/
theorem Fulfils.merge_kept (h : Fulfils m plan) (some_planned : ∀ e ∈ plan, e.properties ≠ [])
    (consistent : m.IsConsistent) (notes : m.notes = .current) (uids : UidSource) :
    Store.merge plan ⟨m.kept, uids⟩ = .ok ([], ⟨m, uids⟩) := by
  have kept := Model.isConsistent_kept.mpr consistent
  have entities : m.kept.entities = m.entities.map Entity.kept := rfl
  have uid_eq : m.kept.entities.map (·.id.uid) = m.entities.map (·.id.uid) := by
    simp [entities, Entity.kept]
  have conforms : List.Forall₂
      (EntityConforms (targetsOf plan (m.kept.entities.map (·.id.uid))) m.kept.entities) plan
      m.kept.entities := by
    rw [uid_eq, entities]
    apply List.forall₂_map_right_iff.mpr
    apply h.conforms.imp
    intro e x conforms
    exact conforms.kept
  have used : ∀ x ∈ m.kept.entities, x.properties ≠ [] := by
    intro x hx
    obtain ⟨y, hy, rfl⟩ := List.mem_map.mp hx
    simpa [Entity.kept] using h.properties_ne_nil some_planned y hy
  have refreshed : List.zipWith refreshEntity plan m.kept.entities = m.entities := by
    rw [entities, List.zipWith_map_right]
    simp only [refreshEntity_kept]
    exact h.refreshed
  rw [merge_of_conforms uids conforms kept.distinctUids kept.distinctNames
    (distinctUids_of_isConsistent kept) (distinctNames_of_isConsistent kept used), refreshed]
  change Except.ok ([], (⟨upgrade { m with notes := .current }, uids⟩ : Store)) = _
  rw [← notes]
  change Except.ok ([], (⟨upgrade m, uids⟩ : Store)) = _
  rw [h.upgraded]

/-- If drafts are merged into a consistent model and the result is consistent, then merging them
again leaves the model and the source of uids as they are and reports nothing. -/
theorem merge_again {kinds : List PropertyKind} {drafts : List EntityDraft}
    (planned : Plan.ofDrafts kinds drafts = .ok plan) (stored : store.model.IsConsistent)
    (run : store.merge plan = .ok (notices, store')) (merged : store'.model.IsConsistent) :
    store'.merge plan = .ok ([], store') :=
  have some_planned := Plan.properties_ne_nil planned
  (fulfils_of_merge run some_planned stored merged).1.merge_eq some_planned merged store'.uids

end Again

end SchemaLedger.Merge
