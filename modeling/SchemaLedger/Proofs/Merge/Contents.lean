import SchemaLedger.Proofs.Merge.Outcome

/-!
# What a merged model says

Merging edits the stored model in place, but in the end nothing but identifiers is taken from it: if
they are left out, then the merged model is the plan, entity by entity and in the same order.
-/

namespace SchemaLedger

/-! ### Elements without their identifiers -/

/-- The property without its identifiers. That there is an index is kept, which one it is not. -/
def Property.bare (p : Property) : Property :=
  { p with id := .unassigned, index := p.index.map fun _ => .unassigned, uidRequested := false }

/-- The relation without its identifiers. -/
def Relation.bare (r : Relation) : Relation :=
  { r with id := .unassigned, targetId := none, uidRequested := false }

/-- The entity without the identifiers in it. -/
def Entity.bare (e : Entity) : Entity :=
  { e with
    id := .unassigned, lastProperty := none, properties := e.properties.map Property.bare
    relations := e.relations.map Relation.bare, uidRequested := false }

theorem Property.of_bare_eq {p q : Property} (same : q.bare = p.bare) :
    q.name = p.name ∧ q.kind = p.kind ∧ q.flags = p.flags ∧ q.target = p.target ∧
      q.vectorIndex = p.vectorIndex := by
  simp only [Property.bare, Property.mk.injEq] at same
  tauto

theorem Relation.of_bare_eq {q r : Relation} (same : q.bare = r.bare) :
    q.name = r.name ∧ q.target = r.target := by
  simp only [Relation.bare, Relation.mk.injEq] at same
  tauto

/-- The entity or an element in it asks which uid it has. -/
def Entity.AsksForUid (e : Entity) : Prop :=
  e.uidRequested = true ∨ (∃ p ∈ e.properties, p.uidRequested = true) ∨
    ∃ r ∈ e.relations, r.uidRequested = true

namespace Merge

variable {S : Model} {targets : Targets} {ids : List IdPair} {owner : Entity} {name : String}

theorem IndexOrigin.map_unassigned {stored wanted got : Option IdPair}
    (h : IndexOrigin S stored wanted got) :
    got.map (fun _ => IdPair.unassigned) = wanted.map fun _ => IdPair.unassigned := by
  cases h <;> rfl

theorem PropertyOutcome.bare_eq {p : Property} {q : Settled Property}
    (h : PropertyOutcome S owner name p q) : q.made.bare = p.bare := by
  have index := h.index.map_unassigned
  rw [h.made, Property.bare, Property.bare]
  simp only [index]

theorem RelationOutcome.bare_eq {r : Relation} {q : Settled Relation}
    (h : RelationOutcome S owner targets ids r q) : q.made.bare = r.bare := by
  rw [h.made]
  rfl

/-- What becomes of a list element by element is the list, as far as `f` can tell. -/
theorem map_made_eq {α β : Type} {R : α → Settled α → Prop} {as : List α} {os : List (Settled α)}
    {f : α → β} (h : List.Forall₂ R as os) (same : ∀ a o, R a o → f o.made = f a) :
    (os.map (·.made)).map f = as.map f := by
  induction h with
  | nil => rfl
  | cons first _ ih => simp only [List.map_cons, same _ _ first, ih]

/-- An entity says in the end what the plan says, and asks for nothing. -/
theorem EntityOutcome.bare_eq {e : Entity} {o : Settled Entity}
    (h : EntityOutcome S targets ids e o) : o.made.bare = e.bare ∧ ¬ o.made.AsksForUid := by
  obtain ⟨ps, each, properties, -⟩ := h.contents.properties
  obtain ⟨rs, each', relations⟩ := h.contents.relations
  have made := h.contents.made
  constructor
  · have bare := map_made_eq each fun p q outcome => outcome.bare_eq
    have bare' := map_made_eq each' fun r q outcome => outcome.bare_eq
    rw [← properties] at bare
    rw [← relations] at bare'
    rw [Entity.bare, Entity.bare, bare, bare', made]
  · rintro (asks | ⟨p, hp, asks⟩ | ⟨r, hr, asks⟩)
    · rw [made] at asks
      cases asks
    · rw [properties] at hp
      obtain ⟨q, hq, rfl⟩ := List.mem_map.mp hp
      obtain ⟨_, -, outcome⟩ := exists_of_forall₂ each hq
      rw [outcome.made] at asks
      cases asks
    · rw [relations] at hr
      obtain ⟨q, hq, rfl⟩ := List.mem_map.mp hr
      obtain ⟨_, -, outcome⟩ := exists_of_forall₂ each' hq
      rw [outcome.made] at asks
      cases asks

/-- If drafts are merged into a consistent model and the result is consistent, then it says what the
plan says, and no element of it asks for its uid. -/
theorem bare_eq_of_merge {kinds : List PropertyKind} {drafts : List EntityDraft}
    {plan : List Entity} {notices : List Notice} {store store' : Store}
    (planned : Plan.ofDrafts kinds drafts = .ok plan) (stored : store.model.IsConsistent)
    (run : store.merge plan = .ok (notices, store')) (merged : store'.model.IsConsistent) :
    store'.model.entities.map Entity.bare = plan.map Entity.bare ∧
      ∀ y ∈ store'.model.entities, ¬ y.AsksForUid := by
  obtain ⟨-, os, made, -, outcomes⟩ :=
    outcome_of_merge run (Plan.properties_ne_nil planned) stored merged
  rw [made]
  refine ⟨map_made_eq outcomes fun e o outcome => outcome.bare_eq.1, ?_⟩
  intro y hy
  obtain ⟨o, ho, rfl⟩ := List.mem_map.mp hy
  obtain ⟨e, -, outcome⟩ := exists_of_forall₂ outcomes ho
  exact outcome.bare_eq.2

theorem bare_eq_of_merge_oneEntity :
    ∃ plan notices store', Plan.ofDrafts [] [.onlyId "Note", .onlyId "TASK"] = .ok plan ∧
      Store.merge plan ⟨oneEntity "Task", .counting⟩ = .ok (notices, store') ∧
      store'.model.IsConsistent ∧
      store'.model.entities.map Entity.bare = plan.map Entity.bare ∧
      ∀ y ∈ store'.model.entities, ¬ y.AsksForUid := by
  obtain ⟨plan, notices, store', planned, run, merged⟩ := exists_plan_of_merge []
    [.onlyId "Note", .onlyId "TASK"] ⟨oneEntity "Task", .counting⟩ (by decide)
  exact ⟨plan, notices, store', planned, run, merged,
    bare_eq_of_merge planned (by decide) run merged⟩

end Merge

end SchemaLedger
