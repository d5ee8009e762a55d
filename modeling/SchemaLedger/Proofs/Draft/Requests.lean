import SchemaLedger.Proofs.Draft.Declaration

/-!
# What asks for its uid

An annotation gives the uid of an element or asks for it, and it is the only one that does either.
So an element of a plan that asks for its uid has none.
-/

namespace SchemaLedger

theorem FollowsUid.missing {text : Option String} {id : IdPair} {asked : Bool}
    (h : FollowsUid text id asked) (asks : asked = true) : id.uid = 0 := by
  cases h with
  | silent => rfl
  | requested => rfl
  | given => cases asks

/-- A property that asks for its uid has none. -/
def Property.AsksForMissing (p : Property) : Prop := p.uidRequested = true → p.id.uid = 0

/-- Whatever in the entity asks for its uid has none. -/
structure Entity.AsksForMissing (e : Entity) : Prop where
  entity : e.uidRequested = true → e.id.uid = 0
  properties : ∀ p ∈ e.properties, p.AsksForMissing
  relations : ∀ r ∈ e.relations, r.uidRequested = true → r.id.uid = 0

theorem EntityDraft.Declares.asksForMissing {draft : EntityDraft} {e : Entity}
    (h : draft.Declares e) : e.AsksForMissing where
  entity := h.uid.missing
  properties p hp := by
    obtain ⟨field, -, declares⟩ := exists_of_forall₂ h.properties hp
    exact declares.uid.missing
  relations r hr := by
    obtain ⟨group, -, declares⟩ := exists_of_forall₂ h.relations hr
    exact declares.uid.missing

/-- What asks for its uid in a plan has none. -/
theorem Plan.asksForMissing {kinds : List PropertyKind} {drafts : List EntityDraft}
    {plan : List Entity} (h : ofDrafts kinds drafts = .ok plan) : ∀ e ∈ plan, e.AsksForMissing := by
  intro e he
  obtain ⟨draft, -, declares⟩ := exists_of_forall₂ (declares h) he
  exact declares.asksForMissing

end SchemaLedger
