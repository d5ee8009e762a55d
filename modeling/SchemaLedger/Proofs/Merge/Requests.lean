import SchemaLedger.Proofs.Draft.Requests
import SchemaLedger.Proofs.Merge.Contents
import SchemaLedger.Proofs.Merge.Diagnosis

/-!
# Requests for uids are answered

A schema asks which uid an element has by leaving the uid empty. As long as it does, nothing is
merged, and the answer is about the stored model: the uid is that of the stored element with this
name, and the uid that is offered in its place for a property is new to the model. The answer may be
found in the middle of a merge, but what it says does not depend on what was done before.
-/

namespace SchemaLedger

open Text

namespace Merge

section Silence

variable {S : Model} {plan : List Entity} {e : Entity} {store store' : Store}
variable {notices : List Notice}

/-- A match that was found was not asked for, unless a uid is given as well. -/
theorem Matched.not_asked {present : List UInt64} {named : Option UInt64} {given : UInt64}
    {asked : Bool} {f : Option UInt64} (h : Matched present named given asked f)
    (missing : asked = true → given = 0) : asked ≠ true := by
  intro is_asked
  cases h with
  | byUid is_given => exact is_given (missing is_asked)
  | byName _ silent => exact Bool.false_ne_true (silent.symm.trans is_asked)

theorem PropertyMatched.not_asked {owner : Entity} {p : Property} {f : Option PropertyMatch}
    (h : PropertyMatched S owner p f) (missing : p.AsksForMissing) : p.uidRequested ≠ true := by
  intro is_asked
  cases h with
  | byUid is_given => exact is_given (missing is_asked)
  | reset is_given => exact is_given (missing is_asked)
  | byName _ silent => exact Bool.false_ne_true (silent.symm.trans is_asked)

/-- If a plan is merged, nothing in it asks for its uid. -/
theorem not_asksForUid_of_merge (missing : ∀ e ∈ plan, e.AsksForMissing)
    (run : store.merge plan = .ok (notices, store')) : ∀ e ∈ plan, ¬ e.AsksForUid := by
  obtain ⟨found, settled, rs, phases⟩ := of_merge run
  obtain ⟨m₁, m₂, placed, steps, -⟩ := phases.steps
  intro e he asks
  have missing := missing e he
  rcases asks with asked | ⟨p, hp, asked⟩ | ⟨r, hr, asked⟩
  · obtain ⟨f, -, matched⟩ := exists_of_forall₂ phases.matched.flip he
    exact matched.not_asked missing.entity asked
  all_goals
    have lengths := length_settled placed phases.matched
    rw [← List.map_fst_zip (Nat.le_of_eq lengths)] at he
    obtain ⟨a, ha, rfl⟩ := List.mem_map.mp he
    obtain ⟨o, -, m, m', step⟩ := exists_of_forall₂ steps.each.flip ha
    obtain ⟨i, x, fs, ps, b₁, told₁, gs, qs, b₂, told₂, -, -, properties, relations, -, -⟩ := step
  · obtain ⟨f, -, matched⟩ := exists_of_forall₂ properties.matched.flip hp
    exact matched.not_asked (missing.properties p hp) asked
  · obtain ⟨f, -, matched⟩ := exists_of_forall₂ relations.matched.flip hr
    exact matched.not_asked (missing.relations r hr) asked

end Silence

/-! ### Answers -/

/-- The question is about an element of the plan that asks for its uid, and the answer is true of the
stored model: it is the uid of the stored element with this name, for a property or relation of the
one in the counterpart of its entity, or it is that there is none. A uid that is offered to replace
that of a property is new. -/
inductive IsAnswered (S : Model) (plan : List Entity) : UidQuestion → Prop
  | entity {x : Entity} : x ∈ plan → x.uidRequested = true →
      IsAnswered S plan (.entity x.name ((S.entity? x.name).map (·.id.uid)))
  | newProperty {x : Entity} {p : Property} : x ∈ plan → p ∈ x.properties →
      p.uidRequested = true → (S.counterpart x).property? p.name = none →
      IsAnswered S plan (.property x.name p.name none)
  | property {x : Entity} {p q : Property} {fresh : UInt64} : x ∈ plan → p ∈ x.properties →
      p.uidRequested = true → (S.counterpart x).property? p.name = some q → fresh ≠ 0 →
      ¬ S.Mentions fresh → IsAnswered S plan (.property x.name p.name (some (q.id.uid, fresh)))
  | relation {x : Entity} {r : Relation} : x ∈ plan → r ∈ x.relations → r.uidRequested = true →
      IsAnswered S plan
        (.relation x.name r.name (((S.counterpart x).relation? r.name).map (·.id.uid)))

section Answers

variable {S : Model} {plan : List Entity} {e : ModelError} {store : Store} {q : UidQuestion}

theorem EntityFault.isAnswered (h : EntityFault S plan e) (question : e.root = .uidRequested q) :
    IsAnswered S plan q := by
  cases h with
  | unknown => cases question
  | asked hx asked =>
      obtain rfl := ModelError.uidRequested.inj question
      exact .entity hx asked
  | claimedTwice => cases question

theorem PropertyFault.isAnswered {s : Store} {x owner : Entity} (consistent : S.IsConsistent)
    (hx : x ∈ plan) (same : owner.properties = (S.counterpart x).properties)
    (retains : S.Retains s.model) (h : PropertyFault s x owner e)
    (question : e.root = .uidRequested q) : IsAnswered S plan q := by
  cases h with
  | unknown => cases question
  | used => cases question
  | @asked p hp asked =>
      have stored : owner.property? p.name = (S.counterpart x).property? p.name := by
        rw [Entity.property?, Entity.property?, same]
      rcases propertyQuestion_cases s x p _ with
        ⟨unnamed, is⟩ | ⟨uid, fresh, named, is, new⟩ | is
      · rw [is] at question
        obtain rfl := ModelError.uidRequested.inj question
        rw [stored, Option.map_eq_none_iff] at unnamed
        exact .newProperty hx hp asked unnamed
      · rw [is] at question
        obtain rfl := ModelError.uidRequested.inj question
        rw [stored] at named
        obtain ⟨y, is_named, rfl⟩ := Option.map_eq_some_iff.mp named
        have unmentioned := consistent.not_mentions_of_fresh (retains.fresh new)
        exact .property hx hp asked is_named new.1 unmentioned
      · rw [is] at question
        cases question
  | claimedTwice => cases question

theorem RelationFault.isAnswered {x owner : Entity} (hx : x ∈ plan)
    (same : owner.relations = (S.counterpart x).relations) (h : RelationFault x owner e)
    (question : e.root = .uidRequested q) : IsAnswered S plan q := by
  cases h with
  | unknown => cases question
  | @asked r hr asked =>
      obtain rfl := ModelError.uidRequested.inj question
      have stored : owner.relation? r.name = (S.counterpart x).relation? r.name := by
        rw [Entity.relation?, Entity.relation?, same]
      rw [stored]
      exact .relation hx hr asked
  | claimedTwice => cases question

/-- If an element of a plan asks for its uid, then merging into a consistent model fails, and if the
error is such a question, then it is about an element that asks, with an answer that is true of the
stored model. -/
theorem isAnswered_of_merge {kinds : List PropertyKind} {drafts : List EntityDraft}
    (planned : Plan.ofDrafts kinds drafts = .ok plan) (stored : store.model.IsConsistent)
    (asks : ∃ x ∈ plan, x.AsksForUid) :
    ∃ e, store.merge plan = .error e ∧
      ∀ q, e.root = .uidRequested q → IsAnswered store.model plan q := by
  obtain ⟨x, hx, asks⟩ := asks
  cases run : store.merge plan with
  | ok merged =>
      have silent := not_asksForUid_of_merge (Plan.asksForMissing planned) run x hx
      exact absurd asks silent
  | error e =>
      refine ⟨e, rfl, fun q question => ?_⟩
      rcases cause_of_merge stored.distinctUids run with
        (unmatched | ⟨hx, -, same, retains, unmatched⟩ | ⟨hx, -, same, unmatched⟩) |
        ⟨x, -, r, -, missing, -⟩ | exhausted
      · exact (entityFault_of_matchEntities unmatched).isAnswered question
      · have fault := propertyFault_of_matchProperties unmatched
        exact fault.isAnswered stored hx same retains question
      · exact (relationFault_of_matchRelations unmatched).isAnswered hx same question
      · cases missing.symm.trans question
      · cases exhausted.symm.trans question

/-- The property is asked for after another entity has been merged and has taken the name of the
stored entity that it belongs to. -/
theorem isAnswered_of_merge_swapped :
    ∃ (plan : List Entity) (e : ModelError),
      Plan.ofDrafts [] (swappedWith [
        { name := "ID", base := .long, annotations := uidAnnotation "" }]) = .ok plan ∧
      taskAndNote.IsConsistent ∧ (∃ x ∈ plan, x.AsksForUid) ∧
      Store.merge plan ⟨taskAndNote, .counting⟩ = .error e ∧
      e.root = .uidRequested (.property "Note" "ID" (some (2, 5))) ∧
      ∀ q, e.root = .uidRequested q → IsAnswered taskAndNote plan q := by
  obtain ⟨plan, planned, failed⟩ := exists_plan_of_failing_merge []
    (swappedWith [{ name := "ID", base := .long, annotations := uidAnnotation "" }])
    ⟨taskAndNote, .counting⟩
    (.within (.entity "Note") (.uidRequested (.property "Note" "ID" (some (2, 5)))))
    (by decide +kernel)
  have asked : (Plan.ofDrafts []
      (swappedWith [{ name := "ID", base := .long, annotations := uidAnnotation "" }])).map
      (·.any fun x => x.properties.any (·.uidRequested)) = .ok true := by
    decide +kernel
  have asks : ∃ x ∈ plan, x.AsksForUid := by
    rw [planned] at asked
    have asked := Except.ok.inj asked
    obtain ⟨x, hx, some_asks⟩ := List.any_eq_true.mp asked
    exact ⟨x, hx, .inr (.inl (List.any_eq_true.mp some_asks))⟩
  have stored : taskAndNote.IsConsistent := by decide
  obtain ⟨e, run, answered⟩ : ∃ e, Store.merge plan ⟨taskAndNote, .counting⟩ = .error e ∧
      ∀ q, e.root = .uidRequested q → IsAnswered taskAndNote plan q :=
    isAnswered_of_merge planned stored asks
  obtain rfl := Except.error.inj (failed.symm.trans run)
  exact ⟨plan, _, planned, stored, asks, failed, rfl, answered⟩

end Answers

end Merge

end SchemaLedger
