import SchemaLedger.Proofs.Merge.Draws
import SchemaLedger.Proofs.Merge.Forgetting
import SchemaLedger.Proofs.Merge.Idempotence
import SchemaLedger.Proofs.Model.Lossless

/-!
# Merging after reloading

All that a document forgets is taken from the plan when an element is merged, and no element is left
out. So what merging makes of a model is known from what a document keeps of the result, and a model
that is saved and loaded before the next merge gives the same result as one that stays in memory.
-/

namespace SchemaLedger

open Text

/-! ### What an element takes from the plan -/

/-- Except for its identifiers, the property is as planned. -/
def Property.IsMadeFrom (q p : Property) : Prop :=
  p = { q with id := p.id, index := p.index, uidRequested := false }

/-- Except for its identifiers, the relation is as planned. -/
def Relation.IsMadeFrom (q r : Relation) : Prop :=
  r = { q with id := r.id, targetId := r.targetId, uidRequested := false }

/-- Except for its identifiers, the entity is as planned, and so is all that belongs to it. -/
structure Entity.IsMadeFrom (a e : Entity) : Prop where
  itself : e = { a with
    id := e.id, lastProperty := e.lastProperty, properties := e.properties
    relations := e.relations, uidRequested := false }
  properties : ∀ p ∈ e.properties, ∃ q ∈ a.properties, q.IsMadeFrom p
  relations : ∀ r ∈ e.relations, ∃ q ∈ a.relations, q.IsMadeFrom r

section Unique

variable {α : Type} (kept : α → α) (name : α → String) (R : α → α → Prop)
variable {originals xs ys : List α}

/-- Elements that a document does not tell apart are the same if they are made from originals with
distinct names, and nothing is left open by the original and by what is kept. -/
theorem eq_of_map_kept_eq (distinct : (originals.map fun a => foldCase (name a)).Nodup)
    (named : ∀ a x, R a x → name x = name a) (blind : ∀ x, name (kept x) = name x)
    (determined : ∀ a ∈ originals, ∀ x y, R a x → R a y → kept x = kept y → x = y)
    (of_xs : ∀ x ∈ xs, ∃ a ∈ originals, R a x) (of_ys : ∀ y ∈ ys, ∃ a ∈ originals, R a y)
    (alike : xs.map kept = ys.map kept) : xs = ys := by
  have each : List.Forall₂ (fun x y => kept x = kept y) xs ys :=
    List.forall₂_map_left_iff.mp (List.forall₂_map_right_iff.mp (List.forall₂_eq_eq_eq ▸ alike))
  refine List.forall₂_eq_eq_eq ▸ (List.forall₂_iff_zip.mpr ⟨each.length_eq, fun {x y} both => ?_⟩)
  have same : kept x = kept y := (List.forall₂_iff_zip.mp each).2 both
  obtain ⟨a, ha, from_a⟩ := of_xs x (List.of_mem_zip both).1
  obtain ⟨b, hb, from_b⟩ := of_ys y (List.of_mem_zip both).2
  have names : name a = name b := by
    rw [← named a x from_a, ← named b y from_b, ← blind x, same, blind]
  obtain rfl : a = b := List.inj_on_of_nodup_map distinct ha hb (by rw [names])
  exact determined a ha x y from_a from_b same

end Unique

theorem Property.IsMadeFrom.name_eq {q p : Property} (h : q.IsMadeFrom p) : p.name = q.name := by
  rw [h]

theorem Relation.IsMadeFrom.name_eq {q r : Relation} (h : q.IsMadeFrom r) : r.name = q.name := by
  rw [h]

theorem Entity.IsMadeFrom.name_eq {a e : Entity} (h : a.IsMadeFrom e) : e.name = a.name := by
  rw [h.itself]

theorem Property.IsMadeFrom.eq {q p p' : Property} (h : q.IsMadeFrom p) (h' : q.IsMadeFrom p')
    (alike : p.kept = p'.kept) : p = p' := by
  have id : p.id = p'.id := congrArg (·.id) alike
  have index : p.index = p'.index := congrArg (·.index) alike
  rw [IsMadeFrom, id, index] at h
  exact h.trans h'.symm

theorem Relation.IsMadeFrom.eq {q r r' : Relation} (h : q.IsMadeFrom r) (h' : q.IsMadeFrom r')
    (alike : r.kept = r'.kept) : r = r' := by
  have id : r.id = r'.id := congrArg (·.id) alike
  have target : r.targetId = r'.targetId := congrArg (·.targetId) alike
  rw [IsMadeFrom, id, target] at h
  exact h.trans h'.symm

theorem Entity.IsMadeFrom.eq {a e e' : Entity} (planned : a.IsPlanned) (h : a.IsMadeFrom e)
    (h' : a.IsMadeFrom e') (alike : e.kept = e'.kept) : e = e' := by
  have id : e.id = e'.id := congrArg (·.id) alike
  have last : e.lastProperty = e'.lastProperty := congrArg (·.lastProperty) alike
  have properties : e.properties = e'.properties :=
    eq_of_map_kept_eq Property.kept Property.name Property.IsMadeFrom planned.propertyNames
      (fun _ _ => Property.IsMadeFrom.name_eq) (fun _ => rfl)
      (fun _ _ _ _ => Property.IsMadeFrom.eq) h.properties h'.properties
      (congrArg (·.properties) alike)
  have relations : e.relations = e'.relations :=
    eq_of_map_kept_eq Relation.kept Relation.name Relation.IsMadeFrom planned.relationNames.2
      (fun _ _ => Relation.IsMadeFrom.name_eq) (fun _ => rfl)
      (fun _ _ _ _ => Relation.IsMadeFrom.eq) h.relations h'.relations
      (congrArg (·.relations) alike)
  have itself := h.itself
  rw [id, last, properties, relations] at itself
  exact itself.trans h'.itself.symm

namespace Merge

variable {S M m m' : Model} {targets : Targets} {a : Entity × UInt64 × Bool} {r : Settled Entity}
variable {plan : List Entity} {notices : List Notice} {found : List (Option UInt64)}
variable {settled : List (UInt64 × Bool)} {rs : List (Settled Entity)}

section Within

variable {i : Nat} {b b' : Site} {planned : Entity} {isNew : Bool}

theorem PropertiesMerged.isMadeFrom {found : List (Option PropertyMatch)}
    {rs : List (Settled Property)} (h : PropertiesMerged m i planned isNew b found rs b' notices)
    (lt : i < m.entities.length) (distinct : (b.entity.properties.map (·.id.uid)).Nodup) :
    ∀ p ∈ b'.entity.properties, ∃ q ∈ planned.properties, q.IsMadeFrom p := by
  obtain ⟨-, perm⟩ := h.settles lt distinct
  obtain ⟨c, steps, -⟩ := h.steps
  obtain ⟨-, each⟩ := steps.invariant (I := fun _ => True) (R := fun a r => a.1.IsMadeFrom r.made)
    trivial fun _ _ _ _ _ _ step _ => ⟨trivial, step.made⟩
  intro p hp
  obtain ⟨r, hr, rfl⟩ := List.mem_map.mp (perm.mem_iff.mp hp)
  obtain ⟨a, ha, made⟩ := exists_of_forall₂ each hr
  exact ⟨a.1, (List.of_mem_zip ha).1, made⟩

theorem RelationsMerged.isMadeFrom {found : List (Option UInt64)} {xs : List (Settled Relation)}
    (h : RelationsMerged m i planned isNew targets b found xs b' notices)
    (lt : i < m.entities.length) (distinct : (b.entity.relations.map (·.id.uid)).Nodup) :
    ∀ r ∈ b'.entity.relations, ∃ q ∈ planned.relations, q.IsMadeFrom r := by
  obtain ⟨-, perm⟩ := h.settles lt distinct
  obtain ⟨c, steps, -⟩ := h.steps
  obtain ⟨-, each⟩ := steps.invariant (I := fun _ => True) (R := fun a x => a.1.IsMadeFrom x.made)
    trivial fun _ _ _ _ _ _ step _ => ⟨trivial, step.made⟩
  intro r hr
  obtain ⟨x, hx, rfl⟩ := List.mem_map.mp (perm.mem_iff.mp hr)
  obtain ⟨a, ha, made⟩ := exists_of_forall₂ each hx
  exact ⟨a.1, (List.of_mem_zip ha).1, made⟩

end Within

/-- What merging makes of an entity is made from the planned one. -/
theorem EntityStep.isMadeFrom (h : EntityStep targets m a r m') {x : Entity}
    (found : r.found = some x) (distinct : DistinctUids x) : a.1.IsMadeFrom r.made := by
  obtain ⟨i, x, fs, ps, b₁, told₁, gs, rs, b₂, told₂, at_i, -, properties, relations, rfl, rfl⟩ :=
    h
  obtain rfl := Option.some.inj found
  obtain ⟨lt, -⟩ := List.getElem?_eq_some_iff.mp at_i
  have entity₁ := properties.entity_eq
  have entity₂ := relations.entity_eq
  have properties₂ : b₂.entity.properties = b₁.entity.properties := by rw [entity₂]
  have relations₁ : b₁.entity.relations = x.relations := by rw [entity₁]; rfl
  refine ⟨?_, ?_, relations.isMadeFrom lt (by rw [relations₁]; exact distinct.relations)⟩
  · have id₂ : b₂.entity.id = x.id := by rw [entity₂, entity₁]; rfl
    have last₂ : b₂.entity.lastProperty = b₁.entity.lastProperty := by rw [entity₂]
    change b₂.entity = _
    conv_lhs => rw [entity₂, entity₁]
    simp only [properties₂, last₂, id₂]
    rfl
  · change ∀ p ∈ b₂.entity.properties, _
    rw [properties₂]
    exact properties.isMadeFrom lt distinct.properties

/-- If the stored uids are distinct, then all entities that result are made from planned ones. -/
theorem PlanMerged.isMadeFrom (h : PlanMerged S plan M notices found settled rs)
    (distinct : (S.entities.map (·.id.uid)).Nodup)
    (distinctUids : ∀ e ∈ S.entities, DistinctUids e) :
    ∀ e ∈ M.entities, ∃ a ∈ plan, a.IsMadeFrom e := by
  obtain ⟨m₁, m₂, placed, steps, rfl⟩ := h.steps
  obtain ⟨distinct₁, uids⟩ := uids_perm_settled placed distinct h.matched h.distinct
  obtain ⟨all, perm⟩ :=
    entitySteps_settle steps (length_settled placed h.matched) distinct₁ uids
  have distinctUids₁ := distinctUids_settled placed
    fun e he => distinctUids e (List.mem_of_mem_filter he)
  obtain ⟨-, each⟩ := steps.invariant (I := fun _ => True) (R := fun a r => a.1.IsMadeFrom r.made)
    trivial (by
      intro s t a _ r hr step _
      obtain ⟨x, there, -⟩ := Option.map_eq_some_iff.mp step.replaces.2.1
      exact ⟨trivial, step.isMadeFrom there (distinctUids₁ x (mem_of_found all hr there))⟩)
  intro e he
  rw [upgrade_entities] at he
  obtain ⟨r, hr, rfl⟩ := List.mem_map.mp (perm.mem_iff.mp (mem_reorder.mp he))
  obtain ⟨a, ha, made⟩ := exists_of_forall₂ each hr
  exact ⟨a.1, (List.of_mem_zip ha).1, made⟩

end Merge

/-! ### Models of a history -/

/-- The model is new, or it was read from a document, or it is what a merge of some plan into such a
model has left, with whatever source of uids. A merge that fails leaves a model, too. -/
inductive Model.Arises : Model → Prop
  | new : Arises .empty
  | read {s : String} {m : Model} : Model.read s = .ok m → Arises m
  | merged {m : Model} {plan : List Entity} {notices : List Notice} {uids : UidSource}
    {store : Store} : Arises m → Store.merge plan ⟨m, uids⟩ = .ok (notices, store) →
      Arises store.model
  | failed {m : Model} {plan : List Entity} {e : ModelError} {uids : UidSource} {store : Store} :
      Arises m → Merge.mergePlan plan ⟨m, uids⟩ = .error e store → Arises store.model

theorem Model.Arises.notes {m : Model} (h : m.Arises) : m.notes = .current := by
  induction h with
  | new => rfl
  | read run =>
      rw [← Model.kept_of_read run]
      rfl
  | merged _ run so_far =>
      obtain ⟨_, _, _, phases⟩ := Merge.of_merge run
      exact phases.header.1.trans so_far
  | @failed _ plan _ _ _ _ run so_far =>
      exact ((Merge.draws_mergePlan plan).of_error run).notes.trans so_far

/-- Models with the same notes and the same entities of which a document keeps the same are the
same. -/
theorem Model.eq_of_kept_eq {m m' : Model} (alike : m.kept = m'.kept)
    (notes : m.notes = m'.notes) (entities : m.entities = m'.entities) : m = m' := by
  calc m = { m.kept with notes := m.notes, entities := m.entities } := rfl
    _ = { m'.kept with notes := m'.notes, entities := m'.entities } := by
        rw [alike, notes, entities]
    _ = m' := rfl

/-- Merging the same plan into alike consistent models with the same notes gives the same. -/
theorem Merge.merge_eq_of_alike {kinds : List PropertyKind} {drafts : List EntityDraft}
    {plan : List Entity} {s t : Store} (planned : Plan.ofDrafts kinds drafts = .ok plan)
    (alike : s.Alike t) (notes : s.model.notes = t.model.notes) (consistent : s.model.IsConsistent)
    (consistent' : t.model.IsConsistent) : s.merge plan = t.merge plan := by
  have agree := agree_mergePlan plan s t alike
  have outcome {s s' : Store} {told : List Notice} (run : mergePlan plan s = .ok told s')
      (consistent : s.model.IsConsistent) :
      s'.model.notes = s.model.notes ∧ ∀ e ∈ s'.model.entities, ∃ a ∈ plan, a.IsMadeFrom e := by
    obtain ⟨_, _, _, phases⟩ := of_mergePlan run
    exact ⟨phases.header.1,
      phases.isMadeFrom consistent.distinctUids (distinctUids_of_isConsistent consistent)⟩
  unfold Store.merge
  generalize run : mergePlan plan s = r at agree
  generalize run' : mergePlan plan t = r' at agree
  cases agree with
  | error => rfl
  | @ok told told' s' t' same alike' =>
      -- The results are alike, and what makes no difference there is fixed by the plan.
      obtain ⟨notes₁, made₁⟩ := outcome run consistent
      obtain ⟨notes₂, made₂⟩ := outcome run' consistent'
      have entities : s'.model.entities = t'.model.entities :=
        eq_of_map_kept_eq Entity.kept Entity.name Entity.IsMadeFrom (Plan.distinctNames planned)
          (fun _ _ => Entity.IsMadeFrom.name_eq) (fun _ => rfl)
          (fun a ha _ _ => Entity.IsMadeFrom.eq (Plan.isPlanned planned a ha)) made₁ made₂
          (congrArg (·.entities) alike'.model)
      have model : s'.model = t'.model :=
        Model.eq_of_kept_eq alike'.model (notes₁.trans (notes.trans notes₂.symm)) entities
      obtain ⟨m, uids⟩ := s'
      obtain ⟨m', uids'⟩ := t'
      obtain rfl : m = m' := model
      obtain rfl : uids = uids' := alike'.uids
      rw [same]

/-- A consistent model from any history is read back from its document, and merging a plan into what
was read gives the same as merging it into the model itself: the same error, or the same notices and
the same store, with all that no document keeps. -/
theorem merge_after_reloading {kinds : List PropertyKind} {drafts : List EntityDraft}
    {plan : List Entity} {m : Model} (planned : Plan.ofDrafts kinds drafts = .ok plan)
    (arises : m.Arises) (consistent : m.IsConsistent) (uids : UidSource) :
    ∃ m', Model.read m.text = .ok m' ∧
      Store.merge plan ⟨m', uids⟩ = Store.merge plan ⟨m, uids⟩ := by
  have read : Model.read m.text = .ok m.kept := Model.read_text consistent
  obtain ⟨-, -, -, consistent'⟩ := Model.read_eq_ok.mp read
  refine ⟨m.kept, read, Merge.merge_eq_of_alike planned ⟨rfl, m.kept_kept⟩ ?_ consistent'
    consistent⟩
  exact arises.notes.symm

/-- A schema with a comment, an optional field and a relation, whose target is written by name. -/
def remarked : List EntityDraft :=
  [{ name := "Note"
     comments := ["not in the document"]
     annotations := KeyMap.empty.insert (Annotations.relationKey 0 "tags")
      (.group "relation" ((KeyMap.empty.insert "name" (.value "tags")).insert "to" (.value "Tag")))
     fields := [
      { name := "id", base := .long },
      { name := "text", base := .string,
        annotations := KeyMap.empty.insert "optional" (.value "Maybe") }] },
    .onlyId "Tag"]

theorem merge_after_reloading_remarked :
    ∃ plan m, Plan.ofDrafts [] remarked = .ok plan ∧ m.Arises ∧ m.IsConsistent ∧ m.kept ≠ m ∧
      ∃ m', Model.read m.text = .ok m' ∧
        Store.merge plan ⟨m', .counting⟩ = Store.merge plan ⟨m, .counting⟩ := by
  obtain ⟨plan, notices, store, planned, run, consistent⟩ :=
    Merge.exists_plan_of_merge [] remarked ⟨.empty, .counting⟩ (by decide +kernel)
  have forgotten : (do
      let plan ← Plan.ofDrafts [] remarked
      let result ← Store.merge plan ⟨.empty, .counting⟩
      return decide (result.2.model.kept = result.2.model)) = Except.ok false := by decide +kernel
  have arises : store.model.Arises := .merged .new run
  refine ⟨plan, store.model, planned, arises, consistent, ?_,
    merge_after_reloading planned arises consistent .counting⟩
  simpa [planned, run, bind, Except.bind, pure, Except.pure] using forgotten

end SchemaLedger
