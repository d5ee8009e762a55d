import Mathlib.Data.List.Nodup
import SchemaLedger.Draft.Plan
import SchemaLedger.Proofs.Draft.Marks
import SchemaLedger.Proofs.Draft.Omission
import SchemaLedger.Proofs.Model.Flags

/-!
# What a plan ensures

Every entity of a plan has exactly one ID, which is a signed long, however it was selected. Names
are distinct without regard to case, and relations have names.
-/

namespace SchemaLedger

open Text

variable {kinds : List PropertyKind}

/-! ### The ID -/

namespace Flags

theorem contains_objectId (flags : Flags) :
    ((flags ∪ objectId).without unsigned).Contains objectId := by
  apply (contains_without_iff (by decide)).mpr
  constructor
  · exact (contains_union_iff (by decide)).mpr (.inr (by decide))
  · decide

theorem not_contains_unsigned (flags : Flags) : ¬ (flags.without unsigned).Contains unsigned := by
  rw [contains_without_iff (by decide)]
  exact fun h => h.2 (by decide)

end Flags

namespace Entity

variable {e e' : Entity} {j : Nat}

theorem mem_positionsOf {p : Property → Bool} {k : Nat} :
    k ∈ e.positionsOf p ↔ ∃ q, e.properties[k]? = some q ∧ p q := by
  simp [positionsOf, List.mem_zipIdx_iff_getElem?]

/-- The property that is selected is there, and no other one is marked as the ID. -/
theorem of_selectId (h : e.selectId kinds = .ok j) :
    (∃ q, e.properties[j]? = some q) ∧ ∀ k q, e.properties[k]? = some q → q.IsId → k = j := by
  unfold selectId at h
  split at h
  · next i marked =>
      obtain rfl := Except.ok.inj h
      obtain ⟨q, there, -⟩ := mem_positionsOf.mp (marked ▸ List.mem_singleton.mpr rfl)
      refine ⟨⟨q, there⟩, fun k q at_k isId => ?_⟩
      have listed : k ∈ e.positionsOf fun p => p.IsId :=
        mem_positionsOf.mpr ⟨q, at_k, by simpa using isId⟩
      rw [marked] at listed
      exact List.mem_singleton.mp listed
  · cases h
  · next unmarked =>
      have none_marked (k : Nat) (q : Property) (at_k : e.properties[k]? = some q) :
          ¬ q.IsId := by
        intro isId
        have listed : k ∈ e.positionsOf fun p => p.IsId :=
          mem_positionsOf.mpr ⟨q, at_k, by simpa using isId⟩
        simp [unmarked] at listed
      split at h
      · next i named =>
          obtain rfl := Except.ok.inj h
          obtain ⟨q, there, -⟩ := mem_positionsOf.mp (named ▸ List.mem_singleton.mpr rfl)
          exact ⟨⟨q, there⟩, fun k q at_k isId => absurd isId (none_marked k q at_k)⟩
      · cases h
      · cases h

/-- What a schema ensures of an entity: exactly one property is the ID, as a signed long, no two
properties and no two relations have the same name, and relations have names. -/
structure IsPlanned (e : Entity) : Prop where
  oneId : (e.properties.countP fun p => p.IsId) = 1
  idKind : ∀ p ∈ e.properties, p.IsId → p.kind = .long ∧ ¬ p.flags.Contains .unsigned
  propertyNames : (e.properties.map fun p => foldCase p.name).Nodup
  relationNames : (∀ r ∈ e.relations, r.name ≠ "") ∧
    (e.relations.map fun r => foldCase r.name).Nodup

theorem IsPlanned.properties_ne_nil (h : e.IsPlanned) : e.properties ≠ [] := by
  intro none_left
  have one := h.oneId
  simp [none_left] at one

theorem of_checkNames (h : e.checkNames = .ok ()) :
    (e.properties.map fun p => foldCase p.name).Nodup ∧
      (e.relations.map fun r => foldCase r.name).Nodup := by
  simp only [checkNames, Check.bind_eq_ok] at h
  constructor
  · exact List.pairwise_map.mpr
      (Check.pairwise_of_eachAfter h.1 fun _ _ _ passed => Check.require_eq_ok.mp passed)
  · exact List.pairwise_map.mpr
      (Check.pairwise_of_eachAfter h.2 fun _ _ _ passed => Check.require_eq_ok.mp passed)

/-- If an ID is selected, it is changed in its place, and no property before or after it is
marked. -/
theorem exists_split_of_withId (h : e.withId kinds = .ok e') :
    ∃ j before p after, e.selectId kinds = .ok j ∧ before.length = j ∧
      e.properties = before ++ p :: after ∧ (∀ q ∈ before ++ after, ¬ q.IsId) ∧
      e' = { e with properties := before ++ asId p :: after } := by
  simp only [withId, except_bind_eq_ok, except_pure_eq_ok] at h
  obtain ⟨j, selected, _, -, _, -, rfl⟩ := h
  obtain ⟨⟨p, there⟩, only⟩ := of_selectId selected
  obtain ⟨lt, at_j⟩ := List.getElem?_eq_some_iff.mp there
  obtain ⟨before, q, after, split, position, modified⟩ := List.exists_of_modify asId lt
  refine ⟨j, before, q, after, selected, position, split, ?_, by rw [modified]⟩
  intro x hx isId
  rcases List.mem_append.mp hx with hx | hx
  · obtain ⟨k, at_k⟩ := List.mem_iff_getElem?.mp hx
    have short := (List.getElem?_eq_some_iff.mp at_k).1
    have := only k x (by rw [split, List.getElem?_append_left short, at_k]) isId
    omega
  · obtain ⟨k, at_k⟩ := List.mem_iff_getElem?.mp hx
    have := only (before.length + (k + 1)) x (by
      rw [split, List.getElem?_append_right (Nat.le_add_right _ _)]
      simpa using at_k) isId
    omega

/-- An entity with its ID selected has exactly one. -/
theorem countP_isId_of_withId (h : e.withId kinds = .ok e') :
    (e'.properties.countP fun p => p.IsId) = 1 := by
  obtain ⟨j, before, p, after, -, -, -, unmarked, rfl⟩ := exists_split_of_withId h
  have isId : (asId p).IsId := Flags.contains_objectId p.flags
  have zero (xs : List Property) (hxs : xs ⊆ before ++ after) :
      (xs.countP fun p => p.IsId) = 0 :=
    List.countP_eq_zero.mpr fun x hx => by simpa using unmarked x (hxs hx)
  rw [List.countP_append, List.countP_cons_of_pos (by simpa using isId),
    zero before (List.subset_append_left _ _), zero after (List.subset_append_right _ _)]

/-- An entity with its ID selected is as a schema ensures, provided that its relations have
names. -/
theorem isPlanned_of_withId (h : e.withId kinds = .ok e') (named : ∀ r ∈ e.relations, r.name ≠ "") :
    e'.IsPlanned := by
  have oneId := countP_isId_of_withId h
  obtain ⟨j, before, p, after, -, -, split, unmarked, rfl⟩ := exists_split_of_withId h
  simp only [withId, except_bind_eq_ok, except_pure_eq_ok] at h
  obtain ⟨_, -, _, names, -⟩ := h
  obtain ⟨properties, relations⟩ := of_checkNames names
  refine ⟨oneId, ?_, ?_, named, relations⟩
  · intro x hx marked
    rcases List.mem_append.mp hx with hx | hx
    · exact absurd marked (unmarked x (List.mem_append_left _ hx))
    · rcases List.mem_cons.mp hx with rfl | hx
      · exact ⟨rfl, Flags.not_contains_unsigned _⟩
      · exact absurd marked (unmarked x (List.mem_append_right _ hx))
  · rw [split] at properties
    simpa [asId] using properties

end Entity

/-! ### Plans -/

namespace Plan

variable {plan : List Entity} {drafts : List EntityDraft}

theorem isPlanned_of_ofDraft {draft : EntityDraft} {e : Entity}
    (h : ofDraft kinds draft = .ok (some e)) : e.IsPlanned := by
  obtain ⟨x, properties, declared, -, selected⟩ := steps_of_ofDraft h
  obtain ⟨relations, added, declares⟩ := (Entity.isMarked_of_annotate declared).relations
  refine Entity.isPlanned_of_withId selected fun r hr => ?_
  rw [added, List.nil_append] at hr
  obtain ⟨group, -, declares⟩ := exists_of_forall₂ declares hr
  exact declares.named

/-- Adding drafts keeps the names distinct, and every entity that is added is as a schema
ensures. -/
theorem of_addDrafts {before : List Entity} (h : addDrafts kinds before drafts = .ok plan)
    (planned : ∀ e ∈ before, e.IsPlanned) (distinct : (before.map fun e => foldCase e.name).Nodup) :
    (∀ e ∈ plan, e.IsPlanned) ∧ (plan.map fun e => foldCase e.name).Nodup := by
  induction drafts generalizing before with
  | nil =>
      obtain rfl : before = plan := by simpa [addDrafts] using h
      exact ⟨planned, distinct⟩
  | cons draft drafts ih =>
      simp only [addDrafts, except_bind_eq_ok, Place.wrap_eq_ok] at h
      obtain ⟨made, from_draft, h⟩ := h
      cases made with
      | none => exact ih h planned distinct
      | some e =>
          simp only at h
          split at h
          · cases h
          · next unused =>
              refine ih h ?_ ?_
              · intro f hf
                rcases List.mem_append.mp hf with hf | hf
                · exact planned f hf
                · obtain rfl := List.mem_singleton.mp hf
                  exact isPlanned_of_ofDraft from_draft
              · rw [List.map_append, List.map_singleton]
                refine List.nodup_append.mpr ⟨distinct, List.nodup_singleton _, ?_⟩
                rintro _ hn _ hm rfl
                obtain ⟨f, hf, same⟩ := List.mem_map.mp hn
                exact unused ⟨f, hf, same.trans (List.mem_singleton.mp hm)⟩

/-- Every entity of a plan is as a schema ensures. -/
theorem isPlanned (h : ofDrafts kinds drafts = .ok plan) : ∀ e ∈ plan, e.IsPlanned :=
  (of_addDrafts h nofun List.nodup_nil).1

/-- No two entities of a plan have the same name. -/
theorem distinctNames (h : ofDrafts kinds drafts = .ok plan) :
    (plan.map fun e => foldCase e.name).Nodup :=
  (of_addDrafts h nofun List.nodup_nil).2

/-- Every entity of a plan has properties. -/
theorem properties_ne_nil (h : ofDrafts kinds drafts = .ok plan) :
    ∀ e ∈ plan, e.properties ≠ [] := fun e he => (isPlanned h e he).properties_ne_nil

end Plan

/-- The draft of an entity with nothing but an ID. -/
def EntityDraft.onlyId (name : String) : EntityDraft :=
  { name, fields := [{ name := "id", base := .long }] }

end SchemaLedger
