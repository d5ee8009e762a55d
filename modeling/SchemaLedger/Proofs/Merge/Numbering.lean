import SchemaLedger.Proofs.Merge.Uniqueness
import SchemaLedger.Proofs.Store.Numbering

/-!
# Merging keeps local ids in order

Entities, indexes and relations are counted in the model as a whole, properties in each entity. If
the schema gives no uid to a property, then no property is reset, and what is new in a scope follows
its last identifier. So the identifiers of all scopes stay in order until a count comes to its end.
-/

namespace SchemaLedger

namespace Merge

variable {S M m m' : Model} {targets : Targets}

/-- A model in order whose uids are apart assigns its identifiers properly. -/
theorem isAssigned_of_hasOrderedIds (ids : m.HasOrderedIds) (unique : m.HasUniqueUids) :
    IsAssigned m where
  numbered _ he := ids.entities.assigned _ (List.mem_map_of_mem he)
  allNumbered e he := {
    properties := fun p hp =>
      ⟨(ids.properties e he).assigned _ (List.mem_map_of_mem hp), fun index there =>
        ids.indexes.assigned index (Model.mem_indexIds.mpr ⟨e, he, p, hp, there⟩)⟩
    relations := fun _ r hr =>
      ids.relations.assigned _ (Model.mem_relationIds.mpr ⟨e, he, r, hr, rfl⟩) }
  distinct := unique.entityUids
  distinctUids _ he := unique.distinctUids he

/-! ### Properties -/

/-- The property identifiers are in order in every entity. -/
def PropertiesInOrder (m : Model) : Prop :=
  ∀ e ∈ m.entities, (m.siteOf e).books.AreInOrder .property

theorem PropertiesInOrder.keepEntities (h : PropertiesInOrder m) (keep : Entity → Bool) :
    PropertiesInOrder (m.keepEntities keep) := fun e he =>
  (h e (List.mem_of_mem_filter he)).mono (List.subset_append_left _ _)

theorem propertiesInOrder_of_settling {xs : List (Entity × Option UInt64)}
    {settled : List (UInt64 × Bool)} (h : Traversal EntityPlaced m xs settled m')
    (start : PropertiesInOrder m) : PropertiesInOrder m' := by
  refine h.preserves (I := PropertiesInOrder) start ?_
  intro m m' a _ u _ step so_far
  cases step with
  | found => exact so_far
  | created =>
      intro e he
      rcases List.mem_append.mp he with he | he
      · exact so_far e he
      · obtain rfl := List.mem_singleton.mp he
        exact .nil _

/-- Merging an entity to whose properties the schema gives no uid keeps its property identifiers in
order, unless the count comes to its end. -/
theorem EntityStep.propertiesInOrder {a : Entity × UInt64 × Bool} {r : Settled Entity}
    (h : EntityStep targets m a r m') {x : Entity} (found : r.found = some x)
    (distinct : DistinctUids x) (assigned : ∀ p ∈ x.properties, p.HasIndexUid)
    (ungiven : ∀ p ∈ a.1.properties, p.id.uid = 0)
    (room : IdPair.lastId x.lastProperty ≠ IdPair.topId)
    (rooms : ∀ p ∈ r.made.properties, p.id.id ≠ IdPair.topId) (so_far : PropertiesInOrder m) :
    PropertiesInOrder m' := by
  obtain ⟨i, b, at_i, rfl, made, leads⟩ := h.leadTo found distinct assigned
  have hx := List.mem_of_getElem? at_i
  have retired : m.retired.properties ⊆ b.retired.properties := leads.retired_subset .property
  intro e he
  rcases List.mem_or_eq_of_mem_set he with he | rfl
  · exact (so_far e he).mono retired
  · refine leads.areInOrder (fun _ => ungiven) (so_far x hx) ?_ (fun _ fresh => fresh.1) room ?_
    · intro id hid
      exact Model.not_fresh_of_mem_idsOf (partIds_subset_idsOf hx .property hid)
    · intro id hid
      have listed : id ∈ b.entity.idsOf .property := hid
      rw [Entity.idsOf_property, ← made] at listed
      obtain ⟨p, hp, rfl⟩ := List.mem_map.mp listed
      exact rooms p hp

/-! ### Plans -/

section Plans

variable {plan : List Entity} {notices : List Notice} {found : List (Option UInt64)}
variable {settled : List (UInt64 × Bool)} {rs : List (Settled Entity)}

/-- If the schema gives no uid to a property, merging keeps the property identifiers of every entity
in order, unless a count comes to its end. -/
theorem PlanMerged.propertiesInOrder (h : PlanMerged S plan M notices found settled rs)
    (unique : S.HasUniqueUids) (properties : PropertiesInOrder S)
    (ungiven : ∀ e ∈ plan, ∀ p ∈ e.properties, p.id.uid = 0) (room : S.HasRoom)
    (room' : M.HasRoom) : PropertiesInOrder M := by
  obtain ⟨m₁, m₂, placed, steps, merged⟩ := h.steps
  have same_entities : M.entities.Perm m₂.entities := by
    rw [merged, upgrade_entities]
    exact reorder_perm _ _
  have same_retired : M.retired = m₂.retired := by rw [merged, upgrade_retired]
  have lengths := length_settled placed h.matched
  obtain ⟨distinct₁, uids⟩ :=
    uids_perm_settled placed unique.entityUids h.matched h.distinct
  obtain ⟨all, perm⟩ := entitySteps_settle steps lengths distinct₁ uids
  have unique₁ := hasUniqueUids_of_settling placed (unique.keepEntities _)
  have blank := stored_or_blank_of_settling (S := S) placed fun x hx => List.mem_of_mem_filter hx
  have final : PropertiesInOrder m₂ := by
    refine steps.preserves (I := PropertiesInOrder)
      (propertiesInOrder_of_settling placed (properties.keepEntities _)) ?_
    intro m m' a ha r hr step so_far
    obtain ⟨x, there, -⟩ := Option.map_eq_some_iff.mp step.replaces.2.1
    have hx := mem_of_found all hr there
    refine step.propertiesInOrder there (unique₁.distinctUids hx)
      (unique₁.indexes x hx) (ungiven _ (List.of_mem_zip ha).1) ?_ ?_ so_far
    · rcases blank x hx with stored | ⟨id, name, rfl⟩
      · exact room.lastProperty stored
      · have started : IdPair.lastId none ≠ IdPair.topId := by decide
        exact started
    · intro p hp
      have made : r.made ∈ M.entities :=
        same_entities.mem_iff.mpr (perm.mem_iff.mpr (List.mem_map_of_mem hr))
      have listed : p.id ∈ M.idsOf .property := by
        refine List.mem_flatMap.mpr ⟨r.made, made, ?_⟩
        rw [Entity.idsOf_property]
        exact List.mem_map_of_mem hp
      exact room'.live listed
  intro e he
  refine (final e (same_entities.mem_iff.mp he)).mono ?_
  change m₂.retired.properties ⊆ M.retired.properties
  rw [same_retired]
  exact List.Subset.refl _

/-- If the schema gives no uid to a property, merging keeps the identifiers of all scopes in order,
unless a count comes to its end. -/
theorem PlanMerged.hasOrderedIds (h : PlanMerged S plan M notices found settled rs)
    (unique : S.HasUniqueUids) (ids : S.HasOrderedIds)
    (ungiven : ∀ e ∈ plan, ∀ p ∈ e.properties, p.id.uid = 0) (room : S.HasRoom)
    (room' : M.HasRoom) : M.HasOrderedIds := by
  obtain ⟨scopes, properties⟩ := Model.hasOrderedIds_iff.mp ids
  have leads := h.leadTo unique.entityUids (fun _ he => unique.distinctUids he) unique.indexes
  refine Model.hasOrderedIds_iff.mpr ⟨fun sort other => ?_, ?_⟩
  · exact leads.areInOrder other (scopes sort other)
      (fun _ hid => Model.not_fresh_of_mem_idsOf hid) (fun _ fresh => fresh.1) (room.last sort)
      fun _ hid => room'.live hid
  · exact h.propertiesInOrder unique properties ungiven room room'

end Plans

end Merge

end SchemaLedger
