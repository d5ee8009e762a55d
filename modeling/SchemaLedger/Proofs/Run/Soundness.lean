import SchemaLedger.Proofs.Model.Characterization
import SchemaLedger.Proofs.Run.Phases

/-!
# Runs leave sound models

The checks at the end of a run skip entities without properties. A run never leaves such an entity,
because every entity of a plan has an ID and merging gives every planned entity its properties; so
the model that a run saves is sound in every respect.
-/

namespace SchemaLedger

namespace Merge

/-- Merging leaves no entity without properties. -/
theorem properties_ne_nil_of_merge {plan : List Entity} {notices : List Notice}
    {store store' : Store} (run : store.merge plan = .ok (notices, store'))
    (some_planned : ∀ e ∈ plan, e.properties ≠ []) (stored : store.model.IsConsistent)
    (merged : store'.model.IsConsistent) : ∀ y ∈ store'.model.entities, y.properties ≠ [] := by
  obtain ⟨-, os, made, -, outcomes⟩ := outcome_of_merge run some_planned stored merged
  rw [made]
  intro y hy
  obtain ⟨o, ho, rfl⟩ := List.mem_map.mp hy
  obtain ⟨e, he, outcome⟩ := exists_of_forall₂ outcomes ho
  obtain ⟨ps, each, properties, -⟩ := outcome.contents.properties
  rw [properties]
  intro none_made
  obtain rfl : ps = [] := by simpa using none_made
  exact some_planned e he (List.forall₂_nil_right_iff.mp each)

end Merge

namespace RunSettings

variable {settings : RunSettings} {emit : Emitter} {drafts : List EntityDraft}
variable {file file' : ModelFile} {outcome : Outcome}

/-- Whatever file a run starts from, if it succeeds, then the file holds the model that the run
gives, and this model is sound. -/
theorem isSound_of_run (h : settings.run emit drafts file = (.ok outcome, file')) :
    file'.content = some (.ofModel outcome.model) ∧ outcome.model.IsSound := by
  obtain ⟨content, file₁, -, prepared, -, rfl⟩ := of_run h
  obtain ⟨stored, plan, notices, store, loaded, planned, merged, consistent, rfl⟩ :=
    prepare_eq_ok.mp prepared
  refine ⟨rfl, (isConsistent_stamp.mpr consistent).isSound ?_⟩
  rw [stamp_entities]
  exact Merge.properties_ne_nil_of_merge merged (Plan.properties_ne_nil planned)
    (FileContent.isConsistent_of_load_getD loaded) consistent

theorem isSound_of_run_missing :
    ∃ outcome file',
      run { uids := .counting } (fun _ => .ok ()) [.onlyId "Task"] { path := "tasks.json" } =
        (.ok outcome, file') ∧
      file'.content = some (.ofModel outcome.model) ∧ outcome.model.IsSound := by
  obtain ⟨outcome, file', succeeds⟩ := exists_outcome (r := run { uids := .counting }
    (fun _ => .ok ()) [.onlyId "Task"] { path := "tasks.json" }) (by decide)
  exact ⟨outcome, file', succeeds, isSound_of_run succeeds⟩

end RunSettings

end SchemaLedger
