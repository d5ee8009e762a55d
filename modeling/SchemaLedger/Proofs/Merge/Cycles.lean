import SchemaLedger.Proofs.Merge.Ordinary
import SchemaLedger.Proofs.Run.Phases

/-!
# Cycles do not get through

Merging binds a relation to the entity that has the name of its target in the plan, whatever the
entities were called before. So the merged entities point at one another exactly where those of the
plan refer to one another, and the check for cycles finds a cycle of the plan in the merged model.
-/

open Relation

namespace SchemaLedger

open Text

namespace Merge

section Result

variable {M : Model} {plan : List Entity}

/-- A merged relation points at the entity that has the name of its target. -/
theorem Realizes.target_of_sameName (h : Realizes plan M) (consistent : M.IsConsistent)
    {y f : Entity} (hy : y ∈ M.entities) (hf : f ∈ M.entities) {r : Relation}
    (hr : r ∈ y.relations) (named : SameName f.name r.target) : r.targetId = some f.id := by
  obtain ⟨g, hg, target, -⟩ := h.targets y hy r hr
  have named' := h.sameName_of_target consistent.distinctUids hy hg hr target
  rw [target, consistent.eq_of_sameName hg hf (named'.trans named.symm)]

/-- In a consistent model that realizes a plan, to point at an entity is to refer to it. -/
theorem Realizes.pointsTo_iff_refersTo (h : Realizes plan M) (consistent : M.IsConsistent)
    {a b : Entity} : M.PointsTo a b ↔ RefersTo M.entities a b := by
  refine ⟨h.refersTo_of_pointsTo consistent.distinctUids, ?_⟩
  rintro ⟨ha, hb, refers⟩
  refine ⟨ha, hb, refers.imp_left ?_⟩
  rintro ⟨r, hr, named⟩
  exact ⟨r, hr, h.target_of_sameName consistent ha hb hr named⟩

/-- A plan that a consistent model realizes has no cycle. -/
theorem Realizes.not_refersTo_self (h : Realizes plan M) (consistent : M.IsConsistent)
    (e : Entity) : ¬ TransGen (RefersTo plan) e e := by
  intro cycle
  obtain ⟨_, ⟨he, -⟩, -⟩ := TransGen.head'_iff.mp cycle
  obtain ⟨y, hy, same⟩ := h.exists_merged he
  have merged (f : Entity) (hf : f ∈ plan) : ∃ z ∈ M.entities, f.bare = z.bare := by
    obtain ⟨z, hz, same⟩ := h.exists_merged hf
    exact ⟨z, hz, same.symm⟩
  have cycle' : TransGen (RefersTo M.entities) y y :=
    transGen_refersTo_of_bare_eq merged cycle hy same.symm hy same.symm
  exact consistent.acyclic
    (TransGen.mono (fun _ _ => (h.pointsTo_iff_refersTo consistent).mpr) _ _ cycle')

end Result

section Runs

variable {kinds : List PropertyKind} {drafts : List EntityDraft} {plan : List Entity}

/-- The result of a merge realizes the plan, if both models are consistent. -/
theorem realizes_of_merge {store store' : Store} {notices : List Notice}
    (planned : Plan.ofDrafts kinds drafts = .ok plan) (stored : store.model.IsConsistent)
    (run : store.merge plan = .ok (notices, store')) (merged : store'.model.IsConsistent) :
    Realizes plan store'.model := by
  obtain ⟨found, settled, rs, phases⟩ := of_merge run
  exact phases.realizes (Plan.properties_ne_nil planned) (hasUniqueUids_of_isConsistent stored)
    (isAssigned_of_isConsistent merged)

/-- If entities of a plan refer to one another in a cycle, then merging it into a consistent model
never gives a consistent one, and no run with its drafts succeeds. -/
theorem cyclic_never_merges (planned : Plan.ofDrafts kinds drafts = .ok plan)
    (cyclic : ∃ e, TransGen (RefersTo plan) e e) :
    (∀ store : Store, store.model.IsConsistent → ∀ notices store',
      store.merge plan = .ok (notices, store') → ¬ store'.model.IsConsistent) ∧
    ∀ (settings : RunSettings) (emit : Emitter) (file : ModelFile), settings.idKinds = kinds →
      ∀ outcome file', settings.run emit drafts file ≠ (.ok outcome, file') := by
  obtain ⟨e, cycle⟩ := cyclic
  have never (store : Store) (stored : store.model.IsConsistent) (notices : List Notice)
      (store' : Store) (run : store.merge plan = .ok (notices, store')) :
      ¬ store'.model.IsConsistent := fun merged =>
    (realizes_of_merge planned stored run merged).not_refersTo_self merged e cycle
  refine ⟨never, ?_⟩
  rintro settings emit file rfl outcome file' succeeds
  obtain ⟨content, file₁, -, prepared, -, -⟩ := RunSettings.of_run succeeds
  obtain ⟨stored, plan', notices, store, loaded, planned', merged, consistent, -⟩ :=
    RunSettings.prepare_eq_ok.mp prepared
  obtain rfl : plan' = plan := Except.ok.inj (planned'.symm.trans planned)
  exact never _ (FileContent.isConsistent_of_load_getD loaded) _ _ merged consistent

/-- A schema in which an entity takes another name, links to a new one and is its target. -/
def cyclicRename : List EntityDraft :=
  [{ name := "Note"
     annotations := KeyMap.empty.insert "uid" (.value "1")
     fields := [
      { name := "id", base := .long },
      { name := "list", base := .long
        annotations := KeyMap.empty.insert "link" (.value "LIST") }] },
    { name := "List"
      annotations := KeyMap.empty.insert (Annotations.relationKey 0 "notes")
        (.group "relation"
          ((KeyMap.empty.insert "name" (.value "notes")).insert "to" (.value "NOTE")))
      fields := [{ name := "id", base := .long }] }]

/-- The plan of `cyclicRename`. -/
def planCyclicRename : List Entity :=
  [{ id := ⟨0, 1⟩, name := "Note"
     properties := [
      { id := .unassigned, name := "id", kind := .long, flags := .objectId },
      { id := .unassigned, name := "list", index := some .unassigned, kind := .relation,
        flags := .indexed ∪ .skipZero, target := "LIST" }] },
    { id := .unassigned, name := "List"
      properties := [{ id := .unassigned, name := "id", kind := .long, flags := .objectId }]
      relations := [{ id := .unassigned, name := "notes", target := "NOTE" }] }]

/-- The entity called `Task` until now is bound by its new name, so the cycle is found. -/
theorem cyclic_never_merges_renamed :
    Plan.ofDrafts [] cyclicRename = .ok planCyclicRename ∧
    (∃ e, TransGen (RefersTo planCyclicRename) e e) ∧
    (∃ notices store', Store.merge planCyclicRename ⟨oneEntity "Task", .counting⟩ =
      .ok (notices, store') ∧ ¬ store'.model.IsConsistent) ∧
    ∀ emit outcome file', RunSettings.run { uids := .counting, idKinds := [] } emit cyclicRename
      { path := "tasks.json" } ≠ (.ok outcome, file') := by
  have planned : Plan.ofDrafts [] cyclicRename = .ok planCyclicRename := by decide
  have cyclic : ∃ e, TransGen (RefersTo planCyclicRename) e e := by
    refine ⟨planCyclicRename[0], .tail (b := planCyclicRename[1]) (.single ?_) ?_⟩ <;>
      · unfold RefersTo
        decide
  have succeeds : (Store.merge planCyclicRename ⟨oneEntity "Task", .counting⟩).isOk = true := by
    decide
  refine ⟨planned, cyclic, ?_, ?_⟩
  · cases merged : Store.merge planCyclicRename ⟨oneEntity "Task", .counting⟩ with
    | error e => simp [merged, Except.isOk, Except.toBool] at succeeds
    | ok result =>
        exact ⟨result.1, result.2, rfl,
          (cyclic_never_merges planned cyclic).1 _ (by decide) _ _ merged⟩
  · intro emit
    exact (cyclic_never_merges planned cyclic).2 _ emit _ rfl

end Runs

end Merge

end SchemaLedger
