import SchemaLedger.Proofs.Merge.Idempotence
import SchemaLedger.Proofs.Run.Phases

/-!
# Running again

A run that follows a successful one with the same drafts finds what the first run has saved. It
prepares the same model again, reports nothing and saves the same text.
-/

namespace SchemaLedger

open Merge

namespace RunSettings

variable {settings settings' : RunSettings} {emit emit' : Emitter} {drafts : List EntityDraft}
variable {file file' : ModelFile} {outcome : Outcome} {m : Model} {plan : List Entity}

@[simp] theorem stamp_notes (m : Model) : (settings.stamp m).notes = m.notes := by
  unfold stamp
  split <;> rfl

theorem stamp_stamp (m : Model) : settings.stamp (settings.stamp m) = settings.stamp m := by
  unfold stamp
  split <;> rfl

theorem fulfils_stamp (h : Fulfils m plan) : Fulfils (settings.stamp m) plan := by
  unfold stamp
  split
  · next version _ =>
      refine ⟨h.conforms, h.refreshed, ?_⟩
      have apart : upgrade { m with version := version.toUInt64 } =
          { upgrade m with version := version.toUInt64 } := by
        unfold upgrade
        split <;> rfl
      rw [apart, h.upgraded]
  · exact h

/-- A run that succeeds leaves a model that fulfils the plan of its drafts. -/
theorem fulfils_of_run (h : settings.run emit drafts file = (.ok outcome, file')) :
    ∃ plan, Plan.ofDrafts settings.idKinds drafts = .ok plan ∧ Fulfils outcome.model plan ∧
      outcome.model.IsConsistent ∧ outcome.model.notes = .current ∧
      settings.stamp outcome.model = outcome.model ∧
      file'.content = some (.ofModel outcome.model) ∧ file'.locked = false := by
  obtain ⟨content, file₁, acquired, prepared, -, rfl⟩ := of_run h
  obtain ⟨stored, plan, notices, store, loaded, planned, merged, consistent, rfl⟩ :=
    prepare_eq_ok.mp prepared
  obtain ⟨fulfils, notes, -⟩ := fulfils_of_merge merged (Plan.properties_ne_nil planned)
    (FileContent.isConsistent_of_load_getD loaded) consistent
  obtain ⟨rfl, unlocked⟩ := ModelFile.of_acquire acquired
  refine ⟨plan, planned, fulfils_stamp fulfils, isConsistent_stamp.mpr consistent, ?_,
    stamp_stamp _, rfl, unlocked⟩
  rw [stamp_notes, notes]
  exact FileContent.notes_of_load_getD loaded

/-- A run after a successful one with the same drafts, kinds and version changes nothing. -/
theorem run_again (h : settings.run emit drafts file = (.ok outcome, file'))
    (kinds : settings'.idKinds = settings.idKinds) (version : settings'.version = settings.version)
    (emits : emit' outcome.model = .ok ()) :
    settings'.run emit' drafts file' =
      (.ok { model := outcome.model, notices := [], created := false }, file') := by
  obtain ⟨plan, planned, fulfils, consistent, notes, stamped, content, unlocked⟩ := fulfils_of_run h
  have acquired : file'.acquire settings'.createIfMissing =
      (.ok (.ofModel outcome.model), file') := by
    simp [ModelFile.acquire, content, unlocked]
  have merged := fulfils.merge_kept (Plan.properties_ne_nil planned) consistent notes settings'.uids
  have prepared : settings'.prepare file'.path drafts (.ofModel outcome.model) =
      .ok { model := outcome.model, notices := [], created := false } := by
    refine prepare_eq_ok.mpr ⟨_, plan, [], _, Model.load_ofModel consistent _, ?_, merged,
      consistent, ?_⟩
    · rw [kinds, planned]
    · have same : settings'.stamp outcome.model = outcome.model := by
        conv_rhs => rw [← stamped]
        rw [stamp, stamp, version]
      rw [same]
      rfl
  have saved : file'.save outcome.model = file' := by
    simp [ModelFile.save, ← content]
  simp [run, acquired, prepared, emits, saved]

/-- What has been merged or run once can be merged or run again without any effect. -/
theorem merge_idempotent :
    (∀ (kinds : List PropertyKind) (drafts : List EntityDraft) (plan : List Entity)
        (notices : List Notice) (store store' : Store),
      Plan.ofDrafts kinds drafts = .ok plan → store.model.IsConsistent →
        store.merge plan = .ok (notices, store') → store'.model.IsConsistent →
          store'.merge plan = .ok ([], store')) ∧
    (∀ (settings settings' : RunSettings) (emit emit' : Emitter) (drafts : List EntityDraft)
        (file file' : ModelFile) (outcome : Outcome),
      settings.run emit drafts file = (.ok outcome, file') →
        settings'.idKinds = settings.idKinds → settings'.version = settings.version →
          emit' outcome.model = .ok () →
            settings'.run emit' drafts file' =
              (.ok { model := outcome.model, notices := [], created := false }, file')) :=
  ⟨fun _ _ _ _ _ _ planned stored merged consistent => merge_again planned stored merged consistent,
    fun _ _ _ _ _ _ _ _ first kinds version emits => run_again first kinds version emits⟩

theorem merge_idempotent_oneEntity :
    (∃ plan notices store', Plan.ofDrafts [] [.onlyId "Note", .onlyId "TASK"] = .ok plan ∧
      Store.merge plan ⟨oneEntity "Task", .counting⟩ = .ok (notices, store') ∧
      store'.merge plan = .ok ([], store')) ∧
    (∃ outcome file', run { uids := .counting } (fun _ => .ok ()) [.onlyId "Task"]
        { path := "tasks.json" } = (.ok outcome, file') ∧
      run { uids := { candidate := fun _ => 7 } } (fun _ => .ok ()) [.onlyId "Task"] file' =
        (.ok { model := outcome.model, notices := [], created := false }, file')) := by
  constructor
  · obtain ⟨plan, notices, store', planned, merged, consistent⟩ := exists_plan_of_merge []
      [.onlyId "Note", .onlyId "TASK"] ⟨oneEntity "Task", .counting⟩ (by decide)
    exact ⟨plan, notices, store', planned, merged,
      merge_idempotent.1 _ _ _ _ _ _ planned (by decide) merged consistent⟩
  · obtain ⟨outcome, file', succeeds⟩ := exists_outcome (r := run { uids := .counting }
      (fun _ => .ok ()) [.onlyId "Task"] { path := "tasks.json" }) (by decide)
    exact ⟨outcome, file', succeeds,
      merge_idempotent.2 _ _ _ _ _ _ _ _ succeeds rfl rfl rfl⟩

end RunSettings

end SchemaLedger
