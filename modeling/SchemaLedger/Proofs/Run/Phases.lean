import SchemaLedger.File.Run
import SchemaLedger.Proofs.Draft.Plan
import SchemaLedger.Proofs.Merge.Outcome
import SchemaLedger.Proofs.Model.Acyclic

/-!
# The phases of a run

A run that succeeds has gone through all its phases, and a run that fails leaves the content of a
file as it was. What is loaded and what is saved are consistent models.
-/

namespace SchemaLedger

open Merge

variable {settings : RunSettings} {emit : Emitter} {drafts : List EntityDraft}
variable {file file' : ModelFile} {outcome : Outcome}

theorem Model.isConsistent_empty : Model.empty.IsConsistent := by decide

/-- A model that is loaded has been read. -/
theorem FileContent.read_of_load {path : String} {content : FileContent} {m : Model}
    (h : content.load path = .ok (some m)) : ∃ s, Model.read s = .ok m := by
  cases content with
  | binary => cases h
  | text s =>
      simp only [load] at h
      split at h
      · cases h
      · cases read : Model.read s with
        | error e => simp [read, Place.wrap, Except.map] at h
        | ok loaded =>
            obtain rfl : loaded = m := by simpa [read, Place.wrap, Except.map] using h
            exact ⟨s, read⟩

/-- A model that is loaded is consistent. -/
theorem FileContent.isConsistent_of_load {path : String} {content : FileContent} {m : Model}
    (h : content.load path = .ok (some m)) : m.IsConsistent := by
  obtain ⟨s, read⟩ := read_of_load h
  obtain ⟨_, -, -, consistent⟩ := Model.read_eq_ok.mp read
  exact consistent

/-- The model that a run starts from is consistent. -/
theorem FileContent.isConsistent_of_load_getD {path : String} {content : FileContent}
    {stored : Option Model} (h : content.load path = .ok stored) :
    (stored.getD .empty).IsConsistent := by
  cases stored with
  | none => exact Model.isConsistent_empty
  | some m => exact isConsistent_of_load h

/-- The model that a run starts from has today's notes. -/
theorem FileContent.notes_of_load_getD {path : String} {content : FileContent}
    {stored : Option Model} (h : content.load path = .ok stored) :
    (stored.getD .empty).notes = .current := by
  cases stored with
  | none => rfl
  | some m =>
      obtain ⟨s, read⟩ := read_of_load h
      obtain ⟨m', -, rfl, -⟩ := Model.read_eq_ok.mp read
      rfl

/-- Files are acquired only if nobody else holds them. -/
theorem ModelFile.of_acquire {file file₁ : ModelFile} {create : Bool} {content : FileContent}
    (h : file.acquire create = (.ok content, file₁)) :
    file₁ = { file with content := some content } ∧ file.locked = false := by
  obtain ⟨path, stored, locked⟩ := file
  cases locked with
  | true => cases stored <;> cases create <;> simp [acquire] at h
  | false =>
      cases stored with
      | none =>
          cases create with
          | false => simp [acquire] at h
          | true =>
              obtain ⟨rfl, rfl⟩ : FileContent.text "" = content ∧ _ := by simpa [acquire] using h
              exact ⟨rfl, rfl⟩
      | some found =>
          obtain ⟨rfl, rfl⟩ : found = content ∧ _ := by simpa [acquire] using h
          exact ⟨rfl, rfl⟩

namespace RunSettings

@[simp] theorem stamp_entities (m : Model) : (settings.stamp m).entities = m.entities := by
  unfold stamp
  split <;> rfl

/-- The version that users count has no part in the checks. -/
theorem check_stamp (m : Model) : (settings.stamp m).check = m.check := by
  cases given : settings.version with
  | none => simp [stamp, given]
  | some version =>
      have cycles : { m with version := version.toUInt64 }.checkCycles = m.checkCycles :=
        Model.checkCycles_congr rfl rfl rfl
      simp only [stamp, given, Model.check, cycles]
      rfl

theorem isConsistent_stamp {m : Model} : (settings.stamp m).IsConsistent ↔ m.IsConsistent := by
  rw [Model.IsConsistent, Model.IsConsistent, check_stamp]

/-- What is prepared has been merged from what was loaded and from the plan of the drafts. -/
theorem prepare_eq_ok {path : String} {content : FileContent} :
    settings.prepare path drafts content = .ok outcome ↔
      ∃ stored plan notices store, content.load path = .ok stored ∧
        Plan.ofDrafts settings.idKinds drafts = .ok plan ∧
        Store.merge plan ⟨stored.getD .empty, settings.uids⟩ = .ok (notices, store) ∧
        store.model.IsConsistent ∧
        outcome = ⟨settings.stamp store.model, notices, stored.isNone⟩ := by
  simp only [prepare, except_bind_eq_ok, except_pure_eq_ok, Prod.exists, check_stamp]
  constructor
  · rintro ⟨stored, load, plan, planned, notices, store, merged, _, consistent, rfl⟩
    exact ⟨stored, plan, notices, store, load, planned, merged, consistent, rfl⟩
  · rintro ⟨stored, plan, notices, store, load, planned, merged, consistent, rfl⟩
    exact ⟨stored, load, plan, planned, notices, store, merged, (), consistent, rfl⟩

/-- A run that succeeds prepares a model, shows it to the emitter and saves it. -/
theorem of_run (h : settings.run emit drafts file = (.ok outcome, file')) :
    ∃ content file₁, file.acquire settings.createIfMissing = (.ok content, file₁) ∧
      settings.prepare file₁.path drafts content = .ok outcome ∧ emit outcome.model = .ok () ∧
      file' = file₁.save outcome.model := by
  unfold run at h
  split at h
  · simp at h
  · next content file₁ acquired =>
      split at h
      · simp at h
      · next prepared =>
          split at h
          · simp at h
          · next emitted =>
              obtain ⟨same, rfl⟩ := Prod.mk.inj h
              obtain rfl := Except.ok.inj same
              exact ⟨content, file₁, acquired, prepared, emitted, rfl⟩

theorem exists_outcome {r : Except ModelError Outcome × ModelFile} (h : r.1.isOk = true) :
    ∃ outcome file', r = (.ok outcome, file') := by
  obtain ⟨_ | outcome, file'⟩ := r
  · simp [Except.isOk, Except.toBool] at h
  · exact ⟨outcome, file', rfl⟩

end RunSettings

end SchemaLedger
