import SchemaLedger.Proofs.Run.Succession

/-!
# The life of a model file

Any number of runs may go over a file, each with a schema, settings and an emitter of its own, and
each of them may succeed or fail. Whatever they do, an identifier that the file has once held stays
with its element: retired uids stay retired, last identifiers never go down, and no local id is ever
borne by a second uid, unless a reset has been reported.
-/

open Relation

namespace SchemaLedger

namespace Model

/-- What holds of a model and of a later one, if no identifier has been used for something else in
between: retired uids are retired in the same list and in use no more, no last identifier goes
down, and no local id has got another uid in its scope, unless its property has been reset. -/
structure KeepsIdentifiers (notices : List Notice) (A B : Model) : Prop where
  retired : A.retired.Extends B.retired
  notRevived : ∀ uid ∈ A.retired.uids, ∀ y ∈ B.entities, uid ∉ y.ownUids
  lastEntity : IdPair.lastId A.lastEntity ≤ IdPair.lastId B.lastEntity
  lastIndex : IdPair.lastId A.lastIndex ≤ IdPair.lastId B.lastIndex
  lastRelation : IdPair.lastId A.lastRelation ≤ IdPair.lastId B.lastRelation
  lastProperty : ∀ x ∈ A.entities, ∀ y ∈ B.entities, x.id.uid = y.id.uid →
    IdPair.lastId x.lastProperty ≤ IdPair.lastId y.lastProperty
  entityIds : ∀ x ∈ A.entities, ∀ y ∈ B.entities, x.id.id = y.id.id → x.id.uid = y.id.uid
  indexIds : ∀ i ∈ A.indexIds, ∀ j ∈ B.indexIds, i.id = j.id → i.uid = j.uid
  relationIds : ∀ i ∈ A.relationIds, ∀ j ∈ B.relationIds, i.id = j.id → i.uid = j.uid
  propertyIds : ∀ x ∈ A.entities, ∀ y ∈ B.entities, x.id.id = y.id.id →
    ∀ p ∈ x.properties, ∀ q ∈ y.properties, p.id.id = q.id.id →
      ReflTransGen (ReportsReset notices) p.id.uid q.id.uid

section KeepsIdentifiers

variable {A B : Model} {x y z : Entity} {notices : List Notice}

/-- If later identifiers are earlier ones or lie above them, then a local id keeps its uid. -/
theorem uid_eq_of_id_eq {live later : List IdPair} {last : UInt32} {i j : IdPair}
    (distinct : (live.map (·.id)).Nodup) (below : ∀ i ∈ live, i.id ≤ last)
    (grown : ∀ j ∈ later, j ∈ live ∨ last < j.id) (hi : i ∈ live) (hj : j ∈ later)
    (same : i.id = j.id) : i.uid = j.uid := by
  rcases grown j hj with known | above
  · rw [List.inj_on_of_nodup_map distinct hi known same]
  · exact absurd (below i hi) (UInt32.not_le.mpr (same ▸ above))

theorem Succeeds.continues_of_id_eq (h : A.Succeeds notices B) (earlier : A.IsConsistent)
    (hx : x ∈ A.entities) (hy : y ∈ B.entities) (same : x.id.id = y.id.id) :
    Continues notices x y := by
  have scope := earlier.entityIds
  rcases h.entities y hy with ⟨z, hz, continues⟩ | ⟨above, -⟩
  · have distinct := scope.distinct
    rw [List.map_map] at distinct
    obtain rfl : x = z :=
      List.inj_on_of_nodup_map distinct hx hz (same.trans (congrArg (·.id) continues.id))
    exact continues
  · exact absurd (scope.below _ (List.mem_map_of_mem hx)) (UInt32.not_le.mpr (same ▸ above))

theorem Succeeds.continues_of_uid_eq (h : A.Succeeds notices B) (earlier : A.IsConsistent)
    (hx : x ∈ A.entities) (hy : y ∈ B.entities) (same : x.id.uid = y.id.uid) :
    Continues notices x y := by
  rcases h.entities y hy with ⟨z, hz, continues⟩ | ⟨-, fresh⟩
  · obtain rfl : x = z := List.inj_on_of_nodup_map earlier.distinctUids hx hz
      (same.trans (congrArg (·.uid) continues.id))
    exact continues
  · have known := mem_census_of_entity hx x.uid_mem_ownUids
    exact absurd (same ▸ known) fresh.2

/-- Consistent models that succeed one another keep their identifiers. -/
theorem Succeeds.keepsIdentifiers (h : A.Succeeds notices B) (earlier : A.IsConsistent)
    (later : B.IsConsistent) : A.KeepsIdentifiers notices B where
  retired := h.evolves.retired
  notRevived uid hu y hy own :=
    (List.nodup_append.mp later.census_nodup).2.2 uid (List.mem_flatMap.mpr ⟨y, hy, own⟩)
      uid (h.evolves.retired.mem_uids hu) rfl
  lastEntity := h.evolves.lastEntity
  lastIndex := h.evolves.lastIndex
  lastRelation := h.evolves.lastRelation
  lastProperty _ hx _ hy same := (h.continues_of_uid_eq earlier hx hy same).lastProperty
  entityIds _ hx _ hy same :=
    (congrArg (·.uid) (h.continues_of_id_eq earlier hx hy same).id).symm
  indexIds _ hi _ hj same :=
    uid_eq_of_id_eq earlier.indexIds.distinct earlier.indexIds.below h.indexes hi hj same
  relationIds _ hi _ hj same :=
    uid_eq_of_id_eq earlier.distinctRelationIds earlier.relationIds_le h.relations hi hj same
  propertyIds x hx y hy owner p hp q hq same := by
    have scope := earlier.propertyIds hx
    rcases (h.continues_of_id_eq earlier hx hy owner).properties q hq with
      ⟨s, hs, known, resets⟩ | above
    · have distinct := scope.distinct
      rw [List.map_map] at distinct
      obtain rfl : p = s := List.inj_on_of_nodup_map distinct hp hs (same.trans known.symm)
      exact resets
    · exact absurd (scope.below _ (List.mem_map_of_mem hp)) (UInt32.not_le.mpr (same ▸ above))

end KeepsIdentifiers

end Model

/-- What a run is asked to do. -/
structure RunRequest where
  settings : RunSettings
  emit : Emitter
  drafts : List EntityDraft

/-- Runs on the same file, one after the other. Gives what the runs that succeed report, and the
file in the end. -/
def runEach : List RunRequest → ModelFile → List Notice × ModelFile
  | [], file => ([], file)
  | request :: rest, file =>
    match request.settings.run request.emit request.drafts file with
    | (.error _, file) => runEach rest file
    | (.ok outcome, file) =>
      let (notices, file) := runEach rest file
      (outcome.notices ++ notices, file)

/-- The file holds the model. -/
def ModelFile.Holds (file : ModelFile) (m : Model) : Prop :=
  ∃ content, file.content = some content ∧ content.load file.path = .ok (some m)

namespace ModelFile

variable {file file' : ModelFile} {A B : Model} {settings : RunSettings} {emit : Emitter}
variable {drafts : List EntityDraft} {outcome : Outcome} {e : ModelError}

theorem Holds.isConsistent (h : file.Holds A) : A.IsConsistent := by
  obtain ⟨content, -, loaded⟩ := h
  exact FileContent.isConsistent_of_load loaded

theorem Holds.unique (h : file.Holds A) (h' : file.Holds B) : A = B := by
  obtain ⟨content, there, loaded⟩ := h
  obtain ⟨content', there', loaded'⟩ := h'
  obtain rfl := Option.some.inj (there.symm.trans there')
  exact Option.some.inj (Except.ok.inj (loaded.symm.trans loaded'))

/-- A run that fails leaves a file that is there as it was. -/
theorem Holds.of_error (h : file.Holds A)
    (run : settings.run emit drafts file = (.error e, file')) : file' = file := by
  obtain ⟨content, there, -⟩ := h
  have acquired : (file.acquire settings.createIfMissing).2 = file := by
    simp [acquire, there]
  unfold RunSettings.run at run
  split at run
  · next taken =>
      obtain ⟨-, rfl⟩ := Prod.mk.inj run
      rwa [taken] at acquired
  · next taken =>
      rw [taken] at acquired
      obtain rfl : _ = file := acquired
      split at run
      · exact (Prod.mk.inj run).2.symm
      · split at run
        · exact (Prod.mk.inj run).2.symm
        · simp at run

/-- A run that succeeds leaves its model in the file. -/
theorem holds_of_run (run : settings.run emit drafts file = (.ok outcome, file')) :
    file'.Holds outcome.model.kept := by
  obtain ⟨_, _, -, prepared, -, rfl⟩ := RunSettings.of_run run
  obtain ⟨_, _, _, _, -, -, -, consistent, rfl⟩ := RunSettings.prepare_eq_ok.mp prepared
  exact ⟨_, rfl, Model.load_ofModel (RunSettings.isConsistent_stamp.mpr consistent) _⟩

/-- The model of a run that succeeds is a successor of the model that was there. -/
theorem Holds.succeeds_of_run (h : file.Holds A)
    (run : settings.run emit drafts file = (.ok outcome, file')) :
    A.Succeeds outcome.notices outcome.model.kept := by
  obtain ⟨content, there, held⟩ := h
  obtain ⟨found, file₁, acquired, prepared, -, rfl⟩ := RunSettings.of_run run
  obtain ⟨stored, plan, notices, store, loaded, planned, merged, consistent, rfl⟩ :=
    RunSettings.prepare_eq_ok.mp prepared
  obtain ⟨rfl, unlocked⟩ := of_acquire acquired
  obtain rfl : found = content := by
    simpa [acquire, there, unlocked, eq_comm] using congrArg Prod.fst acquired
  obtain rfl : stored = some A := Except.ok.inj (loaded.symm.trans held)
  have merging : A.Succeeds notices store.model :=
    Merge.succeeds_of_merge merged (Plan.properties_ne_nil planned)
      (FileContent.isConsistent_of_load held) consistent
  exact (merging.stamp settings).kept

end ModelFile

/-- Runs may be gone through in two parts. -/
theorem runEach_append (before after : List RunRequest) (file : ModelFile) :
    (runEach (before ++ after) file).2 = (runEach after (runEach before file).2).2 := by
  induction before generalizing file with
  | nil => rfl
  | cons request rest ih =>
      rw [List.cons_append, runEach, runEach]
      rcases request.settings.run request.emit request.drafts file with ⟨_ | outcome, file'⟩
      · exact ih file'
      · exact ih file'

/-- Once a file holds a model, it always holds a successor of it. -/
theorem succeeds_of_runEach {file : ModelFile} {A : Model} (holds : file.Holds A)
    (requests : List RunRequest) :
    ∃ B, (runEach requests file).2.Holds B ∧ A.Succeeds (runEach requests file).1 B := by
  induction requests generalizing file A with
  | nil => exact ⟨A, holds, .refl A⟩
  | cons request rest ih =>
      unfold runEach
      split
      · next failed =>
          obtain rfl := holds.of_error failed
          exact ih holds
      · next succeeded =>
          obtain ⟨B, held, later⟩ := ih (ModelFile.holds_of_run succeeded)
          exact ⟨B, held, ((holds.succeeds_of_run succeeded).mono
            (List.subset_append_left _ _)).trans (later.mono (List.subset_append_right _ _))⟩

/-- Whatever runs go over a file, once it holds a model, it holds one after all later runs, and the
later model keeps the identifiers of the earlier one. -/
theorem keepsIdentifiers_of_runEach (before after : List RunRequest) (start : ModelFile) (A : Model)
    (earlier : (runEach before start).2.Holds A) :
    (∃ B, (runEach (before ++ after) start).2.Holds B) ∧
      ∀ B, (runEach (before ++ after) start).2.Holds B →
        A.KeepsIdentifiers (runEach after (runEach before start).2).1 B := by
  obtain ⟨C, held, succeeds⟩ := succeeds_of_runEach earlier after
  rw [runEach_append]
  refine ⟨⟨C, held⟩, ?_⟩
  intro B later
  rw [later.unique held]
  exact succeeds.keepsIdentifiers earlier.isConsistent held.isConsistent

/-- An entity is left out, a run fails, and the entity comes back. -/
theorem keepsIdentifiers_of_runEach_missing :
    let request (name : String) : RunRequest :=
      ⟨{ uids := .counting }, fun _ => .ok (), [.onlyId name]⟩
    let start : ModelFile := { path := "tasks.json" }
    let after := [request "Note", request "", request "Task"]
    ∃ A B, (runEach [request "Task"] start).2.Holds A ∧
      (runEach ([request "Task"] ++ after) start).2.Holds B ∧
      A.KeepsIdentifiers (runEach after (runEach [request "Task"] start).2).1 B := by
  intro request start after
  obtain ⟨outcome, file, succeeds⟩ := RunSettings.exists_outcome (r := RunSettings.run
    { uids := .counting } (fun _ => .ok ()) [.onlyId "Task"] start) (by decide)
  have earlier : (runEach [request "Task"] start).2.Holds outcome.model.kept := by
    simpa [runEach, request, succeeds] using ModelFile.holds_of_run succeeds
  obtain ⟨⟨B, later⟩, keeps⟩ := keepsIdentifiers_of_runEach _ after start _ earlier
  exact ⟨_, B, earlier, later, keeps B later⟩

end SchemaLedger
