import SchemaLedger.Proofs.Run.History

/-!
# Runs that fail leave no trace

A run that fails leaves a file that is there as it was, and a missing one at most empty. Whoever may
create the file takes a missing one for an empty one. So the runs that fail can be left out of a
history: every other run gives the same result as before, and in the end the file holds the same.
-/

namespace SchemaLedger

namespace RunRequest

/-- Does what is asked on a file. Gives what the run gives, and the file after it. -/
def on (request : RunRequest) (file : ModelFile) : Except ModelError Outcome × ModelFile :=
  request.settings.run request.emit request.drafts file

end RunRequest

/-- Runs on the same file, one after the other. Gives each with its result, and the file in the
end. -/
def runLog : List RunRequest → ModelFile → List (RunRequest × Except ModelError Outcome) × ModelFile
  | [], file => ([], file)
  | request :: rest, file =>
    let (result, file) := request.on file
    let (log, file) := runLog rest file
    ((request, result) :: log, file)

/-- The runs of a log that have succeeded. -/
def successes (log : List (RunRequest × Except ModelError Outcome)) :
    List (RunRequest × Except ModelError Outcome) :=
  log.filter fun entry => entry.2.isOk

namespace ModelFile

/-- The second file is the first one, except that it may be empty where the first one is missing. -/
inductive AtMostCreated (file : ModelFile) : ModelFile → Prop
  | same : AtMostCreated file file
  | created : file.content = none → AtMostCreated file { file with content := some (.text "") }

variable {file file' file'' : ModelFile} {create : Bool}

theorem AtMostCreated.trans (h : file.AtMostCreated file') (h' : file'.AtMostCreated file'') :
    file.AtMostCreated file'' := by
  cases h with
  | same => exact h'
  | created missing =>
      cases h' with
      | same => exact .created missing
      | created present => cases present

theorem atMostCreated_acquire (file : ModelFile) (create : Bool) :
    file.AtMostCreated (file.acquire create).2 := by
  cases there : file.content with
  | none =>
      cases create with
      | true => simpa [acquire, there] using AtMostCreated.created there
      | false => simpa [acquire, there] using AtMostCreated.same
  | some content => simpa [acquire, there] using AtMostCreated.same

/-- Whoever may create a file finds nothing else in a missing file than in an empty one. -/
theorem AtMostCreated.acquire_eq (h : file.AtMostCreated file') (free : file.locked = false) :
    file.acquire true = file'.acquire true := by
  cases h with
  | same => rfl
  | created missing => simp [acquire, missing, free]

end ModelFile

namespace RunRequest

variable {request : RunRequest} {file file' : ModelFile} {e : ModelError} {outcome : Outcome}

/-- A run that fails leaves no trace in a file. -/
theorem atMostCreated_of_on_eq_error (h : request.on file = (.error e, file')) :
    file.AtMostCreated file' := by
  have acquired := file.atMostCreated_acquire request.settings.createIfMissing
  simp only [on, RunSettings.run] at h
  split at h
  · next taken =>
      obtain ⟨-, rfl⟩ := Prod.mk.inj h
      rwa [taken] at acquired
  · next taken =>
      rw [taken] at acquired
      split at h
      · exact (Prod.mk.inj h).2 ▸ acquired
      · split at h
        · exact (Prod.mk.inj h).2 ▸ acquired
        · cases (Prod.mk.inj h).1

/-- A run that succeeds lets the file go again. -/
theorem locked_of_on_eq_ok (h : request.on file = (.ok outcome, file')) :
    file'.locked = false := by
  obtain ⟨_, _, acquired, -, -, rfl⟩ := RunSettings.of_run h
  obtain ⟨rfl, free⟩ := ModelFile.of_acquire acquired
  exact free

/-- A run that may create its file does on a missing file what it does on an empty one. -/
theorem on_eq_of_atMostCreated (creating : request.settings.createIfMissing = true)
    (h : file.AtMostCreated file') (free : file.locked = false) :
    request.on file = request.on file' := by
  simp only [on, RunSettings.run, creating, h.acquire_eq free]

end RunRequest

/-- The runs of a log that have succeeded do the same again by themselves, on a file that may still
be missing where theirs was empty. -/
theorem runLog_successes {requests : List RunRequest} {file file' : ModelFile}
    (creating : ∀ request ∈ requests, request.settings.createIfMissing = true)
    (free : file.locked = false) (h : file.AtMostCreated file') :
    (runLog ((successes (runLog requests file').1).map Prod.fst) file).1 =
        successes (runLog requests file').1 ∧
      (runLog ((successes (runLog requests file').1).map Prod.fst) file).2.AtMostCreated
        (runLog requests file').2 := by
  induction requests generalizing file file' with
  | nil => exact ⟨rfl, h⟩
  | cons request rest ih =>
      have creating' : ∀ request ∈ rest, request.settings.createIfMissing = true :=
        fun request hr => creating request (List.mem_cons_of_mem _ hr)
      rw [runLog]
      rcases ran : request.on file' with ⟨e | outcome, after⟩
      · -- a failure is left out, and only widens the gap between the two files
        exact ih creating' free (h.trans (RunRequest.atMostCreated_of_on_eq_error ran))
      · have again : request.on file = (.ok outcome, after) := by
          rw [RunRequest.on_eq_of_atMostCreated (creating request List.mem_cons_self) h free, ran]
        obtain ⟨log, final⟩ := ih creating' (RunRequest.locked_of_on_eq_ok ran) .same
        have first : successes ((request, .ok outcome) :: (runLog rest after).1) =
            (request, .ok outcome) :: successes (runLog rest after).1 := rfl
        simp only [first, List.map_cons, runLog, again, log]
        exact ⟨trivial, final⟩

/-- Runs that fail are invisible. They leave a file that is there as it was, and a missing one at
most empty; and if all runs of a history that fail are left out, every other run succeeds with the
same result as before, and the file is the same in the end, except that it may be missing instead of
empty. -/
theorem failed_runs_are_invisible (requests : List RunRequest) (start : ModelFile)
    (creating : ∀ request ∈ requests, request.settings.createIfMissing = true)
    (free : start.locked = false) :
    (∀ request ∈ requests, ∀ before e after, request.on before = (.error e, after) →
      before.AtMostCreated after) ∧
    ∀ log final, runLog requests start = (log, final) →
      ∃ final', runLog ((successes log).map Prod.fst) start = (successes log, final') ∧
        final'.AtMostCreated final := by
  refine ⟨fun _ _ _ _ _ => RunRequest.atMostCreated_of_on_eq_error, ?_⟩
  intro log final ran
  obtain ⟨same, left⟩ := runLog_successes creating free (show start.AtMostCreated start from .same)
  rw [ran] at same left
  exact ⟨_, Prod.ext same rfl, left⟩

/-- On a missing file, an entity without a name fails and leaves an empty file to the next run. -/
theorem failed_runs_are_invisible_missing :
    let request (name : String) : RunRequest :=
      ⟨{ uids := .counting }, fun _ => .ok (), [.onlyId name]⟩
    let requests := [request "", request "Task"]
    let start : ModelFile := { path := "tasks.json" }
    (∀ request ∈ requests, request.settings.createIfMissing = true) ∧ start.locked = false ∧
    ((runLog requests start).1.map fun entry => entry.2.isOk) = [false, true] ∧
    ∃ final', runLog ((successes (runLog requests start).1).map Prod.fst) start =
        (successes (runLog requests start).1, final') ∧
      final'.AtMostCreated (runLog requests start).2 := by
  intro request requests start
  have creating : ∀ request ∈ requests, request.settings.createIfMissing = true := by decide
  refine ⟨creating, rfl, by decide, ?_⟩
  exact (failed_runs_are_invisible requests start creating rfl).2 _ _ (Prod.eta _).symm

end SchemaLedger
