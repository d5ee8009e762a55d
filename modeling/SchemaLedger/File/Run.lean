import SchemaLedger.Draft.Plan
import SchemaLedger.File.Basic
import SchemaLedger.Merge.Basic

/-!
# Runs

A run brings a model file in line with a schema: it loads the model, merges the schema into it,
checks the result, lets an emitter see it, and saves it. The file is written only if all of this
succeeds.
-/

namespace SchemaLedger

/-- What a run can be told. -/
structure RunSettings where
  uids : UidSource
  /-- The kinds that a property named `id` may have to become the ID. -/
  idKinds : List PropertyKind := [.long, .string]
  createIfMissing : Bool := true
  /-- The version of the document that users count themselves. -/
  version : Option UInt32 := none

/-- What a run gives. -/
structure Outcome where
  model : Model
  notices : List Notice
  /-- There was no model before. -/
  created : Bool

/-- Whoever makes something of the merged model, and may fail at it. -/
abbrev Emitter := Model → Except ModelError Unit

namespace RunSettings

/-- The model with the version that the settings ask for. -/
def stamp (settings : RunSettings) (m : Model) : Model :=
  match settings.version with
  | some version => { m with version := version.toUInt64 }
  | none => m

/-- Merges drafts into what a file holds, and checks the result. -/
def prepare (settings : RunSettings) (path : String) (drafts : List EntityDraft)
    (content : FileContent) : Except ModelError Outcome := do
  let stored ← content.load path
  let plan ← Plan.ofDrafts settings.idKinds drafts
  let (notices, store) ← Store.merge plan ⟨stored.getD .empty, settings.uids⟩
  let model := settings.stamp store.model
  model.check
  return { model, notices, created := stored.isNone }

/-- Runs on a file. Gives what the run gives, and the file after it. -/
def run (settings : RunSettings) (emit : Emitter) (drafts : List EntityDraft) (file : ModelFile) :
    Except ModelError Outcome × ModelFile :=
  match file.acquire settings.createIfMissing with
  | (.error e, file) => (.error e, file)
  | (.ok content, file) =>
    match settings.prepare file.path drafts content with
    | .error e => (.error e, file)
    | .ok outcome =>
      match emit outcome.model with
      | .error e => (.error e, file)
      | .ok () => (.ok outcome, file.save outcome.model)

end RunSettings

end SchemaLedger
