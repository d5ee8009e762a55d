import SchemaLedger.File.Run
import SchemaLedger.Schema.Document

/-!
# Commands

A command prints lines and ends well or with an error. What it has printed before an error stays.
-/

namespace SchemaLedger

/-- Why a command fails. -/
inductive CommandError where
  | model (e : ModelError)
  | schema (e : SchemaError)
  | emptyModel (path : String)
deriving DecidableEq, Repr

/-- The text shown for each cause. -/
def CommandError.message : CommandError → String
  | model e => e.message
  | schema e => e.message
  | emptyModel path => s!"model file {path} is empty"

/-- What a command leaves behind. -/
structure CommandResult where
  lines : List String := []
  error : Option CommandError := none
  file : ModelFile

/-- The printed text: every line with a line break. -/
def CommandResult.printed (r : CommandResult) : String :=
  String.join (r.lines.map fun line => line ++ "\n")

namespace Command

-- the empty sum is the literal zero, whatever instances are in scope
attribute [local instance (high)] Zero.ofOfNat0

/-- Goes on with the content of a file that has to be there, after the given lines. -/
def withContent (lines : List String) (file : ModelFile)
    (go : FileContent → Except CommandError (List String)) : CommandResult :=
  match file.acquire false with
  | (.error e, file) => { lines, error := some (.model e), file }
  | (.ok content, file) =>
    match go content with
    | .error e => { lines, error := some e, file }
    | .ok more => { lines := lines ++ more, file }

/-- The model that is loaded from a file, or nothing if the file is empty. -/
def load (path : String) (content : FileContent) : Except CommandError (Option Model) :=
  match content.load path with
  | .ok m => .ok m
  | .error e => .error (.model e)

/-- What is printed about a run. -/
def report (path : String) (outcome : Outcome) : List String :=
  (if outcome.created then [s!"Created {path}"] else []) ++
    if outcome.notices = [] then
      let count := outcome.model.entities.length
      [s!"Model is up to date ({count} entities)"]
    else "Model changes:" :: outcome.notices.map fun notice => s!"  {notice.message}"

/-- Brings the model file in line with a schema document. -/
def sync (settings : RunSettings) (schemaPath : String) (schema : Option String)
    (file : ModelFile) : CommandResult :=
  match Schema.read schemaPath schema with
  | .error e => { error := some (.schema e), file }
  | .ok drafts =>
    match settings.run (fun _ => .ok ()) drafts file with
    | (.error e, file) => { error := some (.model e), file }
    | (.ok outcome, file) => { lines := report file.path outcome, file }

/-- Tells whether the model file is in order. -/
def verify (file : ModelFile) : CommandResult :=
  withContent [s!"Verifying model at {file.path}"] file fun content => do
    match ← load file.path content with
    | none => return ["Model file is empty (no generator run has completed yet)"]
    | some m =>
      let entities := m.entities.length
      let properties := (m.entities.map (·.properties.length)).sum
      let relations := (m.entities.map (·.relations.length)).sum
      return [s!"OK: {entities} entities, {properties} properties, {relations} relations"]

/-- A fresh uid of a model, in a line. -/
def drawUid (uids : UidSource) (m : Model) : Except CommandError (List String) :=
  match (m.freshUid? uids).1 with
  | some uid => .ok [s!"{uid.toNat}"]
  | none => .error (.model (.uidsExhausted uidAttempts))

/-- Prints a uid that the model of the file does not mention. A missing file counts as empty. -/
def freshUid (uids : UidSource) (file : ModelFile) : CommandResult :=
  if file.content = none then
    match drawUid uids .empty with
    | .ok lines => { lines, file }
    | .error e => { error := some e, file }
  else
    withContent [] file fun content => do
      let m ← load file.path content
      drawUid uids (m.getD .empty)

end Command

end SchemaLedger
