import SchemaLedger.Error.Tag
import SchemaLedger.Error.Violation
import SchemaLedger.Json.Mismatch

/-!
# Errors

An error is a cause, possibly inside the places where it came up. Its text has the places in front,
the outermost first.
-/

namespace SchemaLedger

open Text

/-- A place that a report names. -/
inductive Place where
  | entity (name : String)
  | property (name : String)
  | relation (name : String)
  | entityProperty (owner name : String)
  | entityRelation (owner name : String)
  | last (scope : Scope)
  | modelFile (path : String)
deriving DecidableEq, Repr

/-- The text shown for each place. -/
def Place.text : Place → String
  | .entity name => s!"entity {quoted name}"
  | .property name => s!"property {quoted name}"
  | .relation name => s!"relation {quoted name}"
  | .entityProperty owner name => s!"entity {quoted owner} property {quoted name}"
  | .entityRelation owner name => s!"entity {quoted owner} relation {quoted name}"
  | .last scope => scope.lastName
  | .modelFile path => s!"model file {path}"

/-- An element whose uid the schema asks for, with what is known about it. -/
inductive UidQuestion where
  | entity (name : String) (current : Option UInt64)
  /-- The current uid comes with one that could replace it. -/
  | property (owner name : String) (current : Option (UInt64 × UInt64))
  | relation (owner name : String) (current : Option UInt64)
deriving DecidableEq, Repr

/-- The element in a message. -/
def UidQuestion.element : UidQuestion → String
  | .entity name _ => s!"entity {name}"
  | .property owner name _ => s!"property {owner}.{name}"
  | .relation owner name _ => s!"relation {owner}.{name}"

/-- The answer to the question. -/
def UidQuestion.answer : UidQuestion → String
  | .entity _ (some uid) => s!"model entity UID = {uid.toNat}"
  | .entity _ none => "entity not found in the model"
  | .property _ _ (some (uid, fresh)) =>
    s!"[rename] apply the current UID {uid.toNat}, [change/reset] apply a new UID {fresh.toNat}"
  | .property _ _ none => "the property isn't present in the persisted model"
  | .relation _ _ (some uid) => s!"model relation UID = {uid.toNat}"
  | .relation _ _ none => "relation not found in the model"

/-- Why a file cannot be used. -/
inductive FileFault where
  | missing (path : String)
  | notText
  | system (description : String)
deriving DecidableEq, Repr

/-- The text shown for each cause. -/
def FileFault.message : FileFault → String
  | .missing path => s!"model file does not exist: {path}"
  | .notText => "stream did not contain valid UTF-8"
  | .system description => description

/-- Everything that can go wrong with models, their schemas and their files. -/
inductive ModelError where
  | file (cause : FileFault)
  | malformedId (text : String) (fault : IdPair.Fault)
  /-- A text of annotations breaks the grammar at this byte. -/
  | tagMalformed (fault : TagFault) (position : Nat) (text : String)
  | tagRepeated (name : String)
  | tagUnknown (name : String)
  | flagWithValue (name value : String)
  | missingDetail (tag detail : String)
  | tagRefused (tag : String) (fault : ValueFault)
  | unsupportedKind (gap : KindGap)
  | kindMismatch (cause : KindMismatch)
  | tagConflict (cause : TagConflict)
  | uidRequested (question : UidQuestion)
  | unknownEntityUid (uid : UInt64)
  | unknownPropertyUid (entity : String) (uid : UInt64)
  | unknownRelationUid (entity : String) (uid : UInt64)
  /-- Two elements of a schema stand for one stored element. -/
  | ambiguousRename (sort : ElementSort) (first second : String) (uid : UInt64)
  | ambiguousId (first second : String)
  | noId
  | duplicateName (sort : ElementSort) (name : String)
  | idOrder (cause : OrderFault)
  | uidCollision (uid : UInt64) (clash : UidClash)
  /-- The steps start with an entity and go on with names of relations. -/
  | relationCycle (steps : List String) (target : String)
  | modelTooOld (version minimum : UInt32)
  | modelTooNew (version maximum : UInt32)
  | modelLocked (path : String)
  | modelCorrupt (cause : Json.ReadError)
  | invalidModel (violation : Violation)
  | uidsExhausted (attempts : Nat)
  | emitter (description : String)
  /-- An error at a place. -/
  | within (place : Place) (source : ModelError)
deriving DecidableEq, Repr

namespace ModelError

/-- The cause without its places. -/
def root : ModelError → ModelError
  | within _ source => source.root
  | e => e

/-- The text shown for an error. -/
def message : ModelError → String
  | file cause => s!"I/O error: {cause.message}"
  | malformedId text fault => s!"malformed id '{text}': {fault.message}"
  | tagMalformed fault position text =>
    s!"invalid annotation format: {fault.message} at position {position} in `{text}`"
  | tagRepeated name => s!"duplicate annotation {name}"
  | tagUnknown name => s!"unknown annotation '{name}'"
  | flagWithValue name value =>
    s!"detail '{name}' is a flag and must not have a value, found '{value}'"
  | missingDetail tag detail =>
    s!"annotation `{tag}` requires a non-empty `{detail}`"
  | tagRefused tag fault => s!"invalid `{tag}` annotation: {fault.message}"
  | unsupportedKind gap => s!"unsupported type: {gap.message}"
  | kindMismatch cause => s!"type mismatch: {cause.message}"
  | tagConflict cause => s!"conflicting annotations: {cause.message}"
  | uidRequested question =>
    s!"uid annotation value must not be empty on {question.element}: {question.answer}"
  | unknownEntityUid uid => s!"entity with uid {uid.toNat} was not found"
  | unknownPropertyUid entity uid => s!"property with uid {uid.toNat} not found in '{entity}'"
  | unknownRelationUid entity uid => s!"relation with uid {uid.toNat} not found in '{entity}'"
  | ambiguousRename sort first second uid =>
    let word := sort.word
    s!"ambiguous rename: {word} {quoted first} and {word} {quoted second} both resolve to " ++
      s!"the stored {word} with uid {uid.toNat}"
  | ambiguousId first second => s!"multiple properties recognized as an ID: {first} and {second}"
  | noId => "no property recognized as an ID"
  | duplicateName sort name =>
    s!"duplicate {sort.word} name '{name}' (note that names are case insensitive)"
  | idOrder cause => s!"id monotonicity violated: {cause.message}"
  | uidCollision uid clash => s!"uid {uid.toNat} is used more than once: {clash.message}"
  | relationCycle steps target =>
    let path := ".".intercalate steps
    s!"relation cycle detected: {path} ({target})"
  | modelTooOld version minimum =>
    s!"the loaded model is too old - version {version.toNat} while the minimum supported is " ++
      s!"{minimum.toNat} - consider upgrading with an older generator or manually"
  | modelTooNew version maximum =>
    s!"the loaded model has been created with a newer generator version {version.toNat} " ++
      s!"while the maximum supported version is {maximum.toNat}"
  | modelLocked path => s!"model file locked: another process has exclusive access to {path}"
  | modelCorrupt cause => s!"model file is corrupt: {cause.message}"
  | invalidModel violation => violation.message
  | uidsExhausted attempts => s!"could not generate a unique uid in {attempts} attempts"
  | emitter description => s!"emitter failed: {description}"
  | within place source => s!"{place.text}: {source.message}"

@[simp] theorem root_within (place : Place) (e : ModelError) : (within place e).root = e.root := rfl

end ModelError

/-- Adds a place to the error of a result. -/
def Place.wrap {α : Type} (place : Place) : Except ModelError α → Except ModelError α
  | .ok x => .ok x
  | .error e => .error (.within place e)

@[simp] theorem Place.wrap_ok {α : Type} (place : Place) (x : α) :
    place.wrap (.ok x) = .ok x := rfl

theorem Place.wrap_eq_ok {α : Type} {place : Place} {r : Except ModelError α} {x : α} :
    place.wrap r = .ok x ↔ r = .ok x := by
  cases r <;> simp [wrap]

end SchemaLedger
