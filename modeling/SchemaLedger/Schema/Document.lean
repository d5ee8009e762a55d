import SchemaLedger.Draft.Basic
import SchemaLedger.Json.Record
import SchemaLedger.Tag.Reader

/-!
# Schema documents

A schema is a document that lists entities with their fields. Annotations are written as texts, and
the types of fields by name. Unknown members are refused.
-/

namespace SchemaLedger

open Json Text

/-- A field in a schema document. -/
structure FieldEntry where
  name : String := ""
  typeName : String := ""
  unsigned : Bool := false
  isVector : Bool := false
  annotations : String := ""
deriving DecidableEq, Repr

/-- An entity in a schema document. -/
structure EntityEntry where
  name : String := ""
  annotations : String := ""
  comments : List String := []
  fields : List FieldEntry := []
deriving DecidableEq, Repr

/-- The record of a field. -/
def FieldEntry.format : RecordFormat FieldEntry where
  name := "FieldDescription"
  fields := [
    .needed "name" readText fun name f => { f with name },
    .needed "type" readText fun typeName f => { f with typeName },
    .optional "unsigned" readBool fun unsigned f => { f with unsigned },
    .optional "vector" readBool fun isVector f => { f with isVector },
    .optional "annotations" readText fun annotations f => { f with annotations }]
  strict := true
  blank := {}

/-- The record of an entity. -/
def EntityEntry.format : RecordFormat EntityEntry where
  name := "EntityDescription"
  fields := [
    .needed "name" readText fun name e => { e with name },
    .optional "annotations" readText fun annotations e => { e with annotations },
    .optional "comments" (readList readText) fun comments e => { e with comments },
    .optional "fields" (readList FieldEntry.format.read) fun fields e => { e with fields }]
  strict := true
  blank := {}

/-- The record of a schema. -/
def Schema.format : RecordFormat (List EntityEntry) where
  name := "SchemaDocument"
  fields := [.needed "entities" (readList EntityEntry.format.read) fun entities _ => entities]
  strict := true
  blank := []

/-- Why a schema cannot be used. -/
inductive SchemaError where
  | unreadable (path : String)
  | malformed (path : String) (cause : ReadError)
  | unknownType (owner field typeName : String)
  | tags (e : ModelError)
deriving DecidableEq, Repr

/-- The text shown for each cause. -/
def SchemaError.message : SchemaError → String
  | unreadable path => s!"can't read schema {path}"
  | malformed path cause => s!"invalid schema {path}: {cause.message}"
  | unknownType owner field typeName =>
    s!"entity {quoted owner} field {quoted field}: unknown property type '{typeName}'"
  | tags e => e.message

/-- Reads annotations; an error is at the given place. -/
def SchemaError.readAnnotations (place : Place) (allowed : List String) (text : String) :
    Except SchemaError Annotations :=
  match place.wrap (Annotations.read allowed text) with
  | .ok set => .ok set
  | .error e => .error (.tags e)

/-- The draft of a field of the given entity. -/
def FieldEntry.draft (owner : String) (f : FieldEntry) : Except SchemaError FieldDraft :=
  match PropertyKind.ofName? f.typeName with
  | none => .error (.unknownType owner f.name f.typeName)
  | some kind => do
    let annotations ← SchemaError.readAnnotations (.entityProperty owner f.name)
      Annotations.propertyNames f.annotations
    return {
      name := f.name
      base := kind
      unsigned := f.unsigned
      isVector := f.isVector
      element := if f.isVector then some kind else none
      annotations }

/-- The draft of an entity. -/
def EntityEntry.draft (e : EntityEntry) : Except SchemaError EntityDraft := do
  let annotations ← SchemaError.readAnnotations (.entity e.name) Annotations.entityNames
    e.annotations
  let fields ← e.fields.mapM (FieldEntry.draft e.name)
  return { name := e.name, comments := e.comments, annotations, fields }

/-- Reads the schema document at the given path. The text is missing if the file is. -/
def Schema.read (path : String) : Option String → Except SchemaError (List EntityDraft)
  | none => .error (.unreadable path)
  | some text =>
    match readDocument Schema.format.read text with
    | .error cause => .error (.malformed path cause)
    | .ok entries => entries.mapM EntityEntry.draft

end SchemaLedger
