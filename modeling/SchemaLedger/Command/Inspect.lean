import SchemaLedger.Command.Basic
import SchemaLedger.Model.View

/-!
# Showing a model

A model is shown as lines of text or as a document. Either names the file, the versions, the last
identifiers, how many uids are retired, and every entity with its properties and relations.
-/

namespace SchemaLedger.Command

open Json

/-- One property in a line. -/
def describeProperty (p : Property) : String :=
  let index := IdPair.optionalText p.index
  s!"{p.id.text} {p.name} {p.kind.name}" ++
    (if p.flags.IsNone then "" else s!" flags={p.flags.bits.toNat}") ++
    (if p.index = none then "" else s!" index={index}") ++
    (if p.target = "" then "" else s!" -> {p.target}")

/-- One relation in a line. -/
def describeRelation (m : Model) (r : Relation) : String :=
  let target := ((m.relationTarget? r).map (·.name)).getD "?"
  s!"{r.id.text} {r.name} -> {target}"

/-- One entity in lines. -/
def describeEntity (m : Model) (e : Entity) : List String :=
  ["", s!"Entity {e.name} [{e.id.text}]"] ++
    (e.properties.map fun p =>
      let line := describeProperty p
      s!"  {line}") ++
    e.relations.map fun r =>
      let line := describeRelation m r
      s!"  relation {line}"

/-- The model in lines. -/
def describe (path : String) (m : Model) : List String :=
  let lastEntity := IdPair.optionalText m.lastEntity
  let lastIndex := IdPair.optionalText m.lastIndex
  let lastRelation := IdPair.optionalText m.lastRelation
  let r := m.retired
  ["EntiModel Model Inspection",
    "==========================",
    "",
    s!"Path: {path}",
    s!"Model version: {m.formatVersion.toNat}",
    s!"Document version: {m.version.toNat}",
    "",
    "Last ids:",
    s!"  Entity:   {lastEntity}",
    s!"  Index:    {lastIndex}",
    s!"  Relation: {lastRelation}",
    "",
    "Retired uids:",
    s!"  Entities:   {r.entities.length}",
    s!"  Properties: {r.properties.length}",
    s!"  Indexes:    {r.indexes.length}",
    s!"  Relations:  {r.relations.length}"] ++
    m.entities.flatMap (describeEntity m)

/-- A count as a value. -/
def countToJson (n : Nat) : Json := ofUInt64 n.toUInt64

/-- Lines as a value. -/
def linesToJson (lines : List String) : Json := array (lines.map string)

/-- The model as a document. -/
def describeToJson (path : String) (m : Model) : Json :=
  object [
    ("path", string path),
    ("model_version", ofUInt32 m.formatVersion),
    ("version", ofUInt64 m.version),
    ("last_entity_id", IdPair.optionalToJson m.lastEntity),
    ("last_index_id", IdPair.optionalToJson m.lastIndex),
    ("last_relation_id", IdPair.optionalToJson m.lastRelation),
    ("retired", object [
      ("entities", countToJson m.retired.entities.length),
      ("properties", countToJson m.retired.properties.length),
      ("indexes", countToJson m.retired.indexes.length),
      ("relations", countToJson m.retired.relations.length)]),
    ("entities", array (m.entities.map fun e => object [
      ("name", string e.name),
      ("id", e.id.toJson),
      ("properties", linesToJson (e.properties.map describeProperty)),
      ("relations", linesToJson (e.relations.map (describeRelation m)))]))]

/-- Shows the model of a file. Every format other than `json` is lines of text. -/
def inspect (format : String) (file : ModelFile) : CommandResult :=
  withContent [] file fun content => do
    match ← load file.path content with
    | none => .error (.emptyModel file.path)
    | some m =>
      if format = "json" then return [render .indented (describeToJson file.path m)]
      else return describe file.path m

end SchemaLedger.Command
