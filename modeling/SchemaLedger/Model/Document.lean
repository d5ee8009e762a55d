import SchemaLedger.Json.Record
import SchemaLedger.Model.Basic

/-!
# The model document

A model is kept as a record of fourteen fields. Flags that are zero, absent indexes, empty lists of
relations and empty targets are left out; an identifier that is not set is an empty text. What only
the schema knows (comments, parameters of vector indexes, how absent values are wrapped, names of
relation targets, requests for uids) is not kept.
-/

namespace SchemaLedger

open Json

/-! ### Writing -/

/-- An identifier as a value. -/
def IdPair.toJson (p : IdPair) : Json := string p.text

/-- An identifier that may be unset, as a value. -/
def IdPair.optionalToJson (p : Option IdPair) : Json := string (IdPair.optionalText p)

/-- A kind as a value. -/
def PropertyKind.toJson (kind : PropertyKind) : Json := ofUInt32 kind.code.toUInt32

/-- Flags as a value. -/
def Flags.toJson (flags : Flags) : Json := ofUInt32 flags.bits

/-- The member for flags, unless none is set. -/
def Flags.member (flags : Flags) : List (String × Json) :=
  if flags.IsNone then [] else [("flags", flags.toJson)]

/-- A property as it is kept. -/
def Property.toJson (p : Property) : Json :=
  object <|
    [("id", p.id.toJson), ("name", string p.name)] ++
    (p.index.map fun index => ("indexId", index.toJson)).toList ++
    [("type", p.kind.toJson)] ++
    p.flags.member ++
    (if p.target = "" then [] else [("relationTarget", string p.target)])

/-- A relation as it is kept. -/
def Relation.toJson (r : Relation) : Json :=
  object [("id", r.id.toJson), ("name", string r.name),
    ("targetId", IdPair.optionalToJson r.targetId)]

/-- An entity as it is kept. -/
def Entity.toJson (e : Entity) : Json :=
  object <|
    [("id", e.id.toJson), ("lastPropertyId", IdPair.optionalToJson e.lastProperty),
      ("name", string e.name)] ++
    e.flags.member ++
    [("properties", array (e.properties.map Property.toJson))] ++
    (if e.relations = [] then [] else [("relations", array (e.relations.map Relation.toJson))])

/-- A list of uids as a value. -/
def uidsToJson (uids : List UInt64) : Json := array (uids.map ofUInt64)

/-- A model as it is kept. -/
def Model.toJson (m : Model) : Json :=
  object [
    ("_note1", string m.notes.first),
    ("_note2", string m.notes.second),
    ("_note3", string m.notes.third),
    ("entities", array (m.entities.map Entity.toJson)),
    ("lastEntityId", IdPair.optionalToJson m.lastEntity),
    ("lastIndexId", IdPair.optionalToJson m.lastIndex),
    ("lastRelationId", IdPair.optionalToJson m.lastRelation),
    ("modelVersion", ofUInt32 m.formatVersion),
    ("modelVersionParserMinimum", ofUInt32 m.parserMinimum),
    ("retiredEntityUids", uidsToJson m.retired.entities),
    ("retiredIndexUids", uidsToJson m.retired.indexes),
    ("retiredPropertyUids", uidsToJson m.retired.properties),
    ("retiredRelationUids", uidsToJson m.retired.relations),
    ("version", ofUInt64 m.version)]

/-- The text of the document: indented, with a line break at the end. -/
def Model.text (m : Model) : String := render .indented m.toJson ++ "\n"

/-! ### Reading -/

/-- Reads an identifier; either number may be zero. -/
def IdPair.ofJson : Json → Except Mismatch IdPair
  | string s =>
    match IdPair.readLax s.toList with
    | .ok p => .ok p
    | .error fault => .error (.malformedId s fault)
  | v => refuse .idPair v

/-- Reads an identifier that may be unset. -/
def IdPair.optionalOfJson (v : Json) : Except Mismatch (Option IdPair) := do
  let s ← readText v
  match IdPair.readOptional s.toList with
  | .ok p => .ok p
  | .error fault => .error (.malformedId s fault)

/-- Reads the number of a kind. -/
def PropertyKind.ofJson (v : Json) : Except Mismatch PropertyKind := do
  let code ← readWord 8 v
  match PropertyKind.ofCode? code with
  | some kind => .ok kind
  | none => .error (.unknownKind code)

/-- Reads flags; bits without a meaning are kept. -/
def Flags.ofJson (v : Json) : Except Mismatch Flags := (readUInt32 v).map Flags.mk

/-- The record of a property. -/
def Property.format : RecordFormat Property where
  name := "Property"
  fields := [
    .needed "id" IdPair.ofJson fun id p => { p with id },
    .needed "name" readText fun name p => { p with name },
    .optional "indexId" (readNullable IdPair.ofJson) fun index p => { p with index },
    .needed "type" PropertyKind.ofJson fun kind p => { p with kind },
    .optional "flags" Flags.ofJson fun flags p => { p with flags },
    .optional "relationTarget" readText fun target p => { p with target }]
  strict := false
  blank := { id := .unassigned, kind := .bool }

/-- The record of a relation. -/
def Relation.format : RecordFormat Relation where
  name := "StandaloneRelation"
  fields := [
    .needed "id" IdPair.ofJson fun id r => { r with id },
    .needed "name" readText fun name r => { r with name },
    .optional "targetId" IdPair.optionalOfJson fun targetId r => { r with targetId }]
  strict := false
  blank := { id := .unassigned }

/-- The record of an entity. -/
def Entity.format : RecordFormat Entity where
  name := "Entity"
  fields := [
    .needed "id" IdPair.ofJson fun id e => { e with id },
    .optional "lastPropertyId" IdPair.optionalOfJson fun lastProperty e => { e with lastProperty },
    .needed "name" readText fun name e => { e with name },
    .optional "flags" Flags.ofJson fun flags e => { e with flags },
    .optional "properties" (readList Property.format.read)
      fun properties e => { e with properties },
    .optional "relations" (readList Relation.format.read) fun relations e => { e with relations }]
  strict := false
  blank := { id := .unassigned }

/-- Reads a list of uids. -/
def uidsOfJson : Json → Except Mismatch (List UInt64) := readList readUInt64

/-- The record of a model. -/
def Model.format : RecordFormat Model where
  name := "Model"
  fields := [
    .optional "_note1" readText fun first m => { m with notes := { m.notes with first } },
    .optional "_note2" readText fun second m => { m with notes := { m.notes with second } },
    .optional "_note3" readText fun third m => { m with notes := { m.notes with third } },
    .needed "entities" (readList Entity.format.read) fun entities m => { m with entities },
    .optional "lastEntityId" IdPair.optionalOfJson fun lastEntity m => { m with lastEntity },
    .optional "lastIndexId" IdPair.optionalOfJson fun lastIndex m => { m with lastIndex },
    .optional "lastRelationId" IdPair.optionalOfJson fun lastRelation m => { m with lastRelation },
    .optional "modelVersion" readUInt32 fun formatVersion m => { m with formatVersion },
    .optional "modelVersionParserMinimum" readUInt32
      fun parserMinimum m => { m with parserMinimum },
    .needed "retiredEntityUids" uidsOfJson
      fun entities m => { m with retired := { m.retired with entities } },
    .needed "retiredIndexUids" uidsOfJson
      fun indexes m => { m with retired := { m.retired with indexes } },
    .needed "retiredPropertyUids" uidsOfJson
      fun properties m => { m with retired := { m.retired with properties } },
    .optional "retiredRelationUids" uidsOfJson
      fun relations m => { m with retired := { m.retired with relations } },
    .optional "version" readUInt64 fun version m => { m with version }]
  strict := false
  blank := { notes := {}, formatVersion := 0, parserMinimum := 0, version := 0 }

/-- Reads a document as it stands. -/
def Model.ofText (text : String) : Except ReadError Model := readDocument Model.format.read text

/-- The model with today's notes, and with the oldest format version if the document is so old that
it has neither versions nor notes. -/
def Model.fillIn (m : Model) : Model :=
  let m :=
    if m.formatVersion = 0 ∧ m.parserMinimum = 0 ∧ m.notes.first = "" then
      { m with formatVersion := oldestFormat, parserMinimum := oldestFormat }
    else m
  { m with notes := .current }

end SchemaLedger
