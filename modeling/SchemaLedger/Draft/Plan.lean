import SchemaLedger.Draft.Basic
import SchemaLedger.Draft.IdSelection
import SchemaLedger.Draft.Markup

/-!
# Plans

A plan is what a schema wants the model to be: entities whose identifiers are not assigned, apart
from uids that the schema gives. Elements that are to be left out are not part of it.
-/

namespace SchemaLedger

open Text

/-- A property that has not been stored yet. -/
def Property.planned (field : FieldDraft) (kind : PropertyKind) : Property :=
  let p : Property := { id := .unassigned, name := field.name, kind }
  if field.unsigned then p.addFlags .unsigned else p

namespace Plan

/-- The property that a field becomes. -/
def ofField (field : FieldDraft) : Except ModelError (Option Property) :=
  (Place.property field.name).wrap do
    let kind ← field.kind
    (Property.planned field kind).annotate field.annotations

/-- The properties that fields become. -/
def ofFields : List FieldDraft → Except ModelError (List Property)
  | [] => .ok []
  | field :: rest => do
    let p ← ofField field
    let others ← ofFields rest
    return p.toList ++ others

/-- The entity that a draft becomes. -/
def ofDraft (kinds : List PropertyKind) (draft : EntityDraft) :
    Except ModelError (Option Entity) := do
  let e : Entity := { id := .unassigned, name := draft.name, comments := draft.comments }
  match ← e.annotate draft.annotations with
  | none => return none
  | some e =>
    let properties ← ofFields draft.fields
    let e ← { e with properties }.withId kinds
    return some e

/-- Adds the entities of drafts to those before them. Two may not have the same name. -/
def addDrafts (kinds : List PropertyKind) (before : List Entity) :
    List EntityDraft → Except ModelError (List Entity)
  | [] => .ok before
  | draft :: rest => do
    match ← (Place.entity draft.name).wrap (ofDraft kinds draft) with
    | none => addDrafts kinds before rest
    | some e =>
      if ∃ f ∈ before, SameName f.name e.name then .error (.duplicateName .entity e.name)
      else addDrafts kinds (before ++ [e]) rest

/-- The entities that drafts become. -/
def ofDrafts (kinds : List PropertyKind) (drafts : List EntityDraft) :
    Except ModelError (List Entity) := addDrafts kinds [] drafts

end Plan

end SchemaLedger
