import SchemaLedger.Error.Basic
import SchemaLedger.Tag.Token

/-!
# Reading annotations

The items of a text are added to a set one by one. A name has to be among the allowed ones and may
occur once. A fault in the text is reported if the items before it are in order.
-/

namespace SchemaLedger

open Tag

namespace Annotations

/-- Adds a value under a key that must not be there yet. The name is the part of the key that has to
be allowed. -/
def add {α : Type} (allowed : List String) (name key : String) (x : α) (m : KeyMap α) :
    Except ModelError (KeyMap α) :=
  if m.contains key then .error (.tagRepeated key)
  else if name ∈ allowed then .ok (m.insert key x)
  else .error (.tagUnknown name)

/-- Fails if there is a fault. -/
def checkFault (text : String) : Option PlacedFault → Except ModelError Unit
  | some (cause, position) => .error (.tagMalformed cause position text)
  | none => .ok ()

/-- Fails if a detail that is a flag has a value. -/
def checkFlags (details : KeyMap Detail) : Except ModelError Unit :=
  match details.entries.find? fun d => d.1 ∈ flagDetails && d.2.text ≠ "" with
  | some (name, d) => .error (.flagWithValue name d.text)
  | none => .ok ()

/-- Fails if the details are those of a relation without a name. -/
def checkNamed (name : String) (details : KeyMap Detail) : Except ModelError Unit :=
  if name = "relation" ∧ ((details.get? "name").map Detail.text).getD "" = "" then
    .error (.missingDetail "relation" "name")
  else .ok ()

/-- What is left to check once the items of a group have been read. -/
def finishGroup (text name : String) (fault : Option PlacedFault)
    (details : Except ModelError (KeyMap Detail)) : Except ModelError (KeyMap Detail) := do
  let details ← details
  checkFault text fault
  checkFlags details
  checkNamed name details
  return details

/-- The names of the details that an annotation takes. -/
def allowedDetails (name : String) : List String := (detailNames.lookup name).getD []

/-- Adds the items of a group to its details. A group is never a detail, but what is wrong inside it
is reported first. -/
def readDetails (text : String) (allowed : List String) (details : KeyMap Detail) :
    List Item → Except ModelError (KeyMap Detail)
  | [] => .ok details
  | .flag name :: rest => do
    let details ← add allowed name name .flag details
    readDetails text allowed details rest
  | .value name value :: rest => do
    let details ← add allowed name name (.value value) details
    readDetails text allowed details rest
  | .group name items fault :: _ => do
    let _ ← finishGroup text name fault (readDetails text (allowedDetails name) .empty items)
    .error (.tagUnknown name)

/-- The key of a group. -/
def groupKey (set : Annotations) (name : String) (details : KeyMap Detail) : String :=
  if name = "relation" then
    relationKey set.relations.length (((details.get? "name").map Detail.text).getD "")
  else name

/-- Adds an item to a set. -/
def addItem (text : String) (allowed : List String) (set : Annotations) :
    Item → Except ModelError Annotations
  | .flag name => add allowed name name .flag set
  | .value name value => add allowed name name (.value value) set
  | .group name items fault => do
    let details ←
      finishGroup text name fault (readDetails text (allowedDetails name) .empty items)
    add allowed name (set.groupKey name details) (.group name details) set

/-- Adds items to a set, in order. -/
def addItems (text : String) (allowed : List String) (set : Annotations) :
    List Item → Except ModelError Annotations
  | [] => .ok set
  | item :: rest => do
    let set ← addItem text allowed set item
    addItems text allowed set rest

/-- Adds the annotations of a text to a set. -/
def readInto (allowed : List String) (text : String) (set : Annotations) :
    Except ModelError Annotations := do
  let s := text.toList
  let (items, fault) := itemsOf (byteLength s) s
  let set ← addItems text allowed set items
  checkFault text fault
  return set

/-- Reads a text of annotations. -/
def read (allowed : List String) (text : String) : Except ModelError Annotations :=
  readInto allowed text .empty

end Annotations

end SchemaLedger
