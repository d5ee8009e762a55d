import SchemaLedger.Tag.KeyMap

/-!
# Annotations

An annotation is a bare name, a name with a value, or a name with details in brackets. Only
`relation`, `sync` and `id` take details, each its own, and details have no details of their own.
Names are in lower case. A set of annotations has one for each name, except for relations with
details: each of them has a key that counts it, so that the order of the keys is that of the text.
-/

namespace SchemaLedger

/-- A detail of an annotation. -/
inductive Detail where
  | flag
  | value (text : String)
deriving DecidableEq, Repr

/-- The value of a detail, empty if it has none. -/
def Detail.text : Detail → String
  | flag => ""
  | value text => text

/-- What is said under a name. -/
inductive Annotation where
  | flag
  | value (text : String)
  | group (name : String) (details : KeyMap Detail)
deriving DecidableEq, Repr

namespace Annotation

/-- The value of an annotation, empty if it has none. -/
def text : Annotation → String
  | value text => text
  | _ => ""

/-- The details of a group. -/
def details? : Annotation → Option (KeyMap Detail)
  | group _ details => some details
  | _ => none

/-- The value of a detail of a group. -/
def detail? (a : Annotation) (name : String) : Option String :=
  (a.details?.bind (·.get? name)).map Detail.text

end Annotation

/-- A set of annotations. -/
abbrev Annotations := KeyMap Annotation

namespace Annotations

/-- What the keys of relations with details start with. -/
def relationKeyStart : List Char := ['r', 'e', 'l', 'a', 't', 'i', 'o', 'n', '-']

/-- The key is one of a relation with details. -/
def IsRelationKey (key : String) : Prop := relationKeyStart.isPrefixOf key.toList = true

instance (key : String) : Decidable (IsRelationKey key) :=
  inferInstanceAs (Decidable (relationKeyStart.isPrefixOf key.toList = true))

/-- The key of the relation with this name that has `count` relations before it. -/
def relationKey (count : Nat) (name : String) : String :=
  let digits := Nat.toDigits 10 count
  String.ofList (relationKeyStart ++ List.replicate (10 - digits.length) '0' ++ digits ++
    '-' :: name.toList)

/-- The relations with details, in the order in which they were added. -/
def relations (set : Annotations) : List (String × Annotation) :=
  set.entries.filter fun entry => IsRelationKey entry.1

/-- The names that take details, with the names of these details. -/
def detailNames : List (String × List String) :=
  [("relation", ["to", "name", "uid"]), ("sync", ["sharedglobalids"]), ("id", ["assignable"])]

/-- The details without a value. -/
def flagDetails : List String := ["sharedglobalids", "assignable"]

/-- The names of annotations on entities. -/
def entityNames : List String := ["-", "transient", "name", "relation", "sync", "uid"]

/-- The names of annotations on properties. -/
def propertyNames : List String :=
  ["-", "transient", "date", "date-nano", "hnsw-dimensions", "hnsw-distance-type", "hnsw-flags",
    "hnsw-indexing-search-count", "hnsw-neighbors-per-node",
    "hnsw-reparation-backlink-probability", "hnsw-vector-cache-hint-size-kb", "id",
    "id-companion", "index", "link", "name", "optional", "relation", "unique", "uid"]

end Annotations

end SchemaLedger
