import SchemaLedger.Model.Flags
import SchemaLedger.Numeral.Single
import SchemaLedger.Text.Blank
import SchemaLedger.Text.Case
import SchemaLedger.Text.Fields

/-!
# Vector indexes

A vector index finds nearest neighbours among arrays of floats. Only the number of dimensions has to
be given; what is left out is decided where the index is used.
-/

namespace SchemaLedger

open Numeral Text

/-- How the distance of two vectors is measured. -/
inductive Distance where
  | unspecified
  | euclidean
  | cosine
  | dotProduct
  | geo
  | dotProductNonNormalized
deriving DecidableEq, Repr

/-- The number of a distance in the record format. -/
def Distance.code : Distance → Nat
  | unspecified => 0
  | euclidean => 1
  | cosine => 2
  | dotProduct => 3
  | geo => 6
  | dotProductNonNormalized => 10

/-- The names that may be written, in the order in which messages list them. -/
def Distance.names : List (String × Distance) :=
  [("cosine", cosine), ("dot-product", dotProduct),
    ("dot-product-non-normalized", dotProductNonNormalized), ("euclidean", euclidean), ("geo", geo)]

/-- The distance with the given name, in any case. -/
def Distance.ofName? (name : String) : Option Distance := names.lookup (foldCase name)

/-- The parameters of a vector index. -/
structure VectorIndex where
  dimensions : Option UInt64 := none
  distance : Distance := .unspecified
  neighborsPerNode : Option UInt32 := none
  indexingSearchCount : Option UInt32 := none
  backlinkProbability : Option Single := none
  cacheHintKb : Option UInt64 := none
  flags : Flags := Flags.none
deriving DecidableEq, Repr

namespace VectorIndex

/-- The names of the flags, in the order in which messages list them. -/
def flagNames : List (String × Flags) :=
  [("debug-logs", ⟨1⟩), ("debug-logs-detailed", ⟨2⟩), ("reparation-limit-candidates", ⟨8⟩),
    ("vector-cache-simd-padding-off", ⟨4⟩)]

/-- The flags with the given names, or the first name that is no flag. -/
def flagsOfNames : List String → Except String Flags
  | [] => .ok Flags.none
  | name :: rest =>
    match flagNames.lookup (foldCase name) with
    | some flag => (flagsOfNames rest).map (flag ∪ ·)
    | none => .error name

/-- Reads names of flags with bars between them. Blanks around a name and empty names are passed
over. The error is the first name that is no flag. -/
def readFlags (text : String) : Except String Flags :=
  let names := (fields '|' text.toList).map fun name => String.ofList (trimBlank name)
  flagsOfNames (names.filter (· ≠ ""))

end VectorIndex

end SchemaLedger
