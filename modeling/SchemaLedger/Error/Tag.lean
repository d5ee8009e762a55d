import SchemaLedger.Model.Kind
import SchemaLedger.Model.VectorIndex
import SchemaLedger.Text.Quoted

/-!
# What can be wrong with annotations

A text of annotations can break the grammar, a value can be of no use, an annotation can ask for
another kind of property than the one at hand, and two annotations can exclude each other.
-/

namespace SchemaLedger

open Numeral

/-- The sorts of elements that have a name. -/
inductive ElementSort where
  | entity
  | property
  | relation
deriving DecidableEq, Repr

/-- The word for a sort of element. -/
def ElementSort.word : ElementSort → String
  | .entity => "entity"
  | .property => "property"
  | .relation => "relation"

/-- Where a text of annotations breaks the grammar. -/
inductive TagFault where
  | nameExpected (before : Char)
  | detailsOn (name : String)
  | unexpected (c : Char)
  | unclosedQuote
  | behindQuote
  | unclosedGroup
deriving DecidableEq, Repr

/-- The text shown for each cause. -/
def TagFault.message : TagFault → String
  | .nameExpected c => s!"name expected before '{c}'"
  | .detailsOn name =>
    s!"details only supported for `relation`, `sync` and `id` annotations, found `{name}`"
  | .unexpected c => s!"unexpected character '{c}'"
  | .unclosedQuote => "closing quote '\"' not found"
  | .behindQuote => "no more characters may follow after a quoted value"
  | .unclosedGroup => "closing bracket ')' not found"

/-- Why the value of an annotation is of no use. -/
inductive ValueFault where
  | emptyName (sort : ElementSort)
  | zeroUid
  | notUnsigned (value : String) (cause : UnsignedError)
  | notFloat (value : String) (cause : FloatError)
  | notProbability (value : Single)
  | syncValue (value : String)
  | idValue (value : String)
  /-- A relation of an entity is given without details. -/
  | relationWithoutDetails
  /-- A relation with details is given on a property. -/
  | relationOnProperty
  | indexKind (name : String)
  | withoutVectorIndex
  | unknownDistance (name : String)
  | unknownFlag (name : String)
deriving DecidableEq, Repr

/-- The text shown for each cause. -/
def ValueFault.message : ValueFault → String
  | .emptyName sort => s!"value must not be empty - it's the {sort.word} name in DB"
  | .zeroUid => "value must not be zero"
  | .notUnsigned value cause => s!"can't parse '{value}': {cause.message}"
  | .notFloat value cause => s!"can't parse '{value}': {cause.message}"
  | .notProbability value => s!"{value.render} is not a probability between 0 and 1"
  | .syncValue value => s!"unexpected value '{value}', use `sync` or `sync(sharedGlobalIds)`"
  | .idValue value => s!"unexpected value '{value}', use `id` or `id(assignable)`"
  | .relationWithoutDetails =>
    "standalone relations are declared as `relation(name=..., to=...)`"
  | .relationOnProperty =>
    "standalone relations are declared on the entity, use `relation=Target` on a property"
  | .indexKind name => s!"unknown index type '{name}'"
  | .withoutVectorIndex => "requires a vector index, add `index=hnsw`"
  | .unknownDistance name =>
    let names := ", ".intercalate (Distance.names.map Prod.fst)
    s!"unknown distance type '{name}', expecting one of: {names}"
  | .unknownFlag name =>
    let names := ", ".intercalate (VectorIndex.flagNames.map Prod.fst)
    s!"unknown flag '{name}', expecting any of: {names}"

/-- An annotation asks for another kind of property than `kind`. -/
inductive KindMismatch where
  | idCompanion (kind : PropertyKind)
  | date (kind : PropertyKind)
  | vectorIndex (kind : PropertyKind)
  | toOne (kind : PropertyKind)
  | id (kind : PropertyKind)
deriving DecidableEq, Repr

/-- The text shown for each cause. -/
def KindMismatch.message : KindMismatch → String
  | .idCompanion kind =>
    s!"invalid underlying type '{kind.name}' for ID companion field; expecting date or date-nano"
  | .date kind =>
    s!"invalid underlying type '{kind.name}' for date/date-nano field; expecting long"
  | .vectorIndex kind =>
    s!"hnsw index is only supported on FloatVector properties, found '{kind.name}'"
  | .toOne kind => s!"invalid underlying type '{kind.name}' for relation field; expecting long"
  | .id kind => s!"invalid type on property marked as ID: {kind.name}"

/-- Annotations that exclude each other. -/
inductive TagConflict where
  /-- An element to be left out has another annotation, or a value for this one. -/
  | skipped (sort : ElementSort) (tag : String)
  | twoDates
deriving DecidableEq, Repr

/-- The text shown for each cause. -/
def TagConflict.message : TagConflict → String
  | .skipped sort tag => s!"to ignore the {sort.word}, use only `{tag}` as an annotation"
  | .twoDates => "date and date-nano annotations cannot be used at the same time"

/-- A field has no kind of property. -/
inductive KindGap where
  | vectorOf (kind : PropertyKind)
  | vectorOfNothing
  /-- A to-one relation is declared as a long with an annotation. -/
  | bareRelation
deriving DecidableEq, Repr

/-- The text shown for each cause. -/
def KindGap.message : KindGap → String
  | .vectorOf kind => s!"vector of {kind.name}"
  | .vectorOfNothing => "vector without an element type"
  | .bareRelation => "relation fields are declared as long with `relation=Target`"

end SchemaLedger
