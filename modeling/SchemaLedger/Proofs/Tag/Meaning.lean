import SchemaLedger.Proofs.Tag.Collection

/-!
# What annotations mean

Every spelling of the same annotations gives the same set. It has the annotations under their names,
and the relations with details under keys that count them.
-/

namespace SchemaLedger.Annotations

open Tag

variable {allowed : List String} {remarks : List Remark} {text : String}

/-- The details of a remark are spelled in a way that is read back. -/
theorem isReadInGroup_of_spells {name : String} {details : List (String × Detail)}
    {inner : List Char} (h : (Remark.group name details).IsAllowed allowed)
    (spelled : SpellsEach (SpellsPlain true) details inner) : IsReadInGroup details inner := by
  have tags : ∀ p ∈ details, IsTagName p.1 := fun p hp =>
    isTagName_of_allowedDetails (h.2.known p hp)
  exact ⟨(spelled.passes tags).encloses, spelled.items_details tags⟩

/-- Let the remarks have allowed names, different ones unless they are relations with details, and
details that belong to these names. Then every text that spells them is accepted and gives the set
with exactly one entry for each remark, in which relations with details are counted. -/
theorem read_of_spells (known : allowed = entityNames ∨ allowed = propertyNames)
    (areAllowed : ∀ r ∈ remarks, r.IsAllowed allowed)
    (distinct : ((remarks.filter (!·.isRelation)).map Remark.name).Nodup)
    (spelled : Spells remarks text.toList) :
    ∃ set, read allowed text = .ok set ∧
      ∀ key a, set.get? key = some a ↔ (key, a) ∈ entriesOf 0 remarks := by
  have names := areNames_of_known known
  have keys := nodup_keysOf_entriesOf names areAllowed distinct 0
  refine ⟨.ofList (entriesOf 0 remarks), ?_, fun key a => ?_⟩
  · exact read_of_spellsEach names areAllowed keys spelled fun name details inner held =>
      isReadInGroup_of_spells (areAllowed _ held)
  · rw [KeyMap.get?_ofList keys, KeyMap.lookup_eq_some_iff keys]

/-- A name with a colon, a user id in capital letters, and a relation with details in another order
than that of their names and a bracket in quotes. -/
def mixedSpelling : String := " Name : \"my note\",,UID=7 relation (TO=\"Tag)\" name=tags)"

/-- What this text says. -/
def mixedRemarks : List Remark :=
  [.plain "name" (.value "my note"), .plain "uid" (.value "7"),
    .group "relation" [("to", .value "Tag)"), ("name", .value "tags")]]

theorem spells_mixedSpelling : Spells mixedRemarks mixedSpelling.toList := by
  have blank : IsBlankRun [' '] := by decide
  have note : SpellsPlain false ("name", .value "my note") "Name : \"my note\"".toList :=
    .value (by decide : SpellsName "name" "Name".toList) blank (.inr rfl) blank
      (.quoted (by decide))
  have uid : SpellsPlain false ("uid", .value "7") "UID=7".toList :=
    .value (by decide : SpellsName "uid" "UID".toList) isBlankRun_nil (.inl rfl) isBlankRun_nil
      (.bare (by decide) (by decide) (by decide) nofun)
  have target : SpellsPlain true ("to", .value "Tag)") "TO=\"Tag)\"".toList :=
    .value (by decide : SpellsName "to" "TO".toList) isBlankRun_nil (.inl rfl) isBlankRun_nil
      (.quoted (by decide))
  have tags : SpellsPlain true ("name", .value "tags") "name=tags".toList :=
    .value (by decide : SpellsName "name" "name".toList) isBlankRun_nil (.inl rfl) isBlankRun_nil
      (.bare (by decide) (by decide) (by decide) fun _ => by decide)
  have space : IsGap [' '] := by decide
  have commas : IsGap [',', ','] := by decide
  have inner : SpellsEach (SpellsPlain true) [("to", .value "Tag)"), ("name", .value "tags")]
      "TO=\"Tag)\" name=tags".toList :=
    .cons isGap_nil target (isApart_cons (by decide) _)
      (.cons space tags isApart_nil (.nil isGap_nil))
  have relation : SpellsRemark (SpellsEach (SpellsPlain true))
      (.group "relation" [("to", .value "Tag)"), ("name", .value "tags")])
      "relation (TO=\"Tag)\" name=tags)".toList :=
    .group (by decide : SpellsName "relation" "relation".toList) blank inner
  have pieces : mixedSpelling.toList =
      [' '] ++ ("Name : \"my note\"".toList ++ ([',', ','] ++ ("UID=7".toList ++
        ([' '] ++ ("relation (TO=\"Tag)\" name=tags)".toList ++ []))))) := by decide
  rw [pieces]
  exact .cons space (.plain note) (isApart_cons (by decide) _)
    (.cons commas (.plain uid) (isApart_cons (by decide) _)
      (.cons space relation isApart_nil (.nil isGap_nil)))

theorem isAllowed_mixedRemarks : ∀ r ∈ mixedRemarks, r.IsAllowed entityNames := by
  decide

theorem read_of_spells_mixedSpelling :
    (∀ r ∈ mixedRemarks, r.IsAllowed entityNames) ∧
      ((mixedRemarks.filter (!·.isRelation)).map Remark.name).Nodup ∧
      Spells mixedRemarks mixedSpelling.toList ∧
      ∃ set, read entityNames mixedSpelling = .ok set ∧
        ∀ key a, set.get? key = some a ↔ (key, a) ∈ entriesOf 0 mixedRemarks := by
  have distinct : ((mixedRemarks.filter (!·.isRelation)).map Remark.name).Nodup := by decide
  exact ⟨isAllowed_mixedRemarks, distinct, spells_mixedSpelling,
    read_of_spells (.inl rfl) isAllowed_mixedRemarks distinct spells_mixedSpelling⟩

/-- The set of this text. -/
def mixedSet : Annotations := .ofList (entriesOf 0 mixedRemarks)

theorem read_mixedSpelling : read entityNames mixedSpelling = .ok mixedSet :=
  read_of_spellsEach areNames_entityNames isAllowed_mixedRemarks (by decide) spells_mixedSpelling
    fun _ _ _ held => isReadInGroup_of_spells (isAllowed_mixedRemarks _ held)

end SchemaLedger.Annotations
