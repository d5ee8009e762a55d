import SchemaLedger.Proofs.Draft.Marks
import SchemaLedger.Proofs.Tag.Printing

/-!
# Relations in the order of the text

Relations with details may have any names, also the same ones, and stand anywhere among the other
annotations of an entity. They never get in each other's way, and the entity gets them in the order
in which they are written, line after line.
-/

namespace SchemaLedger.Annotations

open Tag

variable {lines : List String} {set : Annotations} {each : List (List Remark)}

/-- Whether lines are accepted is a matter of each remark on them, and of the names of those that
are not relations with details. -/
theorem exists_readEach_iff :
    (∃ set, readEach entityNames lines = .ok set) ↔
      ∃ each, List.Forall₂ IsCutInto lines each ∧ (∀ r ∈ each.flatten, r.IsAllowed entityNames) ∧
        ((each.flatten.filter (!·.isRelation)).map Remark.name).Nodup := by
  have names := areNames_entityNames
  constructor
  · rintro ⟨set, run⟩
    obtain ⟨each, cut, made⟩ := (readEach_eq_ok_iff names).mp run
    exact ⟨each, cut, made.areAllowed,
      (names_sublist_keysOf_entriesOf 0 _).nodup made.distinct⟩
  · rintro ⟨each, cut, areAllowed, distinct⟩
    refine ⟨.ofList (entriesOf 0 each.flatten), (readEach_eq_ok_iff names).mpr ⟨each, cut, ?_⟩⟩
    refine ⟨areAllowed, fun r hr => ?_, nodup_keysOf_entriesOf names areAllowed distinct 0, rfl⟩
    obtain ⟨remarks, hremarks, hr⟩ := List.mem_flatten.mp hr
    obtain ⟨line, -, cut⟩ := exists_of_forall₂ cut hremarks
    exact isCut_of_itemsOf cut r hr

/-- The relations with details on the lines are all in the set, in the order of the lines, as long
as their number fits into the keys. -/
theorem relations_of_readEach (run : readEach entityNames lines = .ok set)
    (cut : List.Forall₂ IsCutInto lines each)
    (few : (relationsOf each.flatten).length < 10 ^ 10) :
    set.relations.map Prod.snd = (relationsOf each.flatten).map Remark.annotation := by
  obtain ⟨each', cut', made⟩ := (readEach_eq_ok_iff areNames_entityNames).mp run
  obtain rfl := rightUnique_isCutInto.forall₂ cut cut'
  rw [made.relations_eq areNames_entityNames few.le, map_snd_numbered]

/-- Lines are accepted if each remark on them is allowed and those that are not relations with
details have different names. The set then has all the relations with details in the order of the
lines, as long as their number fits into the keys, and an entity that is not left out gets exactly
these in this order. -/
theorem readEach_relations (lines : List String) :
    ((∃ set, readEach entityNames lines = .ok set) ↔
        ∃ each, List.Forall₂ IsCutInto lines each ∧
          (∀ r ∈ each.flatten, r.IsAllowed entityNames) ∧
          ((each.flatten.filter (!·.isRelation)).map Remark.name).Nodup) ∧
      ∀ set each, readEach entityNames lines = .ok set → List.Forall₂ IsCutInto lines each →
        (relationsOf each.flatten).length < 10 ^ 10 →
        set.relations.map Prod.snd = (relationsOf each.flatten).map Remark.annotation ∧
          ∀ e e' : Entity, e.annotate set = .ok (some e') →
            ∃ relations, e'.relations = e.relations ++ relations ∧
              List.Forall₂ Annotation.DeclaresRelation
                ((relationsOf each.flatten).map Remark.annotation) relations := by
  constructor
  · exact exists_readEach_iff
  · intro set each run cut few
    have inOrder := relations_of_readEach run cut few
    refine ⟨inOrder, fun e e' annotated => ?_⟩
    rw [← inOrder]
    exact (Entity.isMarked_of_annotate annotated).relations

/-- A relation with this name. -/
def relationToTag (name : String) : Remark :=
  .group "relation" [("name", .value name), ("to", .value "Tag")]

theorem spells_relationToTag {name : String} (some_there : name.toList ≠ [])
    (unbroken : IsUnbroken name.toList) (unmarked : HasNoMark name.toList) :
    Spells [relationToTag name] ("relation(name=" ++ name ++ ",to=Tag)").toList := by
  have noQuote : name.toList.head? ≠ some '"' := fun first =>
    unmarked '"' (List.mem_of_mem_head? first) (by decide)
  have named : SpellsPlain true ("name", .value name) ("name=" ++ name).toList := by
    have spelled : SpellsValue true name name.toList := .bare some_there unbroken noQuote
      fun _ => unmarked
    simpa using SpellsPlain.value (by decide : SpellsName "name" "name".toList) isBlankRun_nil
      (.inl rfl) isBlankRun_nil spelled
  have tag : SpellsPlain true ("to", .value "Tag") "to=Tag".toList :=
    .value (by decide : SpellsName "to" "to".toList) isBlankRun_nil (.inl rfl) isBlankRun_nil
      (.bare (by decide) (by decide) (by decide) fun _ => by decide)
  have comma : IsGap [','] := by decide
  have details : SpellsEach (SpellsPlain true) [("name", .value name), ("to", .value "Tag")]
      ([] ++ (("name=" ++ name).toList ++ ([','] ++ ("to=Tag".toList ++ [])))) :=
    .cons isGap_nil named (isApart_cons (by decide) _)
      (.cons comma tag isApart_nil (.nil isGap_nil))
  have group : SpellsRemark (SpellsEach (SpellsPlain true)) (relationToTag name) _ :=
    .group (by decide : SpellsName "relation" "relation".toList) isBlankRun_nil details
  simpa [Spells] using SpellsEach.cons isGap_nil group isApart_nil (.nil isGap_nil)

/-- Names of relations that are neither in the order of their letters nor distinct. -/
def unsortedNames : List String := ["zeta", "alpha", "zeta"]

/-- A line with several annotations, and one for each of these names. -/
def unsortedLines : List String :=
  mixedSpelling :: unsortedNames.map fun name => "relation(name=" ++ name ++ ",to=Tag)"

/-- What these lines say. -/
def unsortedRemarks : List (List Remark) :=
  mixedRemarks :: unsortedNames.map fun name => [relationToTag name]

theorem isCutInto_unsortedLines : List.Forall₂ IsCutInto unsortedLines unsortedRemarks := by
  have spelled {text : String} {remarks : List Remark} (spelled : Spells remarks text.toList)
      (areAllowed : ∀ r ∈ remarks, r.IsAllowed entityNames) : IsCutInto text remarks :=
    isCutInto_of_spellsEach areNames_entityNames areAllowed spelled fun _ _ _ held =>
      isReadInGroup_of_spells (areAllowed _ held)
  have areAllowed : ∀ name ∈ unsortedNames, ∀ r ∈ [relationToTag name],
      r.IsAllowed entityNames := by
    decide
  have bare : ∀ name ∈ unsortedNames, name.toList ≠ [] ∧ IsUnbroken name.toList ∧
      HasNoMark name.toList := by
    decide
  refine .cons (spelled spells_mixedSpelling isAllowed_mixedRemarks) ?_
  rw [List.forall₂_map_left_iff, List.forall₂_map_right_iff, List.forall₂_same]
  intro name h
  obtain ⟨some_there, unbroken, unmarked⟩ := bare name h
  exact spelled (spells_relationToTag some_there unbroken unmarked) (areAllowed name h)

theorem readEach_relations_unsortedLines :
    ∃ set, readEach entityNames unsortedLines = .ok set ∧
      List.Forall₂ IsCutInto unsortedLines unsortedRemarks ∧
      (∀ r ∈ unsortedRemarks.flatten, r.IsAllowed entityNames) ∧
      ((unsortedRemarks.flatten.filter (!·.isRelation)).map Remark.name).Nodup ∧
      (relationsOf unsortedRemarks.flatten).length < 10 ^ 10 ∧
      (set.relations.map fun entry => entry.2.detail? "name") =
        ("tags" :: unsortedNames).map some ∧
      ∀ e e' : Entity, e.annotate set = .ok (some e') →
        ∃ relations, e'.relations = e.relations ++ relations ∧
          List.Forall₂ Annotation.DeclaresRelation
            ((relationsOf unsortedRemarks.flatten).map Remark.annotation) relations := by
  have cut := isCutInto_unsortedLines
  have areAllowed : ∀ r ∈ unsortedRemarks.flatten, r.IsAllowed entityNames := by decide
  have distinct : ((unsortedRemarks.flatten.filter (!·.isRelation)).map Remark.name).Nodup := by
    decide
  have few : (relationsOf unsortedRemarks.flatten).length < 10 ^ 10 := by decide
  obtain ⟨accepted, relations⟩ := readEach_relations unsortedLines
  obtain ⟨set, run⟩ := accepted.mpr ⟨unsortedRemarks, cut, areAllowed, distinct⟩
  obtain ⟨inOrder, added⟩ := relations set unsortedRemarks run cut few
  refine ⟨set, run, cut, areAllowed, distinct, few, ?_, added⟩
  have names := congrArg (List.map fun a : Annotation => a.detail? "name") inOrder
  rw [List.map_map] at names
  exact names.trans (by decide)

end SchemaLedger.Annotations
