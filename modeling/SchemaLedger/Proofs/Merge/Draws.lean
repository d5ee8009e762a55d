import SchemaLedger.Proofs.Merge.Outcome
import SchemaLedger.Proofs.Store.Growth

/-!
# What merging draws

Merging takes uids from the source for what it creates, and from the schema for the properties that
it resets. The model that it leaves, whether it succeeds or fails, mentions no other uids than these
and those that were stored.
-/

namespace SchemaLedger.Merge

variable {given : List UInt64} {planned : Entity} {i j : Nat} {isNew quiet : Bool}
variable {p stored : Property}
variable {targets : Targets}

/-- The uid that a match gives to a property. -/
def newUids : Option PropertyMatch → List UInt64
  | some (.reset _ new) => [new]
  | _ => []

theorem adds_resetProperty (i j : Nat) (new : UInt64) (m : Model) :
    Model.Adds [new] m (resetProperty i j new m) := by
  unfold resetProperty
  split
  · exact .refl m
  · next p at_j =>
      obtain ⟨e, at_i, there⟩ := Option.bind_eq_some_iff.mp at_j
      have known : m.Mentions p.id.uid := Model.mentions_of_entity (List.mem_of_getElem? at_i)
        (Entity.mem_uids.mpr (.inr (.inr (.inl ⟨p, List.mem_of_getElem? there,
          List.mem_cons_self⟩))))
      have first : Model.Adds [new] m (m.modifyProperty i j ({ · with id := ⟨p.id.id, new⟩ })) := by
        refine Model.adds_modifyProperty fun q _ uid hu => ?_
        rw [Property.uids, List.mem_cons] at hu
        rcases hu with rfl | hu
        · exact .inr List.mem_cons_self
        · exact .inl (List.mem_cons_of_mem _ hu)
      refine (first.trans (Model.adds_modifyEntity fun e at_i uid hu => ?_)).withRetired ?_
      · have own {uid : UInt64} (hu : uid ∈ e.uids) :=
          Model.mentions_of_entity (List.mem_of_getElem? at_i) hu
        split at hu
        · simp only [Entity.mem_uids] at hu own
          rcases hu with hu | hu | hu
          · exact .inl (own (.inl hu))
          · exact .inr (by simpa [eq_comm] using hu)
          · exact .inl (own (.inr (.inr hu)))
        · exact .inl (own hu)
      · intro uid hu
        simp only [Retired.uids, List.mem_append, List.mem_singleton] at hu
        by_cases own : uid = p.id.uid
        · exact .inl (own ▸ known)
        · refine .inl (Model.mentions_of_retired ?_)
          simp only [Retired.uids, List.mem_append]
          tauto

theorem draws_locateProperty (uid : UInt64) : Revision.Draws given (locateProperty i uid) :=
  (Revision.draws_entityAt i).bind fun _ e _ _ => by
    cases e.findPropertyByUid? uid with
    | none => exact Revision.draws_throw _
    | some j => exact Revision.draws_pure j

theorem draws_placeProperty (found : Option PropertyMatch) :
    Revision.Draws (newUids found) (placeProperty planned i isNew p found) := by
  match found with
  | some (.existing uid) =>
      exact (draws_locateProperty uid).within.bind fun _ _ _ _ => Revision.draws_pure _
  | some (.reset old new) =>
      exact (draws_locateProperty old).within.bind fun _ j _ _ =>
        (Revision.draws_update (adds_resetProperty i j new)).bind fun _ _ _ _ =>
          Revision.draws_pure _
  | none =>
      exact (Revision.draws_createProperty i p.name p.kind).bind fun _ _ _ _ =>
        Revision.draws_pure _

theorem draws_settleIndex : Revision.Draws given (settleIndex planned i j quiet p stored) := by
  unfold settleIndex
  split
  · exact (Revision.draws_update fun m => m.adds_dropIndex i j).bind fun _ _ _ _ =>
      Revision.draws_pure _
  · refine Revision.draws_createIndex_bind fun index => ?_
    refine (Revision.draws_update fun m => ?_).bind fun _ _ _ _ => Revision.draws_pure _
    refine Model.adds_modifyProperty fun q _ uid hu => ?_
    simp only [Property.uids, Option.map_some, Option.toList_some, List.mem_cons,
      List.not_mem_nil, or_false] at hu
    rcases hu with rfl | rfl
    · exact .inl List.mem_cons_self
    · exact .inr List.mem_cons_self
  · exact Revision.draws_pure _

theorem draws_settleProperty : Revision.Draws given (settleProperty planned i j quiet p) := by
  refine (Revision.draws_propertyAt i j).bind fun _ stored _ _ => ?_
  refine draws_settleIndex.bind fun _ _ _ _ => ?_
  refine (Revision.draws_update fun m => ?_).bind fun _ _ _ _ => Revision.draws_pure _
  exact Model.adds_modifyProperty fun _ _ _ => .inl

theorem draws_mergeProperty (found : Option PropertyMatch) :
    Revision.Draws (newUids found) (mergeProperty planned i isNew p found) :=
  (draws_placeProperty found).bind fun _ (j, _, _) _ _ => draws_settleProperty.within.bind
    fun _ _ _ _ => (Revision.draws_propertyAt i j).bind fun _ _ _ _ => Revision.draws_pure _

theorem draws_mergeEachProperty (xs : List (Property × Option PropertyMatch)) :
    Revision.Draws (xs.flatMap (newUids ·.2)) (mergeEachProperty planned i isNew xs) := by
  induction xs with
  | nil => exact Revision.draws_pure _
  | cons a xs ih =>
      obtain ⟨p, found⟩ := a
      exact ((draws_mergeProperty found).mono (by simp)).bind fun _ _ _ _ =>
        (ih.mono (by simp)).bind fun _ _ _ _ => Revision.draws_pure _

theorem adds_modifyEntity_of_uids {m : Model} {f : Entity → Entity}
    (same : ∀ e, ∀ uid ∈ (f e).uids, uid ∈ e.uids) : Model.Adds given m (m.modifyEntity i f) :=
  Model.adds_modifyEntity fun e at_i uid hu =>
    .inl (Model.mentions_of_entity (List.mem_of_getElem? at_i) (same e uid hu))

theorem adds_reorderProperties {m : Model} {order : List UInt64} :
    Model.Adds given m (m.modifyEntity i fun e =>
      { e with properties := reorder (·.id.uid) order e.properties }) := by
  refine adds_modifyEntity_of_uids fun e uid hu => ?_
  simpa only [Entity.mem_uids, mem_reorder] using hu

theorem adds_reorderRelations {m : Model} {order : List UInt64} :
    Model.Adds given m (m.modifyEntity i fun e =>
      { e with relations := reorder (·.id.uid) order e.relations }) := by
  refine adds_modifyEntity_of_uids fun e uid hu => ?_
  simpa only [Entity.mem_uids, mem_reorder] using hu

/-- The uids that the schema gives to the properties of an entity. -/
def givenUids (planned : Entity) : List UInt64 :=
  (planned.properties.map (·.id.uid)).filter (· ≠ 0)

/-- A match gives a property no uid but the one that the schema gives. -/
theorem newUids_sublist {m : Model} {owner : Entity} {properties : List Property}
    {found : List (Option PropertyMatch)}
    (matched : List.Forall₂ (PropertyMatched m owner) properties found) :
    ((properties.zip found).flatMap (newUids ·.2)).Sublist
      ((properties.map (·.id.uid)).filter (· ≠ 0)) := by
  induction matched with
  | nil => exact .slnil
  | @cons p f properties found first _ ih =>
      have rest : ((properties.zip found).flatMap (newUids ·.2)).Sublist
          ((p :: properties).map (·.id.uid) |>.filter (· ≠ 0)) :=
        ih.trans ((List.sublist_cons_self _ _).map _ |>.filter _)
      match f with
      | none => simpa [newUids] using rest
      | some (.existing uid) => simpa [newUids] using rest
      | some (.reset old new) =>
          obtain ⟨rfl, given, -⟩ := first.of_reset
          simpa [newUids, given] using ih

theorem draws_mergeProperties (planned : Entity) (i : Nat) (isNew : Bool) :
    Revision.Draws (givenUids planned) (mergeProperties planned i isNew) := by
  refine (Revision.draws_entityAt i).bind fun _ owner _ _ => ?_
  refine Revision.draws_get.bind fun _ s _ _ => ?_
  refine (Revision.draws_ofExcept _).bind fun _ found _ match_ok => ?_
  obtain ⟨matched, -⟩ := matchProperties_eq_ok.mp (Revision.ofExcept_eq_ok.mp match_ok).1
  refine (Revision.draws_update fun m => m.adds_keepProperties i _).bind fun _ _ _ _ => ?_
  refine ((draws_mergeEachProperty _).mono (newUids_sublist matched).subset).bind
    fun _ _ _ _ => ?_
  exact (Revision.draws_update fun _ => adds_reorderProperties).bind fun _ _ _ _ =>
    Revision.draws_pure _

theorem draws_locateRelation (uid : UInt64) :
    Revision.Draws given (locateRelation planned i uid) :=
  (Revision.draws_entityAt i).bind fun _ e _ _ => by
    cases e.findRelationByUid? uid with
    | none => exact Revision.draws_throw _
    | some j => exact Revision.draws_pure j

theorem draws_placeRelation {r : Relation} (found : Option UInt64) :
    Revision.Draws given (placeRelation planned i isNew r found) := by
  match found with
  | some uid =>
      exact (draws_locateRelation uid).within.bind fun _ _ _ _ => Revision.draws_pure _
  | none =>
      exact (Revision.draws_createRelation i r.name).bind fun _ _ _ _ => Revision.draws_pure _

theorem draws_mergeRelation {r : Relation} (found : Option UInt64) :
    Revision.Draws given (mergeRelation planned i isNew targets r found) := by
  refine (draws_placeRelation found).bind fun _ (j, _) _ _ => ?_
  refine Revision.draws_model.bind fun _ m _ _ => ?_
  refine (Revision.draws_ofExcept _).bind fun _ target _ _ => ?_
  refine (Revision.draws_relationAt i j).bind fun _ _ _ _ => ?_
  have adopted (m : Model) : Model.Adds given m (m.modifyRelation i j (adoptRelation target r)) :=
    Model.adds_modifyRelation fun _ => rfl
  exact (Revision.draws_update adopted).bind fun _ _ _ _ => Revision.draws_pure _

theorem draws_mergeEachRelation (xs : List (Relation × Option UInt64)) :
    Revision.Draws given (mergeEachRelation planned i isNew targets xs) := by
  induction xs with
  | nil => exact Revision.draws_pure _
  | cons a xs ih =>
      exact (draws_mergeRelation a.2).bind fun _ _ _ _ => ih.bind fun _ _ _ _ =>
        Revision.draws_pure _

theorem draws_mergeRelations : Revision.Draws given (mergeRelations planned i isNew targets) := by
  refine (Revision.draws_entityAt i).bind fun _ owner _ _ => ?_
  refine (Revision.draws_ofExcept _).bind fun _ found _ _ => ?_
  refine (Revision.draws_update fun m => m.adds_keepRelations i _).bind fun _ _ _ _ => ?_
  refine (draws_mergeEachRelation _).bind fun _ _ _ _ => ?_
  exact (Revision.draws_update fun _ => adds_reorderRelations).bind fun _ _ _ _ =>
    Revision.draws_pure _

theorem draws_mergeEntity (planned : Entity) (i : Nat) (isNew : Bool) (targets : Targets) :
    Revision.Draws (givenUids planned) (mergeEntity planned i isNew targets) := by
  refine (Revision.draws_entityAt i).bind fun _ stored _ _ => ?_
  have adopted (m : Model) : Model.Adds (givenUids planned) m
      (m.modifyEntity i (adoptEntity planned)) :=
    adds_modifyEntity_of_uids fun _ _ => id
  refine (Revision.draws_update adopted).bind fun _ _ _ _ => ?_
  exact (draws_mergeProperties planned i isNew).bind fun _ _ _ _ =>
    draws_mergeRelations.bind fun _ _ _ _ => Revision.draws_pure _

theorem draws_settleEntities (xs : List (Entity × Option UInt64)) :
    Revision.Draws given (settleEntities xs) := by
  induction xs with
  | nil => exact Revision.draws_pure _
  | cons a xs ih =>
      match a with
      | (_, some uid) => exact ih.bind fun _ _ _ _ => Revision.draws_pure _
      | (planned, none) =>
          exact (Revision.draws_createEntity planned.name).bind fun _ i _ _ =>
            (Revision.draws_entityAt i).bind fun _ _ _ _ => ih.bind fun _ _ _ _ =>
              Revision.draws_pure _

theorem draws_mergeEachEntity (targets : Targets) (xs : List (Entity × UInt64 × Bool)) :
    Revision.Draws (xs.flatMap (givenUids ·.1)) (mergeEachEntity targets xs) := by
  induction xs with
  | nil => exact Revision.draws_pure _
  | cons a xs ih =>
      obtain ⟨planned, uid, isNew⟩ := a
      refine Revision.draws_model.bind fun _ m _ _ => ?_
      cases m.findByUid? uid with
      | none => exact Revision.draws_throw _
      | some i =>
          exact ((draws_mergeEntity planned i isNew targets).within.mono (by simp)).bind
            fun _ _ _ _ => (ih.mono (by simp)).bind fun _ _ _ _ => Revision.draws_pure _

theorem adds_upgrade {m : Model} {order : List UInt64} :
    Model.Adds given m (upgrade { m with entities := reorder (·.id.uid) order m.entities }) := by
  refine Model.adds_of (by simp) (fun uid hu => .inl (Model.mentions_of_last ?_))
    (fun uid hu => .inl (Model.mentions_of_retired (by simpa using hu))) fun e he uid hu => ?_
  · simpa [Model.lastUids] using hu
  · rw [upgrade_entities, mem_reorder] at he
    exact .inl (Model.mentions_of_entity he hu)

/-- Merging a plan mentions no uids but those that were stored, those that the schema gives to
properties and those that were taken from the source. -/
theorem draws_mergePlan (plan : List Entity) :
    Revision.Draws (plan.flatMap givenUids) (mergePlan plan) := by
  refine Revision.draws_model.bind fun _ stored _ _ => ?_
  refine (Revision.draws_ofExcept _).bind fun _ found _ _ => ?_
  refine (Revision.draws_update fun m => m.adds_keepEntities _).bind fun _ _ _ _ => ?_
  refine (draws_settleEntities _).bind fun _ settled _ _ => ?_
  have listed : (plan.zip settled.1).flatMap (givenUids ·.1) ⊆ plan.flatMap givenUids := by
    intro uid hu
    obtain ⟨a, ha, hu⟩ := List.mem_flatMap.mp hu
    exact List.mem_flatMap.mpr ⟨a.1, (List.of_mem_zip ha).1, hu⟩
  refine ((draws_mergeEachEntity _ _).mono listed).bind fun _ _ _ _ => ?_
  exact (Revision.draws_update fun _ => adds_upgrade).bind fun _ _ _ _ => Revision.draws_pure _

end SchemaLedger.Merge
