import SchemaLedger.Merge.Basic
import SchemaLedger.Proofs.Store.Forgetting

/-!
# Merging does not look at what a document forgets

The matches of a plan, the changes made for it and the notices given only depend on what a document
keeps of the stored model. So a plan merged into two stores that are alike either fails on both with
the same error, or gives the same notices and leaves stores that are alike.
-/

namespace SchemaLedger.Merge

open Text

/-! ### Matching -/

theorem matchEntities_kept (m : Model) (plan : List Entity) :
    matchEntities m.kept plan = matchEntities m plan := by
  have byUid : entityByUid m.kept = entityByUid m := by
    funext e
    simp only [entityByUid, Model.findByUid?_kept]
  have byName : entityByName m.kept = entityByName m := by
    funext e
    simp [entityByName, Model.entity?_kept, Function.comp_def]
  rw [matchEntities, byUid, byName, matchEntities]

theorem matchProperties_kept (store : Store) (planned owner : Entity) :
    matchProperties ⟨store.model.kept, store.uids⟩ planned owner.kept =
      matchProperties store planned owner := by
  have byUid : propertyByUid store.model.kept owner.kept = propertyByUid store.model owner := by
    funext p
    simp only [propertyByUid, Entity.findPropertyByUid?_kept, Entity.property?_kept,
      Model.mentions_kept]
    cases owner.property? p.name <;> rfl
  have byName : propertyByName ⟨store.model.kept, store.uids⟩ planned owner.kept =
      propertyByName store planned owner := by
    funext p
    simp [propertyByName, propertyQuestion, Entity.property?_kept, Model.freshUid?_kept,
      Function.comp_def, Property.kept]
  rw [matchProperties, byUid, byName, matchProperties]

theorem matchRelations_kept (planned owner : Entity) :
    matchRelations planned owner.kept = matchRelations planned owner := by
  have byUid : relationByUid owner.kept = relationByUid owner := by
    funext r
    simp only [relationByUid, Entity.findRelationByUid?_kept, Entity.kept_name]
  have byName : relationByName planned owner.kept = relationByName planned owner := by
    funext r
    simp [relationByName, Entity.relation?_kept, Function.comp_def, Relation.kept]
  rw [matchRelations, byUid, byName, matchRelations]

theorem targetOf_kept (targets : Targets) (m : Model) (r : Relation) :
    targetOf targets m.kept r = targetOf targets m r := by
  have found (uid : UInt64) : (m.kept.entities.find? fun e => e.id.uid = uid) =
      (m.entities.find? fun e => e.id.uid = uid).map Entity.kept :=
    find?_map_of_blind Entity.kept (·.id.uid = uid) m.entities fun _ => rfl
  simp only [targetOf, found]
  cases targets.lookup (foldCase r.target) with
  | none => rfl
  | some uid =>
      simp only [Option.bind_some]
      cases m.entities.find? fun e => e.id.uid = uid <;> rfl

/-! ### Changes -/

theorem reorder_map_of_blind {α : Type} (kept : α → α) (uid : α → UInt64)
    (blind : ∀ x, uid (kept x) = uid x) (order : List UInt64) (xs : List α) :
    reorder uid order (xs.map kept) = (reorder uid order xs).map kept := by
  induction order generalizing xs with
  | nil => rfl
  | cons u order ih =>
      have first := filter_map_of_blind kept (uid · = u) xs fun x => by rw [blind]
      have rest := filter_map_of_blind kept (uid · ≠ u) xs fun x => by rw [blind]
      rw [reorder, first, rest, ih, reorder, List.map_append]

theorem isBlind_reorder {α : Type} {kept : α → α} {uid : α → UInt64}
    (again : ∀ x, kept (kept x) = kept x) (blind : ∀ x, uid (kept x) = uid x)
    (order : List UInt64) : IsBlind (List.map kept) (reorder uid order) := by
  intro xs
  simp [reorder_map_of_blind kept uid blind, again]

theorem isBlind_reorderProperties (i : Nat) (order : List UInt64) :
    IsBlind Model.kept (·.modifyEntity i fun e =>
      { e with properties := reorder (·.id.uid) order e.properties }) :=
  Model.isBlind_modifyEntity
    (Entity.isBlind_properties (isBlind_reorder Property.kept_kept (fun _ => rfl) order)) i

theorem isBlind_reorderRelations (i : Nat) (order : List UInt64) :
    IsBlind Model.kept (·.modifyEntity i fun e =>
      { e with relations := reorder (·.id.uid) order e.relations }) :=
  Model.isBlind_modifyEntity
    (Entity.isBlind_relations (isBlind_reorder Relation.kept_kept (fun _ => rfl) order)) i

theorem isBlind_reorderEntities (order : List UInt64) :
    IsBlind Model.kept fun m =>
      upgrade { m with entities := reorder (·.id.uid) order m.entities } := by
  intro m
  have reordered := reorder_map_of_blind Entity.kept (·.id.uid) (fun _ => rfl) order m.entities
  simp only [Model.kept, upgrade, reordered]
  split <;> simp [Function.comp_def]

theorem isBlind_resetProperty (i j : Nat) (new : UInt64) :
    IsBlind Model.kept (resetProperty i j new) := by
  intro m
  simp only [resetProperty, Model.propertyAt?_kept]
  cases there : m.propertyAt? i j with
  | none => simp
  | some p =>
      have given : IsBlind Model.kept (·.modifyProperty i j ({ · with id := ⟨p.id.id, new⟩ })) :=
        Model.isBlind_modifyProperty (fun _ => rfl) i j
      have last : IsBlind Model.kept (·.modifyEntity i fun e =>
          if e.lastProperty = some p.id then { e with lastProperty := some ⟨p.id.id, new⟩ }
          else e) := by
        refine Model.isBlind_modifyEntity (fun e => ?_) i
        by_cases same : e.lastProperty = some p.id <;>
          simp [same, Entity.kept, Function.comp_def]
      exact congrArg (fun n : Model => { n with retired := { m.retired with
        properties := m.retired.properties ++ [p.id.uid] } })
        (last.comp given Model.kept_kept m)

/-! ### Steps -/

open Revision

variable {planned : Entity} {i j : Nat} {isNew quiet : Bool} {targets : Targets}

theorem agree_locateProperty (uid : UInt64) :
    Agree Eq (locateProperty i uid) (locateProperty i uid) := by
  refine (Agree.entityAt i).bind fun e e' alike => ?_
  have found : e.findPropertyByUid? uid = e'.findPropertyByUid? uid := by
    rw [← e.findPropertyByUid?_kept, alike, e'.findPropertyByUid?_kept]
  have name : e.name = e'.name := congrArg (·.name) alike
  rw [found, name]
  cases e'.findPropertyByUid? uid with
  | none => exact .throw _
  | some j => exact .pure rfl

theorem agree_placeProperty (p : Property) (found : Option PropertyMatch) :
    Agree Eq (placeProperty planned i isNew p found) (placeProperty planned i isNew p found) := by
  match found with
  | some (.existing uid) => exact (agree_locateProperty uid).within.bind_eq fun _ => .pure rfl
  | some (.reset old new) =>
      exact (agree_locateProperty old).within.bind_eq fun j =>
        (Agree.update (isBlind_resetProperty i j new)).bind_eq fun _ => .pure rfl
  | none => exact (Agree.createProperty i p.name p.kind).bind_eq fun _ => .pure rfl

theorem agree_settleIndex (p : Property) {stored stored' : Property}
    (alike : stored.kept = stored'.kept) :
    Agree Eq (settleIndex planned i j quiet p stored)
      (settleIndex planned i j quiet p stored') := by
  have index : stored.index = stored'.index := congrArg (·.index) alike
  unfold settleIndex
  rw [index]
  split
  · exact (Agree.update (Model.isBlind_dropIndex i j)).bind_eq fun _ => .pure rfl
  · exact Agree.createIndex.bind_eq fun index =>
      (Agree.update (Model.isBlind_modifyProperty (fun _ => rfl) i j)).bind_eq fun _ => .pure rfl
  · exact .pure rfl

theorem agree_settleProperty (p : Property) :
    Agree Eq (settleProperty planned i j quiet p) (settleProperty planned i j quiet p) := by
  refine (Agree.propertyAt i j).bind fun q q' alike => (agree_settleIndex p alike).bind_eq
    fun _ => (Agree.update (Model.isBlind_modifyProperty (fun _ => rfl) i j)).bind_eq fun _ => ?_
  have name : q.name = q'.name := congrArg (·.name) alike
  rw [name]
  exact .pure rfl

theorem agree_mergeProperty (p : Property) (found : Option PropertyMatch) :
    Agree Eq (mergeProperty planned i isNew p found) (mergeProperty planned i isNew p found) :=
  (agree_placeProperty p found).bind_eq fun (j, _, _) => (agree_settleProperty p).within.bind_eq
    fun _ => (Agree.propertyAt i j).bind fun q q' alike => by
      have uid : q.id.uid = q'.id.uid := congrArg (·.id.uid) alike
      rw [uid]
      exact .pure rfl

theorem agree_mergeEachProperty (xs : List (Property × Option PropertyMatch)) :
    Agree Eq (mergeEachProperty planned i isNew xs) (mergeEachProperty planned i isNew xs) := by
  induction xs with
  | nil => exact .pure rfl
  | cons a xs ih =>
      exact (agree_mergeProperty a.1 a.2).bind_eq fun _ => ih.bind_eq fun _ => .pure rfl

theorem agree_mergeProperties :
    Agree Eq (mergeProperties planned i isNew) (mergeProperties planned i isNew) := by
  refine (Agree.entityAt i).bind fun e e' alike => Agree.get.bind fun s t same => ?_
  have matched : matchProperties s planned e = matchProperties t planned e' := by
    rw [← matchProperties_kept, ← matchProperties_kept t, alike, same.model, same.uids]
  rw [matched]
  refine (Agree.ofExcept _).bind_eq fun found => ?_
  refine (Agree.update (Model.isBlind_keepProperties (fun _ => rfl) i)).bind_eq fun _ => ?_
  refine (agree_mergeEachProperty _).bind_eq fun (order, notices) => ?_
  refine (Agree.update (isBlind_reorderProperties i order)).bind_eq fun _ => .pure ?_
  have removed := map_filter_eq_of_alike Property.kept
    (·.id.uid ∉ found.filterMap fun m => m.map PropertyMatch.storedUid)
    (fun p => Notice.propertyRemoved planned.name p.name) (fun _ => rfl) (fun _ => rfl)
    (congrArg (·.properties) alike)
  exact congrArg (· ++ notices) removed

theorem agree_locateRelation (uid : UInt64) :
    Agree Eq (locateRelation planned i uid) (locateRelation planned i uid) := by
  refine (Agree.entityAt i).bind fun e e' alike => ?_
  have found : e.findRelationByUid? uid = e'.findRelationByUid? uid := by
    rw [← e.findRelationByUid?_kept, alike, e'.findRelationByUid?_kept]
  rw [found]
  cases e'.findRelationByUid? uid with
  | none => exact .throw _
  | some j => exact .pure rfl

theorem agree_placeRelation (r : Relation) (found : Option UInt64) :
    Agree Eq (placeRelation planned i isNew r found) (placeRelation planned i isNew r found) := by
  match found with
  | some uid => exact (agree_locateRelation uid).within.bind_eq fun _ => .pure rfl
  | none => exact (Agree.createRelation i r.name).bind_eq fun _ => .pure rfl

theorem agree_mergeRelation (r : Relation) (found : Option UInt64) :
    Agree Eq (mergeRelation planned i isNew targets r found)
      (mergeRelation planned i isNew targets r found) := by
  refine (agree_placeRelation r found).bind_eq fun (j, _) => Agree.model.bind fun m m' same => ?_
  have target : targetOf targets m r = targetOf targets m' r := by
    rw [← targetOf_kept, same, targetOf_kept]
  rw [target]
  refine (Agree.ofExcept _).bind_eq fun target => (Agree.relationAt i j).bind fun q q' alike => ?_
  refine (Agree.update (Model.isBlind_modifyRelation (fun _ => rfl) i j)).bind_eq fun _ => ?_
  have uid : q.id.uid = q'.id.uid := congrArg (·.id.uid) alike
  have name : q.name = q'.name := congrArg (·.name) alike
  rw [uid, name]
  exact .pure rfl

theorem agree_mergeEachRelation (xs : List (Relation × Option UInt64)) :
    Agree Eq (mergeEachRelation planned i isNew targets xs)
      (mergeEachRelation planned i isNew targets xs) := by
  induction xs with
  | nil => exact .pure rfl
  | cons a xs ih =>
      exact (agree_mergeRelation a.1 a.2).bind_eq fun _ => ih.bind_eq fun _ => .pure rfl

theorem agree_mergeRelations :
    Agree Eq (mergeRelations planned i isNew targets)
      (mergeRelations planned i isNew targets) := by
  refine (Agree.entityAt i).bind fun e e' alike => ?_
  have matched : matchRelations planned e = matchRelations planned e' := by
    rw [← matchRelations_kept, alike, matchRelations_kept]
  rw [matched]
  refine (Agree.ofExcept _).bind_eq fun found => ?_
  refine (Agree.update (Model.isBlind_keepRelations (fun _ => rfl) i)).bind_eq fun _ => ?_
  refine (agree_mergeEachRelation _).bind_eq fun (order, notices) => ?_
  refine (Agree.update (isBlind_reorderRelations i order)).bind_eq fun _ => .pure ?_
  have removed := map_filter_eq_of_alike Relation.kept (·.id.uid ∉ found.filterMap id)
    (fun r => Notice.relationRemoved planned.name r.name) (fun _ => rfl) (fun _ => rfl)
    (congrArg (·.relations) alike)
  exact congrArg (· ++ notices) removed

theorem agree_mergeEntity :
    Agree Eq (mergeEntity planned i isNew targets) (mergeEntity planned i isNew targets) := by
  refine (Agree.entityAt i).bind fun e e' alike => ?_
  have name : e.name = e'.name := congrArg (·.name) alike
  have adopted : IsBlind Entity.kept (adoptEntity planned) := fun x => by
    simp [adoptEntity, Entity.kept, Function.comp_def]
  rw [name]
  exact (Agree.update (Model.isBlind_modifyEntity adopted i)).bind_eq fun _ =>
    agree_mergeProperties.bind_eq fun _ => agree_mergeRelations.bind_eq fun _ => .pure rfl

theorem agree_mergeEachEntity (xs : List (Entity × UInt64 × Bool)) :
    Agree Eq (mergeEachEntity targets xs) (mergeEachEntity targets xs) := by
  induction xs with
  | nil => exact .pure rfl
  | cons a xs ih =>
      obtain ⟨planned, uid, isNew⟩ := a
      refine Agree.model.bind fun m m' same => ?_
      have located : m.findByUid? uid = m'.findByUid? uid := by
        rw [← m.findByUid?_kept, same, m'.findByUid?_kept]
      rw [located]
      cases m'.findByUid? uid with
      | none => exact .throw _
      | some i => exact agree_mergeEntity.within.bind_eq fun _ => ih.bind_eq fun _ => .pure rfl

theorem agree_settleEntities (xs : List (Entity × Option UInt64)) :
    Agree Eq (settleEntities xs) (settleEntities xs) := by
  induction xs with
  | nil => exact .pure rfl
  | cons a xs ih =>
      obtain ⟨planned, _ | uid⟩ := a
      · refine (Agree.createEntity planned.name).bind_eq fun i => (Agree.entityAt i).bind
          fun e e' alike => ih.bind_eq fun _ => ?_
        have uid : e.id.uid = e'.id.uid := congrArg (·.id.uid) alike
        rw [uid]
        exact .pure rfl
      · exact ih.bind_eq fun _ => .pure rfl

/-- On stores that are alike, merging a plan gives the same notices and leaves stores that are
alike, or it fails with the same error. -/
theorem agree_mergePlan (plan : List Entity) : Agree Eq (mergePlan plan) (mergePlan plan) := by
  refine Agree.model.bind fun m m' same => ?_
  have matched : matchEntities m plan = matchEntities m' plan := by
    rw [← matchEntities_kept, same, matchEntities_kept]
  rw [matched]
  refine (Agree.ofExcept _).bind_eq fun found => ?_
  refine (Agree.update (Model.isBlind_keepEntities fun _ => rfl)).bind_eq fun _ => ?_
  refine (agree_settleEntities _).bind_eq fun (settled, added) => ?_
  refine (agree_mergeEachEntity _).bind_eq fun notices => ?_
  refine (Agree.update (isBlind_reorderEntities _)).bind_eq fun _ => .pure ?_
  have removed := map_filter_eq_of_alike Entity.kept (·.id.uid ∉ found.filterMap id)
    (fun e => Notice.entityRemoved e.name) (fun _ => rfl) (fun _ => rfl)
    (congrArg (·.entities) same)
  exact congrArg (· ++ added ++ notices) removed

end SchemaLedger.Merge
