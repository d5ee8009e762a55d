import SchemaLedger.Proofs.Merge.Renaming

/-!
# Merging does not look at fresh uids

What is matched in a stored entity has a uid that the initial model knows, so a run of the merge on
a copy of the store comes to the same matches. The uids that are drawn are only ever passed on: to
the elements that are created, to the order of the elements, and to the targets of relations. So the
run on the copy draws the renamed uids and does with them what the first run did.
-/

namespace SchemaLedger.Merge

/-! ### Properties -/

open Revision

section Steps

variable {S : Model} {s : Store} {planned : Entity} {i j : Nat} {isNew quiet : Bool}
variable {targets : Targets} {p : Property} {r : Relation}

/-- The initial model knows the uids of the match. -/
def KnowsMatch (S : Model) : Option PropertyMatch → Prop
  | some (.existing uid) => S.Knows uid
  | some (.reset old new) => S.Knows old ∧ S.Knows new
  | none => True

theorem knowsMatch_of_matched {m : Model} {owner : Entity} {found : Option PropertyMatch}
    (matched : PropertyMatched m owner p found) (given : S.Knows p.id.uid)
    (stored : ∀ q ∈ owner.properties, S.Knows q.id.uid) : KnowsMatch S found := by
  cases matched with
  | byUid => exact given
  | reset _ _ named => exact ⟨stored _ (property?_eq_some named).1, given⟩
  | byName =>
      cases named : owner.property? p.name with
      | none => exact trivial
      | some q => exact stored q (property?_eq_some named).1

theorem copies_ofExcept {α : Type} {x : Except ModelError α}
    {x' : Equiv.Perm UInt64 → Except ModelError α}
    (agrees : ∀ σ, S.IsKeptBy σ → AgreesUpTo (IsRenamed σ) x (x' σ)) :
    Copies S same (Revision.ofExcept x) (fun σ => Revision.ofExcept (x' σ)) s := by
  cases x with
  | ok a => exact .of_quiet rfl (.refl _) fun σ uids kept => by rw [(agrees σ kept).eq_ok]; rfl
  | error e =>
      refine .of_failed rfl fun σ uids kept => ?_
      obtain ⟨e', failed, rfl⟩ := (agrees σ kept).exists_error
      exact ⟨_, by rw [failed]; rfl⟩

/-- A uid that is suggested in a copy is the renamed one. -/
theorem propertyQuestion_copy {σ : Equiv.Perm UInt64} {s' : Store}
    (copy : s.IsCopy S σ (s.model.freshUid? s.uids).1.toList s') (p : Property)
    (found : Option UInt64) :
    (propertyQuestion s planned p found).root = .uidsExhausted uidAttempts ∨
      propertyQuestion s' planned p found =
        (propertyQuestion s planned p found).renameSuggestion σ := by
  cases found with
  | none => exact .inr rfl
  | some uid =>
      have starts := copy.starts
      cases suggested : (s.model.freshUid? s.uids).1 with
      | none =>
          refine .inl ?_
          simp only [propertyQuestion, suggested]
          rfl
      | some fresh =>
          rw [suggested] at starts
          have accepted := UidSource.accepts_of_search suggested
          simp only [decide_eq_true_eq] at accepted
          have suggested' : (s'.model.freshUid? s'.uids).1 = some (σ fresh) := by
            rw [copy.model, Model.freshUid?_of_startsWith _ _ starts]
            · exact fun zero => accepted.1 ((apply_eq_zero_iff copy.kept.zero).mp zero)
            · exact fun known => accepted.2 ((s.model.mentions_rename σ fresh).mp known)
          refine .inr ?_
          simp only [propertyQuestion, suggested, suggested']
          rfl

/-- The question for the uid of a property may suggest a uid, which is not drawn before. -/
theorem copies_matchProperties {owner : Entity}
    (given : ∀ p ∈ planned.properties, S.Knows p.id.uid)
    (stored : ∀ q ∈ owner.properties, S.Knows q.id.uid) :
    Copies S same (fun s => Revision.ofExcept (matchProperties s planned owner) s)
      (fun σ s => Revision.ofExcept (matchProperties s planned (owner.rename σ)) s) s := by
  cases matched : matchProperties s planned owner with
  | ok found =>
      refine .of_quiet (by rw [matched]; rfl) (.refl _) fun σ uids kept => ?_
      have agrees : AgreesUpTo (fun _ _ => True) (matchProperties s planned owner)
          (matchProperties ⟨s.model.rename σ, uids⟩ planned (owner.rename σ)) :=
        matchProperties_agrees _ s.uids uids (fun _ _ => trivial) (fun _ _ => trivial)
          (fun p hp => kept _ (given p hp)) fun q hq => kept _ (stored q hq)
      rw [matched] at agrees
      rw [agrees.eq_ok]
      rfl
  | error e =>
      change Copied S same _ s (Revision.ofExcept (matchProperties s planned owner) s)
      rw [matched]
      by_cases exhausted : e.root = .uidsExhausted uidAttempts
      · exact .exhausted exhausted
      refine .failed (s.model.freshUid? s.uids).1.toList ?_ ?_ fun σ s' copy => ?_
      · cases (s.model.freshUid? s.uids).1 <;> simp
      · intro uid hu
        have accepted := UidSource.accepts_of_search (Option.mem_toList.mp hu)
        simp only [decide_eq_true_eq] at accepted
        exact .of_unmentioned accepted.1 accepted.2
      · obtain ⟨m', uids⟩ := s'
        obtain rfl : m' = s.model.rename σ := copy.model
        have agrees : AgreesUpTo
            (fun e e' => e.root = .uidsExhausted uidAttempts ∨ IsRenamed σ e e')
            (matchProperties s planned owner)
            (matchProperties ⟨s.model.rename σ, uids⟩ planned (owner.rename σ)) :=
          matchProperties_agrees _ s.uids uids (fun _ plain => .inr plain.symm)
            (propertyQuestion_copy copy) (fun p hp => copy.kept _ (given p hp))
            fun q hq => copy.kept _ (stored q hq)
        rw [matched] at agrees
        obtain ⟨e', failed, used_up | rfl⟩ := agrees.exists_error
        · exact absurd used_up exhausted
        · exact ⟨_, by rw [failed]; rfl⟩

/-- If the copy finds the same position, or nothing as well, then it gives the same result. -/
theorem copies_found {found : Option Nat} {found' : Equiv.Perm UInt64 → Option Nat} {e : ModelError}
    (listed : ∀ σ, S.IsKeptBy σ → found' σ = found) (plain : ∀ σ, e = e.renameSuggestion σ) :
    Copies S same (match found with | some j => return j | none => throw e)
      (fun σ => match found' σ with | some j => return j | none => throw e) s := by
  cases found with
  | none =>
      refine (Copies.throw fun σ _ => plain σ).congr fun σ kept => ?_
      rw [listed σ kept]
  | some j =>
      refine (Copies.pure fun _ _ => rfl).congr fun σ kept => ?_
      rw [listed σ kept]

theorem copies_locateProperty {uid : UInt64} (known : S.Knows uid) :
    Copies S same (locateProperty i uid) (fun _ => locateProperty i uid) s := by
  refine (Copies.entityAt i).bind fun e t _ => copies_found (fun σ kept => ?_) fun _ => rfl
  rw [← e.findPropertyByUid?_rename σ, kept uid known]

theorem copies_placeProperty {found : Option PropertyMatch} (known : KnowsMatch S found) :
    Copies S same (placeProperty planned i isNew p found)
      (fun _ => placeProperty planned i isNew p found) s := by
  match found with
  | some (.existing uid) =>
      exact (copies_locateProperty known).within.bind fun _ _ _ => .pure fun _ _ => rfl
  | some (.reset old new) =>
      refine (copies_locateProperty known.1).within.bind fun j t _ =>
        (Copies.update (retains_resetProperty new) fun σ kept => ?_).bind
          fun _ _ _ => .pure fun _ _ => rfl
      rw [resetProperty_rename, kept new known.2]
  | none =>
      exact (Copies.createProperty i p.name p.kind).bind fun _ _ _ => .pure fun _ _ => rfl

/-- An index that is created gets the fresh uid at once. -/
theorem copies_settleIndex {stored : Property} (there : s.model.propertyAt? i j = some stored) :
    Copies S same (settleIndex planned i j quiet p stored)
      (fun σ => settleIndex planned i j quiet p (stored.rename σ)) s := by
  cases has : stored.index with
  | none =>
      cases wants : p.index with
      | none =>
          simp only [settleIndex, Property.index_rename, has, wants, Option.map_none]
          exact .pure fun _ _ => rfl
      | some wanted =>
          simp only [settleIndex, Property.index_rename, has, wants, Option.map_none, createIndex,
            bind_assoc]
          exact .freshUid_bind fun uid => ⟨_, attachIndex i j uid s.model, fun _ => rfl,
            mem_census_attachIndex there uid, retains_attachIndex there has uid,
            fun σ uids _ => by rw [attachIndex_rename]; rfl⟩
  | some index =>
      cases wants : p.index with
      | none =>
          simp only [settleIndex, Property.index_rename, has, wants, Option.map_some]
          exact (Copies.update (retains_dropIndex there) fun σ kept =>
            s.model.dropIndex_rename i j kept.zero).bind fun _ _ _ => .pure fun _ _ => rfl
      | some wanted =>
          simp only [settleIndex, Property.index_rename, has, wants, Option.map_some]
          exact .pure fun _ _ => rfl

theorem copies_settleProperty : Copies S same (settleProperty planned i j quiet p)
    (fun _ => settleProperty planned i j quiet p) s := by
  refine (Copies.propertyAt i j).bind fun stored t found => ?_
  obtain ⟨there, rfl⟩ := propertyAt_eq_ok.mp found
  refine (copies_settleIndex there).bind fun notices t _ => ?_
  refine (Copies.update ?_ fun σ _ => ?_).bind fun _ _ _ => .pure fun _ _ => rfl
  · exact Model.retains_modifyProperty fun _ _ _ => id
  · exact t.model.modifyProperty_rename i j fun _ => rfl

theorem copies_mergeProperty {found : Option PropertyMatch} (known : KnowsMatch S found) :
    Copies S (fun σ (uid, notices) => (σ uid, notices)) (mergeProperty planned i isNew p found)
      (fun _ => mergeProperty planned i isNew p found) s :=
  (copies_placeProperty known).bind fun placed _ _ => copies_settleProperty.within.bind
    fun _ _ _ => (Copies.propertyAt i placed.1).bind fun _ _ _ => .pure fun _ _ => rfl

theorem copies_mergeEachProperty {xs : List (Property × Option PropertyMatch)}
    (known : ∀ x ∈ xs, KnowsMatch S x.2) :
    Copies S (fun σ (uids, notices) => (uids.map σ, notices))
      (mergeEachProperty planned i isNew xs) (fun _ => mergeEachProperty planned i isNew xs) s := by
  induction xs generalizing s with
  | nil => exact .pure fun _ _ => rfl
  | cons a xs ih =>
      exact (copies_mergeProperty (known a List.mem_cons_self)).bind fun _ _ _ =>
        (ih fun x hx => known x (List.mem_cons_of_mem _ hx)).bind fun _ _ _ => .pure fun _ _ => rfl

theorem copies_mergeProperties {owner : Entity} (at_i : s.model.entities[i]? = some owner)
    (given : ∀ p ∈ planned.properties, S.Knows p.id.uid)
    (stored : ∀ q ∈ owner.properties, S.Knows q.id.uid) :
    Copies S same (mergeProperties planned i isNew)
      (fun _ => mergeProperties planned i isNew) s := by
  refine (Copies.entityAt i).bind fun e t run => ?_
  obtain ⟨there, rfl⟩ := entityAt_eq_ok.mp run
  obtain rfl : owner = e := Option.some.inj (at_i.symm.trans there)
  refine Copies.get_bind (copies_matchProperties given stored) fun found t run => ?_
  obtain ⟨found_ok, rfl⟩ := ofExcept_eq_ok.mp run
  obtain ⟨matched, -⟩ := matchProperties_eq_ok.mp found_ok
  have known (x : Property × Option PropertyMatch) (hx : x ∈ planned.properties.zip found) :
      KnowsMatch S x.2 :=
    knowsMatch_of_matched ((List.forall₂_iff_zip.mp matched).2 hx)
      (given x.1 (List.of_mem_zip hx).1) stored
  have kept_known : ∀ u ∈ found.filterMap fun m => m.map PropertyMatch.storedUid, S.Knows u := by
    intro u hu
    obtain ⟨q, hq, rfl⟩ :=
      List.mem_map.mp (claimed_subset matched (fun _ _ => PropertyMatched.mem) hu)
    exact stored q hq
  refine (Copies.update (Model.retains_keepProperties _) fun σ kept =>
    s.model.keepProperties_rename i kept.zero fun p => ?_).bind fun _ t _ => ?_
  · rw [Property.id_rename, IdPair.uid_rename, decide_eq_decide,
      mem_iff_of_fixed σ fun u hu => kept u (kept_known u hu)]
  refine (copies_mergeEachProperty known).bind fun each t _ => ?_
  obtain ⟨order, notices⟩ := each
  refine (Copies.update ?_ fun σ _ => ?_).bind fun _ _ _ => .pure fun σ kept => ?_
  · refine Model.retains_modifyEntity fun x _ u hu _ => ?_
    simpa only [Entity.mem_ownUids, mem_reorder] using hu
  · exact t.model.modifyEntity_rename i fun x => by
      simp only [Entity.rename]
      rw [reorder_rename (fun p : Property => p.id.uid) fun _ => rfl]
  · have removed := map_filter_rename (·.id.uid) (Property.rename σ)
      (fun p => Notice.propertyRemoved planned.name p.name) (fun _ => rfl) (fun _ => rfl)
      (fun u hu => kept u (kept_known u hu)) owner.properties
    exact congrArg (· ++ notices) removed

/-! ### Relations -/

theorem copies_locateRelation {uid : UInt64} (known : S.Knows uid) :
    Copies S same (locateRelation planned i uid) (fun _ => locateRelation planned i uid) s := by
  refine (Copies.entityAt i).bind fun e t _ => copies_found (fun σ kept => ?_) fun _ => rfl
  rw [← e.findRelationByUid?_rename σ, kept uid known]

theorem copies_placeRelation {found : Option UInt64}
    (known : ∀ uid, found = some uid → S.Knows uid) :
    Copies S same (placeRelation planned i isNew r found)
      (fun _ => placeRelation planned i isNew r found) s := by
  match found with
  | some uid =>
      exact (copies_locateRelation (known uid rfl)).within.bind fun _ _ _ => .pure fun _ _ => rfl
  | none => exact (Copies.createRelation i r.name).bind fun _ _ _ => .pure fun _ _ => rfl

/-- The target of the relation in the copy is the renamed one. -/
theorem copies_targetOf (m : Model) (r : Relation) :
    Copies S (fun σ target => target.rename σ) (Revision.ofExcept (targetOf targets m r))
      (fun σ => Revision.ofExcept (targetOf (targets.rename σ) (m.rename σ) r)) s :=
  .ofExcept (fun target done σ _ => by rw [targetOf_rename, done])
    fun e failed σ _ => by rw [targetOf_rename, failed]

theorem copies_mergeRelation {found : Option UInt64}
    (known : ∀ uid, found = some uid → S.Knows uid) :
    Copies S (fun σ (uid, notices) => (σ uid, notices))
      (mergeRelation planned i isNew targets r found)
      (fun σ => mergeRelation planned i isNew (targets.rename σ) r found) s := by
  refine (copies_placeRelation known).bind fun placed _ _ => Copies.model.bind fun m _ _ =>
    (copies_targetOf m r).bind fun target _ _ =>
      (Copies.relationAt i placed.1).bind fun stored t _ => ?_
  refine (Copies.update ?_ fun σ _ => ?_).bind fun _ _ _ => .pure fun _ _ => rfl
  · exact Model.retains_modifyRelation fun _ => rfl
  · exact t.model.modifyRelation_rename i placed.1 fun _ => rfl

theorem copies_mergeEachRelation {xs : List (Relation × Option UInt64)}
    (known : ∀ x ∈ xs, ∀ uid, x.2 = some uid → S.Knows uid) :
    Copies S (fun σ (uids, notices) => (uids.map σ, notices))
      (mergeEachRelation planned i isNew targets xs)
      (fun σ => mergeEachRelation planned i isNew (targets.rename σ) xs) s := by
  induction xs generalizing s with
  | nil => exact .pure fun _ _ => rfl
  | cons a xs ih =>
      exact (copies_mergeRelation (known a List.mem_cons_self)).bind fun _ _ _ =>
        (ih fun x hx => known x (List.mem_cons_of_mem _ hx)).bind fun _ _ _ => .pure fun _ _ => rfl

theorem copies_mergeRelations {owner : Entity} (at_i : s.model.entities[i]? = some owner)
    (stored : ∀ q ∈ owner.relations, S.Knows q.id.uid) :
    Copies S same (mergeRelations planned i isNew targets)
      (fun σ => mergeRelations planned i isNew (targets.rename σ)) s := by
  refine (Copies.entityAt i).bind fun e t run => ?_
  obtain ⟨there, rfl⟩ := entityAt_eq_ok.mp run
  obtain rfl : owner = e := Option.some.inj (at_i.symm.trans there)
  refine (copies_ofExcept fun σ kept =>
    matchRelations_agrees fun q hq => kept _ (stored q hq)).bind fun found t run => ?_
  obtain ⟨found_ok, rfl⟩ := ofExcept_eq_ok.mp run
  obtain ⟨matched, -⟩ := matchRelations_eq_ok.mp found_ok
  have claims : found.filterMap id = claimed id found := by simp [claimed]
  have known : ∀ u ∈ found.filterMap id, S.Knows u := by
    rw [claims]
    intro u hu
    obtain ⟨q, hq, rfl⟩ :=
      List.mem_map.mp (claimed_subset matched (fun _ _ => RelationMatched.mem) hu)
    exact stored q hq
  refine (Copies.update (Model.retains_keepRelations _) fun σ kept =>
    s.model.keepRelations_rename i fun r => ?_).bind fun _ t _ => ?_
  · rw [Relation.id_rename, IdPair.uid_rename, decide_eq_decide,
      mem_iff_of_fixed σ fun u hu => kept u (known u hu)]
  have each (x : Relation × Option UInt64) (hx : x ∈ planned.relations.zip found) (uid : UInt64)
      (is_found : x.2 = some uid) : S.Knows uid :=
    known uid (List.mem_filterMap.mpr ⟨_, (List.of_mem_zip hx).2, is_found⟩)
  refine (copies_mergeEachRelation each).bind fun made t _ => ?_
  obtain ⟨order, notices⟩ := made
  refine (Copies.update ?_ fun σ _ => ?_).bind fun _ _ _ => .pure fun σ kept => ?_
  · refine Model.retains_modifyEntity fun x _ u hu _ => ?_
    simpa only [Entity.mem_ownUids, mem_reorder] using hu
  · exact t.model.modifyEntity_rename i fun x => by
      simp only [Entity.rename]
      rw [reorder_rename (fun r : Relation => r.id.uid) fun _ => rfl]
  · have removed := map_filter_rename (·.id.uid) (Relation.rename σ)
      (fun r => Notice.relationRemoved planned.name r.name) (fun _ => rfl) (fun _ => rfl)
      (fun u hu => kept u (known u hu)) owner.relations
    exact congrArg (· ++ notices) removed

/-! ### Entities -/

/-- The initial model knows the uids of the properties and relations of the entity. -/
structure KnowsParts (S : Model) (e : Entity) : Prop where
  properties : ∀ q ∈ e.properties, S.Knows q.id.uid
  relations : ∀ q ∈ e.relations, S.Knows q.id.uid

theorem copies_mergeEntity {owner : Entity} (at_i : s.model.entities[i]? = some owner)
    (given : ∀ p ∈ planned.properties, S.Knows p.id.uid) (parts : KnowsParts S owner) :
    Copies S same (mergeEntity planned i isNew targets)
      (fun σ => mergeEntity planned i isNew (targets.rename σ)) s := by
  have lt := (List.getElem?_eq_some_iff.mp at_i).1
  have adopted := modifyEntity_adopt planned at_i
  refine (Copies.entityAt i).bind fun e t run => ?_
  obtain ⟨there, rfl⟩ := entityAt_eq_ok.mp run
  obtain rfl : owner = e := Option.some.inj (at_i.symm.trans there)
  refine (Copies.update ?_ fun σ _ => ?_).bind fun _ t run => ?_
  · exact Model.retains_modifyEntity fun _ _ _ hu _ => hu
  · exact s.model.modifyEntity_rename i fun _ => rfl
  obtain rfl := update_eq_ok.mp run
  have there : (s.model.modifyEntity i (adoptEntity planned)).entities[i]? =
      some (adoptEntity planned owner) := by
    rw [adopted, Model.place_entity lt]
    rfl
  have known : ∀ q ∈ (adoptEntity planned owner).properties, S.Knows q.id.uid := parts.properties
  refine (copies_mergeProperties there given known).bind fun told t run => ?_
  -- merging the properties leaves the relations as they are stored
  obtain ⟨fs, ps, b, merged, at_site⟩ := of_mergeProperties adopted lt run
  have there : t.model.entities[i]? = some b.entity := by rw [at_site, Model.place_entity lt]
  have stored : b.entity.relations = owner.relations := by
    rw [merged.entity_eq]
    rfl
  exact (copies_mergeRelations there (by rw [stored]; exact parts.relations)).bind
    fun _ _ _ => .pure fun _ _ => rfl

theorem copies_settleEntities {xs : List (Entity × Option UInt64)}
    (known : ∀ x ∈ xs, ∀ uid, x.2 = some uid → S.Knows uid) :
    Copies S (fun σ (settled, notices) => (settled.map (Prod.map σ id), notices))
      (settleEntities xs) (fun _ => settleEntities xs) s := by
  induction xs generalizing s with
  | nil => exact .pure fun _ _ => rfl
  | cons a xs ih =>
      have rest : ∀ x ∈ xs, ∀ uid, x.2 = some uid → S.Knows uid :=
        fun x hx => known x (List.mem_cons_of_mem _ hx)
      obtain ⟨planned, _ | uid⟩ := a
      · exact (Copies.createEntity planned.name).bind fun i _ _ => (Copies.entityAt i).bind
          fun _ _ _ => (ih rest).bind fun _ _ _ => .pure fun _ _ => rfl
      · have known := known _ List.mem_cons_self uid rfl
        exact (ih rest).bind fun _ _ _ => .pure fun σ kept => by
          simp [kept uid known]

/-- The entities that are to be merged into are there, and the initial model knows what is in
them. -/
structure Pending (S m : Model) (xs : List (Entity × UInt64 × Bool)) : Prop where
  given : ∀ x ∈ xs, ∀ p ∈ x.1.properties, S.Knows p.id.uid
  distinct : (xs.map (·.2.1)).Nodup
  present : ∀ x ∈ xs, x.2.1 ∈ m.entities.map (·.id.uid)
  parts : ∀ e ∈ m.entities, e.id.uid ∈ xs.map (·.2.1) → KnowsParts S e

/-- Merging an entity leaves the others pending. -/
theorem Pending.next {m m' : Model} {a : Entity × UInt64 × Bool}
    {xs : List (Entity × UInt64 × Bool)} {e : Settled Entity} (h : Pending S m (a :: xs))
    (step : EntityStep targets m a e m') : Pending S m' xs := by
  obtain ⟨touched, -, made, ids⟩ := step.replaces
  obtain ⟨other, distinct⟩ := List.nodup_cons.mp h.distinct
  refine ⟨fun x hx => h.given x (List.mem_cons_of_mem _ hx), distinct, fun x hx => ?_,
    fun y hy listed => ?_⟩
  · have uids : m'.entities.map (·.id.uid) = m.entities.map (·.id.uid) := by
      simpa only [List.map_map, Function.comp_def] using congrArg (List.map (·.uid)) ids
    rw [uids]
    exact h.present x (List.mem_cons_of_mem _ hx)
  · rcases touched.eq_or_mem hy with rfl | hy
    · rw [made] at listed
      exact absurd listed other
    · exact h.parts y hy (List.mem_cons_of_mem _ listed)

theorem copies_mergeEachEntity {xs : List (Entity × UInt64 × Bool)} (h : Pending S s.model xs) :
    Copies S same (mergeEachEntity targets xs)
      (fun σ => mergeEachEntity (targets.rename σ)
        (xs.map (Prod.map id (Prod.map σ id)))) s := by
  induction xs generalizing s with
  | nil => exact .pure fun _ _ => rfl
  | cons a xs ih =>
      obtain ⟨planned, uid, isNew⟩ := a
      have present := h.present _ List.mem_cons_self
      obtain ⟨i, located⟩ := Option.isSome_iff_exists.mp
        ((findIdx?_isSome_iff (fun e : Entity => e.id.uid) _ uid).mpr present)
      obtain ⟨e, at_i, same_uid⟩ := of_findIdx? located
      refine Copies.model.bind fun m t run => ?_
      obtain ⟨rfl, rfl⟩ := model_eq_ok.mp run
      have located : s.model.findByUid? uid = some i := located
      simp only [Model.findByUid?_rename, located]
      have parts := h.parts e (List.mem_of_getElem? at_i) (by simp [same_uid])
      refine (copies_mergeEntity at_i (h.given _ List.mem_cons_self) parts).within.bind
        fun told t run => ?_
      obtain ⟨r, step, -⟩ := of_mergeEntity at_i (within_eq_ok.mp run)
      rw [same_uid] at step
      exact (ih (h.next step)).bind fun _ _ _ => .pure fun _ _ => rfl

end Steps

/-! ### Plans -/

section Plans

variable {S m : Model} {σ : Equiv.Perm UInt64} {plan : List Entity} {s : Store}

theorem knowsParts_of_mem {e : Entity} (he : e ∈ S.entities) : KnowsParts S e where
  properties q hq := .inr (Model.mentions_of_entity he
    (Entity.mem_uids.mpr (.inr (.inr (.inl ⟨q, hq, List.mem_cons_self⟩)))))
  relations q hq := .inr (Model.mentions_of_entity he
    (Entity.mem_uids.mpr (.inr (.inr (.inr ⟨q, hq, rfl⟩)))))

theorem knows_of_mem_uids {uid : UInt64} (hu : uid ∈ S.entities.map (·.id.uid)) : S.Knows uid := by
  obtain ⟨e, he, rfl⟩ := List.mem_map.mp hu
  exact .inr (Model.mentions_of_entity he (Entity.mem_uids.mpr (.inl rfl)))

/-- A consistent model does not change if the uids that it knows stay as they are. -/
theorem rename_eq_self_of_isConsistent (h : S.IsConsistent) (kept : S.IsKeptBy σ) :
    S.rename σ = S := by
  refine Model.rename_eq_self (fun uid known => kept uid (.inr known)) fun e he r hr id there => ?_
  obtain ⟨f, hf, rfl⟩ := h.relationTarget he hr there
  exact Model.mentions_of_entity hf (Entity.mem_uids.mpr (.inl rfl))

/-- What was settled on is pending. -/
theorem pending_of_settling {found : List (Option UInt64)} {settled : List (UInt64 × Bool)}
    (matched : List.Forall₂ (EntityMatched S) plan found) (nodup : (claimed id found).Nodup)
    (distinct : (S.entities.map (·.id.uid)).Nodup)
    (placed : Traversal EntityPlaced (S.keepEntities (·.id.uid ∈ claimed id found))
      (plan.zip found) settled m)
    (given : ∀ e ∈ plan, ∀ p ∈ e.properties, S.Knows p.id.uid) :
    Pending S m (plan.zip settled) := by
  have uids := zip_map_uid (length_settled placed matched)
  obtain ⟨distinct, perm⟩ := uids_perm_settled placed distinct matched nodup
  refine ⟨fun x hx => given x.1 (List.of_mem_zip hx).1, ?_, fun x hx => ?_, fun e he _ => ?_⟩
  · rw [uids]
    exact perm.nodup_iff.mp distinct
  · rw [perm.mem_iff, ← uids]
    exact List.mem_map_of_mem hx
  · rcases stored_or_blank_of_settling placed (fun y hy => List.mem_of_mem_filter hy) e he
      with stored | ⟨id, name, rfl⟩
    · exact knowsParts_of_mem stored
    · exact ⟨by simp, by simp⟩

/-- Merging a plan into a consistent model is copied by merging it again, if the plan asks for no
property that the model does not know. -/
theorem copies_mergePlan (consistent : s.model.IsConsistent)
    (given : ∀ e ∈ plan, ∀ p ∈ e.properties, s.model.Knows p.id.uid) :
    Copies s.model same (mergePlan plan) (fun _ => mergePlan plan) s := by
  have look : Copies s.model same Revision.model (fun _ => Revision.model) s :=
    .of_quiet rfl (.refl _) fun σ uids kept => by
      rw [rename_eq_self_of_isConsistent consistent kept]
      rfl
  refine look.bind fun m t run => ?_
  obtain ⟨rfl, rfl⟩ := model_eq_ok.mp run
  refine (copies_ofExcept fun σ _ => matchEntities_agrees σ s.model plan).bind
    fun found t run => ?_
  obtain ⟨found_ok, rfl⟩ := ofExcept_eq_ok.mp run
  obtain ⟨matched, nodup⟩ := matchEntities_eq_ok.mp found_ok
  have claims : found.filterMap id = claimed id found := by simp [claimed]
  have known : ∀ u ∈ claimed id found, s.model.Knows u := fun u hu =>
    knows_of_mem_uids (claimed_subset matched (fun _ _ => EntityMatched.mem) hu)
  simp only [same, claims]
  refine (Copies.update ?_ fun σ kept => ?_).bind fun _ t run => ?_
  · exact (s.model.evolves_keepEntities _).retains
  · refine s.model.keepEntities_rename kept.zero fun e => ?_
    rw [Entity.id_rename, IdPair.uid_rename, decide_eq_decide,
      mem_iff_of_fixed σ fun u hu => kept u (known u hu)]
  obtain rfl := update_eq_ok.mp run
  have each (x : Entity × Option UInt64) (hx : x ∈ plan.zip found) (uid : UInt64)
      (is_found : x.2 = some uid) : s.model.Knows uid :=
    known uid (claims ▸ List.mem_filterMap.mpr ⟨_, (List.of_mem_zip hx).2, is_found⟩)
  refine (copies_settleEntities each).bind fun settlement t run => ?_
  obtain ⟨settled, added⟩ := settlement
  obtain ⟨placed, -⟩ := of_settleEntities run
  have pending := pending_of_settling matched nodup consistent.distinctUids placed given
  have order (σ : Equiv.Perm UInt64) :
      (settled.map (Prod.map σ id)).map Prod.fst = (settled.map Prod.fst).map σ := by simp
  have others (σ : Equiv.Perm UInt64) : plan.zip (settled.map (Prod.map σ id)) =
      (plan.zip settled).map (Prod.map id (Prod.map σ id)) :=
    List.zip_map_right
  have targets (σ : Equiv.Perm UInt64) :
      plan.zipWith (fun e uid => (Text.foldCase e.name, uid)) ((settled.map Prod.fst).map σ) =
        (targetsOf plan (settled.map Prod.fst)).rename σ :=
    (targetsOf_rename σ plan _).symm
  simp only [order, others, targets]
  refine (copies_mergeEachEntity pending).bind fun notices t _ => ?_
  refine (Copies.update ?_ fun σ _ => ?_).bind fun _ _ _ => .pure fun _ _ => rfl
  · exact (evolves_upgrade (reorder_perm _ _)).retains
  · rw [upgrade_rename]
    congr 1
    simp only [Model.rename]
    rw [reorder_rename (fun e : Entity => e.id.uid) fun _ => rfl]

end Plans

end SchemaLedger.Merge
