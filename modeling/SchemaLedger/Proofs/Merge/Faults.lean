import SchemaLedger.Proofs.Merge.Outcome
import SchemaLedger.Proofs.Store.Failure

/-!
# Why merging fails

Once the elements of a scope have been matched, each of them is found when its turn comes: what is
claimed is present, nothing is claimed twice, and merging one element leaves the others where they
are. So merging fails only if a scope cannot be matched, if the target of a relation is not planned,
or if no uid is left.
-/

namespace SchemaLedger.Merge

open Text

/-! ### Matching -/

section Matching

variable {α μ : Type} {sort : ElementSort} {name : α → String} {storedUid : μ → UInt64}
variable {find byUid byName : α → Except ModelError (Option μ)} {claims : Claims} {xs : List α}
variable {e : ModelError}

/-- Claiming fails if an element cannot be matched or a stored element is claimed twice. -/
theorem of_claimEach_eq_error (h : claimEach sort name storedUid find claims xs = .error e) :
    (∃ x ∈ xs, find x = .error e) ∨
      ∃ x ∈ xs, ∃ other uid, e = .ambiguousRename sort other (name x) uid := by
  induction xs generalizing claims with
  | nil => simp [claimEach] at h
  | cons x rest ih =>
      have later (claims : Claims) (h : claimEach sort name storedUid find claims rest = .error e) :
          (∃ y ∈ x :: rest, find y = .error e) ∨
            ∃ y ∈ x :: rest, ∃ other uid, e = .ambiguousRename sort other (name y) uid := by
        rcases ih h with ⟨y, hy, failed⟩ | ⟨y, hy, other⟩
        · exact .inl ⟨y, List.mem_cons_of_mem _ hy, failed⟩
        · exact .inr ⟨y, List.mem_cons_of_mem _ hy, other⟩
      rw [claimEach, except_bind_eq_error] at h
      rcases h with failed | ⟨_ | m, -, h⟩
      · exact .inl ⟨x, List.mem_cons_self, failed⟩
      · simp only [except_bind_eq_error, except_pure_ne_error, and_false, exists_false,
          or_false] at h
        exact later _ h
      · simp only at h
        split at h
        · next other _ =>
            obtain rfl := Except.error.inj h
            exact .inr ⟨x, List.mem_cons_self, other, _, rfl⟩
        · simp only [except_bind_eq_error, except_pure_ne_error, and_false, exists_false,
            or_false] at h
          exact later _ h

/-- Matching fails if an element cannot be matched in one of the rounds or a stored element is
claimed twice. -/
theorem of_matchEach_eq_error (h : matchEach sort name storedUid byUid byName xs = .error e) :
    (∃ x ∈ xs, byUid x = .error e ∨ byName x = .error e) ∨
      ∃ x ∈ xs, ∃ other uid, e = .ambiguousRename sort other (name x) uid := by
  simp only [matchEach, except_bind_eq_error, except_pure_ne_error, and_false, exists_false,
    or_false] at h
  rcases h with first | ⟨_, -, second⟩
  · rcases of_claimEach_eq_error first with ⟨x, hx, failed⟩ | claimed_twice
    · exact .inl ⟨x, hx, .inl failed⟩
    · exact .inr claimed_twice
  · rcases of_claimEach_eq_error second with ⟨x, hx, failed⟩ | claimed_twice
    · exact .inl ⟨x, hx, .inr failed⟩
    · exact .inr claimed_twice

/-- If the first round looks at the uid that is given and the second at the name, then an element
cannot be matched if its uid is not among those listed, or if it asks for its uid. -/
theorem of_rounds_eq_error {x : α} {given : UInt64} {asked listed : Bool} {f f' : Option μ}
    {unknown question : ModelError}
    (first : byUid x = if given = 0 then .ok none
      else if listed then .ok f else .error unknown)
    (second : byName x = if given ≠ 0 then .ok none
      else if asked then .error question else .ok f')
    (h : byUid x = .error e ∨ byName x = .error e) :
    given ≠ 0 ∧ listed = false ∧ e = unknown ∨ asked = true ∧ e = question := by
  rw [first, second] at h
  rcases h with failed | failed
  · split at failed
    · cases failed
    · next is_given =>
        split at failed
        · cases failed
        · next unlisted =>
            exact .inl ⟨is_given, by simpa using unlisted, (Except.error.inj failed).symm⟩
  · split at failed
    · cases failed
    · split at failed
      · next is_asked => exact .inr ⟨is_asked, (Except.error.inj failed).symm⟩
      · cases failed

/-- What is claimed stays when the others are removed. -/
theorem mem_map_filter_of_claimed {β : Type} {key : β → UInt64} {ys : List β} {ks : List UInt64}
    (present : ks ⊆ ys.map key) : ∀ k ∈ ks, k ∈ (ys.filter (key · ∈ ks)).map key := by
  intro k hk
  obtain ⟨y, hy, rfl⟩ := List.mem_map.mp (present hk)
  exact List.mem_map_of_mem (List.mem_filter.mpr ⟨hy, decide_eq_true hk⟩)

end Matching

/-- Why the entities of a plan cannot be matched. -/
inductive EntityFault (S : Model) (plan : List Entity) : ModelError → Prop
  | unknown {x : Entity} : x ∈ plan → x.id.uid ≠ 0 → x.id.uid ∉ S.entities.map (·.id.uid) →
      EntityFault S plan (.within (.entity x.name) (.unknownEntityUid x.id.uid))
  | asked {x : Entity} : x ∈ plan → x.uidRequested = true →
      EntityFault S plan (.uidRequested (.entity x.name ((S.entity? x.name).map (·.id.uid))))
  | claimedTwice {first second : String} {uid : UInt64} :
      EntityFault S plan (.ambiguousRename .entity first second uid)

/-- Why the properties of a planned entity cannot be matched with those of the stored one. -/
inductive PropertyFault (s : Store) (planned owner : Entity) : ModelError → Prop
  | unknown {p : Property} : p ∈ planned.properties → p.id.uid ≠ 0 →
      p.id.uid ∉ owner.properties.map (·.id.uid) → owner.property? p.name = none →
      PropertyFault s planned owner
        (.within (.property p.name) (.unknownPropertyUid owner.name p.id.uid))
  | used {p : Property} : p ∈ planned.properties → p.id.uid ≠ 0 → s.model.Mentions p.id.uid →
      PropertyFault s planned owner
        (.within (.property p.name) (.uidCollision p.id.uid .replacement))
  | asked {p : Property} : p ∈ planned.properties → p.uidRequested = true →
      PropertyFault s planned owner
        (propertyQuestion s planned p ((owner.property? p.name).map (·.id.uid)))
  | claimedTwice {first second : String} {uid : UInt64} :
      PropertyFault s planned owner (.ambiguousRename .property first second uid)

/-- Why the relations of a planned entity cannot be matched with those of the stored one. -/
inductive RelationFault (planned owner : Entity) : ModelError → Prop
  | unknown {r : Relation} : r ∈ planned.relations → r.id.uid ≠ 0 →
      r.id.uid ∉ owner.relations.map (·.id.uid) →
      RelationFault planned owner
        (.within (.relation r.name) (.unknownRelationUid owner.name r.id.uid))
  | asked {r : Relation} : r ∈ planned.relations → r.uidRequested = true →
      RelationFault planned owner (.uidRequested
        (.relation planned.name r.name ((owner.relation? r.name).map (·.id.uid))))
  | claimedTwice {first second : String} {uid : UInt64} :
      RelationFault planned owner (.ambiguousRename .relation first second uid)

/-- The question which uid a property has comes with a fresh uid if such a property is stored, unless
no uid is left. -/
theorem propertyQuestion_cases (s : Store) (planned : Entity) (p : Property)
    (found : Option UInt64) :
    found = none ∧
        propertyQuestion s planned p found = .uidRequested (.property planned.name p.name none) ∨
      (∃ uid fresh, found = some uid ∧ propertyQuestion s planned p found =
        .uidRequested (.property planned.name p.name (some (uid, fresh))) ∧ s.model.Fresh fresh) ∨
      propertyQuestion s planned p found = .uidsExhausted uidAttempts := by
  unfold propertyQuestion
  split
  · exact .inl ⟨rfl, rfl⟩
  · next uid =>
      split
      · next fresh drawn =>
          obtain ⟨assigned, unmentioned⟩ :=
            of_decide_eq_true (UidSource.accepts_of_search drawn)
          exact .inr (.inl ⟨uid, fresh, rfl, rfl, .of_unmentioned assigned unmentioned⟩)
      · exact .inr (.inr rfl)

section Faults

variable {e : ModelError} {planned owner : Entity}

theorem entityFault_of_matchEntities {S : Model} {plan : List Entity}
    (h : matchEntities S plan = .error e) : EntityFault S plan e := by
  rcases of_matchEach_eq_error h with ⟨x, hx, failed⟩ | ⟨x, -, other, uid, rfl⟩
  · rcases of_rounds_eq_error (entityByUid_eq S x) (entityByName_eq S x) failed with
      ⟨given, unlisted, rfl⟩ | ⟨asked, rfl⟩
    · refine .unknown hx given fun listed => ?_
      rw [← findIdx?_isSome_iff] at listed
      exact Bool.false_ne_true (unlisted.symm.trans listed)
    · exact .asked hx asked
  · exact .claimedTwice

theorem relationFault_of_matchRelations (h : matchRelations planned owner = .error e) :
    RelationFault planned owner e := by
  rcases of_matchEach_eq_error h with ⟨r, hr, failed⟩ | ⟨r, -, other, uid, rfl⟩
  · rcases of_rounds_eq_error (relationByUid_eq owner r) (relationByName_eq planned owner r)
      failed with ⟨given, unlisted, rfl⟩ | ⟨asked, rfl⟩
    · refine .unknown hr given fun listed => ?_
      rw [← findIdx?_isSome_iff] at listed
      exact Bool.false_ne_true (unlisted.symm.trans listed)
    · exact .asked hr asked
  · exact .claimedTwice

theorem propertyFault_of_matchProperties {s : Store}
    (h : matchProperties s planned owner = .error e) : PropertyFault s planned owner e := by
  rcases of_matchEach_eq_error h with ⟨p, hp, failed | failed⟩ | ⟨p, -, other, uid, rfl⟩
  · unfold propertyByUid at failed
    split at failed
    · cases failed
    · next given =>
        split at failed
        · cases failed
        · next unlisted =>
            have unlisted : p.id.uid ∉ owner.properties.map (·.id.uid) := fun listed =>
              unlisted ((findIdx?_isSome_iff _ _ _).mpr listed)
            split at failed
            · next unnamed =>
                cases failed
                exact .unknown hp given unlisted unnamed
            · split at failed
              · next mentioned =>
                  cases failed
                  exact .used hp given mentioned
              · cases failed
  · unfold propertyByName at failed
    split at failed
    · cases failed
    · dsimp only at failed
      split at failed
      · next asked =>
          cases failed
          exact .asked hp asked
      · cases failed
  · exact .claimedTwice

end Faults

/-! ### Properties -/

section Properties

variable {m : Model} {i j : Nat} {b : Site} {s t : Store} {planned : Entity} {p : Property}
variable {isNew quiet : Bool} {e : ModelError}

theorem locateProperty_ne_error {uid : UInt64} (at_site : s.model = m.place i b)
    (h : i < m.entities.length) (there : uid ∈ b.entity.properties.map (·.id.uid)) :
    locateProperty i uid s ≠ .error e t := by
  obtain ⟨j, located⟩ :=
    Option.isSome_iff_exists.mp ((findIdx?_isSome_iff (·.id.uid) b.entity.properties uid).mpr there)
  have found : locateProperty i uid s = .ok j s :=
    (locateProperty_eq_ok at_site h).mpr ⟨located, rfl⟩
  simp [found]

theorem exhausted_of_placeProperty {matched : Option PropertyMatch}
    (at_site : s.model = m.place i b) (h : i < m.entities.length)
    (there : ∀ f, matched = some f → f.storedUid ∈ b.entity.properties.map (·.id.uid))
    (run : placeProperty planned i isNew p matched s = .error e t) :
    e.root = .uidsExhausted uidAttempts := by
  cases matched with
  | none =>
      simp only [placeProperty, Revision.bind_eq_error, Revision.pure_ne_error, and_false,
        exists_false, or_false] at run
      rw [Revision.eq_of_createProperty_eq_error (by rw [at_site]; exact Model.place_entity h) run]
      rfl
  | some f =>
      have found := there f rfl
      cases f <;>
        simp only [placeProperty, Revision.bind_eq_error, Revision.within_eq_error,
          Revision.update_ne_error, Revision.pure_ne_error, and_false, exists_false,
          or_false] at run <;>
        obtain ⟨_, failed, -⟩ := run <;>
        exact absurd failed (locateProperty_ne_error at_site h found)

theorem exhausted_of_settleIndex {q : Property}
    (run : settleIndex planned i j quiet p q s = .error e t) :
    e.root = .uidsExhausted uidAttempts := by
  cases stored : q.index <;> cases wanted : p.index <;>
    simp only [settleIndex, stored, wanted, Revision.bind_eq_error, Revision.update_ne_error,
      Revision.pure_ne_error, and_false, exists_false, or_false] at run
  rw [Revision.eq_of_createIndex_eq_error run]
  rfl

theorem exhausted_of_settleProperty {q : Property} (at_site : s.model = m.place i b)
    (h : i < m.entities.length) (hq : b.entity.properties[j]? = some q)
    (run : settleProperty planned i j quiet p s = .error e t) :
    e.root = .uidsExhausted uidAttempts := by
  have there : s.model.propertyAt? i j = some q := by rw [at_site, Model.propertyAt_place h, hq]
  simp only [settleProperty, Revision.bind_eq_error, Revision.update_ne_error,
    Revision.pure_ne_error, and_false, exists_false, or_false] at run
  rcases run with missing | ⟨_, _, -, failed⟩
  · exact absurd missing (Revision.propertyAt_ne_error there)
  · exact exhausted_of_settleIndex failed

/-- Merging a property that is found can only fail for want of a uid. -/
theorem exhausted_of_mergeProperty {matched : Option PropertyMatch}
    (at_site : s.model = m.place i b) (h : i < m.entities.length)
    (there : ∀ f, matched = some f → f.storedUid ∈ b.entity.properties.map (·.id.uid))
    (run : mergeProperty planned i isNew p matched s = .error e t) :
    e.root = .uidsExhausted uidAttempts := by
  simp only [mergeProperty, Revision.bind_eq_error, Revision.within_eq_error,
    Revision.within_eq_ok, Revision.pure_ne_error, and_false, exists_false, or_false,
    Prod.exists] at run
  rcases run with failed | ⟨j, quiet, placed, r, place, run⟩
  · exact exhausted_of_placeProperty at_site h there failed
  · obtain ⟨found, q, b₁, how, at_site', -, -⟩ := of_placeProperty at_site h place
    rcases run with ⟨e', failed, rfl⟩ | ⟨settled, r', settle, missing⟩
    · rw [ModelError.root_within]
      exact exhausted_of_settleProperty at_site' h how.there failed
    · obtain ⟨made, _, -, -, -, done, -⟩ := of_settleProperty at_site' h how.there settle
      exact absurd missing (Revision.propertyAt_ne_error done)

/-- Where every match is present and none is claimed twice, merging properties can only fail for
want of a uid. -/
theorem exhausted_of_mergeEachProperty {xs : List (Property × Option PropertyMatch)}
    (at_site : s.model = m.place i b) (h : i < m.entities.length)
    (present : ∀ k ∈ xs.filterMap (·.2.map PropertyMatch.storedUid),
      k ∈ b.entity.properties.map (·.id.uid))
    (distinct : (xs.filterMap (·.2.map PropertyMatch.storedUid)).Nodup)
    (run : mergeEachProperty planned i isNew xs s = .error e t) :
    e.root = .uidsExhausted uidAttempts := by
  induction xs generalizing s b with
  | nil => simp [mergeEachProperty] at run
  | cons x xs ih =>
      obtain ⟨p, matched⟩ := x
      simp only [mergeEachProperty, Revision.bind_eq_error, Revision.pure_ne_error, and_false,
        exists_false, or_false, Prod.exists] at run
      rcases run with failed | ⟨_, _, r, first, rest⟩
      · refine exhausted_of_mergeProperty at_site h ?_ failed
        rintro f rfl
        exact present _ (by simp)
      · obtain ⟨y, b₁, step, at_site', -, -⟩ := of_mergeProperty at_site h first
        have key := step.placed.found_eq
        have later : xs.filterMap (·.2.map PropertyMatch.storedUid) ⊆
            ((p, matched) :: xs).filterMap (·.2.map PropertyMatch.storedUid) := by
          cases matched <;> simp
        refine ih at_site' ?_ ?_ rest
        · intro k hk
          refine step.touches.mem_map_of_ne (present k (later hk)) ?_
          rintro q found rfl
          rw [found] at key
          obtain ⟨f, rfl, same⟩ := Option.map_eq_some_iff.mp key.symm
          simp only [List.filterMap_cons, Option.map_some, List.nodup_cons, same] at distinct
          exact distinct.1 hk
        · cases matched with
          | none => simpa using distinct
          | some f => exact (List.nodup_cons.mp (by simpa using distinct)).2

/-- Merging the properties of an entity fails if they cannot be matched or for want of a uid. -/
theorem of_mergeProperties_eq_error (at_site : s.model = m.place i b) (h : i < m.entities.length)
    (run : mergeProperties planned i isNew s = .error e t) :
    matchProperties s planned b.entity = .error e ∨ e.root = .uidsExhausted uidAttempts := by
  have there : s.model.entities[i]? = some b.entity := by rw [at_site, Model.place_entity h]
  simp only [mergeProperties, Revision.bind_eq_error, Revision.update_ne_error,
    Revision.pure_ne_error, Revision.get_ne_error, Revision.ofExcept_eq_error,
    Revision.entityAt_eq_ok, Revision.get_eq_ok, Revision.ofExcept_eq_ok, Revision.update_eq_ok,
    and_false, exists_false, or_false, false_or] at run
  rcases run with missing | ⟨owner, _, ⟨at_i, rfl⟩, _, _, ⟨rfl, rfl⟩, run⟩
  · exact absurd missing (Revision.entityAt_ne_error there)
  · obtain rfl := Option.some.inj (there.symm.trans at_i)
    rcases run with ⟨failed, -⟩ | ⟨found, _, ⟨match_ok, rfl⟩, -, s', rfl, failed⟩
    · exact .inl failed
    · obtain ⟨matched, distinct⟩ := matchProperties_eq_ok.mp match_ok
      have kept := Model.keepProperties_place (b := b) h
        (·.id.uid ∈ claimed PropertyMatch.storedUid found)
      rw [← at_site] at kept
      have want : (planned.properties.zip found).filterMap (·.2.map PropertyMatch.storedUid) =
          claimed PropertyMatch.storedUid found := claimed_zip _ matched.length_eq
      refine .inr (exhausted_of_mergeEachProperty kept h ?_ (by rw [want]; exact distinct) failed)
      rw [want]
      exact mem_map_filter_of_claimed (claimed_subset matched fun _ _ => PropertyMatched.mem)

end Properties

/-! ### Relations -/

section Relations

variable {m : Model} {i j : Nat} {b : Site} {s t : Store} {planned : Entity} {r : Relation}
variable {isNew : Bool} {e : ModelError} {targets : Targets}

theorem locateRelation_ne_error {uid : UInt64} (at_site : s.model = m.place i b)
    (h : i < m.entities.length) (there : uid ∈ b.entity.relations.map (·.id.uid)) :
    locateRelation planned i uid s ≠ .error e t := by
  obtain ⟨j, located⟩ :=
    Option.isSome_iff_exists.mp ((findIdx?_isSome_iff (·.id.uid) b.entity.relations uid).mpr there)
  have found : locateRelation planned i uid s = .ok j s :=
    (locateRelation_eq_ok at_site h).mpr ⟨located, rfl⟩
  simp [found]

theorem exhausted_of_placeRelation {matched : Option UInt64} (at_site : s.model = m.place i b)
    (h : i < m.entities.length)
    (there : ∀ uid, matched = some uid → uid ∈ b.entity.relations.map (·.id.uid))
    (run : placeRelation planned i isNew r matched s = .error e t) :
    e.root = .uidsExhausted uidAttempts := by
  cases matched with
  | none =>
      simp only [placeRelation, Revision.bind_eq_error, Revision.pure_ne_error, and_false,
        exists_false, or_false] at run
      rw [Revision.eq_of_createRelation_eq_error (by rw [at_site]; exact Model.place_entity h) run]
      rfl
  | some uid =>
      simp only [placeRelation, Revision.bind_eq_error, Revision.within_eq_error,
        Revision.pure_ne_error, and_false, exists_false, or_false] at run
      obtain ⟨_, failed, -⟩ := run
      exact absurd failed (locateRelation_ne_error at_site h (there uid rfl))

/-- The target of the relation is not among the entities, and the error says so. -/
def LacksTarget (targets : Targets) (ids : List IdPair) (r : Relation) (e : ModelError) : Prop :=
  e.root = .invalidModel (.namedTargetMissing r.target) ∧ ∀ t, ¬ PointsAt targets ids r t

theorem lacksTarget_of_targetOf (h : targetOf targets m r = .error e) :
    LacksTarget targets (m.entities.map (·.id)) r e := by
  unfold targetOf at h
  split at h
  · cases h
  · next nowhere =>
      obtain rfl := Except.error.inj h
      refine ⟨rfl, ?_⟩
      rintro t ⟨listed, there⟩
      obtain ⟨x, hx, rfl⟩ := List.mem_map.mp there
      rw [listed, Option.bind_some] at nowhere
      simpa using List.find?_eq_none.mp nowhere x hx

/-- Merging a relation that is found can only fail for want of a target or of a uid. -/
theorem of_mergeRelation_eq_error {matched : Option UInt64} (at_site : s.model = m.place i b)
    (h : i < m.entities.length)
    (there : ∀ uid, matched = some uid → uid ∈ b.entity.relations.map (·.id.uid))
    (run : mergeRelation planned i isNew targets r matched s = .error e t) :
    LacksTarget targets ((m.place i b).entities.map (·.id)) r e ∨
      e.root = .uidsExhausted uidAttempts := by
  simp only [mergeRelation, Revision.bind_eq_error, Revision.model_ne_error,
    Revision.ofExcept_eq_error, Revision.update_ne_error, Revision.pure_ne_error,
    Revision.model_eq_ok, Revision.ofExcept_eq_ok, and_false, exists_false, or_false, false_or,
    Prod.exists] at run
  rcases run with failed | ⟨j, placed, s', place, _, _, ⟨rfl, rfl⟩, run⟩
  · exact .inr (exhausted_of_placeRelation at_site h there failed)
  · obtain ⟨found, q, b₁, how, at_site', -⟩ := of_placeRelation at_site h place
    rcases run with ⟨failed, -⟩ | ⟨target, _, ⟨-, rfl⟩, missing⟩
    · left
      have lacks := lacksTarget_of_targetOf failed
      rwa [at_site', ids_place (b := b) b₁ (by rw [how.entity])] at lacks
    · exact absurd missing (Revision.relationAt_ne_error
        (by rw [at_site', Model.relationAt_place h, how.there]))

/-- Where every match is present and none is claimed twice, merging relations can only fail for want
of a target or of a uid. -/
theorem of_mergeEachRelation_eq_error {xs : List (Relation × Option UInt64)}
    (at_site : s.model = m.place i b) (h : i < m.entities.length)
    (present : ∀ k ∈ xs.filterMap (·.2), k ∈ b.entity.relations.map (·.id.uid))
    (distinct : (xs.filterMap (·.2)).Nodup)
    (run : mergeEachRelation planned i isNew targets xs s = .error e t) :
    (∃ a ∈ xs, LacksTarget targets ((m.place i b).entities.map (·.id)) a.1 e) ∨
      e.root = .uidsExhausted uidAttempts := by
  induction xs generalizing s b with
  | nil => simp [mergeEachRelation] at run
  | cons a xs ih =>
      obtain ⟨r, matched⟩ := a
      simp only [mergeEachRelation, Revision.bind_eq_error, Revision.pure_ne_error, and_false,
        exists_false, or_false, Prod.exists] at run
      rcases run with failed | ⟨_, _, r', first, rest⟩
      · refine (of_mergeRelation_eq_error at_site h ?_ failed).imp_left
          fun lacks => ⟨_, List.mem_cons_self, lacks⟩
        rintro uid rfl
        exact present _ (by simp)
      · obtain ⟨x, b₁, step, at_site', -, -⟩ := of_mergeRelation at_site h first
        have key := step.placed.found_eq.1
        have later : xs.filterMap (·.2) ⊆ ((r, matched) :: xs).filterMap (·.2) := by
          cases matched <;> simp
        have ids := ids_place (m := m) (i := i) (b := b) b₁ (by rw [step.entity])
        rw [← ids]
        refine (ih at_site' ?_ ?_ rest).imp_left ?_
        · intro k hk
          refine step.touches.mem_map_of_ne (present k (later hk)) ?_
          rintro q found rfl
          obtain rfl : some q.id.uid = matched := by simpa [found] using key
          exact (List.nodup_cons.mp (by simpa using distinct)).1 hk
        · cases matched with
          | none => simpa using distinct
          | some f => exact (List.nodup_cons.mp (by simpa using distinct)).2
        · rintro ⟨a, ha, lacks⟩
          exact ⟨a, List.mem_cons_of_mem _ ha, lacks⟩

/-- Merging the relations of an entity fails if they cannot be matched, for want of a target or for
want of a uid. -/
theorem of_mergeRelations_eq_error (at_site : s.model = m.place i b) (h : i < m.entities.length)
    (run : mergeRelations planned i isNew targets s = .error e t) :
    matchRelations planned b.entity = .error e ∨
      (∃ r ∈ planned.relations, LacksTarget targets ((m.place i b).entities.map (·.id)) r e) ∨
      e.root = .uidsExhausted uidAttempts := by
  have there : s.model.entities[i]? = some b.entity := by rw [at_site, Model.place_entity h]
  simp only [mergeRelations, Revision.bind_eq_error, Revision.update_ne_error,
    Revision.pure_ne_error, Revision.ofExcept_eq_error, Revision.entityAt_eq_ok,
    Revision.ofExcept_eq_ok, Revision.update_eq_ok, and_false, exists_false, or_false,
    false_or] at run
  rcases run with missing | ⟨owner, _, ⟨at_i, rfl⟩, run⟩
  · exact absurd missing (Revision.entityAt_ne_error there)
  · obtain rfl := Option.some.inj (there.symm.trans at_i)
    rcases run with ⟨failed, -⟩ | ⟨found, _, ⟨match_ok, rfl⟩, -, s', rfl, failed⟩
    · exact .inl failed
    · obtain ⟨matched, distinct⟩ := matchRelations_eq_ok.mp match_ok
      have same : found.filterMap id = claimed id found := by simp [claimed]
      have kept := Model.keepRelations_place (b := b) h (·.id.uid ∈ claimed id found)
      rw [← at_site] at kept
      rw [same] at failed
      have want : (planned.relations.zip found).filterMap (·.2) = claimed id found := by
        simpa using claimed_zip id matched.length_eq
      have ids := ids_place (m := m) (i := i) (b := b)
        (b.keepRelations (·.id.uid ∈ claimed id found)) rfl
      rw [← ids]
      refine .inr ((of_mergeEachRelation_eq_error kept h ?_ (by rw [want]; exact distinct)
        failed).imp_left ?_)
      · rw [want]
        exact mem_map_filter_of_claimed (claimed_subset matched fun _ _ => RelationMatched.mem)
      · rintro ⟨a, ha, lacks⟩
        exact ⟨a.1, (List.of_mem_zip ha).1, lacks⟩

end Relations

/-! ### Entities -/

section Entities

variable {i : Nat} {s t : Store} {planned : Entity} {isNew : Bool} {targets : Targets}
variable {e : ModelError} {plan : List Entity}

/-- The store once the entity at position `i` has taken over what the plan says about the entity
itself. -/
def adoptedStore (planned : Entity) (i : Nat) (s : Store) : Store :=
  { s with model := s.model.modifyEntity i (adoptEntity planned) }

theorem adoptedStore_model {x : Entity} (at_i : s.model.entities[i]? = some x) :
    (adoptedStore planned i s).model = s.model.place i (adoptedSite s.model planned x) :=
  modifyEntity_adopt planned at_i

/-- Merging an entity fails if its properties or its relations cannot be matched, for want of a
target or for want of a uid. -/
theorem of_mergeEntity_eq_error {x : Entity} (at_i : s.model.entities[i]? = some x)
    (run : mergeEntity planned i isNew targets s = .error e t) :
    matchProperties (adoptedStore planned i s) planned (adoptEntity planned x) = .error e ∨
      (∃ owner, owner.name = planned.name ∧ owner.relations = x.relations ∧
        matchRelations planned owner = .error e) ∨
      (∃ r ∈ planned.relations, LacksTarget targets (s.model.entities.map (·.id)) r e) ∨
      e.root = .uidsExhausted uidAttempts := by
  have lt := (List.getElem?_eq_some_iff.mp at_i).1
  have adopted : (adoptedStore planned i s).model = _ := adoptedStore_model at_i
  simp only [mergeEntity, Revision.bind_eq_error, Revision.update_ne_error,
    Revision.pure_ne_error, Revision.entityAt_eq_ok, Revision.update_eq_ok, and_false,
    exists_false, or_false, false_or] at run
  rcases run with missing | ⟨_, _, ⟨-, rfl⟩, -, s', rfl, run⟩
  · exact absurd missing (Revision.entityAt_ne_error at_i)
  · rcases run with failed | ⟨told, s', merged, failed⟩
    · rcases of_mergeProperties_eq_error adopted lt failed with unmatched | exhausted
      · exact .inl unmatched
      · exact .inr (.inr (.inr exhausted))
    · obtain ⟨fs, ps, b, properties, at_site⟩ := of_mergeProperties adopted lt merged
      have entity := properties.entity_eq
      have ids : (s.model.place i b).entities.map (·.id) = s.model.entities.map (·.id) := by
        conv_rhs => rw [← Model.place_siteOf at_i]
        exact ids_place _ (by rw [entity]; rfl)
      rw [← ids]
      refine .inr ((of_mergeRelations_eq_error at_site lt failed).imp_left fun unmatched => ?_)
      exact ⟨b.entity, by rw [entity]; rfl, by rw [entity]; rfl, unmatched⟩

/-- If every entity is there, then merging one after the other fails in one of them, the ones before
it having been merged. -/
theorem of_mergeEachEntity_eq_error {xs : List (Entity × UInt64 × Bool)}
    (there : ∀ a ∈ xs, a.2.1 ∈ s.model.entities.map (·.id.uid))
    (run : mergeEachEntity targets xs s = .error e t) :
    ∃ before a after told s' i x e', xs = before ++ a :: after ∧
      mergeEachEntity targets before s = .ok told s' ∧ s'.model.entities[i]? = some x ∧
      x.id.uid = a.2.1 ∧ mergeEntity a.1 i a.2.2 targets s' = .error e' t ∧
      e = .within (.entity a.1.name) e' := by
  induction xs generalizing s with
  | nil => simp [mergeEachEntity] at run
  | cons a xs ih =>
      obtain ⟨planned, uid, isNew⟩ := a
      obtain ⟨i, located⟩ := Option.isSome_iff_exists.mp
        ((findIdx?_isSome_iff (·.id.uid) s.model.entities uid).mpr (there _ List.mem_cons_self))
      have located : s.model.findByUid? uid = some i := located
      obtain ⟨x, at_i, same⟩ := of_findIdx? located
      simp only [mergeEachEntity, Revision.bind_eq_error, Revision.model_ne_error,
        Revision.model_eq_ok, false_or] at run
      obtain ⟨_, _, ⟨rfl, rfl⟩, run⟩ := run
      simp only [located, Revision.bind_eq_error, Revision.within_eq_error, Revision.within_eq_ok,
        Revision.pure_ne_error, and_false, exists_false, or_false] at run
      rcases run with ⟨e', failed, rfl⟩ | ⟨told, r, first, rest⟩
      · exact ⟨[], _, xs, [], s, i, x, e', rfl, by simp [mergeEachEntity], at_i, same, failed,
          rfl⟩
      · obtain ⟨y, step, -⟩ := of_mergeEntity at_i first
        have ids := step.replaces.2.2.2
        have uids : r.model.entities.map (·.id.uid) = s.model.entities.map (·.id.uid) := by
          simpa [Function.comp_def] using congrArg (List.map (·.uid)) ids
        obtain ⟨before, a, after, others, s', j, z, e', rfl, merged, at_j, uid_z, failed, rfl⟩ :=
          ih (fun a ha => by rw [uids]; exact there a (List.mem_cons_of_mem _ ha)) rest
        have merged' : mergeEachEntity targets ((planned, uid, isNew) :: before) s =
            .ok (told ++ others) s' :=
          mergeEachEntity_cons_eq_ok.mpr ⟨i, told, r, others, located, first, merged, rfl⟩
        exact ⟨(planned, uid, isNew) :: before, a, after, told ++ others, s', j, z, e', rfl, merged',
          at_j, uid_z, failed, rfl⟩

theorem eq_of_settleEntities_eq_error {xs : List (Entity × Option UInt64)}
    (run : settleEntities xs s = .error e t) : e = .uidsExhausted uidAttempts := by
  induction xs generalizing s with
  | nil => simp [settleEntities] at run
  | cons a xs ih =>
      obtain ⟨planned, _ | uid⟩ := a
      · simp only [settleEntities, Revision.bind_eq_error, Revision.pure_ne_error, and_false,
          exists_false, or_false] at run
        rcases run with failed | ⟨i, r, create, failed | ⟨_, r', -, failed⟩⟩
        · exact Revision.eq_of_createEntity_eq_error failed
        · obtain ⟨uid, -, -, rfl, after⟩ := Revision.of_createEntity create
          have there : r.model.entities[s.model.entities.length]? =
              some { id := ⟨IdPair.next s.model.lastEntity, uid⟩, name := planned.name } := by
            rw [after]
            simp [Model.addEntity]
          exact absurd failed (Revision.entityAt_ne_error there)
        · exact ih failed
      · simp only [settleEntities, Revision.bind_eq_error, Revision.pure_ne_error, and_false,
          exists_false, or_false] at run
        exact ih run

/-- The store without the entities that nobody claims. -/
def keptStore (found : List (Option UInt64)) (s : Store) : Store :=
  { s with model := s.model.keepEntities (·.id.uid ∈ claimed id found) }

/-- Merging a plan fails if its entities cannot be matched, for want of a uid, or when the entities
are merged into those that were settled on. -/
theorem of_mergePlan_eq_error (run : mergePlan plan s = .error e t) :
    matchEntities s.model plan = .error e ∨ e.root = .uidsExhausted uidAttempts ∨
      ∃ found settled added s₁, List.Forall₂ (EntityMatched s.model) plan found ∧
        (claimed id found).Nodup ∧
        settleEntities (plan.zip found) (keptStore found s) = .ok (settled, added) s₁ ∧
        mergeEachEntity (targetsOf plan (settled.map Prod.fst)) (plan.zip settled) s₁ =
          .error e t := by
  simp only [mergePlan, Revision.bind_eq_error, Revision.model_ne_error,
    Revision.ofExcept_eq_error, Revision.update_ne_error, Revision.pure_ne_error,
    Revision.model_eq_ok, Revision.ofExcept_eq_ok, Revision.update_eq_ok, and_false, exists_false,
    or_false, false_or, Prod.exists] at run
  obtain ⟨_, _, ⟨rfl, rfl⟩, run⟩ := run
  rcases run with ⟨unmatched, -⟩ | ⟨found, _, ⟨match_ok, rfl⟩, -, _, rfl, run⟩
  · exact .inl unmatched
  · obtain ⟨matched, distinct⟩ := matchEntities_eq_ok.mp match_ok
    have same : found.filterMap id = claimed id found := by simp [claimed]
    rw [same] at run
    rcases run with failed | ⟨settled, added, s₁, settle, failed⟩
    · rw [eq_of_settleEntities_eq_error failed]
      exact .inr (.inl rfl)
    · exact .inr (.inr ⟨found, settled, added, s₁, matched, distinct, settle, failed⟩)

end Entities

end SchemaLedger.Merge
