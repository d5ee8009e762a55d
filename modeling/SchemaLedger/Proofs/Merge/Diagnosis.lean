import SchemaLedger.Proofs.Merge.Binding
import SchemaLedger.Proofs.Merge.Faults

/-!
# What an error of merging is about

Merging stops at the first entity that cannot be merged, and by then entities before it have been
renamed and changed, and others are gone. But nothing has been done yet to the entity whose turn it
is: what it has is what is stored, or nothing if it is new. So what an error says about a uid of the
schema holds of the stored model, which the user has at hand, and not only of one half-way.
-/

namespace SchemaLedger

open Text

/-- The stored entity that the planned one stands for: the one with the uid that the schema gives,
or the one with the same name if it gives none. -/
def Model.counterpart? (S : Model) (e : Entity) : Option Entity :=
  if e.id.uid = 0 then S.entity? e.name else S.entities.find? (·.id.uid = e.id.uid)

/-- The stored entity that the planned one stands for, or one without contents if it is new. -/
def Model.counterpart (S : Model) (e : Entity) : Entity :=
  (S.counterpart? e).getD { id := .unassigned, name := e.name }

namespace Merge

/-! ### The entity whose turn it is -/

section Turns

variable {S m m' : Model} {targets : Targets} {e x : Entity} {f : Option UInt64}
variable {u : UInt64 × Bool} {rs : List (Settled Entity)}

/-- A match is the counterpart. -/
theorem EntityMatched.counterpart?_eq (h : EntityMatched S e f) :
    (S.counterpart? e).map (·.id.uid) = f := by
  unfold Model.counterpart?
  cases h with
  | byUid given there =>
      rw [if_neg given]
      obtain ⟨y, hy, same⟩ := List.mem_map.mp there
      cases located : S.entities.find? (·.id.uid = e.id.uid) with
      | none => exact absurd same (by simpa using List.find?_eq_none.mp located y hy)
      | some z => simpa using List.find?_some located
  | byName zero => rw [if_pos zero]

theorem mem_of_counterpart? (h : S.counterpart? e = some x) : x ∈ S.entities := by
  unfold Model.counterpart? at h
  split at h
  · exact (entity?_eq_some h).1
  · exact List.mem_of_find?_eq_some h

/-- The entity that a planned one is to be merged into: the one that was claimed, or one without
contents. -/
inductive EntityReady (entities : List Entity) : Entity × Option UInt64 → UInt64 × Bool → Prop
  | claimed {e : Entity} {uid : UInt64} : EntityReady entities (e, some uid) (uid, false)
  | blank {e : Entity} {id : IdPair} : { id, name := e.name } ∈ entities →
      EntityReady entities (e, none) (id.uid, true)

theorem entities_ready {xs : List (Entity × Option UInt64)} {settled : List (UInt64 × Bool)}
    (h : Traversal EntityPlaced m xs settled m') :
    List.Forall₂ (EntityReady m'.entities) xs settled := by
  induction h with
  | nil => exact .nil
  | cons step rest ih =>
      cases step with
      | found => exact .cons .claimed ih
      | created =>
          have there := (entities_grow rest).mem (List.mem_append_right _ List.mem_cons_self)
          exact .cons (.blank there) ih

/-- An entity that is ready has what its counterpart has. -/
theorem EntityReady.contents_eq (h : EntityReady m.entities (e, f) u)
    (matched : EntityMatched S e f) (distinct : (m.entities.map (·.id.uid)).Nodup)
    (kept : ∀ uid, f = some uid → ∀ y ∈ S.entities, y.id.uid = uid → y ∈ m.entities)
    (there : x ∈ m.entities) (same : x.id.uid = u.1) :
    x.properties = (S.counterpart e).properties ∧ x.relations = (S.counterpart e).relations := by
  have stored := matched.counterpart?_eq
  cases h with
  | claimed =>
      obtain ⟨y, is_stored, uid⟩ := Option.map_eq_some_iff.mp stored
      have present := kept _ rfl y (mem_of_counterpart? is_stored) uid
      obtain rfl : y = x := List.inj_on_of_nodup_map distinct present there (uid.trans same.symm)
      simp [Model.counterpart, is_stored]
  | @blank _ id added =>
      obtain rfl : ({ id, name := e.name } : Entity) = x :=
        List.inj_on_of_nodup_map distinct added there same.symm
      simp [Model.counterpart, Option.map_eq_none_iff.mp stored]

/-- While other entities are merged, an entity stays as it is. -/
theorem mem_of_entitySteps {xs : List (Entity × UInt64 × Bool)}
    (h : Traversal (EntityStep targets) m xs rs m') (hx : x ∈ m'.entities)
    (other : x.id.uid ∉ xs.map (·.2.1)) : x ∈ m.entities := by
  have untouched := h.preserves
    (I := fun m₁ => ∀ x ∈ m₁.entities, x.id.uid ∉ xs.map (·.2.1) → x ∈ m.entities)
    (fun x hx _ => hx) (by
      intro m₁ m₂ a ha r _ step so_far x hx other
      obtain ⟨touches, -, uid, -⟩ := step.replaces
      rcases touches.eq_or_mem hx with rfl | hx
      · exact absurd (List.mem_map.mpr ⟨a, ha, uid.symm⟩) other
      · exact so_far x hx other)
  exact untouched x hx other

theorem retains_of_settling {xs : List (Entity × Option UInt64)} {settled : List (UInt64 × Bool)}
    (h : Traversal EntityPlaced m xs settled m') : m.Retains m' :=
  h.preserves (I := m.Retains) (.refl m) fun m₁ _ _ _ _ _ step so_far => by
    cases step with
    | found => exact so_far
    | created => exact so_far.trans (m₁.retains_addEntity _ _)

theorem retains_of_entitySteps {xs : List (Entity × UInt64 × Bool)}
    (h : Traversal (EntityStep targets) m xs rs m') : m.Retains m' :=
  h.preserves (I := m.Retains) (.refl m) fun _ _ _ _ _ _ step so_far => so_far.trans step.retains

/-- What is known when the turn of the planned entity has come and `x`, at position `i`, is the
entity that it is merged into. -/
structure HasTurn (S : Model) (plan : List Entity) (planned x : Entity) (i : Nat) (s : Store) :
    Prop where
  listed : planned ∈ plan
  there : s.model.entities[i]? = some x
  properties : x.properties = (S.counterpart planned).properties
  relations : x.relations = (S.counterpart planned).relations
  /-- No uid of the stored model has been lost. -/
  retains : S.Retains s.model

/-- Whatever was done before, a planned entity that has its turn is merged into what is stored for
it. -/
theorem hasTurn_of_mergeEachEntity {plan : List Entity} {found : List (Option UInt64)}
    {settled : List (UInt64 × Bool)} {s t : Store} {told : List Notice} {i : Nat}
    {before after : List (Entity × UInt64 × Bool)} {a : Entity × UInt64 × Bool}
    (distinct : (S.entities.map (·.id.uid)).Nodup)
    (matched : List.Forall₂ (EntityMatched S) plan found) (claims : (claimed id found).Nodup)
    (placed : Traversal EntityPlaced (S.keepEntities (·.id.uid ∈ claimed id found))
      (plan.zip found) settled s.model)
    (split : plan.zip settled = before ++ a :: after)
    (merged : mergeEachEntity targets before s = .ok told t)
    (at_i : t.model.entities[i]? = some x) (same : x.id.uid = a.2.1) :
    HasTurn S plan a.1 x i t := by
  obtain ⟨rs, steps, -⟩ := of_mergeEachEntity merged
  have lengths := length_settled placed matched
  obtain ⟨distinct₁, uids⟩ := uids_perm_settled placed distinct matched claims
  have listed : a ∈ plan.zip settled := by rw [split]; simp
  -- no entity that was merged before has the uid of this one
  have other : x.id.uid ∉ before.map (·.2.1) := by
    have once := uids.nodup_iff.mp distinct₁
    rw [← zip_map_uid lengths, split, List.map_append, List.map_cons] at once
    rw [same]
    exact fun again => (List.nodup_append.mp once).2.2 _ again _ List.mem_cons_self rfl
  have present : x ∈ s.model.entities := mem_of_entitySteps steps (List.mem_of_getElem? at_i) other
  obtain ⟨f, hf, match_a, ready⟩ := exists_of_forall₂_zip matched (entities_ready placed) listed
  have contents := ready.contents_eq match_a distinct₁ (by
    intro uid is_found y hy uid_y
    have claims : y.id.uid ∈ claimed id found :=
      List.mem_filterMap.mpr ⟨some uid, is_found ▸ hf, by simp [uid_y]⟩
    exact (entities_grow placed).mem (List.mem_filter.mpr ⟨hy, decide_eq_true claims⟩)) present same
  refine ⟨(List.of_mem_zip listed).1, at_i, contents.1, contents.2, ?_⟩
  exact ((S.evolves_keepEntities _).retains.trans (retains_of_settling placed)).trans
    (retains_of_entitySteps steps)

end Turns

/-! ### Causes -/

/-- The error with which the elements of a scope cannot be matched: the entities of the plan with
those that are stored, or the properties or relations of a planned entity with those of its
counterpart, in a store from which no uid has been lost. -/
inductive FailsToMatch (S : Model) (plan : List Entity) : ModelError → Prop
  | entities {e : ModelError} : matchEntities S plan = .error e → FailsToMatch S plan e
  | properties {x owner : Entity} {s : Store} {e : ModelError} : x ∈ plan → owner.name = x.name →
      owner.properties = (S.counterpart x).properties → S.Retains s.model →
      matchProperties s x owner = .error e → FailsToMatch S plan (.within (.entity x.name) e)
  | relations {x owner : Entity} {e : ModelError} : x ∈ plan → owner.name = x.name →
      owner.relations = (S.counterpart x).relations → matchRelations x owner = .error e →
      FailsToMatch S plan (.within (.entity x.name) e)

/-- A relation has a target that no entity of the plan is called, and the error says so. -/
def MissesTarget (plan : List Entity) (e : ModelError) : Prop :=
  ∃ x ∈ plan, ∃ r ∈ x.relations, e.root = .invalidModel (.namedTargetMissing r.target) ∧
    ∀ y ∈ plan, ¬ SameName y.name r.target

section Causes

variable {S : Model} {plan : List Entity} {e : ModelError} {store : Store}

/-- Merging fails only if a scope cannot be matched, if a target is missing, or for want of a uid.
So whatever has been matched is found when it is looked up again. -/
theorem cause_of_merge (distinct : (store.model.entities.map (·.id.uid)).Nodup)
    (run : store.merge plan = .error e) :
    FailsToMatch store.model plan e ∨ MissesTarget plan e ∨
      e.root = .uidsExhausted uidAttempts := by
  unfold Store.merge at run
  split at run
  · cases run
  next e' t failed =>
  obtain rfl := Except.error.inj run
  rcases of_mergePlan_eq_error failed with unmatched | exhausted |
    ⟨found, settled, added, s₁, matched, claims, settle, failed⟩
  · exact .inl (.entities unmatched)
  · exact .inr (.inr exhausted)
  have placed := (of_settleEntities settle).1
  obtain ⟨-, uids⟩ := uids_perm_settled placed distinct matched claims
  have there : settled.map Prod.fst ⊆ s₁.model.entities.map (·.id.uid) := uids.symm.subset
  obtain ⟨before, a, after, told, s', i, x, e', split, merged, at_i, same, stuck, rfl⟩ :=
    of_mergeEachEntity_eq_error
      (fun a ha => there (List.mem_map_of_mem (List.of_mem_zip ha).2)) failed
  have turn := hasTurn_of_mergeEachEntity distinct matched claims placed split merged at_i same
  rcases of_mergeEntity_eq_error at_i stuck with
    unmatched | ⟨owner, name, relations, unmatched⟩ | ⟨r, hr, lacks, lost⟩ | exhausted
  · have retains : store.model.Retains (adoptedStore a.1 i s').model := by
      rw [adoptedStore_model at_i]
      exact turn.retains.trans (evolves_adopt a.1 at_i).retains
    refine .inl (.properties turn.listed ?_ ?_ retains unmatched)
    · rfl
    · exact turn.properties
  · exact .inl (.relations turn.listed name (relations.trans turn.relations) unmatched)
  · -- a planned entity of this name would have been settled on, and so it would be there
    have here : settled.map Prod.fst ⊆ (s'.model.entities.map (·.id)).map (·.uid) := by
      rw [← entityUids_of_mergeEachEntity merged] at there
      simpa [Function.comp_def] using there
    have lengths : plan.length = (settled.map Prod.fst).length := by
      simpa using length_settled placed matched
    refine .inr (.inl ⟨a.1, turn.listed, r, hr, lacks, fun y hy named => ?_⟩)
    obtain ⟨t, points⟩ := exists_pointsAt lengths here hy named
    exact lost t points
  · exact .inr (.inr exhausted)

/-- Where the error says that a uid is unknown, the schema gives this uid to an element of the sort,
and nothing that is stored has it: no entity, or nothing in the counterpart of the entity that the
element belongs to. A property is only unknown if its name is, too. -/
structure NamesUnknownUids (S : Model) (plan : List Entity) (e : ModelError) : Prop where
  entity : ∀ uid, e.root = .unknownEntityUid uid →
    uid ≠ 0 ∧ (∃ x ∈ plan, x.id.uid = uid) ∧ ∀ y ∈ S.entities, y.id.uid ≠ uid
  property : ∀ name uid, e.root = .unknownPropertyUid name uid →
    uid ≠ 0 ∧ ∃ x ∈ plan, x.name = name ∧ ∃ p ∈ x.properties, p.id.uid = uid ∧
      ∀ q ∈ (S.counterpart x).properties, q.id.uid ≠ uid ∧ ¬ SameName q.name p.name
  relation : ∀ name uid, e.root = .unknownRelationUid name uid →
    uid ≠ 0 ∧ ∃ x ∈ plan, x.name = name ∧ ∃ r ∈ x.relations, r.id.uid = uid ∧
      ∀ q ∈ (S.counterpart x).relations, q.id.uid ≠ uid

theorem NamesUnknownUids.of_other (entity : ∀ uid, e.root ≠ .unknownEntityUid uid)
    (property : ∀ name uid, e.root ≠ .unknownPropertyUid name uid)
    (relation : ∀ name uid, e.root ≠ .unknownRelationUid name uid) : NamesUnknownUids S plan e :=
  ⟨fun uid is => absurd is (entity uid), fun name uid is => absurd is (property name uid),
    fun name uid is => absurd is (relation name uid)⟩

theorem EntityFault.namesUnknownUids (h : EntityFault S plan e) : NamesUnknownUids S plan e := by
  cases h with
  | @unknown x hx given unlisted =>
      refine ⟨?_, nofun, nofun⟩
      rintro _ ⟨⟩
      exact ⟨given, ⟨x, hx, rfl⟩, fun y hy same => unlisted (List.mem_map.mpr ⟨y, hy, same⟩)⟩
  | asked => exact ⟨nofun, nofun, nofun⟩
  | claimedTwice => exact ⟨nofun, nofun, nofun⟩

theorem PropertyFault.namesUnknownUids {s : Store} {x owner : Entity} (hx : x ∈ plan)
    (name : owner.name = x.name) (same : owner.properties = (S.counterpart x).properties)
    (h : PropertyFault s x owner e) : NamesUnknownUids S plan (.within (.entity x.name) e) := by
  cases h with
  | @unknown p hp given unlisted unnamed =>
      refine ⟨nofun, ?_, nofun⟩
      rintro _ _ ⟨⟩
      refine ⟨given, x, hx, name.symm, p, hp, rfl, fun q hq => ?_⟩
      rw [← same] at hq
      exact ⟨fun uid => unlisted (List.mem_map.mpr ⟨q, hq, uid⟩), fun named =>
        by simpa [named] using List.find?_eq_none.mp unnamed q hq⟩
  | used => exact ⟨nofun, nofun, nofun⟩
  | @asked p _ _ =>
      rcases propertyQuestion_cases s x p _ with ⟨-, is⟩ | ⟨_, _, -, is, -⟩ | is <;>
        (rw [is]; exact ⟨nofun, nofun, nofun⟩)
  | claimedTwice => exact ⟨nofun, nofun, nofun⟩

theorem RelationFault.namesUnknownUids {x owner : Entity} (hx : x ∈ plan)
    (name : owner.name = x.name) (same : owner.relations = (S.counterpart x).relations)
    (h : RelationFault x owner e) : NamesUnknownUids S plan (.within (.entity x.name) e) := by
  cases h with
  | @unknown r hr given unlisted =>
      refine ⟨nofun, nofun, ?_⟩
      rintro _ _ ⟨⟩
      refine ⟨given, x, hx, name.symm, r, hr, rfl, fun q hq uid => ?_⟩
      rw [← same] at hq
      exact unlisted (List.mem_map.mpr ⟨q, hq, uid⟩)
  | asked => exact ⟨nofun, nofun, nofun⟩
  | claimedTwice => exact ⟨nofun, nofun, nofun⟩

/-- If merging into a consistent model fails, then because a scope cannot be matched, because a
target is missing or for want of a uid, but not because something that was matched is not found
any more; and a uid that the error calls unknown is unknown to the stored model. -/
theorem namesUnknownUids_of_merge (stored : store.model.IsConsistent)
    (run : store.merge plan = .error e) :
    (FailsToMatch store.model plan e ∨ MissesTarget plan e ∨
      e.root = .uidsExhausted uidAttempts) ∧ NamesUnknownUids store.model plan e := by
  have cause := cause_of_merge stored.distinctUids run
  refine ⟨cause, ?_⟩
  rcases cause with (unmatched | ⟨hx, name, same, -, unmatched⟩ | ⟨hx, name, same, unmatched⟩) |
    ⟨x, -, r, -, missing, -⟩ | exhausted
  · exact (entityFault_of_matchEntities unmatched).namesUnknownUids
  · exact (propertyFault_of_matchProperties unmatched).namesUnknownUids hx name same
  · exact (relationFault_of_matchRelations unmatched).namesUnknownUids hx name same
  · apply NamesUnknownUids.of_other <;> (rw [missing]; nofun)
  · apply NamesUnknownUids.of_other <;> (rw [exhausted]; nofun)

/-- If drafts become a plan and it cannot be merged, then there is such a plan. -/
theorem exists_plan_of_failing_merge (kinds : List PropertyKind) (drafts : List EntityDraft)
    (store : Store) (e : ModelError)
    (h : (do
      let plan ← Plan.ofDrafts kinds drafts
      return (store.merge plan).map Prod.fst) = .ok (.error e)) :
    ∃ plan, Plan.ofDrafts kinds drafts = .ok plan ∧ store.merge plan = .error e := by
  simp only [except_bind_eq_ok, except_pure_eq_ok] at h
  obtain ⟨plan, planned, failed⟩ := h
  refine ⟨plan, planned, ?_⟩
  cases run : store.merge plan with
  | ok merged => simp [run, Except.map] at failed
  | error e' => simpa [run, Except.map] using failed

/-- The annotation that gives a uid, or asks for it if it is empty. -/
def uidAnnotation (value : String) : Annotations := KeyMap.empty.insert "uid" (.value value)

/-- A schema in which the two entities swap their names. The second one has the given fields. -/
def swappedWith (fields : List FieldDraft) : List EntityDraft :=
  let id : FieldDraft := { name := "id", base := .long }
  [{ name := "Task", annotations := uidAnnotation "3", fields := [id] },
   { name := "Note", annotations := uidAnnotation "1", fields }]

/-- When the second entity has its turn, another one has already taken the name of its
counterpart. -/
theorem namesUnknownUids_of_merge_swapped :
    ∃ (plan : List Entity) (e : ModelError),
      Plan.ofDrafts [] (swappedWith [
        { name := "id", base := .long },
        { name := "done", base := .bool, annotations := uidAnnotation "9" }]) = .ok plan ∧
      taskAndNote.IsConsistent ∧ Store.merge plan ⟨taskAndNote, .counting⟩ = .error e ∧
      e.root = .unknownPropertyUid "Note" 9 ∧
      (FailsToMatch taskAndNote plan e ∨ MissesTarget plan e ∨
        e.root = .uidsExhausted uidAttempts) ∧ NamesUnknownUids taskAndNote plan e := by
  obtain ⟨plan, planned, failed⟩ := exists_plan_of_failing_merge [] (swappedWith [
    { name := "id", base := .long },
    { name := "done", base := .bool, annotations := uidAnnotation "9" }])
    ⟨taskAndNote, .counting⟩
    (.within (.entity "Note") (.within (.property "done") (.unknownPropertyUid "Note" 9)))
    (by decide +kernel)
  have stored : taskAndNote.IsConsistent := by decide
  exact ⟨plan, _, planned, stored, failed, rfl, namesUnknownUids_of_merge stored failed⟩

end Causes

end Merge

end SchemaLedger
