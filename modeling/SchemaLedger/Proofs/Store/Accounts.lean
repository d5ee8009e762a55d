import Mathlib.Data.List.Infix
import SchemaLedger.Proofs.Store.Calls

/-!
# The accounts of a store

Of every identifier that was ever given out, the account of a store says where its uid is now: with
an element in use or among the retired ones, and nowhere else. The local ids of all scopes are in
order. Each call keeps the accounts, and so does any number of calls on a new store, as long as no
count comes to its end.
-/

namespace SchemaLedger

namespace Model

variable {m m' : Model} {ids given : IdSort → List IdPair}

/-- The last local ids, those of the properties taken from the entities. -/
def counts (m : Model) : List UInt32 :=
  ([m.lastEntity, m.lastIndex, m.lastRelation] ++ m.entities.map (·.lastProperty)).map IdPair.lastId

/-- No count has come to its end. -/
def CanCount (m : Model) : Prop := IdPair.topId ∉ m.counts

instance (m : Model) : Decidable m.CanCount := inferInstanceAs (Decidable (IdPair.topId ∉ m.counts))

namespace CanCount

theorem last (h : m.CanCount) (sort : IdSort) :
    IdPair.lastId (m.books.last sort) ≠ IdPair.topId := by
  intro same
  cases sort with
  | property =>
      have none_last : IdPair.lastId none = IdPair.topId := same
      exact absurd none_last (by decide)
  | _ => exact h (by simp [counts, ← same, books])

theorem lastProperty (h : m.CanCount) {e : Entity} (he : e ∈ m.entities) :
    IdPair.lastId e.lastProperty ≠ IdPair.topId := by
  intro same
  refine h (List.mem_map.mpr ⟨e.lastProperty, ?_, same⟩)
  exact List.mem_append_right _ (List.mem_map_of_mem he)

end CanCount

/-! ### What is given at once -/

namespace Mints

theorem fresh (h : m.Mints ids) {sort : IdSort} {id : IdPair} (hid : id ∈ ids sort) :
    m.Fresh id.uid := by
  cases h with
  | nothing => cases hid
  | one fresh =>
      obtain ⟨-, hid⟩ := IdSort.mem_only.mp hid
      exact List.mem_singleton.mp hid ▸ fresh

/-- No uid is given twice at once. -/
theorem apart (h : m.Mints ids) :
    ([IdSort.entity, .property, .index, .relation].flatMap fun sort =>
      (ids sort).map (·.uid)).Nodup := by
  cases h with
  | nothing => simp
  | @one sort id _ => cases sort <;> simp [IdSort.only]

/-- If the count has not come to its end with the last identifier, it has not with the one given. -/
theorem id_ne_topId (h : m.Mints ids) {sort : IdSort} {last last' : Option IdPair}
    (follow : IdPair.Follow last (ids sort) last') (room : IdPair.lastId last' ≠ IdPair.topId) :
    ∀ id ∈ ids sort, id.id ≠ IdPair.topId := by
  intro id hid
  cases h with
  | nothing => cases hid
  | one =>
      obtain ⟨rfl, listed⟩ := IdSort.mem_only.mp hid
      obtain rfl := List.mem_singleton.mp listed
      rw [IdSort.only, if_pos rfl] at follow
      cases follow with
      | cons rest =>
          cases rest
          exact room

end Mints

/-! ### Accounts -/

/-- The identifiers of all scopes are in order, all uids in use and all retired ones are assigned
and different, and they are those of the identifiers that were given. -/
structure IsAccounted (m : Model) (given : IdSort → List IdPair) : Prop where
  ids : m.HasOrderedIds
  distinct : m.census.Nodup
  assigned : ∀ uid ∈ m.census, uid ≠ 0
  balance : ∀ sort,
    ((given sort).map (·.uid)).Perm ((m.idsOf sort).map (·.uid) ++ m.retired.uidsOf sort)

theorem isAccounted_empty : Model.empty.IsAccounted (fun _ => []) where
  ids := ⟨.nil _, nofun, .nil _, .nil _⟩
  distinct := List.nodup_nil
  assigned := nofun
  balance sort := by cases sort <;> exact .nil

/-- Every step keeps the property identifiers in order. -/
theorem Step.propertiesInOrder (h : m.Step ids m') (mints : m.Mints ids) (room : m.CanCount)
    (room' : m'.CanCount) (order : ∀ e ∈ m.entities, (m.siteOf e).books.AreInOrder .property) :
    ∀ e ∈ m'.entities, (m'.siteOf e).books.AreInOrder .property := by
  intro e he
  cases h with
  | unchanged => exact order e he
  | entityAdded name uid =>
      rcases List.mem_append.mp he with he | he
      · exact order e he
      · obtain rfl := List.mem_singleton.mp he
        exact .nil _
  | entityErased there =>
      exact (order e (List.mem_of_mem_eraseIdx he)).mono (List.subset_append_left _ _)
  | @within i x b gone _ there turnover =>
      rcases List.mem_or_eq_of_mem_set he with he | rfl
      · refine (order e he).mono ?_
        change m.retired.properties ⊆ b.retired.properties
        have retired : b.retired.properties = m.retired.properties ++ _ :=
          turnover.retired .property
        rw [retired]
        exact List.subset_append_left _ _
      · obtain ⟨lt, -⟩ := List.getElem?_eq_some_iff.mp there
        have placed : b.entity ∈ (m.place i b).entities := List.mem_of_getElem? (place_entity lt)
        have stored := List.mem_of_getElem? there
        exact turnover.areInOrder trivial (order x stored) (fun id hid => (mints.fresh hid).1)
          (room.lastProperty stored)
          (mints.id_ne_topId (turnover.follow .property trivial) (room'.lastProperty placed))

namespace IsAccounted

theorem hasIndexUid (h : m.IsAccounted given) :
    ∀ e ∈ m.entities, ∀ p ∈ e.properties, p.HasIndexUid := by
  intro e he p hp index there
  refine h.assigned _ (mem_census_of_entity he (Entity.mem_ownUids.mpr (.inr (.inl ⟨p, hp, ?_⟩))))
  simp [Property.uids, there]

/-- Every step keeps the accounts, unless a count comes to its end. -/
theorem step (h : m.IsAccounted given) (step : m.Step ids m') (mints : m.Mints ids)
    (room : m.CanCount) (room' : m'.CanCount) :
    m'.IsAccounted fun sort => given sort ++ ids sort := by
  obtain ⟨gone, turnover⟩ := step.turnover h.hasIndexUid
  obtain ⟨scopes, properties⟩ := hasOrderedIds_iff.mp h.ids
  refine ⟨hasOrderedIds_iff.mpr ⟨fun sort other => ?_, ?_⟩, ?_, ?_, ?_⟩
  · exact turnover.areInOrder other (scopes sort other) (fun id hid => (mints.fresh hid).1)
      (room.last sort) (mints.id_ne_topId (turnover.follow sort other) (room'.last sort))
  · exact step.propertiesInOrder mints room room' properties
  · exact census_nodup_of_turnover turnover h.distinct mints.apart
      fun sort id hid => (mints.fresh hid).2
  · intro uid listed
    have listed := turnover.uids_perm.mem_iff.mp (m'.census_perm.mem_iff.mp listed)
    rcases List.mem_append.mp listed with known | new
    · exact h.assigned uid (m.census_perm.mem_iff.mpr known)
    · obtain ⟨sort, -, new⟩ := List.mem_flatMap.mp new
      obtain ⟨id, hid, rfl⟩ := List.mem_map.mp new
      exact (mints.fresh hid).1
  · -- What leaves the elements in use joins the retired ones, so every uid counts as often.
    intro sort
    have before := h.balance sort
    have live := (turnover.live sort).map (·.uid)
    have retired : m'.retired.uidsOf sort = m.retired.uidsOf sort ++ (gone sort).map (·.uid) :=
      turnover.retired sort
    rw [List.perm_iff_count] at before live ⊢
    intro uid
    have := before uid
    have := live uid
    simp only [books, retired, List.map_append, List.count_append] at *
    omega

/-- No uid was given twice. -/
theorem given_nodup (h : m.IsAccounted given) :
    ([IdSort.entity, .property, .index, .relation].flatMap fun sort =>
      (given sort).map (·.uid)).Nodup := by
  have all : ([IdSort.entity, .property, .index, .relation].flatMap fun sort =>
      (given sort).map (·.uid)).Perm m.books.uids :=
    List.Perm.flatMap_left _ fun sort _ => h.balance sort
  exact (all.trans m.census_perm.symm).nodup_iff.mpr h.distinct

end IsAccounted

end Model

/-! ### Runs of calls -/

/-- Any number of calls keeps the accounts, unless a count comes to its end. -/
theorem isAccounted_callEach {calls : List Call} {s : Store} {given : IdSort → List IdPair}
    (h : s.model.IsAccounted given)
    (room : ∀ made ∈ calls.inits, (callEach made s).2.model.CanCount) :
    (callEach calls s).2.model.IsAccounted fun sort => given sort ++ (callEach calls s).1 sort := by
  induction calls generalizing s given with
  | nil => simpa [callEach] using h
  | cons c calls ih =>
      have now : s.model.CanCount := room [] (by simp)
      have next : (c.result s).2.model.CanCount := room [c] (by simp)
      obtain ⟨step, mints⟩ := c.step_result s h.hasIndexUid
      have rest := ih (h.step step mints now next)
        fun made hm => room (c :: made) (by simpa using hm)
      simpa only [callEach, List.append_assoc] using rest

/-- On a new store, with any source of uids and whatever calls are made, be they valid or not: the
local ids of all scopes are in order, all uids in use and all retired ones are assigned and
different, they are the uids that were given, and no uid was given twice, provided that no count
comes to its end. A call that fails leaves the model as it is. -/
theorem calls_keep_accounts (uids : UidSource) (calls : List Call)
    (room : ∀ made ∈ calls.inits, (callEach made ⟨.empty, uids⟩).2.model.CanCount) :
    (callEach calls ⟨.empty, uids⟩).2.model.IsAccounted (callEach calls ⟨.empty, uids⟩).1 ∧
      ([IdSort.entity, .property, .index, .relation].flatMap fun sort =>
        ((callEach calls ⟨.empty, uids⟩).1 sort).map (·.uid)).Nodup ∧
      ∀ (c : Call) (s t : Store) (e : ModelError), c.run s = .error e t → t.model = s.model := by
  have accounted := isAccounted_callEach Model.isAccounted_empty room
  simp only [List.nil_append] at accounted
  exact ⟨accounted, accounted.given_nodup, fun _ _ _ _ => Call.model_of_run_eq_error⟩

/-- An entity with an index and a relation that goes with all its parts, another one from which the
last property goes, and calls for what is not there. -/
def someCalls : List Call :=
  [.createEntity "A", .createProperty 0 "id" .long, .createProperty 0 "text" .string,
    .attachIndex 0 1, .attachIndex 0 1, .removeIndex 0 0, .createRelation 0 "r",
    .createEntity "B", .createProperty 1 "id" .long, .createProperty 7 "x" .bool,
    .attachIndex 1 0, .removeProperty 1 0, .removeRelation 1 0, .removeEntity 0,
    .createEntity "C", .removeEntity 5]

theorem someCalls_keep_accounts :
    (∀ made ∈ someCalls.inits, (callEach made ⟨.empty, .counting⟩).2.model.CanCount) ∧
      (callEach someCalls ⟨.empty, .counting⟩).2.model.IsAccounted
        (callEach someCalls ⟨.empty, .counting⟩).1 ∧
      (callEach someCalls ⟨.empty, .counting⟩).1 .entity = [⟨1, 1⟩, ⟨2, 6⟩, ⟨3, 9⟩] ∧
      (callEach someCalls ⟨.empty, .counting⟩).2.model.retired =
        { entities := [1], indexes := [8, 4], properties := [7, 2, 3], relations := [5] } :=
  have room : ∀ made ∈ someCalls.inits,
      (callEach made ⟨.empty, .counting⟩).2.model.CanCount := by decide
  ⟨room, (calls_keep_accounts .counting someCalls room).1, by decide, by decide⟩

end SchemaLedger
