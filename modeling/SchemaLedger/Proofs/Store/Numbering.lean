import SchemaLedger.Proofs.Model.Characterization
import SchemaLedger.Proofs.Store.Turnover

/-!
# Local ids stay in order

New elements are counted on from the last one, so their local ids lie above all that were given
before. As long as the count does not come to its end, a scope in order stays in order, whatever is
removed from it: if the last element goes, its uid is among the retired ones.
-/

namespace SchemaLedger

/-! ### The end of the count -/

/-- The largest local id, after which the count would start again. -/
def IdPair.topId : UInt32 := 4294967295

/-- The local ids of a model: the last ones and those in use. -/
def Model.localIds (m : Model) : List UInt32 :=
  ([m.lastEntity, m.lastIndex, m.lastRelation] ++ m.entities.map (·.lastProperty)).map
      IdPair.lastId ++
    [IdSort.entity, .property, .index, .relation].flatMap fun sort => (m.idsOf sort).map (·.id)

/-- No count of local ids has come to its end. -/
def Model.HasRoom (m : Model) : Prop := IdPair.topId ∉ m.localIds

instance (m : Model) : Decidable m.HasRoom :=
  inferInstanceAs (Decidable (IdPair.topId ∉ m.localIds))

namespace Model.HasRoom

variable {m : Model}

theorem last (h : m.HasRoom) (sort : IdSort) :
    IdPair.lastId (m.books.last sort) ≠ IdPair.topId := by
  intro same
  cases sort with
  | property =>
      have none_last : IdPair.lastId none = IdPair.topId := same
      exact absurd none_last (by decide)
  | _ => exact h (by simp [localIds, ← same, books])

theorem lastProperty (h : m.HasRoom) {e : Entity} (he : e ∈ m.entities) :
    IdPair.lastId e.lastProperty ≠ IdPair.topId := by
  intro same
  refine h (List.mem_append_left _ (List.mem_map.mpr ⟨e.lastProperty, ?_, same⟩))
  exact List.mem_append_right _ (List.mem_map_of_mem he)

theorem live (h : m.HasRoom) {sort : IdSort} {id : IdPair} (hid : id ∈ m.idsOf sort) :
    id.id ≠ IdPair.topId := by
  intro same
  refine h (List.mem_append_right _ (List.mem_flatMap.mpr ⟨sort, ?_, ?_⟩))
  · cases sort <;> decide
  · exact same ▸ List.mem_map_of_mem hid

end Model.HasRoom

namespace IdPair

variable {last last' : Option IdPair} {ids : List IdPair}

theorem next_ne_zero (room : lastId last ≠ topId) : next last ≠ 0 := by
  cases last with
  | none => decide
  | some p =>
      simp only [lastId, next, topId, ne_eq, ← UInt32.toNat_inj] at room ⊢
      have := p.id.toNat_lt
      simp only [UInt32.toNat_add, UInt32.toNat_one, UInt32.toNat_zero,
        UInt32.reduceToNat] at room ⊢
      omega

/-- Identifiers that follow a last one ascend from it, unless the count comes to its end. The last
of them is the new last one. -/
theorem Follow.ascends (h : Follow last ids last') (room : lastId last ≠ topId)
    (rooms : ∀ id ∈ ids, id.id ≠ topId) :
    lastId last ≤ lastId last' ∧ (ids.map (·.id)).Nodup ∧
      (∀ id ∈ ids, lastId last < id.id ∧ id.id ≤ lastId last') ∧
      (ids = [] ∧ last' = last ∨ ∃ l ∈ ids, last' = some l) := by
  induction h with
  | nil => exact ⟨UInt32.le_refl _, List.nodup_nil, nofun, .inl ⟨rfl, rfl⟩⟩
  | @cons last last' uid ids rest ih =>
      have above : lastId last < next last := lastId_lt_next (next_ne_zero room)
      obtain ⟨le, distinct, between, final⟩ := ih (rooms _ List.mem_cons_self)
        fun id hid => rooms id (List.mem_cons_of_mem _ hid)
      rw [lastId_some] at le between
      refine ⟨UInt32.le_trans (UInt32.le_of_lt above) le, ?_, ?_, .inr ?_⟩
      · refine List.nodup_cons.mpr ⟨fun listed => ?_, distinct⟩
        obtain ⟨id, hid, same⟩ := List.mem_map.mp listed
        exact UInt32.lt_irrefl _ (same ▸ (between id hid).1)
      · intro id hid
        rcases List.mem_cons.mp hid with rfl | hid
        · exact ⟨above, le⟩
        · exact ⟨UInt32.lt_trans above (between id hid).1, (between id hid).2⟩
      · rcases final with ⟨-, rfl⟩ | ⟨l, hl, rfl⟩
        · exact ⟨_, List.mem_cons_self, rfl⟩
        · exact ⟨l, List.mem_cons_of_mem _ hl, rfl⟩

end IdPair

/-! ### Scopes -/

namespace IsInOrder

variable {live live' gone new : List IdPair} {last last' : Option IdPair}
variable {retired retired' : List UInt64}

theorem nil (retired : List UInt64) : IsInOrder [] none retired where
  assigned := nofun
  distinct := List.nodup_nil
  below := nofun
  known := nofun
  unset := fun _ => rfl
  assignedLast := nofun
  like := nofun

theorem mono (h : IsInOrder live last retired) (more : retired ⊆ retired') :
    IsInOrder live last retired' :=
  { h with known := fun id is_last => (h.known id is_last).imp_right (more ·) }

/-- A scope stays in order if elements go and their uids are retired. -/
theorem remove (h : IsInOrder live last retired) (perm : (live' ++ gone).Perm live) :
    IsInOrder live' last (retired ++ gone.map (·.uid)) := by
  have there (id : IdPair) (hid : id ∈ live') : id ∈ live :=
    perm.mem_iff.mp (List.mem_append_left _ hid)
  exact {
    assigned := fun id hid => h.assigned id (there id hid)
    distinct := by
      have all := (perm.map (·.id)).nodup_iff.mpr h.distinct
      rw [List.map_append] at all
      exact all.of_append_left
    below := fun id hid => h.below id (there id hid)
    known := by
      intro id is_last
      rcases h.known id is_last with was_live | was_retired
      · rcases List.mem_append.mp (perm.mem_iff.mpr was_live) with live | went
        · exact .inl live
        · exact .inr (List.mem_append_right _ (List.mem_map_of_mem went))
      · exact .inr (List.mem_append_left _ was_retired)
    unset := by
      intro none_last
      rw [h.unset none_last] at perm
      exact (List.append_eq_nil_iff.mp perm.eq_nil).1
    assignedLast := h.assignedLast
    like := fun l is_last id hid => h.like l is_last id (there id hid) }

/-- A scope stays in order if elements come that follow the last one, unless the count comes to its
end. -/
theorem extend (h : IsInOrder live last retired) (follow : IdPair.Follow last new last')
    (assigned : ∀ id ∈ new, id.uid ≠ 0) (room : IdPair.lastId last ≠ IdPair.topId)
    (rooms : ∀ id ∈ new, id.id ≠ IdPair.topId) : IsInOrder (live ++ new) last' retired := by
  obtain ⟨le, distinct, between, final⟩ := follow.ascends room rooms
  have apart (id : IdPair) (hid : id ∈ live) (id' : IdPair) (hid' : id' ∈ new) : id.id < id'.id :=
    UInt32.lt_of_le_of_lt (h.below id hid) (between id' hid').1
  have positive (id : IdPair) (hid : id ∈ new) : id.id ≠ 0 := fun zero =>
    UInt32.not_lt_zero (zero ▸ (between id hid).1)
  rcases final with ⟨rfl, rfl⟩ | ⟨l, hl, rfl⟩
  · rwa [List.append_nil]
  · constructor
    · constructor
      · intro id hid
        exact (List.mem_append.mp hid).elim (h.assigned id) (positive id)
      · rw [List.map_append]
        refine List.nodup_append.mpr ⟨h.distinct, distinct, ?_⟩
        rintro _ hn _ hm rfl
        obtain ⟨id, hid, rfl⟩ := List.mem_map.mp hn
        obtain ⟨id', hid', same⟩ := List.mem_map.mp hm
        exact UInt32.lt_irrefl _ (same ▸ apart id hid id' hid')
      · intro id hid
        rcases List.mem_append.mp hid with hid | hid
        · exact UInt32.le_trans (h.below id hid) le
        · exact (between id hid).2
      · rintro _ ⟨⟩
        exact .inl (List.mem_append_right _ hl)
      · nofun
    · rintro _ ⟨⟩
      exact ⟨positive l hl, assigned l hl⟩
    · rintro _ ⟨⟩ id hid same
      rcases List.mem_append.mp hid with hid | hid
      · exact absurd (apart id hid l hl) (same ▸ UInt32.lt_irrefl _)
      · exact List.inj_on_of_nodup_map distinct hid hl same

end IsInOrder

/-- The identifiers of a sort are in order on the books. -/
abbrev Books.AreInOrder (a : Books) (sort : IdSort) : Prop :=
  IsInOrder (a.live sort) (a.last sort) (a.retired sort)

/-- What comes and what goes leaves a sort in order if the new identifiers are counted on and the
count does not come to its end. -/
theorem Turnover.areInOrder {counted : IdSort → Prop} {gone new : IdSort → List IdPair}
    {a b : Books} {sort : IdSort} (h : Turnover counted gone new a b) (on : counted sort)
    (order : a.AreInOrder sort) (assigned : ∀ id ∈ new sort, id.uid ≠ 0)
    (room : IdPair.lastId (a.last sort) ≠ IdPair.topId)
    (rooms : ∀ id ∈ new sort, id.id ≠ IdPair.topId) : b.AreInOrder sort := by
  have extended := order.extend (h.follow sort on) assigned room rooms
  have ordered := extended.remove (h.live sort)
  rwa [← h.retired sort] at ordered

/-- Where the last identifiers are counted on, books in order lead to books in order, unless the
count comes to its end. -/
theorem Books.LeadTo.areInOrder {counted : IdSort → Prop} {old : IdSort → List IdPair}
    {Fresh : UInt64 → Prop} {a b : Books} {sort : IdSort} (h : a.LeadTo counted old Fresh b)
    (on : counted sort) (order : a.AreInOrder sort) (known : ∀ id ∈ old sort, ¬ Fresh id.uid)
    (assigned : ∀ uid, Fresh uid → uid ≠ 0)
    (room : IdPair.lastId (a.last sort) ≠ IdPair.topId)
    (rooms : ∀ id ∈ b.live sort, id.id ≠ IdPair.topId) : b.AreInOrder sort := by
  obtain ⟨gone, new, turnover, removed, fresh⟩ := h
  -- what is new has not gone at once, so it is in use in the end
  have added (id : IdPair) (hid : id ∈ new sort) : id ∈ b.live sort := by
    rcases List.mem_append.mp ((turnover.live sort).mem_iff.mpr (List.mem_append_right _ hid)) with
      live | went
    · exact live
    · exact absurd (fresh sort id hid) (known id (removed sort went))
  exact turnover.areInOrder on order (fun id hid => assigned _ (fresh sort id hid)) room
    fun id hid => rooms id (added id hid)

/-! ### All scopes of a model -/

namespace Model

variable {m : Model}

theorem idsOf_entity (m : Model) : m.idsOf .entity = m.entities.map (·.id) := by
  simp [idsOf, Entity.idsOf_entity, List.map_eq_flatMap]

theorem idsOf_index (m : Model) : m.idsOf .index = m.indexIds := by
  simp [idsOf, Entity.idsOf_index, indexIds, indexes, List.map_flatMap, List.map_filterMap,
    Function.comp_def]

theorem idsOf_relation (m : Model) : m.idsOf .relation = m.relationIds := by
  simp [idsOf, Entity.idsOf_relation, relationIds, relations, List.map_flatMap,
    Function.comp_def]

/-- What is in use is in the census. -/
theorem not_fresh_of_mem_idsOf {sort : IdSort} {id : IdPair} (hid : id ∈ m.idsOf sort) :
    ¬ m.Fresh id.uid := fun fresh =>
  fresh.2 (m.census_perm.mem_iff.mpr (Books.mem_uids.mpr ⟨sort, .inl (List.mem_map_of_mem hid)⟩))

/-- The uids of all elements are assigned, be they looked at by entity or by sort. -/
theorem assignedUids_iff :
    (∀ e ∈ m.entities, ∀ uid ∈ e.ownUids, uid ≠ 0) ↔
      ∀ sort, ∀ id ∈ m.idsOf sort, id.uid ≠ 0 := by
  have own := Entity.ownUids_perm m.entities
  constructor
  · intro h sort id hid
    have listed : id.uid ∈ m.entities.flatMap Entity.ownUids :=
      own.mem_iff.mpr (List.mem_flatMap.mpr
        ⟨sort, by cases sort <;> decide, List.mem_map_of_mem hid⟩)
    obtain ⟨e, he, listed⟩ := List.mem_flatMap.mp listed
    exact h e he id.uid listed
  · intro h e he uid hu
    have listed := own.mem_iff.mp (List.mem_flatMap.mpr ⟨e, he, hu⟩)
    obtain ⟨sort, -, listed⟩ := List.mem_flatMap.mp listed
    obtain ⟨id, hid, rfl⟩ := List.mem_map.mp listed
    exact h sort id hid

/-- Identifiers of every scope are in order if they are on the books and in every entity. -/
theorem hasOrderedIds_iff : m.HasOrderedIds ↔ (∀ sort ≠ .property, m.books.AreInOrder sort) ∧
    ∀ e ∈ m.entities, (m.siteOf e).books.AreInOrder .property := by
  have site (e : Entity) : (m.siteOf e).books.AreInOrder .property ↔
      IsInOrder (e.properties.map (·.id)) e.lastProperty m.retired.properties := by
    rw [← Entity.idsOf_property]
    rfl
  have entities : m.books.AreInOrder .entity ↔
      IsInOrder (m.entities.map (·.id)) m.lastEntity m.retired.entities := by
    rw [← idsOf_entity]
    rfl
  have indexes : m.books.AreInOrder .index ↔
      IsInOrder m.indexIds m.lastIndex m.retired.indexes := by
    rw [← idsOf_index]
    rfl
  have relations : m.books.AreInOrder .relation ↔
      IsInOrder m.relationIds m.lastRelation m.retired.relations := by
    rw [← idsOf_relation]
    rfl
  simp only [site]
  constructor
  · intro h
    refine ⟨fun sort other => ?_, h.properties⟩
    cases sort with
    | entity => exact entities.mpr h.entities
    | property => exact absurd rfl other
    | index => exact indexes.mpr h.indexes
    | relation => exact relations.mpr h.relations
  · rintro ⟨scopes, properties⟩
    exact ⟨entities.mp (scopes .entity nofun), properties, indexes.mp (scopes .index nofun),
      relations.mp (scopes .relation nofun)⟩

end Model

end SchemaLedger
