import Mathlib.Data.List.Count
import Mathlib.Data.List.Perm.Basic
import SchemaLedger.Proofs.Store.Site

/-!
# What comes and what goes

The books of a model list the identifiers of each sort that are in use, the last one that was given
and the retired uids. They balance: if a change takes some identifiers out of use and brings others
into use, then nothing else has come or gone, and the uids of those that have gone are retired, each
once and in turn.
-/

namespace SchemaLedger

/-! ### Books -/

/-- What an identifier belongs to. -/
inductive IdSort where
  | entity
  | property
  | index
  | relation
deriving DecidableEq, Repr

/-- Identifiers that are all of one sort. -/
def IdSort.only (sort : IdSort) (ids : List IdPair) (sort' : IdSort) : List IdPair :=
  if sort' = sort then ids else []

theorem IdSort.mem_only {sort sort' : IdSort} {ids : List IdPair} {id : IdPair} :
    id ∈ sort.only ids sort' ↔ sort' = sort ∧ id ∈ ids := by
  unfold only
  split <;> simp_all

/-- The identifiers of a sort that belong to the property. -/
def Property.idsOf (p : Property) : IdSort → List IdPair
  | .property => [p.id]
  | .index => p.index.toList
  | _ => []

/-- The identifiers of a sort that belong to the relation. -/
def Relation.idsOf (r : Relation) : IdSort → List IdPair
  | .relation => [r.id]
  | _ => []

/-- The identifiers of a sort that belong to the parts of the entity. -/
def Entity.partIds (e : Entity) (sort : IdSort) : List IdPair :=
  e.properties.flatMap (·.idsOf sort) ++ e.relations.flatMap (·.idsOf sort)

/-- The identifiers of a sort in the entity. -/
def Entity.idsOf (e : Entity) (sort : IdSort) : List IdPair :=
  IdSort.only .entity [e.id] sort ++ e.partIds sort

/-- The retired uids of a sort. -/
def Retired.uidsOf (r : Retired) : IdSort → List UInt64
  | .entity => r.entities
  | .property => r.properties
  | .index => r.indexes
  | .relation => r.relations

theorem Retired.exists_mem_uidsOf {r : Retired} {uid : UInt64} (hu : uid ∈ r.uids) :
    ∃ sort, uid ∈ r.uidsOf sort := by
  simp only [uids, List.mem_append] at hu
  rcases hu with ((entity | index) | property) | relation
  · exact ⟨.entity, entity⟩
  · exact ⟨.index, index⟩
  · exact ⟨.property, property⟩
  · exact ⟨.relation, relation⟩

/-- The identifiers in use, the last ones, and the retired uids, for each sort. -/
structure Books where
  live : IdSort → List IdPair
  last : IdSort → Option IdPair
  retired : IdSort → List UInt64

/-- The identifiers of a sort that are in use in the model. -/
def Model.idsOf (m : Model) (sort : IdSort) : List IdPair := m.entities.flatMap (·.idsOf sort)

/-- The books of a model. The last property identifiers are a matter of the entities. -/
def Model.books (m : Model) : Books where
  live := m.idsOf
  last
    | .entity => m.lastEntity
    | .property => none
    | .index => m.lastIndex
    | .relation => m.lastRelation
  retired := m.retired.uidsOf

/-- The books of a site. The last entity identifier is out of its reach. -/
def Site.books (b : Site) : Books where
  live := b.entity.idsOf
  last
    | .entity => none
    | .property => b.entity.lastProperty
    | .index => b.lastIndex
    | .relation => b.lastRelation
  retired := b.retired.uidsOf

/-- The uids on the books, in use or retired. -/
def Books.uids (a : Books) : List UInt64 :=
  [IdSort.entity, .property, .index, .relation].flatMap fun sort =>
    (a.live sort).map (·.uid) ++ a.retired sort

theorem Books.mem_uids {a : Books} {uid : UInt64} :
    uid ∈ a.uids ↔ ∃ sort, uid ∈ (a.live sort).map (·.uid) ∨ uid ∈ a.retired sort := by
  have all (sort : IdSort) : sort ∈ [IdSort.entity, .property, .index, .relation] := by
    cases sort <;> decide
  simp only [uids, List.mem_flatMap, all, true_and, List.mem_append]

section Census

variable {e : Entity}

theorem Entity.idsOf_entity : e.idsOf .entity = [e.id] := by
  simp [idsOf, partIds, IdSort.only, Property.idsOf, Relation.idsOf]

theorem Entity.idsOf_property : e.idsOf .property = e.properties.map (·.id) := by
  simp [idsOf, partIds, IdSort.only, Property.idsOf, Relation.idsOf, List.map_eq_flatMap]

theorem Entity.idsOf_index : e.idsOf .index = e.properties.filterMap (·.index) := by
  simp [idsOf, partIds, IdSort.only, Property.idsOf, Relation.idsOf,
    List.filterMap_eq_flatMap_toList]

theorem Entity.idsOf_relation : e.idsOf .relation = e.relations.map (·.id) := by
  simp [idsOf, partIds, IdSort.only, Property.idsOf, Relation.idsOf, List.map_eq_flatMap]

theorem Property.uids_perm (properties : List Property) :
    (properties.flatMap Property.uids).Perm
      ((properties.map (·.id)).map (·.uid) ++
        (properties.filterMap (·.index)).map (·.uid)) := by
  rw [List.perm_iff_count]
  intro uid
  induction properties with
  | nil => rfl
  | cons p properties ih =>
      cases there : p.index <;>
        simp only [List.flatMap_cons, uids, there, List.count_append, List.map_cons,
          List.filterMap_cons, List.count_cons, Option.map_none, Option.map_some,
          Option.toList_none, Option.toList_some, List.count_nil] at ih ⊢ <;>
        omega

theorem Entity.ownUids_perm (entities : List Entity) :
    (entities.flatMap Entity.ownUids).Perm
      ([IdSort.entity, .property, .index, .relation].flatMap fun sort =>
        (entities.flatMap (·.idsOf sort)).map (·.uid)) := by
  rw [List.perm_iff_count]
  intro uid
  induction entities with
  | nil => rfl
  | cons e entities ih =>
      have properties := (Property.uids_perm e.properties).count_eq uid
      simp only [List.flatMap_cons, List.flatMap_nil, List.map_append, List.append_nil,
        List.count_append, ownUids, idsOf_entity, idsOf_property, idsOf_index, idsOf_relation,
        List.cons_append, List.count_cons, List.map_cons, List.map_nil, List.count_nil,
        List.map_map, Function.comp_def] at ih properties ⊢
      omega

/-- The census of a model lists what is on its books. -/
theorem Model.census_perm (m : Model) : m.census.Perm m.books.uids := by
  have own := Entity.ownUids_perm m.entities
  rw [List.perm_iff_count] at own ⊢
  intro uid
  have := own uid
  simp only [census, Books.uids, books, Model.idsOf, Retired.uids, Retired.uidsOf,
    List.flatMap_cons, List.flatMap_nil, List.append_nil, List.count_append] at *
  omega

end Census

/-! ### Turnover -/

/-- The identifiers are those that come after the first last identifier, one after the other. The
second one is the last identifier then. -/
inductive IdPair.Follow : Option IdPair → List IdPair → Option IdPair → Prop
  | nil {last : Option IdPair} : Follow last [] last
  | cons {last last' : Option IdPair} {uid : UInt64} {ids : List IdPair} :
      Follow (some ⟨next last, uid⟩) ids last' → Follow last (⟨next last, uid⟩ :: ids) last'

namespace IdPair.Follow

variable {last last' last'' : Option IdPair} {ids ids' : List IdPair}

theorem single (last : Option IdPair) (uid : UInt64) :
    Follow last [⟨next last, uid⟩] (some ⟨next last, uid⟩) := .cons .nil

theorem append (h : Follow last ids last') (h' : Follow last' ids' last'') :
    Follow last (ids ++ ids') last'' := by
  induction h with
  | nil => exact h'
  | cons _ ih => exact .cons (ih h')

theorem eq_nil (h : Follow last ids none) : ids = [] := by
  generalize same : (none : Option IdPair) = unset at h
  induction h with
  | nil => rfl
  | @cons _ _ _ ids rest ih =>
      obtain rfl := ih same
      cases rest
      cases same

end IdPair.Follow

/-- From one state of the books to another, the identifiers `gone` have gone out of use and the
identifiers `new` have come into use. Where the last identifiers are counted on, the new ones follow
them. -/
structure Turnover (counted : IdSort → Prop) (gone new : IdSort → List IdPair) (a b : Books) :
    Prop where
  live : ∀ sort, (b.live sort ++ gone sort).Perm (a.live sort ++ new sort)
  retired : ∀ sort, b.retired sort = a.retired sort ++ (gone sort).map (·.uid)
  follow : ∀ sort, counted sort → IdPair.Follow (a.last sort) (new sort) (b.last sort)

namespace Turnover

variable {counted counted' : IdSort → Prop} {gone gone' new new' : IdSort → List IdPair}
variable {a b c : Books}

theorem refl (a : Books) : Turnover counted (fun _ => []) (fun _ => []) a a :=
  ⟨fun _ => .refl _, fun _ => by simp, fun _ _ => .nil⟩

theorem trans (h : Turnover counted gone new a b) (h' : Turnover counted gone' new' b c) :
    Turnover counted (fun sort => gone sort ++ gone' sort) (fun sort => new sort ++ new' sort)
      a c := by
  refine ⟨?_, ?_, fun sort on => (h.follow sort on).append (h'.follow sort on)⟩
  · intro sort
    have first := h.live sort
    have second := h'.live sort
    rw [List.perm_iff_count] at first second ⊢
    intro id
    have := first id
    have := second id
    simp only [List.count_append] at *
    omega
  · intro sort
    rw [h'.retired, h.retired, List.map_append, List.append_assoc]

theorem mono (h : Turnover counted gone new a b) (fewer : ∀ sort, counted' sort → counted sort) :
    Turnover counted' gone new a b :=
  ⟨h.live, h.retired, fun sort on => h.follow sort (fewer sort on)⟩

/-- What was on the books stays there, and what has come into use comes onto them. -/
theorem uids_perm (h : Turnover counted gone new a b) :
    b.uids.Perm (a.uids ++ [IdSort.entity, .property, .index, .relation].flatMap fun sort =>
      (new sort).map (·.uid)) := by
  rw [List.perm_iff_count]
  intro uid
  have each (sort : IdSort) := ((h.live sort).map (·.uid)).count_eq uid
  have entities := each .entity
  have properties := each .property
  have indexes := each .index
  have relations := each .relation
  simp only [Books.uids, h.retired, List.flatMap_cons, List.flatMap_nil, List.append_nil,
    List.map_append, List.count_append] at *
  omega

theorem uids_subset (h : Turnover counted gone new a b) : a.uids ⊆ b.uids :=
  fun _ listed => h.uids_perm.mem_iff.mpr (List.mem_append_left _ listed)

end Turnover

/-- Books lead to others if what goes out of use is among the `old` identifiers and what comes into
use is fresh. -/
def Books.LeadTo (a : Books) (counted : IdSort → Prop) (old : IdSort → List IdPair)
    (Fresh : UInt64 → Prop) (b : Books) : Prop :=
  ∃ gone new, Turnover counted gone new a b ∧ (∀ sort, gone sort ⊆ old sort) ∧
    ∀ sort, ∀ id ∈ new sort, Fresh id.uid

namespace Books.LeadTo

variable {counted counted' : IdSort → Prop} {old old' : IdSort → List IdPair}
variable {Fresh Fresh' : UInt64 → Prop} {a b c : Books}

theorem refl (a : Books) : a.LeadTo counted old Fresh a :=
  ⟨_, _, .refl a, fun _ => List.nil_subset _, nofun⟩

theorem trans (h : a.LeadTo counted old Fresh b) (h' : b.LeadTo counted old Fresh c) :
    a.LeadTo counted old Fresh c := by
  obtain ⟨gone, new, turnover, removed, fresh⟩ := h
  obtain ⟨gone', new', turnover', removed', fresh'⟩ := h'
  refine ⟨_, _, turnover.trans turnover', ?_, ?_⟩
  · intro sort
    exact List.append_subset.mpr ⟨removed sort, removed' sort⟩
  · intro sort id hid
    exact (List.mem_append.mp hid).elim (fresh sort id) (fresh' sort id)

theorem mono (h : a.LeadTo counted old Fresh b) (fewer : ∀ sort, counted' sort → counted sort)
    (more : ∀ sort, old sort ⊆ old' sort) (weaker : ∀ uid, Fresh uid → Fresh' uid) :
    a.LeadTo counted' old' Fresh' b := by
  obtain ⟨gone, new, turnover, removed, fresh⟩ := h
  exact ⟨gone, new, turnover.mono fewer, fun sort => List.Subset.trans (removed sort) (more sort),
    fun sort id hid => weaker _ (fresh sort id hid)⟩

/-- Where nothing is removed and nothing is added, nothing has to be accounted for. -/
theorem of_unchanged (h : Turnover counted (fun _ => []) (fun _ => []) a b) :
    a.LeadTo counted old Fresh b :=
  ⟨_, _, h, fun _ => List.nil_subset _, nofun⟩

theorem uids_subset (h : a.LeadTo counted old Fresh b) : a.uids ⊆ b.uids := by
  obtain ⟨gone, new, turnover, -⟩ := h
  exact turnover.uids_subset

theorem retired_subset (h : a.LeadTo counted old Fresh b) (sort : IdSort) :
    a.retired sort ⊆ b.retired sort := by
  obtain ⟨gone, new, turnover, -⟩ := h
  rw [turnover.retired sort]
  exact List.subset_append_left _ _

/-- What is in use then was in use before or is fresh. -/
theorem mem_live (h : a.LeadTo counted old Fresh b) {sort : IdSort} {id : IdPair}
    (hid : id ∈ b.live sort) : id ∈ a.live sort ∨ Fresh id.uid := by
  obtain ⟨gone, new, turnover, -, fresh⟩ := h
  exact (List.mem_append.mp
    ((turnover.live sort).mem_iff.mp (List.mem_append_left _ hid))).imp_right (fresh sort id)

end Books.LeadTo

/-! ### Removal -/

/-- The index of the property, if it has one, has a uid. -/
def Property.HasIndexUid (p : Property) : Prop := ∀ index, p.index = some index → index.uid ≠ 0

theorem Property.toList_indexUid? {p : Property} (assigned : p.HasIndexUid) :
    p.indexUid?.toList = p.index.toList.map (·.uid) := by
  cases there : p.index with
  | none => simp [indexUid?, there]
  | some index => simp [indexUid?, there, assigned index there]

namespace Retired

variable {r : Retired}

theorem uidsOf_addProperties {properties : List Property}
    (assigned : ∀ p ∈ properties, p.HasIndexUid) (sort : IdSort) :
    (r.addProperties properties).uidsOf sort =
      r.uidsOf sort ++ (properties.flatMap (·.idsOf sort)).map (·.uid) := by
  rw [List.map_flatMap]
  cases sort with
  | entity => simp [uidsOf, addProperties, Property.idsOf]
  | property => simp [uidsOf, addProperties, Property.idsOf, List.map_eq_flatMap]
  | index =>
      simp only [uidsOf, addProperties, Property.idsOf, List.filterMap_eq_flatMap_toList,
        List.append_cancel_left_eq]
      exact List.flatMap_congr fun p hp => Property.toList_indexUid? (assigned p hp)
  | relation => simp [uidsOf, addProperties, Property.idsOf]

theorem uidsOf_addRelations (relations : List Relation) (sort : IdSort) :
    (r.addRelations relations).uidsOf sort =
      r.uidsOf sort ++ (relations.flatMap (·.idsOf sort)).map (·.uid) := by
  rw [List.map_flatMap]
  cases sort <;> simp [uidsOf, addRelations, Relation.idsOf, List.map_eq_flatMap]

theorem uidsOf_addEntities {entities : List Entity}
    (assigned : ∀ e ∈ entities, ∀ p ∈ e.properties, p.HasIndexUid) (sort : IdSort) :
    (r.addEntities entities).uidsOf sort =
      r.uidsOf sort ++ (entities.flatMap (·.idsOf sort)).map (·.uid) := by
  have each : ∀ p ∈ entities.flatMap (·.properties), p.HasIndexUid := by
    intro p hp
    obtain ⟨e, he, hp⟩ := List.mem_flatMap.mp hp
    exact assigned e he p hp
  have properties := uidsOf_addProperties (r := r) each sort
  have none_of_all {β : Type} (xs : List β) : xs.flatMap (fun _ => ([] : List IdPair)) = [] :=
    List.flatMap_eq_nil_iff.mpr fun _ _ => rfl
  cases sort with
  | entity =>
      rw [List.map_flatMap]
      simp [uidsOf, addEntities, addRelations, addProperties, Entity.idsOf_entity,
        List.map_eq_flatMap]
  | property =>
      change (r.addProperties _).uidsOf .property = _
      rw [properties, List.flatMap_assoc]
      simp [Entity.idsOf, Entity.partIds, IdSort.only, Relation.idsOf, none_of_all]
  | index =>
      change (r.addProperties _).uidsOf .index = _
      rw [properties, List.flatMap_assoc]
      simp [Entity.idsOf, Entity.partIds, IdSort.only, Relation.idsOf, none_of_all]
  | relation =>
      change (r.addRelations _).uidsOf .relation = _
      rw [uidsOf_addRelations, List.flatMap_assoc]
      simp [Entity.idsOf, Entity.partIds, IdSort.only, Property.idsOf, none_of_all]

end Retired

theorem filter_perm_flatMap {α β : Type} (keep : α → Bool) (of : α → List β) (xs : List α) :
    ((xs.filter keep).flatMap of ++ (xs.filter (!keep ·)).flatMap of).Perm (xs.flatMap of) := by
  rw [← List.flatMap_append]
  exact (List.filter_append_perm keep xs).flatMap_right of

/-! ### Changes within an entity -/

namespace Site

variable {counted : IdSort → Prop} {gone new : IdSort → List IdPair} {b b' : Site}

/-- If only properties change, then their identifiers are all that has to be accounted for. -/
theorem turnover_of_properties
    (live : ∀ sort, (b'.entity.properties.flatMap (·.idsOf sort) ++ gone sort).Perm
      (b.entity.properties.flatMap (·.idsOf sort) ++ new sort))
    (retired : ∀ sort, b'.retired.uidsOf sort =
      b.retired.uidsOf sort ++ (gone sort).map (·.uid))
    (follow : ∀ sort, counted sort →
      IdPair.Follow (b.books.last sort) (new sort) (b'.books.last sort))
    (id : b'.entity.id = b.entity.id) (relations : b'.entity.relations = b.entity.relations) :
    Turnover counted gone new b.books b'.books := by
  refine ⟨?_, retired, follow⟩
  intro sort
  have changed := live sort
  rw [List.perm_iff_count] at changed ⊢
  intro x
  have := changed x
  simp only [books, Entity.idsOf, Entity.partIds, id, relations, List.count_append] at *
  omega

/-- If only relations change, then their identifiers are all that has to be accounted for. -/
theorem turnover_of_relations
    (live : ∀ sort, (b'.entity.relations.flatMap (·.idsOf sort) ++ gone sort).Perm
      (b.entity.relations.flatMap (·.idsOf sort) ++ new sort))
    (retired : ∀ sort, b'.retired.uidsOf sort =
      b.retired.uidsOf sort ++ (gone sort).map (·.uid))
    (follow : ∀ sort, counted sort →
      IdPair.Follow (b.books.last sort) (new sort) (b'.books.last sort))
    (id : b'.entity.id = b.entity.id) (properties : b'.entity.properties = b.entity.properties) :
    Turnover counted gone new b.books b'.books := by
  refine ⟨?_, retired, follow⟩
  intro sort
  have changed := live sort
  rw [List.perm_iff_count] at changed ⊢
  intro x
  have := changed x
  simp only [books, Entity.idsOf, Entity.partIds, id, properties, List.count_append] at *
  omega

theorem turnover_keepProperties (b : Site) (keep : Property → Bool)
    (assigned : ∀ p ∈ b.entity.properties, p.HasIndexUid) :
    Turnover counted
      (fun sort => (b.entity.properties.filter (!keep ·)).flatMap (·.idsOf sort)) (fun _ => [])
      b.books (b.keepProperties keep).books := by
  refine turnover_of_properties ?_ ?_ ?_ rfl rfl
  · intro sort
    rw [List.append_nil]
    exact filter_perm_flatMap keep (·.idsOf sort) b.entity.properties
  · exact Retired.uidsOf_addProperties fun p hp => assigned p (List.mem_of_mem_filter hp)
  · intro sort _
    cases sort <;> exact .nil

theorem turnover_keepRelations (b : Site) (keep : Relation → Bool) :
    Turnover counted
      (fun sort => (b.entity.relations.filter (!keep ·)).flatMap (·.idsOf sort)) (fun _ => [])
      b.books (b.keepRelations keep).books := by
  refine turnover_of_relations ?_ ?_ ?_ rfl rfl
  · intro sort
    rw [List.append_nil]
    exact filter_perm_flatMap keep (·.idsOf sort) b.entity.relations
  · exact Retired.uidsOf_addRelations _
  · intro sort _
    cases sort <;> exact .nil

/-- Properties may change their order. -/
theorem turnover_withProperties (b : Site) {properties : List Property}
    (perm : properties.Perm b.entity.properties) :
    Turnover counted (fun _ => []) (fun _ => []) b.books (b.withProperties properties).books := by
  refine turnover_of_properties ?_ (fun _ => by simp [withProperties]) ?_ rfl rfl
  · intro sort
    rw [List.append_nil, List.append_nil]
    exact perm.flatMap_right (·.idsOf sort)
  · intro sort _
    cases sort <;> exact .nil

/-- Relations may change their order. -/
theorem turnover_withRelations (b : Site) {relations : List Relation}
    (perm : relations.Perm b.entity.relations) :
    Turnover counted (fun _ => []) (fun _ => []) b.books (b.withRelations relations).books := by
  refine turnover_of_relations ?_ (fun _ => by simp [withRelations]) ?_ rfl rfl
  · intro sort
    rw [List.append_nil, List.append_nil]
    exact perm.flatMap_right (·.idsOf sort)
  · intro sort _
    cases sort <;> exact .nil

end Site

/-! ### Changes of a model -/

namespace Model

variable {counted : IdSort → Prop} {gone new : IdSort → List IdPair} {m : Model} {b b' : Site}
variable {i : Nat}

theorem idsOf_place (h : i < m.entities.length) (sort : IdSort) :
    ((m.place i b).idsOf sort).Perm
      (b.entity.idsOf sort ++ (m.entities.eraseIdx i).flatMap (·.idsOf sort)) := by
  simp only [idsOf, place]
  rw [List.set_eq_take_append_cons_drop, if_pos h, List.eraseIdx_eq_take_drop_succ,
    List.flatMap_append, List.flatMap_append, List.flatMap_cons, ← List.append_assoc,
    ← List.append_assoc]
  exact List.perm_append_comm.append_right _

/-- What happens at a site happens to the model. -/
theorem turnover_place (h : i < m.entities.length)
    (at_site : Turnover counted gone new b.books b'.books) :
    Turnover (fun sort => sort ≠ .property ∧ counted sort) gone new (m.place i b).books
      (m.place i b').books := by
  refine ⟨?_, at_site.retired, ?_⟩
  · intro sort
    have before := m.idsOf_place (b := b) h sort
    have after := m.idsOf_place (b := b') h sort
    have changed := at_site.live sort
    rw [List.perm_iff_count] at before after changed ⊢
    intro x
    have := before x
    have := after x
    have := changed x
    simp only [books, Site.books, List.count_append] at *
    omega
  · rintro sort ⟨other, on⟩
    have follow := at_site.follow sort on
    cases sort with
    | entity =>
        have nothing : new .entity = [] := IdPair.Follow.eq_nil follow
        rw [nothing]
        exact .nil
    | property => exact absurd rfl other
    | index => exact follow
    | relation => exact follow

theorem turnover_keepEntities (m : Model) (keep : Entity → Bool)
    (assigned : ∀ e ∈ m.entities, ∀ p ∈ e.properties, p.HasIndexUid) :
    Turnover counted (fun sort => (m.entities.filter (!keep ·)).flatMap (·.idsOf sort))
      (fun _ => []) m.books (m.keepEntities keep).books := by
  refine ⟨?_, ?_, ?_⟩
  · intro sort
    rw [List.append_nil]
    exact filter_perm_flatMap keep (·.idsOf sort) m.entities
  · exact Retired.uidsOf_addEntities fun e he => assigned e (List.mem_of_mem_filter he)
  · intro sort _
    cases sort <;> exact .nil

theorem turnover_addEntity (m : Model) (name : String) (uid : UInt64) :
    Turnover counted (fun _ => []) (IdSort.only .entity [⟨IdPair.next m.lastEntity, uid⟩]) m.books
      (m.addEntity name uid).books := by
  refine ⟨?_, ?_, ?_⟩
  · intro sort
    cases sort <;> simp [books, idsOf, addEntity, Entity.idsOf, Entity.partIds, IdSort.only]
  · intro sort
    simp [books, addEntity]
  · intro sort _
    cases sort
    · exact .single _ _
    all_goals exact .nil

/-- Entities may change their order. -/
theorem turnover_withEntities {m' : Model} (perm : m'.entities.Perm m.entities)
    (last : m'.books.last = m.books.last) (retired : m'.retired = m.retired) :
    Turnover counted (fun _ => []) (fun _ => []) m.books m'.books := by
  refine ⟨?_, ?_, ?_⟩
  · intro sort
    simpa [books, idsOf] using perm.flatMap_right (·.idsOf sort)
  · intro sort
    simp [books, retired]
  · intro sort _
    rw [last]
    exact .nil

/-- The uids stay apart if those that come into use are new to the model and differ from each
other. -/
theorem census_nodup_of_turnover {m' : Model} (h : Turnover counted gone new m.books m'.books)
    (distinct : m.census.Nodup)
    (apart : ([IdSort.entity, .property, .index, .relation].flatMap fun sort =>
      (new sort).map (·.uid)).Nodup)
    (unused : ∀ sort, ∀ id ∈ new sort, id.uid ∉ m.census) : m'.census.Nodup := by
  refine (m'.census_perm.trans h.uids_perm).nodup_iff.mpr ?_
  refine List.nodup_append.mpr ⟨m.census_perm.nodup_iff.mp distinct, apart, ?_⟩
  rintro uid known _ listed rfl
  obtain ⟨sort, -, listed⟩ := List.mem_flatMap.mp listed
  obtain ⟨id, hid, rfl⟩ := List.mem_map.mp listed
  exact unused sort id hid (m.census_perm.mem_iff.mpr known)

theorem census_nodup_of_unchanged {m' : Model}
    (h : Turnover counted gone (fun _ => []) m.books m'.books)
    (distinct : m.census.Nodup) : m'.census.Nodup :=
  census_nodup_of_turnover h distinct (by simp) nofun

/-- A uid that is fresh later on was fresh before. -/
theorem fresh_of_uids_subset {m' : Model} (kept : m.books.uids ⊆ m'.books.uids) {uid : UInt64}
    (fresh : m'.Fresh uid) : m.Fresh uid :=
  ⟨fresh.1, fun known => fresh.2
    (m'.census_perm.mem_iff.mpr (kept (m.census_perm.mem_iff.mp known)))⟩

/-- Where the books of a site lead, there the books of the model lead. -/
theorem leadTo_place {old : IdSort → List IdPair} {Fresh : UInt64 → Prop}
    (h : i < m.entities.length) (at_site : b.books.LeadTo counted old Fresh b'.books) :
    (m.place i b).books.LeadTo (fun sort => sort ≠ .property ∧ counted sort) old Fresh
      (m.place i b').books := by
  obtain ⟨gone, new, turnover, removed, fresh⟩ := at_site
  exact ⟨gone, new, turnover_place h turnover, removed, fresh⟩

end Model

end SchemaLedger
