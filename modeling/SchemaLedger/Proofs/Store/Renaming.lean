import Mathlib.Logic.Equiv.Basic
import SchemaLedger.Proofs.Store.Forgetting
import SchemaLedger.Proofs.Store.Growth

/-!
# Renaming uids

A permutation of the uids renames all uids of a model at once. Local ids, names and the order of the
elements stay. What is looked up by a renamed uid is found where it was before, and a change that is
made with a uid becomes the same change of the renamed model with the renamed uid.
-/

namespace SchemaLedger

open Text

variable (σ : Equiv.Perm UInt64)

/-! ### What is renamed -/

/-- The identifier with its uid renamed. -/
def IdPair.rename (σ : Equiv.Perm UInt64) (p : IdPair) : IdPair := { p with uid := σ p.uid }

/-- The property with its uid and that of its index renamed. -/
def Property.rename (σ : Equiv.Perm UInt64) (p : Property) : Property :=
  { p with id := p.id.rename σ, index := p.index.map (IdPair.rename σ) }

/-- The relation with its uid and that of its target renamed. -/
def Relation.rename (σ : Equiv.Perm UInt64) (r : Relation) : Relation :=
  { r with id := r.id.rename σ, targetId := r.targetId.map (IdPair.rename σ) }

/-- The entity with all its uids renamed. -/
def Entity.rename (σ : Equiv.Perm UInt64) (e : Entity) : Entity :=
  { e with
    id := e.id.rename σ
    lastProperty := e.lastProperty.map (IdPair.rename σ)
    properties := e.properties.map (Property.rename σ)
    relations := e.relations.map (Relation.rename σ) }

/-- The retired uids, renamed. -/
def Retired.rename (σ : Equiv.Perm UInt64) (r : Retired) : Retired where
  entities := r.entities.map σ
  indexes := r.indexes.map σ
  properties := r.properties.map σ
  relations := r.relations.map σ

/-- The model with all its uids renamed. -/
def Model.rename (σ : Equiv.Perm UInt64) (m : Model) : Model :=
  { m with
    entities := m.entities.map (Entity.rename σ)
    lastEntity := m.lastEntity.map (IdPair.rename σ)
    lastIndex := m.lastIndex.map (IdPair.rename σ)
    lastRelation := m.lastRelation.map (IdPair.rename σ)
    retired := m.retired.rename σ }

section Fields

@[simp] theorem IdPair.id_rename (p : IdPair) : (p.rename σ).id = p.id := rfl

@[simp] theorem IdPair.uid_rename (p : IdPair) : (p.rename σ).uid = σ p.uid := rfl

@[simp] theorem Property.id_rename (p : Property) : (p.rename σ).id = p.id.rename σ := rfl

@[simp] theorem Property.name_rename (p : Property) : (p.rename σ).name = p.name := rfl

@[simp] theorem Property.index_rename (p : Property) :
    (p.rename σ).index = p.index.map (IdPair.rename σ) := rfl

@[simp] theorem Relation.id_rename (r : Relation) : (r.rename σ).id = r.id.rename σ := rfl

@[simp] theorem Relation.name_rename (r : Relation) : (r.rename σ).name = r.name := rfl

@[simp] theorem Entity.id_rename (e : Entity) : (e.rename σ).id = e.id.rename σ := rfl

@[simp] theorem Entity.name_rename (e : Entity) : (e.rename σ).name = e.name := rfl

@[simp] theorem Entity.lastProperty_rename (e : Entity) :
    (e.rename σ).lastProperty = e.lastProperty.map (IdPair.rename σ) := rfl

@[simp] theorem Entity.properties_rename (e : Entity) :
    (e.rename σ).properties = e.properties.map (Property.rename σ) := rfl

@[simp] theorem Entity.relations_rename (e : Entity) :
    (e.rename σ).relations = e.relations.map (Relation.rename σ) := rfl

@[simp] theorem Model.entities_rename (m : Model) :
    (m.rename σ).entities = m.entities.map (Entity.rename σ) := rfl

@[simp] theorem Model.retired_rename (m : Model) : (m.rename σ).retired = m.retired.rename σ := rfl

end Fields

/-- Different identifiers stay different. -/
theorem IdPair.rename_injective : Function.Injective (IdPair.rename σ) := by
  rintro ⟨i, u⟩ ⟨j, v⟩ same
  simpa [IdPair.rename] using same

/-- The next local id does not depend on the last uid. -/
@[simp] theorem IdPair.next_rename (last : Option IdPair) :
    IdPair.next (last.map (IdPair.rename σ)) = IdPair.next last := by
  cases last <;> rfl

/-! ### What is read -/

section Lists

variable {α : Type} (uid : α → UInt64) (rename : α → α) (renames : ∀ x, uid (rename x) = σ (uid x))

include renames

/-- A renamed uid is found where it was before. -/
theorem findIdx?_map_of_renames (u : UInt64) (xs : List α) :
    (xs.map rename).findIdx? (uid · = σ u) = xs.findIdx? (uid · = u) := by
  simp [List.findIdx?_map, Function.comp_def, renames]

theorem find?_map_of_renames (u : UInt64) (xs : List α) :
    (xs.map rename).find? (uid · = σ u) = (xs.find? (uid · = u)).map rename := by
  have same : (fun x => decide (uid (rename x) = σ u)) = fun x => decide (uid x = u) := by
    simp [renames]
  rw [List.find?_map]
  exact congrArg (fun accepts => (xs.find? accepts).map rename) same

end Lists

/-- A list whose uids stay as they are contains a renamed uid exactly if it contained the uid. -/
theorem mem_iff_of_fixed {uids : List UInt64} (fixed : ∀ u ∈ uids, σ u = u) (uid : UInt64) :
    σ uid ∈ uids ↔ uid ∈ uids := by
  constructor
  · intro listed
    rwa [← σ.injective (fixed _ listed)]
  · intro listed
    rwa [fixed _ listed]

namespace Entity

variable (e : Entity)

theorem findPropertyByUid?_rename (uid : UInt64) :
    (e.rename σ).findPropertyByUid? (σ uid) = e.findPropertyByUid? uid :=
  findIdx?_map_of_renames σ (fun p : Property => p.id.uid) _ (fun _ => rfl) uid e.properties

theorem findRelationByUid?_rename (uid : UInt64) :
    (e.rename σ).findRelationByUid? (σ uid) = e.findRelationByUid? uid :=
  findIdx?_map_of_renames σ (fun r : Relation => r.id.uid) _ (fun _ => rfl) uid e.relations

theorem property?_rename (name : String) :
    (e.rename σ).property? name = (e.property? name).map (Property.rename σ) :=
  find?_map_of_blind (Property.rename σ) (SameName ·.name name) e.properties fun _ => rfl

theorem relation?_rename (name : String) :
    (e.rename σ).relation? name = (e.relation? name).map (Relation.rename σ) :=
  find?_map_of_blind (Relation.rename σ) (SameName ·.name name) e.relations fun _ => rfl

end Entity

namespace Model

variable (m : Model) (i j : Nat)

theorem findByUid?_rename (uid : UInt64) : (m.rename σ).findByUid? (σ uid) = m.findByUid? uid :=
  findIdx?_map_of_renames σ (fun e : Entity => e.id.uid) _ (fun _ => rfl) uid m.entities

theorem entityAt_rename : (m.rename σ).entities[i]? = m.entities[i]?.map (Entity.rename σ) :=
  List.getElem?_map

theorem propertyAt?_rename :
    (m.rename σ).propertyAt? i j = (m.propertyAt? i j).map (Property.rename σ) := by
  rw [propertyAt?, entityAt_rename]
  cases h : m.entities[i]? <;> simp [propertyAt?, h]

end Model

/-! ### Which uids are mentioned -/

theorem Property.uids_rename (p : Property) : (p.rename σ).uids = p.uids.map σ := by
  cases h : p.index <;> simp [uids, h]

theorem Entity.uids_rename (e : Entity) : (e.rename σ).uids = e.uids.map σ := by
  cases h : e.lastProperty <;>
    simp [uids, h, List.flatMap_map, List.map_flatMap, Property.uids_rename, Function.comp_def]

theorem Model.uids_rename (m : Model) : (m.rename σ).uids = m.uids.map σ := by
  have lastUids : (m.rename σ).lastUids = m.lastUids.map σ := by
    have renamed : (m.rename σ).lastUids =
        ([m.lastEntity, m.lastIndex, m.lastRelation].map (Option.map (IdPair.rename σ))).filterMap
          fun last => last.map (·.uid) := rfl
    rw [renamed, List.filterMap_map, Model.lastUids, List.map_filterMap]
    simp [Function.comp_def]
  have retired : (m.retired.rename σ).uids = m.retired.uids.map σ := by
    simp [Retired.uids, Retired.rename]
  rw [Model.uids, lastUids, retired_rename, retired]
  simp [Model.uids, List.flatMap_map, List.map_flatMap, Entity.uids_rename]

/-- The renamed model mentions the renamed uids and no others. -/
theorem Model.mentions_rename (m : Model) (uid : UInt64) :
    (m.rename σ).Mentions (σ uid) ↔ m.Mentions uid := by
  simp [Mentions, uids_rename]

/-! ### What stays as it is -/

theorem map_eq_self {α : Type} {f : α → α} {xs : List α} (fixed : ∀ x ∈ xs, f x = x) :
    xs.map f = xs :=
  (List.map_congr_left fixed).trans (List.map_id' xs)

variable {σ} in
theorem IdPair.map_rename_eq_self {id : Option IdPair}
    (fixed : ∀ uid ∈ (id.map (·.uid)).toList, σ uid = uid) : id.map (rename σ) = id := by
  cases id with
  | none => rfl
  | some p => simpa [rename, IdPair.ext_iff] using fixed

variable {σ} in
/-- Retired uids do not change if they stay as they are. -/
theorem Retired.rename_eq_self (r : Retired) (fixed : ∀ uid ∈ r.uids, σ uid = uid) :
    r.rename σ = r := by
  have gone (uids : List UInt64) (listed : uids ⊆ r.uids) : uids.map σ = uids :=
    map_eq_self fun uid hu => fixed uid (listed hu)
  simp only [Retired.uids] at gone
  rw [Retired.rename, gone, gone, gone, gone]
  all_goals
    intro uid hu
    simp [hu]

namespace Model

variable {σ} {m : Model}

/-- An entity does not change if its uids stay as they are, and so do those of the targets of its
relations. -/
theorem entity_rename_eq_self {e : Entity} (fixed : ∀ uid ∈ e.uids, σ uid = uid)
    (targets : ∀ r ∈ e.relations, ∀ uid ∈ (r.targetId.map (·.uid)).toList, σ uid = uid) :
    e.rename σ = e := by
  simp only [Entity.mem_uids] at fixed
  have id : e.id.rename σ = e.id := IdPair.ext rfl (fixed _ (.inl rfl))
  have last : e.lastProperty.map (IdPair.rename σ) = e.lastProperty :=
    IdPair.map_rename_eq_self fun uid hu => fixed uid (.inr (.inl (Option.mem_toList.mp hu)))
  have properties : e.properties.map (Property.rename σ) = e.properties := by
    refine map_eq_self fun p hp => ?_
    have own (uid : UInt64) (hu : uid ∈ p.uids) : σ uid = uid :=
      fixed uid (.inr (.inr (.inl ⟨p, hp, hu⟩)))
    have id : p.id.rename σ = p.id := IdPair.ext rfl (own _ List.mem_cons_self)
    have index : p.index.map (IdPair.rename σ) = p.index :=
      IdPair.map_rename_eq_self fun uid hu => own uid (List.mem_cons_of_mem _ hu)
    rw [Property.rename, id, index]
  have relations : e.relations.map (Relation.rename σ) = e.relations := by
    refine map_eq_self fun r hr => ?_
    have id : r.id.rename σ = r.id :=
      IdPair.ext rfl (fixed _ (.inr (.inr (.inr ⟨r, hr, rfl⟩))))
    rw [Relation.rename, id, IdPair.map_rename_eq_self (targets r hr)]
  rw [Entity.rename, id, last, properties, relations]

/-- A model does not change if the uids that it mentions stay as they are, and the targets of its
relations are among them. -/
theorem rename_eq_self (fixed : ∀ uid, m.Mentions uid → σ uid = uid)
    (targets : ∀ e ∈ m.entities, ∀ r ∈ e.relations, ∀ id, r.targetId = some id →
      m.Mentions id.uid) : m.rename σ = m := by
  have entities : m.entities.map (Entity.rename σ) = m.entities :=
    map_eq_self fun e he => entity_rename_eq_self
      (fun uid hu => fixed uid (mentions_of_entity he hu)) fun r hr uid hu => by
        obtain ⟨id, there, rfl⟩ := Option.map_eq_some_iff.mp (Option.mem_toList.mp hu)
        exact fixed _ (targets e he r hr id there)
  have last (id : Option IdPair) (listed : id ∈ [m.lastEntity, m.lastIndex, m.lastRelation]) :
      id.map (IdPair.rename σ) = id :=
    IdPair.map_rename_eq_self fun uid hu => fixed uid (mentions_of_last
      (List.mem_filterMap.mpr ⟨id, listed, Option.mem_toList.mp hu⟩))
  have retired := m.retired.rename_eq_self fun uid hu => fixed uid (mentions_of_retired hu)
  rw [rename, entities, last m.lastEntity (by simp), last m.lastIndex (by simp),
    last m.lastRelation (by simp), retired]

@[simp] theorem rename_refl (m : Model) : m.rename (Equiv.refl UInt64) = m := by
  have entities : m.entities.map (Entity.rename (Equiv.refl UInt64)) = m.entities :=
    map_eq_self fun _ _ => entity_rename_eq_self (fun _ _ => rfl) fun _ _ _ _ => rfl
  have last (id : Option IdPair) : id.map (IdPair.rename (Equiv.refl UInt64)) = id :=
    IdPair.map_rename_eq_self fun _ _ => rfl
  rw [rename, entities, last, last, last]
  simp [Retired.rename]

end Model

/-! ### Changes -/

variable {σ}

theorem modify_map_of_comm {α : Type} {f g rename : α → α} (comm : ∀ x, rename (f x) = g (rename x))
    (xs : List α) (i : Nat) : (xs.modify i f).map rename = (xs.map rename).modify i g := by
  apply List.ext_getElem?
  intro j
  simp only [List.getElem?_map, List.getElem?_modify]
  cases xs[j]? with
  | none => simp
  | some x => by_cases here : i = j <;> simp [here, comm]

theorem filter_map_of_comm {α : Type} {keep keep' : α → Bool} {rename : α → α}
    (same : ∀ x, keep' (rename x) = keep x) (xs : List α) :
    (xs.map rename).filter keep' = (xs.filter keep).map rename := by
  rw [List.filter_map]
  exact congrArg (fun keep => (xs.filter keep).map rename) (funext same)

theorem apply_eq_zero_iff (zero : σ 0 = 0) {uid : UInt64} : σ uid = 0 ↔ uid = 0 := by
  conv_lhs => rw [← zero]
  exact σ.apply_eq_iff_eq

theorem Property.indexUid?_rename (zero : σ 0 = 0) (p : Property) :
    (p.rename σ).indexUid? = p.indexUid?.map σ := by
  cases there : p.index with
  | none => simp [indexUid?, there]
  | some index =>
      by_cases unset : index.uid = 0 <;>
        simp [indexUid?, there, unset, zero, apply_eq_zero_iff zero, Option.filter]

namespace Retired

variable (r : Retired)

theorem addIndex_rename (index : Option UInt64) :
    (r.addIndex index).rename σ = (r.rename σ).addIndex (index.map σ) := by
  cases index <;> simp [addIndex, rename]

theorem addProperties_rename (zero : σ 0 = 0) (properties : List Property) :
    (r.addProperties properties).rename σ =
      (r.rename σ).addProperties (properties.map (Property.rename σ)) := by
  simp [addProperties, rename, List.map_filterMap, List.filterMap_map, Function.comp_def,
    Property.indexUid?_rename zero]

theorem addRelations_rename (relations : List Relation) :
    (r.addRelations relations).rename σ =
      (r.rename σ).addRelations (relations.map (Relation.rename σ)) := by
  simp [addRelations, rename, Function.comp_def]

theorem addEntities_rename (zero : σ 0 = 0) (entities : List Entity) :
    (r.addEntities entities).rename σ =
      (r.rename σ).addEntities (entities.map (Entity.rename σ)) := by
  have properties : (entities.map (Entity.rename σ)).flatMap (·.properties) =
      (entities.flatMap (·.properties)).map (Property.rename σ) := by
    simp [List.flatMap_map, List.map_flatMap]
  have relations : (entities.map (Entity.rename σ)).flatMap (·.relations) =
      (entities.flatMap (·.relations)).map (Relation.rename σ) := by
    simp [List.flatMap_map, List.map_flatMap]
  simp only [addEntities, properties, relations, ← addProperties_rename r zero,
    ← addRelations_rename]
  simp [rename, Function.comp_def]

end Retired

theorem Entity.addProperty_rename (e : Entity) (name : String) (kind : PropertyKind)
    (uid : UInt64) :
    (e.addProperty name kind uid).rename σ = (e.rename σ).addProperty name kind (σ uid) := by
  simp [addProperty, rename, Property.rename, IdPair.rename]

namespace Model

variable (m : Model) (i j : Nat)

theorem modifyEntity_rename {f g : Entity → Entity}
    (comm : ∀ e, (f e).rename σ = g (e.rename σ)) :
    (m.modifyEntity i f).rename σ = (m.rename σ).modifyEntity i g := by
  simp only [modifyEntity, rename]
  rw [modify_map_of_comm comm]

theorem modifyProperty_rename {f g : Property → Property}
    (comm : ∀ p, (f p).rename σ = g (p.rename σ)) :
    (m.modifyProperty i j f).rename σ = (m.rename σ).modifyProperty i j g :=
  m.modifyEntity_rename i fun e => by
    simp only [Entity.rename]
    rw [modify_map_of_comm comm]

theorem modifyRelation_rename {f g : Relation → Relation}
    (comm : ∀ r, (f r).rename σ = g (r.rename σ)) :
    (m.modifyRelation i j f).rename σ = (m.rename σ).modifyRelation i j g :=
  m.modifyEntity_rename i fun e => by
    simp only [Entity.rename]
    rw [modify_map_of_comm comm]

theorem addEntity_rename (name : String) (uid : UInt64) :
    (m.addEntity name uid).rename σ = (m.rename σ).addEntity name (σ uid) := by
  simp [addEntity, rename, Entity.rename, IdPair.rename]

theorem addRelation_rename (name : String) (uid : UInt64) :
    (m.addRelation i name uid).rename σ = (m.rename σ).addRelation i name (σ uid) := by
  have last : IdPair.next (m.rename σ).lastRelation = IdPair.next m.lastRelation := by
    simp [rename]
  have changed : (m.modifyEntity i fun e => { e with
      relations := e.relations ++ [{ id := ⟨IdPair.next m.lastRelation, uid⟩, name }] }).rename σ =
      (m.rename σ).modifyEntity i fun e => { e with
        relations := e.relations ++ [{ id := ⟨IdPair.next m.lastRelation, σ uid⟩, name }] } :=
    m.modifyEntity_rename i fun e => by simp [Entity.rename, Relation.rename, IdPair.rename]
  rw [addRelation, addRelation, last, ← changed]
  rfl

theorem keepEntities_rename (zero : σ 0 = 0) {keep keep' : Entity → Bool}
    (same : ∀ e, keep' (e.rename σ) = keep e) :
    (m.keepEntities keep).rename σ = (m.rename σ).keepEntities keep' := by
  have gone : (m.entities.map (Entity.rename σ)).filter (!keep' ·) =
      (m.entities.filter (!keep ·)).map (Entity.rename σ) :=
    filter_map_of_comm (fun e => by rw [same]) _
  simp only [keepEntities, entities_rename, gone, filter_map_of_comm same, retired_rename,
    ← Retired.addEntities_rename _ zero]
  rfl

theorem keepProperties_rename (zero : σ 0 = 0) {keep keep' : Property → Bool}
    (same : ∀ p, keep' (p.rename σ) = keep p) :
    (m.keepProperties i keep).rename σ = (m.rename σ).keepProperties i keep' := by
  simp only [keepProperties, entityAt_rename]
  cases there : m.entities[i]? with
  | none => rfl
  | some e =>
      have changed : (m.modifyEntity i fun e =>
          { e with properties := e.properties.filter keep }).rename σ =
          (m.rename σ).modifyEntity i fun e =>
            { e with properties := e.properties.filter keep' } :=
        m.modifyEntity_rename i fun e => by
          simp only [Entity.rename]
          rw [filter_map_of_comm same]
      have gone : (e.rename σ).properties.filter (!keep' ·) =
          (e.properties.filter (!keep ·)).map (Property.rename σ) :=
        filter_map_of_comm (fun p => by rw [same]) _
      simp only [Option.map_some, gone, retired_rename, ← Retired.addProperties_rename _ zero,
        ← changed]
      rfl

theorem keepRelations_rename {keep keep' : Relation → Bool}
    (same : ∀ r, keep' (r.rename σ) = keep r) :
    (m.keepRelations i keep).rename σ = (m.rename σ).keepRelations i keep' := by
  simp only [keepRelations, entityAt_rename]
  cases there : m.entities[i]? with
  | none => rfl
  | some e =>
      have changed : (m.modifyEntity i fun e =>
          { e with relations := e.relations.filter keep }).rename σ =
          (m.rename σ).modifyEntity i fun e =>
            { e with relations := e.relations.filter keep' } :=
        m.modifyEntity_rename i fun e => by
          simp only [Entity.rename]
          rw [filter_map_of_comm same]
      have gone : (e.rename σ).relations.filter (!keep' ·) =
          (e.relations.filter (!keep ·)).map (Relation.rename σ) :=
        filter_map_of_comm (fun r => by rw [same]) _
      simp only [Option.map_some, gone, retired_rename, ← Retired.addRelations_rename, ← changed]
      rfl

theorem dropIndex_rename (zero : σ 0 = 0) :
    (m.dropIndex i j).rename σ = (m.rename σ).dropIndex i j := by
  have changed : (m.modifyProperty i j fun p => { p with index := none }).rename σ =
      (m.rename σ).modifyProperty i j fun p => { p with index := none } :=
    m.modifyProperty_rename i j fun p => rfl
  have uid : ((m.rename σ).propertyAt? i j).bind Property.indexUid? =
      ((m.propertyAt? i j).bind Property.indexUid?).map σ := by
    rw [propertyAt?_rename]
    cases m.propertyAt? i j with
    | none => rfl
    | some p => exact p.indexUid?_rename zero
  rw [dropIndex, dropIndex, uid, retired_rename, ← Retired.addIndex_rename, ← changed]
  rfl

end Model

end SchemaLedger
