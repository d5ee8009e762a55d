import SchemaLedger.Proofs.Model.Persistence
import SchemaLedger.Proofs.Store.Failure

/-!
# What a document forgets makes no difference

Two models are alike if a document keeps the same of both. Whatever is looked up in a model is found
in every model that is alike, and every change of the one that does not look at anything else makes
the same change of the other. Revisions that agree on stores that are alike are put together from
revisions that do.
-/

namespace SchemaLedger

open Text

/-! ### What is read -/

section Lists

variable {α β : Type} (kept : α → α) (hit : α → Bool) (xs : List α)

/-- A search that does not look at what is forgotten finds the same position. -/
theorem findIdx?_map_of_blind (blind : ∀ x, hit (kept x) = hit x) :
    (xs.map kept).findIdx? hit = xs.findIdx? hit := by
  rw [List.findIdx?_map]
  exact congrArg (xs.findIdx? ·) (funext blind)

theorem find?_map_of_blind (blind : ∀ x, hit (kept x) = hit x) :
    (xs.map kept).find? hit = (xs.find? hit).map kept := by
  rw [List.find?_map]
  exact congrArg (fun hit => (xs.find? hit).map kept) (funext blind)

theorem filter_map_of_blind (blind : ∀ x, hit (kept x) = hit x) :
    (xs.map kept).filter hit = (xs.filter hit).map kept := by
  rw [List.filter_map]
  exact congrArg (fun hit => (xs.filter hit).map kept) (funext blind)

/-- Where a document keeps the same of what was found, both searches found something or none did. -/
theorem found_of_alike {x y : Option α} (alike : x.map kept = y.map kept) :
    x = none ∧ y = none ∨ ∃ a b, x = some a ∧ y = some b ∧ kept a = kept b := by
  cases x <;> cases y <;> simp at alike ⊢
  exact alike

/-- What is told of the elements that a blind condition picks is the same for lists that are
alike. -/
theorem map_filter_eq_of_alike (told : α → β) (blind : ∀ x, hit (kept x) = hit x)
    (blind' : ∀ x, told (kept x) = told x) {xs ys : List α} (alike : xs.map kept = ys.map kept) :
    (xs.filter hit).map told = (ys.filter hit).map told := by
  have forgotten (zs : List α) :
      ((zs.map kept).filter hit).map told = (zs.filter hit).map told := by
    rw [filter_map_of_blind kept hit zs blind, List.map_map]
    exact congrArg (fun told => (zs.filter hit).map told) (funext blind')
  rw [← forgotten, alike, forgotten]

end Lists

@[simp] theorem Property.kept_kept (p : Property) : p.kept.kept = p.kept := rfl

@[simp] theorem Relation.kept_kept (r : Relation) : r.kept.kept = r.kept := rfl

@[simp] theorem Entity.kept_kept (e : Entity) : e.kept.kept = e.kept := by
  simp [Entity.kept, Function.comp_def]

@[simp] theorem Model.kept_kept (m : Model) : m.kept.kept = m.kept := by
  simp [Model.kept, Function.comp_def]

namespace Entity

variable (e : Entity)

@[simp] theorem kept_name : e.kept.name = e.name := rfl

@[simp] theorem kept_id : e.kept.id = e.id := rfl

theorem findPropertyByUid?_kept (uid : UInt64) :
    e.kept.findPropertyByUid? uid = e.findPropertyByUid? uid :=
  findIdx?_map_of_blind Property.kept (·.id.uid = uid) e.properties fun _ => rfl

theorem findRelationByUid?_kept (uid : UInt64) :
    e.kept.findRelationByUid? uid = e.findRelationByUid? uid :=
  findIdx?_map_of_blind Relation.kept (·.id.uid = uid) e.relations fun _ => rfl

theorem property?_kept (name : String) :
    e.kept.property? name = (e.property? name).map Property.kept :=
  find?_map_of_blind Property.kept (SameName ·.name name) e.properties fun _ => rfl

theorem relation?_kept (name : String) :
    e.kept.relation? name = (e.relation? name).map Relation.kept :=
  find?_map_of_blind Relation.kept (SameName ·.name name) e.relations fun _ => rfl

theorem uids_kept : e.kept.uids = e.uids := by
  simp only [uids, kept, List.flatMap_map, List.map_map]
  rfl

end Entity

namespace Model

variable (m : Model) (i j : Nat)

theorem entityAt_kept : m.kept.entities[i]? = m.entities[i]?.map Entity.kept :=
  List.getElem?_map

theorem propertyAt?_kept : m.kept.propertyAt? i j = (m.propertyAt? i j).map Property.kept := by
  rw [propertyAt?, entityAt_kept]
  cases h : m.entities[i]? <;> simp [propertyAt?, h, Entity.kept]

theorem findByUid?_kept (uid : UInt64) : m.kept.findByUid? uid = m.findByUid? uid :=
  findIdx?_map_of_blind Entity.kept (·.id.uid = uid) m.entities fun _ => rfl

theorem entity?_kept (name : String) : m.kept.entity? name = (m.entity? name).map Entity.kept :=
  find?_map_of_blind Entity.kept (SameName ·.name name) m.entities fun _ => rfl

theorem mentions_kept (uid : UInt64) : m.kept.Mentions uid ↔ m.Mentions uid := by
  have uids : m.kept.uids = m.uids := by
    simp [Model.uids, kept, lastUids, List.flatMap_map, Entity.uids_kept]
  rw [Mentions, Mentions, uids]

theorem freshUid?_kept (source : UidSource) : m.kept.freshUid? source = m.freshUid? source := by
  simp only [freshUid?, mentions_kept]

end Model

/-! ### What is changed -/

/-- What is kept after the change is a matter of what is kept before it. -/
def IsBlind {α : Type} (kept change : α → α) : Prop := ∀ x, kept (change x) = kept (change (kept x))

theorem IsBlind.eq {α : Type} {kept change : α → α} (h : IsBlind kept change) {x y : α}
    (alike : kept x = kept y) : kept (change x) = kept (change y) := by
  rw [h x, h y, alike]

theorem IsBlind.comp {α : Type} {kept f g : α → α} (hf : IsBlind kept f) (hg : IsBlind kept g)
    (again : ∀ x, kept (kept x) = kept x) : IsBlind kept fun x => f (g x) := by
  intro x
  have inner : kept (g x) = kept (g (kept x)) := hg.eq (again x).symm
  exact hf.eq inner

section Lists

variable {α : Type} {kept : α → α} (again : ∀ x, kept (kept x) = kept x)

include again

theorem isBlind_modify {change : α → α} (h : IsBlind kept change) (i : Nat) :
    IsBlind (List.map kept) (·.modify i change) := by
  intro xs
  apply List.ext_getElem?
  intro j
  simp only [List.getElem?_map, List.getElem?_modify]
  cases there : xs[j]? with
  | none => simp
  | some x =>
      by_cases here : i = j
      · simpa [here] using h x
      · simp [here, again]

theorem isBlind_filter {keep : α → Bool} (blind : ∀ x, keep (kept x) = keep x) :
    IsBlind (List.map kept) (·.filter keep) := by
  intro xs
  simp [filter_map_of_blind kept keep xs blind, again]

end Lists

namespace Retired

variable (r : Retired)

theorem addProperties_kept (properties : List Property) :
    r.addProperties (properties.map Property.kept) = r.addProperties properties := by
  simp only [addProperties, List.filterMap_map, List.map_map]
  rfl

theorem addRelations_kept (relations : List Relation) :
    r.addRelations (relations.map Relation.kept) = r.addRelations relations := by
  simp [addRelations, Function.comp_def, Relation.kept]

theorem addEntities_kept (entities : List Entity) :
    r.addEntities (entities.map Entity.kept) = r.addEntities entities := by
  have properties : (entities.map Entity.kept).flatMap (·.properties) =
      (entities.flatMap (·.properties)).map Property.kept := by
    simp [List.flatMap_map, List.map_flatMap, Entity.kept]
  have relations : (entities.map Entity.kept).flatMap (·.relations) =
      (entities.flatMap (·.relations)).map Relation.kept := by
    simp [List.flatMap_map, List.map_flatMap, Entity.kept]
  simp [addEntities, properties, relations, addProperties_kept, addRelations_kept,
    Function.comp_def]

end Retired

namespace Entity

theorem isBlind_addProperty (name : String) (kind : PropertyKind) (uid : UInt64) :
    IsBlind kept (·.addProperty name kind uid) := by
  intro e
  simp [addProperty, kept, Function.comp_def]

/-- A blind change of the properties is a blind change of the entity. -/
theorem isBlind_properties {f : List Property → List Property}
    (h : IsBlind (List.map Property.kept) f) :
    IsBlind kept fun e => { e with properties := f e.properties } := by
  intro e
  simp only [kept]
  rw [h e.properties]
  simp [Function.comp_def]

theorem isBlind_relations {f : List Relation → List Relation}
    (h : IsBlind (List.map Relation.kept) f) :
    IsBlind kept fun e => { e with relations := f e.relations } := by
  intro e
  simp only [kept]
  rw [h e.relations]
  simp [Function.comp_def]

end Entity

namespace Model

theorem isBlind_modifyEntity {f : Entity → Entity} (h : IsBlind Entity.kept f) (i : Nat) :
    IsBlind kept (·.modifyEntity i f) := by
  intro m
  simp only [kept, modifyEntity]
  rw [isBlind_modify Entity.kept_kept h i m.entities]

theorem isBlind_modifyProperty {f : Property → Property} (h : IsBlind Property.kept f)
    (i j : Nat) : IsBlind kept (·.modifyProperty i j f) :=
  isBlind_modifyEntity (Entity.isBlind_properties (isBlind_modify Property.kept_kept h j)) i

theorem isBlind_modifyRelation {f : Relation → Relation} (h : IsBlind Relation.kept f)
    (i j : Nat) : IsBlind kept (·.modifyRelation i j f) :=
  isBlind_modifyEntity (Entity.isBlind_relations (isBlind_modify Relation.kept_kept h j)) i

theorem isBlind_addEntity (name : String) (uid : UInt64) :
    IsBlind kept (·.addEntity name uid) := by
  intro m
  simp [addEntity, kept, Function.comp_def]

theorem isBlind_addRelation (i : Nat) (name : String) (uid : UInt64) :
    IsBlind kept (·.addRelation i name uid) := by
  intro m
  have changed : IsBlind kept (·.modifyEntity i fun e =>
      { e with relations := e.relations ++ [{ id := ⟨IdPair.next m.lastRelation, uid⟩, name }] }) :=
    isBlind_modifyEntity (fun e => by simp [Entity.kept, Function.comp_def]) i
  exact congrArg (fun n : Model => { n with
    lastRelation := some ⟨IdPair.next m.lastRelation, uid⟩ }) (changed m)

theorem isBlind_keepEntities {keep : Entity → Bool} (blind : ∀ e, keep e.kept = keep e) :
    IsBlind kept (·.keepEntities keep) := by
  intro m
  have gone := filter_map_of_blind Entity.kept (!keep ·) m.entities fun e => by rw [blind]
  simp only [keepEntities, kept, filter_map_of_blind _ keep _ blind, gone,
    Retired.addEntities_kept, List.map_map]
  simp [Function.comp_def]

theorem isBlind_keepProperties {keep : Property → Bool} (blind : ∀ p, keep p.kept = keep p)
    (i : Nat) : IsBlind kept (·.keepProperties i keep) := by
  intro m
  simp only [keepProperties, entityAt_kept]
  cases there : m.entities[i]? with
  | none => simp
  | some e =>
      have changed : IsBlind kept (·.modifyEntity i fun e =>
          { e with properties := e.properties.filter keep }) :=
        isBlind_modifyEntity
          (Entity.isBlind_properties (isBlind_filter Property.kept_kept blind)) i
      have gone := filter_map_of_blind Property.kept (!keep ·) e.properties fun p => by rw [blind]
      have retired : e.kept.properties.filter (!keep ·) =
          (e.properties.filter (!keep ·)).map Property.kept := gone
      simp only [Option.map_some, retired, Retired.addProperties_kept]
      exact congrArg (fun n : Model => { n with
        retired := m.retired.addProperties (e.properties.filter (!keep ·)) }) (changed m)

theorem isBlind_keepRelations {keep : Relation → Bool} (blind : ∀ r, keep r.kept = keep r)
    (i : Nat) : IsBlind kept (·.keepRelations i keep) := by
  intro m
  simp only [keepRelations, entityAt_kept]
  cases there : m.entities[i]? with
  | none => simp
  | some e =>
      have changed : IsBlind kept (·.modifyEntity i fun e =>
          { e with relations := e.relations.filter keep }) :=
        isBlind_modifyEntity
          (Entity.isBlind_relations (isBlind_filter Relation.kept_kept blind)) i
      have gone := filter_map_of_blind Relation.kept (!keep ·) e.relations fun r => by rw [blind]
      have retired : e.kept.relations.filter (!keep ·) =
          (e.relations.filter (!keep ·)).map Relation.kept := gone
      simp only [Option.map_some, retired, Retired.addRelations_kept]
      exact congrArg (fun n : Model => { n with
        retired := m.retired.addRelations (e.relations.filter (!keep ·)) }) (changed m)

theorem isBlind_dropIndex (i j : Nat) : IsBlind kept (·.dropIndex i j) := by
  intro m
  have changed : IsBlind kept (·.modifyProperty i j fun p => { p with index := none }) :=
    isBlind_modifyProperty (fun _ => rfl) i j
  have uid : (m.kept.propertyAt? i j).bind Property.indexUid? =
      (m.propertyAt? i j).bind Property.indexUid? := by
    rw [propertyAt?_kept]
    cases m.propertyAt? i j <;> rfl
  simp only [dropIndex, uid]
  exact congrArg (fun n : Model => { n with
    retired := m.retired.addIndex ((m.propertyAt? i j).bind Property.indexUid?) }) (changed m)

end Model

/-! ### Revisions that agree -/

/-- The stores offer the same uids, and a document keeps the same of their models. -/
structure Store.Alike (s t : Store) : Prop where
  uids : s.uids = t.uids
  model : s.model.kept = t.model.kept

namespace Revision

variable {α β : Type} {V : α → α → Prop} {W : β → β → Prop}

/-- Both fail with the same error, or both succeed with related values and leave stores that are
alike. -/
inductive Matches (V : α → α → Prop) :
    EStateM.Result ModelError Store α → EStateM.Result ModelError Store α → Prop
  | ok {a b : α} {s t : Store} : V a b → s.Alike t → Matches V (.ok a s) (.ok b t)
  | error {e : ModelError} {s t : Store} : Matches V (.error e s) (.error e t)

/-- On stores that are alike, the revisions have matching results. -/
def Agree (V : α → α → Prop) (x y : Revision α) : Prop :=
  ∀ s t, s.Alike t → Matches V (x s) (y t)

namespace Agree

variable {x y : Revision α} {f g : α → Revision β} {e : ModelError}

theorem pure {a b : α} (h : V a b) : Agree V (pure a) (pure b) := fun _ _ alike => .ok h alike

theorem throw (e : ModelError) : Agree V (throw e) (throw e) := fun _ _ _ => .error

theorem bind (h : Agree V x y) (h' : ∀ a b, V a b → Agree W (f a) (g b)) :
    Agree W (x >>= f) (y >>= g) := by
  intro s t alike
  have first := h s t alike
  simp only [Bind.bind, EStateM.bind]
  generalize x s = r at first ⊢
  generalize y t = r' at first ⊢
  cases first with
  | ok related alike => exact h' _ _ related _ _ alike
  | error => exact .error

/-- Where the values are the same, what follows only has to agree with itself. -/
theorem bind_eq (h : Agree Eq x y) (h' : ∀ a, Agree W (f a) (g a)) :
    Agree W (x >>= f) (y >>= g) :=
  h.bind fun a _ same => same ▸ h' a

theorem within {place : Place} (h : Agree V x y) : Agree V (within place x) (within place y) := by
  intro s t alike
  have inner := h s t alike
  simp only [Revision.within]
  generalize x s = r at inner ⊢
  generalize y t = r' at inner ⊢
  cases inner with
  | ok related alike => exact .ok related alike
  | error => exact .error

theorem ofExcept (x : Except ModelError α) : Agree Eq (ofExcept x) (ofExcept x) := by
  cases x with
  | ok a => exact pure rfl
  | error e => exact throw e

theorem update_of {f g : Model → Model}
    (same : ∀ m m' : Model, m.kept = m'.kept → (f m).kept = (g m').kept) :
    Agree Eq (update f) (update g) :=
  fun _ _ alike => .ok rfl ⟨alike.uids, same _ _ alike.model⟩

theorem update {f : Model → Model} (blind : IsBlind Model.kept f) :
    Agree Eq (Revision.update f) (Revision.update f) :=
  update_of fun _ _ => blind.eq

theorem get : Agree Store.Alike get get := fun _ _ alike => .ok alike alike

theorem model : Agree (fun m m' => m.kept = m'.kept) model model :=
  get.bind fun _ _ alike => pure alike.model

theorem freshUid : Agree Eq freshUid freshUid := by
  intro s t alike
  have same : s.model.freshUid? s.uids = t.model.freshUid? t.uids := by
    rw [← Model.freshUid?_kept, alike.model, Model.freshUid?_kept, alike.uids]
  unfold Revision.freshUid
  rw [same]
  split
  · exact .ok rfl ⟨rfl, alike.model⟩
  · exact .error

theorem entityAt (i : Nat) :
    Agree (fun e e' : Entity => e.kept = e'.kept) (entityAt i) (entityAt i) := by
  refine model.bind fun m m' alike => ?_
  have same := (m.entityAt_kept i).symm.trans (alike ▸ m'.entityAt_kept i)
  rcases found_of_alike _ same with ⟨here, there⟩ | ⟨a, b, here, there, same⟩ <;>
    simp only [here, there]
  · exact throw _
  · exact pure same

theorem propertyAt (i j : Nat) :
    Agree (fun p p' : Property => p.kept = p'.kept) (propertyAt i j) (propertyAt i j) := by
  refine (entityAt i).bind fun e e' alike => ?_
  have same : e.properties[j]?.map Property.kept = e'.properties[j]?.map Property.kept := by
    rw [← List.getElem?_map, ← List.getElem?_map]
    exact congrArg (·.properties[j]?) alike
  rcases found_of_alike _ same with ⟨here, there⟩ | ⟨a, b, here, there, same⟩ <;>
    simp only [here, there]
  · exact throw _
  · exact pure same

theorem relationAt (i j : Nat) :
    Agree (fun r r' : Relation => r.kept = r'.kept) (relationAt i j) (relationAt i j) := by
  refine (entityAt i).bind fun e e' alike => ?_
  have same : e.relations[j]?.map Relation.kept = e'.relations[j]?.map Relation.kept := by
    rw [← List.getElem?_map, ← List.getElem?_map]
    exact congrArg (·.relations[j]?) alike
  rcases found_of_alike _ same with ⟨here, there⟩ | ⟨a, b, here, there, same⟩ <;>
    simp only [here, there]
  · exact throw _
  · exact pure same

theorem createEntity (name : String) : Agree Eq (createEntity name) (createEntity name) :=
  freshUid.bind_eq fun uid => model.bind fun m m' alike =>
    (update (Model.isBlind_addEntity name uid)).bind_eq fun _ => pure <| by
      simpa [Model.kept] using congrArg (·.entities.length) alike

theorem createProperty (i : Nat) (name : String) (kind : PropertyKind) :
    Agree Eq (createProperty i name kind) (createProperty i name kind) :=
  (entityAt i).bind fun e e' alike => freshUid.bind_eq fun uid =>
    (update (Model.isBlind_modifyEntity (Entity.isBlind_addProperty name kind uid) i)).bind_eq
      fun _ => pure <| by
        simpa [Entity.kept] using congrArg (·.properties.length) alike

theorem createRelation (i : Nat) (name : String) :
    Agree Eq (createRelation i name) (createRelation i name) :=
  (entityAt i).bind fun e e' alike => freshUid.bind_eq fun uid =>
    (update (Model.isBlind_addRelation i name uid)).bind_eq fun _ => pure <| by
      simpa [Entity.kept] using congrArg (·.relations.length) alike

theorem createIndex : Agree Eq createIndex createIndex := by
  refine freshUid.bind_eq fun uid => model.bind fun m m' alike => ?_
  have last : m.lastIndex = m'.lastIndex := congrArg (·.lastIndex) alike
  simp only [Model.addIndex, last]
  refine (update_of fun _ _ _ => ?_).bind_eq fun _ => pure rfl
  exact congrArg (fun n : Model => { n with
    lastIndex := some ⟨IdPair.next m'.lastIndex, uid⟩ }) alike

end Agree

end Revision

end SchemaLedger
