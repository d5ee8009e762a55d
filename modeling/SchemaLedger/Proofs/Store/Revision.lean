import SchemaLedger.Model.Store

/-!
# Revisions that succeed

A revision either gives a value with the store after it or fails. Its success is taken apart here
into the successes of its parts, so that no later proof has to look at the state monad itself.

The statements are equivalences: from left to right they tell what a successful revision has done,
from right to left they run a revision whose parts are known to succeed.
-/

namespace SchemaLedger

namespace UidSource

/-- A search only gives candidates that it was asked to accept. -/
theorem accepts_of_search {accepts : UInt64 → Bool} {attempts : Nat} {source : UidSource}
    {uid : UInt64} (h : (source.search accepts attempts).1 = some uid) : accepts uid = true := by
  induction attempts generalizing source with
  | zero => simp [search] at h
  | succ attempts ih =>
      unfold search at h
      split at h
      · next accepted =>
          obtain rfl := Option.some.inj h
          exact accepted
      · exact ih h

/-- The source that counts from one. -/
def counting : UidSource := { candidate := fun k => k.toUInt64 + 1 }

end UidSource

namespace Revision

variable {α β : Type} {s t : Store}

@[simp] theorem pure_eq_ok {a b : α} : (pure a : Revision α) s = .ok b t ↔ a = b ∧ s = t := by
  simp [pure, EStateM.pure]

/-- Two revisions in a row succeed if the first does and the second does where the first ends. -/
theorem bind_eq_ok {x : Revision α} {f : α → Revision β} {b : β} :
    (x >>= f) s = .ok b t ↔ ∃ a r, x s = .ok a r ∧ f a r = .ok b t := by
  simp only [bind, EStateM.bind]
  cases h : x s with
  | ok a r => simp [and_assoc]
  | error e r => simp

@[simp] theorem throw_ne_ok {e : ModelError} {a : α} :
    (throw e : Revision α) s = .ok a t ↔ False := by
  show EStateM.Result.error e s = .ok a t ↔ False
  simp

@[simp] theorem update_eq_ok {f : Model → Model} {u : Unit} :
    update f s = .ok u t ↔ { s with model := f s.model } = t := by
  show EStateM.Result.ok () { s with model := f s.model } = .ok u t ↔ _
  simp

@[simp] theorem get_eq_ok {a : Store} : (get : Revision Store) s = .ok a t ↔ s = a ∧ s = t := by
  show EStateM.Result.ok s s = .ok a t ↔ _
  simp

@[simp] theorem model_eq_ok {m : Model} : model s = .ok m t ↔ s.model = m ∧ s = t := by
  simp only [model, bind_eq_ok]
  simp [and_assoc]

@[simp] theorem ofExcept_eq_ok {x : Except ModelError α} {a : α} :
    ofExcept x s = .ok a t ↔ x = .ok a ∧ s = t := by
  cases x <;> simp [ofExcept]

@[simp] theorem within_eq_ok {place : Place} {x : Revision α} {a : α} :
    within place x s = .ok a t ↔ x s = .ok a t := by
  unfold within
  cases x s <;> simp

@[simp] theorem entityAt_eq_ok {i : Nat} {e : Entity} :
    entityAt i s = .ok e t ↔ s.model.entities[i]? = some e ∧ s = t := by
  unfold entityAt
  cases h : s.model.entities[i]? <;> simp [bind_eq_ok, and_assoc, h]

@[simp] theorem propertyAt_eq_ok {i j : Nat} {p : Property} :
    propertyAt i j s = .ok p t ↔ s.model.propertyAt? i j = some p ∧ s = t := by
  unfold propertyAt Model.propertyAt?
  cases h : s.model.entities[i]? with
  | none => simp [bind_eq_ok, h]
  | some e => cases hp : e.properties[j]? <;> simp [bind_eq_ok, and_assoc, h, hp]

@[simp] theorem relationAt_eq_ok {i j : Nat} {r : Relation} :
    relationAt i j s = .ok r t ↔ s.model.relationAt? i j = some r ∧ s = t := by
  unfold relationAt Model.relationAt?
  cases h : s.model.entities[i]? with
  | none => simp [bind_eq_ok, h]
  | some e => cases hr : e.relations[j]? <;> simp [bind_eq_ok, and_assoc, h, hr]

/-- Drawing a uid searches the source and leaves the model as it is. -/
theorem freshUid_eq_ok {uid : UInt64} : freshUid s = .ok uid t ↔
    s.model.freshUid? s.uids = (some uid, t.uids) ∧ s.model = t.model := by
  obtain ⟨m, uids⟩ := t
  rw [freshUid]
  rcases s.model.freshUid? s.uids with ⟨_ | found, left⟩ <;> simp [and_comm, and_left_comm]

/-- A uid that is drawn is assigned and new to the model, which stays as it is. -/
theorem of_freshUid {uid : UInt64} (h : freshUid s = .ok uid t) :
    uid ≠ 0 ∧ ¬ s.model.Mentions uid ∧ t.model = s.model := by
  obtain ⟨found, same⟩ := freshUid_eq_ok.mp h
  have accepted := UidSource.accepts_of_search (congrArg Prod.fst found)
  simp only [decide_eq_true_eq] at accepted
  exact ⟨accepted.1, accepted.2, same.symm⟩

/-- A created entity stands at the end of the model. -/
theorem of_createEntity {name : String} {i : Nat} (h : createEntity name s = .ok i t) :
    ∃ uid, uid ≠ 0 ∧ ¬ s.model.Mentions uid ∧ i = s.model.entities.length ∧
      t.model = s.model.addEntity name uid := by
  simp only [createEntity, bind_eq_ok, model_eq_ok, update_eq_ok, pure_eq_ok] at h
  obtain ⟨uid, r, drawn, m, r', ⟨rfl, rfl⟩, u, r'', rfl, rfl, rfl⟩ := h
  obtain ⟨assigned, unknown, same⟩ := of_freshUid drawn
  exact ⟨uid, assigned, unknown, by rw [same], by rw [← same]⟩

/-- A created property stands at the end of its entity. -/
theorem of_createProperty {i j : Nat} {name : String} {kind : PropertyKind}
    (h : createProperty i name kind s = .ok j t) :
    ∃ e uid, s.model.entities[i]? = some e ∧ uid ≠ 0 ∧ ¬ s.model.Mentions uid ∧
      j = e.properties.length ∧
      t.model = s.model.modifyEntity i (·.addProperty name kind uid) := by
  simp only [createProperty, bind_eq_ok, entityAt_eq_ok, update_eq_ok, pure_eq_ok] at h
  obtain ⟨e, r, ⟨found, rfl⟩, uid, r', drawn, u, r'', rfl, rfl, rfl⟩ := h
  obtain ⟨assigned, unknown, same⟩ := of_freshUid drawn
  exact ⟨e, uid, found, assigned, unknown, rfl, by rw [← same]⟩

/-- A created relation stands at the end of its entity. -/
theorem of_createRelation {i j : Nat} {name : String}
    (h : createRelation i name s = .ok j t) :
    ∃ e uid, s.model.entities[i]? = some e ∧ uid ≠ 0 ∧ ¬ s.model.Mentions uid ∧
      j = e.relations.length ∧ t.model = s.model.addRelation i name uid := by
  simp only [createRelation, bind_eq_ok, entityAt_eq_ok, update_eq_ok, pure_eq_ok] at h
  obtain ⟨e, r, ⟨found, rfl⟩, uid, r', drawn, u, r'', rfl, rfl, rfl⟩ := h
  obtain ⟨assigned, unknown, same⟩ := of_freshUid drawn
  exact ⟨e, uid, found, assigned, unknown, rfl, by rw [← same]⟩

/-- A created index is the last one of the model and belongs to nothing yet. -/
theorem of_createIndex {index : IdPair} (h : createIndex s = .ok index t) :
    ∃ uid, uid ≠ 0 ∧ ¬ s.model.Mentions uid ∧ index = ⟨IdPair.next s.model.lastIndex, uid⟩ ∧
      t.model = { s.model with lastIndex := some index } := by
  simp only [createIndex, bind_eq_ok, model_eq_ok] at h
  obtain ⟨uid, r, drawn, m, r', ⟨rfl, rfl⟩, h⟩ := h
  simp only [Model.addIndex, update_eq_ok, pure_eq_ok] at h
  obtain ⟨u, r'', rfl, rfl, rfl⟩ := h
  obtain ⟨assigned, unknown, same⟩ := of_freshUid drawn
  exact ⟨uid, assigned, unknown, by rw [same], by rw [← same]⟩

/-- A removed entity leaves the model, and all that belongs to it is retired. -/
theorem of_removeEntity {i : Nat} {x : Entity} (h : removeEntity i s = .ok x t) :
    ∃ e, s.model.entities[i]? = some e ∧ t.model = { s.model with
      entities := s.model.entities.eraseIdx i, retired := s.model.retired.addEntities [e] } := by
  simp only [removeEntity, bind_eq_ok, entityAt_eq_ok, update_eq_ok, pure_eq_ok] at h
  obtain ⟨e, r, ⟨found, rfl⟩, u, r', rfl, rfl, rfl⟩ := h
  exact ⟨e, found, rfl⟩

/-- A removed property leaves its entity, and it is retired with its index. -/
theorem of_removeProperty {i j : Nat} {x : Property} (h : removeProperty i j s = .ok x t) :
    ∃ p, s.model.propertyAt? i j = some p ∧ t.model =
      { s.model.modifyEntity i (fun e => { e with properties := e.properties.eraseIdx j }) with
        retired := s.model.retired.addProperties [p] } := by
  simp only [removeProperty, bind_eq_ok, propertyAt_eq_ok, update_eq_ok, pure_eq_ok] at h
  obtain ⟨p, r, ⟨found, rfl⟩, u, r', rfl, rfl, rfl⟩ := h
  exact ⟨p, found, rfl⟩

/-- Only an index that is there can be removed. -/
theorem of_removeIndex {i j : Nat} {u : Unit} (h : removeIndex i j s = .ok u t) :
    ∃ p index, s.model.propertyAt? i j = some p ∧ p.index = some index ∧
      t.model = s.model.dropIndex i j := by
  simp only [removeIndex, bind_eq_ok, propertyAt_eq_ok] at h
  obtain ⟨p, r, ⟨found, rfl⟩, h⟩ := h
  cases there : p.index with
  | none => simp [there] at h
  | some index =>
      simp only [there, update_eq_ok] at h
      exact ⟨p, index, found, there, by rw [← h]⟩

/-- A removed relation leaves its entity, and it is retired. -/
theorem of_removeRelation {i j : Nat} {x : Relation} (h : removeRelation i j s = .ok x t) :
    ∃ r, s.model.relationAt? i j = some r ∧ t.model =
      { s.model.modifyEntity i (fun e => { e with relations := e.relations.eraseIdx j }) with
        retired := s.model.retired.addRelations [r] } := by
  simp only [removeRelation, bind_eq_ok, relationAt_eq_ok, update_eq_ok, pure_eq_ok] at h
  obtain ⟨r, _, ⟨found, rfl⟩, u, _, rfl, rfl, rfl⟩ := h
  exact ⟨r, found, rfl⟩

end Revision

end SchemaLedger
