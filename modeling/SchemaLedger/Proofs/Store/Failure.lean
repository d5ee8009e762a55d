import SchemaLedger.Proofs.Store.Revision

/-!
# Revisions that fail

The failure of a revision is taken apart like its success: two revisions in a row fail if the first
one does, or if it succeeds and the second one fails where the first one ends. Elements that are
there are found, so what is created can only fail for want of a uid.
-/

namespace SchemaLedger.Revision

variable {α β : Type} {s t : Store} {e : ModelError}

@[simp] theorem pure_ne_error {a : α} : (pure a : Revision α) s = .error e t ↔ False := by
  show EStateM.Result.ok a s = .error e t ↔ False
  simp

/-- Two revisions in a row fail if the first does, or the second does where the first ends. -/
theorem bind_eq_error {x : Revision α} {f : α → Revision β} :
    (x >>= f) s = .error e t ↔
      x s = .error e t ∨ ∃ a r, x s = .ok a r ∧ f a r = .error e t := by
  simp only [bind, EStateM.bind]
  cases h : x s with
  | ok a r => simp [and_assoc]
  | error e r => simp

@[simp] theorem throw_eq_error {e' : ModelError} :
    (throw e' : Revision α) s = .error e t ↔ e' = e ∧ s = t := by
  show EStateM.Result.error e' s = .error e t ↔ _
  simp

@[simp] theorem update_ne_error {f : Model → Model} : update f s = .error e t ↔ False := by
  show EStateM.Result.ok () { s with model := f s.model } = .error e t ↔ False
  simp

@[simp] theorem get_ne_error : (get : Revision Store) s = .error e t ↔ False := by
  show EStateM.Result.ok s s = .error e t ↔ False
  simp

@[simp] theorem model_ne_error : model s = .error e t ↔ False := by
  simp only [model, bind_eq_error]
  simp

@[simp] theorem ofExcept_eq_error {x : Except ModelError α} :
    ofExcept x s = .error e t ↔ x = .error e ∧ s = t := by
  cases x <;> simp [ofExcept]

@[simp] theorem within_eq_error {place : Place} {x : Revision α} :
    within place x s = .error e t ↔ ∃ e', x s = .error e' t ∧ .within place e' = e := by
  unfold within
  cases x s <;> simp [and_assoc, and_comm]

/-- The entity is there, so it is found. -/
theorem entityAt_ne_error {i : Nat} {x : Entity} (there : s.model.entities[i]? = some x) :
    entityAt i s ≠ .error e t := by
  have found : entityAt i s = .ok x s := entityAt_eq_ok.mpr ⟨there, rfl⟩
  simp [found]

theorem propertyAt_ne_error {i j : Nat} {p : Property} (there : s.model.propertyAt? i j = some p) :
    propertyAt i j s ≠ .error e t := by
  have found : propertyAt i j s = .ok p s := propertyAt_eq_ok.mpr ⟨there, rfl⟩
  simp [found]

theorem relationAt_ne_error {i j : Nat} {r : Relation} (there : s.model.relationAt? i j = some r) :
    relationAt i j s ≠ .error e t := by
  have found : relationAt i j s = .ok r s := relationAt_eq_ok.mpr ⟨there, rfl⟩
  simp [found]

/-- Drawing a uid only fails if the attempts are used up. -/
theorem freshUid_eq_error : freshUid s = .error e t ↔
    .uidsExhausted uidAttempts = e ∧ s.model.freshUid? s.uids = (none, t.uids) ∧
      s.model = t.model := by
  obtain ⟨m, uids⟩ := t
  rw [freshUid]
  rcases s.model.freshUid? s.uids with ⟨_ | found, left⟩ <;> simp [and_comm]

theorem eq_of_freshUid_eq_error (h : freshUid s = .error e t) : e = .uidsExhausted uidAttempts :=
  (freshUid_eq_error.mp h).1.symm

theorem eq_of_createEntity_eq_error {name : String} (h : createEntity name s = .error e t) :
    e = .uidsExhausted uidAttempts := by
  simp only [createEntity, bind_eq_error, model_ne_error, update_ne_error, pure_ne_error,
    and_false, exists_false, or_false] at h
  exact eq_of_freshUid_eq_error h

theorem eq_of_createProperty_eq_error {i : Nat} {name : String} {kind : PropertyKind} {x : Entity}
    (there : s.model.entities[i]? = some x) (h : createProperty i name kind s = .error e t) :
    e = .uidsExhausted uidAttempts := by
  simp only [createProperty, bind_eq_error, update_ne_error, pure_ne_error, and_false,
    exists_false, or_false] at h
  rcases h with missing | ⟨_, _, -, failed⟩
  · exact absurd missing (entityAt_ne_error there)
  · exact eq_of_freshUid_eq_error failed

theorem eq_of_createRelation_eq_error {i : Nat} {name : String} {x : Entity}
    (there : s.model.entities[i]? = some x) (h : createRelation i name s = .error e t) :
    e = .uidsExhausted uidAttempts := by
  simp only [createRelation, bind_eq_error, update_ne_error, pure_ne_error, and_false,
    exists_false, or_false] at h
  rcases h with missing | ⟨_, _, -, failed⟩
  · exact absurd missing (entityAt_ne_error there)
  · exact eq_of_freshUid_eq_error failed

theorem eq_of_createIndex_eq_error (h : createIndex s = .error e t) :
    e = .uidsExhausted uidAttempts := by
  simp only [createIndex, Model.addIndex, bind_eq_error, model_ne_error, update_ne_error,
    pure_ne_error, and_false, exists_false, or_false] at h
  exact eq_of_freshUid_eq_error h

/-! ### What a failure leaves behind -/

theorem model_of_freshUid_eq_error (h : freshUid s = .error e t) : t.model = s.model :=
  (freshUid_eq_error.mp h).2.2.symm

theorem eq_of_entityAt_eq_error {i : Nat} (h : entityAt i s = .error e t) : t = s := by
  simp only [entityAt, bind_eq_error, model_ne_error, model_eq_ok, false_or] at h
  obtain ⟨_, _, ⟨rfl, rfl⟩, missing⟩ := h
  cases there : s.model.entities[i]? with
  | some x => simp [there] at missing
  | none =>
      rw [there] at missing
      exact (throw_eq_error.mp missing).2.symm

theorem eq_of_propertyAt_eq_error {i j : Nat} (h : propertyAt i j s = .error e t) : t = s := by
  simp only [propertyAt, bind_eq_error, entityAt_eq_ok] at h
  rcases h with missing | ⟨x, _, ⟨-, rfl⟩, missing⟩
  · exact eq_of_entityAt_eq_error missing
  · cases there : x.properties[j]? with
    | some _ => simp [there] at missing
    | none =>
        rw [there] at missing
        exact (throw_eq_error.mp missing).2.symm

theorem eq_of_relationAt_eq_error {i j : Nat} (h : relationAt i j s = .error e t) : t = s := by
  simp only [relationAt, bind_eq_error, entityAt_eq_ok] at h
  rcases h with missing | ⟨x, _, ⟨-, rfl⟩, missing⟩
  · exact eq_of_entityAt_eq_error missing
  · cases there : x.relations[j]? with
    | some _ => simp [there] at missing
    | none =>
        rw [there] at missing
        exact (throw_eq_error.mp missing).2.symm

theorem model_of_createEntity_eq_error {name : String} (h : createEntity name s = .error e t) :
    t.model = s.model := by
  simp only [createEntity, bind_eq_error, model_ne_error, update_ne_error, pure_ne_error,
    and_false, exists_false, or_false] at h
  exact model_of_freshUid_eq_error h

theorem model_of_createProperty_eq_error {i : Nat} {name : String} {kind : PropertyKind}
    (h : createProperty i name kind s = .error e t) : t.model = s.model := by
  simp only [createProperty, bind_eq_error, entityAt_eq_ok, update_ne_error, pure_ne_error,
    and_false, exists_false, or_false] at h
  rcases h with missing | ⟨_, _, ⟨-, rfl⟩, failed⟩
  · rw [eq_of_entityAt_eq_error missing]
  · exact model_of_freshUid_eq_error failed

theorem model_of_createRelation_eq_error {i : Nat} {name : String}
    (h : createRelation i name s = .error e t) : t.model = s.model := by
  simp only [createRelation, bind_eq_error, entityAt_eq_ok, update_ne_error, pure_ne_error,
    and_false, exists_false, or_false] at h
  rcases h with missing | ⟨_, _, ⟨-, rfl⟩, failed⟩
  · rw [eq_of_entityAt_eq_error missing]
  · exact model_of_freshUid_eq_error failed

theorem model_of_createIndex_eq_error (h : createIndex s = .error e t) : t.model = s.model := by
  simp only [createIndex, Model.addIndex, bind_eq_error, model_ne_error, update_ne_error,
    pure_ne_error, and_false, exists_false, or_false] at h
  exact model_of_freshUid_eq_error h

theorem eq_of_removeEntity_eq_error {i : Nat} (h : removeEntity i s = .error e t) : t = s := by
  simp only [removeEntity, bind_eq_error, update_ne_error, pure_ne_error, and_false, exists_false,
    or_false] at h
  exact eq_of_entityAt_eq_error h

theorem eq_of_removeProperty_eq_error {i j : Nat} (h : removeProperty i j s = .error e t) :
    t = s := by
  simp only [removeProperty, bind_eq_error, update_ne_error, pure_ne_error, and_false,
    exists_false, or_false] at h
  exact eq_of_propertyAt_eq_error h

theorem eq_of_removeIndex_eq_error {i j : Nat} (h : removeIndex i j s = .error e t) : t = s := by
  simp only [removeIndex, bind_eq_error, propertyAt_eq_ok] at h
  rcases h with missing | ⟨p, _, ⟨-, rfl⟩, failed⟩
  · exact eq_of_propertyAt_eq_error missing
  · cases there : p.index with
    | some _ => simp [there] at failed
    | none =>
        rw [there] at failed
        exact (throw_eq_error.mp failed).2.symm

theorem eq_of_removeRelation_eq_error {i j : Nat} (h : removeRelation i j s = .error e t) :
    t = s := by
  simp only [removeRelation, bind_eq_error, update_ne_error, pure_ne_error, and_false,
    exists_false, or_false] at h
  exact eq_of_relationAt_eq_error h

end SchemaLedger.Revision
