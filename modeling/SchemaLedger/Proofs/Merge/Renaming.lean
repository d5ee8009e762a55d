import SchemaLedger.Proofs.Merge.Retirement
import SchemaLedger.Proofs.Store.Copies

/-!
# Merging into renamed models

What is matched by a uid is a stored element that keeps its uid, and what is matched by its name has
the same name in the renamed model. So the matches are the same there. What merging does to a model
in a single place commutes with renaming.
-/

namespace SchemaLedger.Merge

open Text

/-! ### Results that agree up to their errors -/

/-- Both results are the same value, or both are errors that are related. -/
inductive AgreesUpTo {α : Type} (R : ModelError → ModelError → Prop) :
    Except ModelError α → Except ModelError α → Prop
  | ok (a : α) : AgreesUpTo R (.ok a) (.ok a)
  | error {e e' : ModelError} : R e e' → AgreesUpTo R (.error e) (.error e')

namespace AgreesUpTo

variable {α β μ : Type} {R : ModelError → ModelError → Prop}

theorem bind {x y : Except ModelError α} {f g : α → Except ModelError β} (h : AgreesUpTo R x y)
    (h' : ∀ a, AgreesUpTo R (f a) (g a)) : AgreesUpTo R (x >>= f) (y >>= g) := by
  cases h with
  | ok a => exact h' a
  | error related => exact .error related

theorem eq_ok {a : α} {y : Except ModelError α} (h : AgreesUpTo R (.ok a) y) : y = .ok a := by
  cases h
  rfl

theorem exists_error {e : ModelError} {y : Except ModelError α} (h : AgreesUpTo R (.error e) y) :
    ∃ e', y = .error e' ∧ R e e' := by
  cases h with
  | error related => exact ⟨_, rfl, related⟩

variable {sort : ElementSort} {name : α → String} {storedUid : μ → UInt64}
variable {find find' : α → Except ModelError (Option μ)} {xs : List α}

theorem claimEach (ambiguous : ∀ other x uid, R (.ambiguousRename sort other x uid)
      (.ambiguousRename sort other x uid))
    (each : ∀ x ∈ xs, AgreesUpTo R (find x) (find' x)) (claims : Claims) :
    AgreesUpTo R (claimEach sort name storedUid find claims xs)
      (claimEach sort name storedUid find' claims xs) := by
  induction xs generalizing claims with
  | nil => exact .ok _
  | cons x xs ih =>
      have rest : ∀ x ∈ xs, AgreesUpTo R (find x) (find' x) :=
        fun x hx => each x (List.mem_cons_of_mem _ hx)
      refine (each x List.mem_cons_self).bind fun found => ?_
      cases found with
      | none => exact (ih rest claims).bind fun _ => .ok _
      | some m =>
          dsimp only
          cases claims.lookup (storedUid m) with
          | some other => exact .error (ambiguous _ _ _)
          | none => exact (ih rest _).bind fun _ => .ok _

/-- Where each element finds the same in both rounds, the matches are the same. -/
theorem matchEach {byName byName' : α → Except ModelError (Option μ)}
    (ambiguous : ∀ other x uid, R (.ambiguousRename sort other x uid)
      (.ambiguousRename sort other x uid))
    (first : ∀ x ∈ xs, AgreesUpTo R (find x) (find' x))
    (second : ∀ x ∈ xs, AgreesUpTo R (byName x) (byName' x)) :
    AgreesUpTo R (matchEach sort name storedUid find byName xs)
      (matchEach sort name storedUid find' byName' xs) :=
  (claimEach ambiguous first []).bind fun (_, claims) =>
    (claimEach ambiguous second claims).bind fun _ => .ok _

end AgreesUpTo

/-! ### Matching -/

section Matching

variable {S m : Model} {σ : Equiv.Perm UInt64} {planned owner : Entity} {plan : List Entity}

/-- The second error is the first one with its suggestion renamed. -/
abbrev IsRenamed (σ : Equiv.Perm UInt64) (e e' : ModelError) : Prop := e' = e.renameSuggestion σ

theorem matchEntities_agrees (σ : Equiv.Perm UInt64) (m : Model) (plan : List Entity) :
    AgreesUpTo (IsRenamed σ) (matchEntities m plan) (matchEntities m plan) := by
  refine .matchEach (fun _ _ _ => rfl) (fun e _ => ?_) fun e _ => ?_
  · unfold entityByUid
    split
    · exact .ok _
    · split
      · exact .ok _
      · exact .error rfl
  · unfold entityByName
    split
    · exact .ok _
    · dsimp only
      split
      · exact .error rfl
      · exact .ok _

/-- The uid of what is found by its name is the same in the copy. -/
theorem property_uid_rename (stored : ∀ q ∈ owner.properties, σ q.id.uid = q.id.uid)
    (name : String) : ((owner.rename σ).property? name).map (·.id.uid) =
      (owner.property? name).map (·.id.uid) := by
  rw [Entity.property?_rename]
  cases named : owner.property? name with
  | none => rfl
  | some q => exact congrArg some (stored q (property?_eq_some named).1)

theorem relation_uid_rename (stored : ∀ q ∈ owner.relations, σ q.id.uid = q.id.uid)
    (name : String) : ((owner.rename σ).relation? name).map (·.id.uid) =
      (owner.relation? name).map (·.id.uid) := by
  rw [Entity.relation?_rename]
  cases named : owner.relation? name with
  | none => rfl
  | some q => exact congrArg some (stored q (relation?_eq_some named).1)

/-- The matches of properties are the same in the copy, and so are the errors if the answers to
questions are related. -/
theorem matchProperties_agrees (R : ModelError → ModelError → Prop) (uids uids' : UidSource)
    (plain : ∀ e : ModelError, e.renameSuggestion σ = e → R e e)
    (asks : ∀ p found, R (propertyQuestion ⟨m, uids⟩ planned p found)
      (propertyQuestion ⟨m.rename σ, uids'⟩ planned p found))
    (given : ∀ p ∈ planned.properties, σ p.id.uid = p.id.uid)
    (stored : ∀ q ∈ owner.properties, σ q.id.uid = q.id.uid) :
    AgreesUpTo R (matchProperties ⟨m, uids⟩ planned owner)
      (matchProperties ⟨m.rename σ, uids'⟩ planned (owner.rename σ)) := by
  refine .matchEach (fun _ _ _ => plain _ rfl) (fun p hp => ?_) fun p _ => ?_
  · have listed : (owner.rename σ).findPropertyByUid? p.id.uid =
        owner.findPropertyByUid? p.id.uid := by
      rw [← owner.findPropertyByUid?_rename σ, given p hp]
    have mentioned : (m.rename σ).Mentions p.id.uid ↔ m.Mentions p.id.uid := by
      rw [← m.mentions_rename σ, given p hp]
    have named := property_uid_rename stored p.name
    unfold propertyByUid
    simp only [listed, mentioned, Entity.name_rename]
    split
    · exact .ok _
    · split
      · exact .ok _
      · cases here : owner.property? p.name with
        | none =>
            rw [here, Option.map_none, Option.map_eq_none_iff] at named
            rw [named]
            exact .error (plain _ rfl)
        | some q =>
            rw [here, Option.map_some] at named
            obtain ⟨q', there, same⟩ := Option.map_eq_some_iff.mp named
            rw [there]
            dsimp only
            rw [same]
            split
            · exact .error (plain _ rfl)
            · exact .ok _
  · unfold propertyByName
    simp only [property_uid_rename stored]
    split
    · exact .ok _
    · split
      · exact .error (asks _ _)
      · exact .ok _

theorem matchRelations_agrees (stored : ∀ q ∈ owner.relations, σ q.id.uid = q.id.uid) :
    AgreesUpTo (IsRenamed σ) (matchRelations planned owner)
      (matchRelations planned (owner.rename σ)) := by
  have uids : (owner.rename σ).relations.map (·.id.uid) = owner.relations.map (·.id.uid) := by
    rw [Entity.relations_rename, List.map_map]
    exact List.map_congr_left stored
  refine .matchEach (fun _ _ _ => rfl) (fun r _ => ?_) fun r _ => ?_
  · have present (e : Entity) : (e.findRelationByUid? r.id.uid).isSome ↔
        r.id.uid ∈ e.relations.map (·.id.uid) := findIdx?_isSome_iff _ _ _
    have listed : ((owner.rename σ).findRelationByUid? r.id.uid).isSome ↔
        (owner.findRelationByUid? r.id.uid).isSome := by
      rw [present, present, uids]
    unfold relationByUid
    simp only [listed, Entity.name_rename]
    split
    · exact .ok _
    · split
      · exact .ok _
      · exact .error rfl
  · unfold relationByName
    simp only [relation_uid_rename stored]
    split
    · exact .ok _
    · split
      · exact .error rfl
      · exact .ok _

end Matching

/-! ### Changes -/

/-- Elements are brought into the renamed order as they were into the order before. -/
theorem reorder_rename {α : Type} {σ : Equiv.Perm UInt64} (uid : α → UInt64) {rename : α → α}
    (renames : ∀ x, uid (rename x) = σ (uid x)) (order : List UInt64) (xs : List α) :
    (reorder uid order xs).map rename = reorder uid (order.map σ) (xs.map rename) := by
  induction order generalizing xs with
  | nil => rfl
  | cons u order ih =>
      have first : (xs.map rename).filter (uid · = σ u) = (xs.filter (uid · = u)).map rename := by
        simp [List.filter_map, Function.comp_def, renames]
      have rest : (xs.map rename).filter (uid · ≠ σ u) = (xs.filter (uid · ≠ u)).map rename := by
        simp [List.filter_map, Function.comp_def, renames]
      rw [List.map_cons, reorder, reorder, first, rest, ← ih, List.map_append]

/-- What is told of the elements that are not kept is the same once they are renamed. -/
theorem map_filter_rename {α β : Type} {σ : Equiv.Perm UInt64} (uid : α → UInt64) (rename : α → α)
    (told : α → β) (renames : ∀ x, uid (rename x) = σ (uid x))
    (same : ∀ x, told (rename x) = told x) {kept : List UInt64} (fixed : ∀ u ∈ kept, σ u = u)
    (xs : List α) :
    ((xs.map rename).filter (uid · ∉ kept)).map told = (xs.filter (uid · ∉ kept)).map told := by
  have filtered : (xs.map rename).filter (uid · ∉ kept) = (xs.filter (uid · ∉ kept)).map rename :=
    filter_map_of_comm (fun x => by rw [renames, decide_eq_decide, mem_iff_of_fixed σ fixed]) xs
  rw [filtered, List.map_map]
  exact List.map_congr_left fun x _ => same x

section Changes

variable {m : Model} {i j : Nat} {p : Property}

theorem resetProperty_rename (σ : Equiv.Perm UInt64) (i j : Nat) (new : UInt64) (m : Model) :
    (resetProperty i j new m).rename σ = resetProperty i j (σ new) (m.rename σ) := by
  simp only [resetProperty, Model.propertyAt?_rename]
  cases there : m.propertyAt? i j with
  | none => rfl
  | some p =>
      have given : (m.modifyProperty i j ({ · with id := ⟨p.id.id, new⟩ })).rename σ =
          (m.rename σ).modifyProperty i j ({ · with id := ⟨p.id.id, σ new⟩ }) :=
        m.modifyProperty_rename i j fun q => rfl
      have last (n : Model) : (n.modifyEntity i fun e =>
          if e.lastProperty = some p.id then { e with lastProperty := some ⟨p.id.id, new⟩ }
          else e).rename σ = (n.rename σ).modifyEntity i fun e =>
            if e.lastProperty = some (p.id.rename σ)
            then { e with lastProperty := some ⟨p.id.id, σ new⟩ } else e := by
        refine n.modifyEntity_rename i fun e => ?_
        have same : (e.rename σ).lastProperty = some (p.id.rename σ) ↔ e.lastProperty = some p.id :=
          (Option.map_injective (IdPair.rename_injective σ)).eq_iff' rfl
        by_cases is_last : e.lastProperty = some p.id
        · rw [if_pos is_last, if_pos (same.mpr is_last)]
          rfl
        · rw [if_neg is_last, if_neg fun h => is_last (same.mp h)]
      have changed := last (m.modifyProperty i j ({ · with id := ⟨p.id.id, new⟩ }))
      rw [given] at changed
      have retired : Retired.rename σ
          { m.retired with properties := m.retired.properties ++ [p.id.uid] } =
          { m.retired.rename σ with
            properties := (m.retired.rename σ).properties ++ [σ p.id.uid] } := by
        simp [Retired.rename]
      exact congr (congrArg (fun (n : Model) r => { n with retired := r }) changed) retired

/-- A reset retires the uid that it replaces. -/
theorem retains_resetProperty (new : UInt64) : m.Retains (resetProperty i j new m) := by
  cases there : m.propertyAt? i j with
  | none =>
      rw [resetProperty, there]
      exact .refl m
  | some q =>
      obtain ⟨e, at_i, hq⟩ := Option.bind_eq_some_iff.mp there
      have lt := (List.getElem?_eq_some_iff.mp at_i).1
      have found : PropertyFound m i q (some (.reset q.id.uid new)) (m.siteOf e) (some q) j
          { q with id := ⟨q.id.id, new⟩ } (resetSite (m.siteOf e) j q new) := .reset hq new
      exact Model.retains_at_site (resetProperty i j new) at_i (resetProperty_place lt hq new)
        found.retains

/-- Dropping an index retires its uid. -/
theorem retains_dropIndex (there : m.propertyAt? i j = some p) :
    m.Retains (m.dropIndex i j) := by
  obtain ⟨e, at_i, hp⟩ := Option.bind_eq_some_iff.mp there
  have lt := (List.getElem?_eq_some_iff.mp at_i).1
  have site : (m.siteOf e).Retains
      { (m.siteOf e).withProperties (e.properties.set j { p with index := none }) with
        retired := m.retired.addIndex p.indexUid? } := by
    have touched : Touches (m.siteOf e).entity.properties (some p) { p with index := none }
        (e.properties.set j { p with index := none }) := Touches.set _ hp
    refine retains_of_properties touched rfl
      ⟨List.prefix_rfl, List.prefix_append _ _, List.prefix_rfl, List.prefix_rfl⟩ ?_
    rintro q same uid hu assigned
    obtain rfl := Option.some.inj same
    rw [Property.uids, List.mem_cons] at hu
    rcases hu with rfl | hu
    · exact .inl List.mem_cons_self
    · obtain ⟨index, stored, rfl⟩ := Option.map_eq_some_iff.mp (Option.mem_toList.mp hu)
      refine .inr ?_
      simp [Retired.uids, Retired.addIndex, Property.indexUid?, stored, assigned, Option.filter]
  exact Model.retains_at_site (·.dropIndex i j) at_i (Model.dropIndex_place lt hp) site

/-- The model with the next index for a property, which gets the given uid. -/
def attachIndex (i j : Nat) (uid : UInt64) (m : Model) : Model :=
  (m.addIndex uid).2.modifyProperty i j ({ · with index := some (m.addIndex uid).1 })

theorem attachIndex_rename (σ : Equiv.Perm UInt64) (i j : Nat) (uid : UInt64) (m : Model) :
    (attachIndex i j uid m).rename σ = attachIndex i j (σ uid) (m.rename σ) := by
  have index : ((m.rename σ).addIndex (σ uid)).1 = (m.addIndex uid).1.rename σ := by
    simp [Model.addIndex, Model.rename, IdPair.rename]
  have taken : (m.addIndex uid).2.rename σ = ((m.rename σ).addIndex (σ uid)).2 := by
    simp [Model.addIndex, Model.rename, IdPair.rename]
  rw [attachIndex, attachIndex, index, ← taken]
  exact Model.modifyProperty_rename _ i j fun _ => rfl

theorem mem_census_attachIndex (there : m.propertyAt? i j = some p) (uid : UInt64) :
    uid ∈ (attachIndex i j uid m).census := by
  obtain ⟨e, at_i, hp⟩ := Option.bind_eq_some_iff.mp there
  have changed : (attachIndex i j uid m).propertyAt? i j =
      some { p with index := some (m.addIndex uid).1 } := by
    simp [attachIndex, Model.addIndex, Model.propertyAt?, Model.modifyProperty,
      Model.modifyEntity, at_i, hp]
  obtain ⟨e', at_i, hp⟩ := Option.bind_eq_some_iff.mp changed
  refine Model.mem_census_of_entity (List.mem_of_getElem? at_i) (Entity.mem_ownUids.mpr ?_)
  exact .inr (.inl ⟨_, List.mem_of_getElem? hp, by simp [Property.uids, Model.addIndex]⟩)

theorem retains_attachIndex (there : m.propertyAt? i j = some p) (unindexed : p.index = none)
    (uid : UInt64) : m.Retains (attachIndex i j uid m) := by
  have changed : (m.addIndex uid).2.Retains (attachIndex i j uid m) := by
    refine Model.retains_modifyProperty fun q hq u hu => ?_
    obtain rfl : p = q := Option.some.inj (there.symm.trans hq)
    simp only [Property.uids, unindexed, Option.map_none, Option.toList_none,
      List.mem_singleton] at hu
    exact hu ▸ List.mem_cons_self
  exact changed

theorem upgrade_rename (σ : Equiv.Perm UInt64) (m : Model) :
    (upgrade m).rename σ = upgrade (m.rename σ) := by
  have same : (m.rename σ).formatVersion = m.formatVersion := rfl
  simp only [upgrade, same]
  split <;> rfl

end Changes

/-! ### Targets -/

/-- The targets with their uids renamed. -/
def Targets.rename (σ : Equiv.Perm UInt64) (targets : Targets) : Targets :=
  targets.map fun (name, uid) => (name, σ uid)

theorem Targets.lookup_rename (σ : Equiv.Perm UInt64) (targets : Targets) (name : String) :
    (targets.rename σ).lookup name = (targets.lookup name).map σ := by
  induction targets with
  | nil => rfl
  | cons target targets ih =>
      obtain ⟨other, uid⟩ := target
      by_cases here : name = other
      · simp [rename, here]
      · have later : (name == other) = false := by simpa using here
        simpa [rename, List.lookup_cons, later] using ih

theorem targetOf_rename (σ : Equiv.Perm UInt64) (targets : Targets) (m : Model) (r : Relation) :
    targetOf (targets.rename σ) (m.rename σ) r = match targetOf targets m r with
      | .ok target => .ok (target.rename σ)
      | .error e => .error (e.renameSuggestion σ) := by
  have found (uid : UInt64) : ((m.rename σ).entities.find? fun e => e.id.uid = σ uid) =
      (m.entities.find? fun e => e.id.uid = uid).map (Entity.rename σ) :=
    find?_map_of_renames σ (fun e : Entity => e.id.uid) _ (fun _ => rfl) uid m.entities
  simp only [targetOf, Targets.lookup_rename]
  cases targets.lookup (foldCase r.target) with
  | none => rfl
  | some uid =>
      simp only [Option.map_some, Option.bind_some, found]
      cases m.entities.find? fun e => e.id.uid = uid <;> rfl

theorem targetsOf_rename (σ : Equiv.Perm UInt64) (plan : List Entity) (order : List UInt64) :
    (targetsOf plan order).rename σ = targetsOf plan (order.map σ) := by
  simp only [targetsOf, Targets.rename, List.map_zipWith, List.zipWith_map_right]

end SchemaLedger.Merge
