import SchemaLedger.Proofs.Merge.Binding
import SchemaLedger.Proofs.Merge.Identity

/-!
# What the notices of a merge say

The notices are pushed while a model changes, some before a change and some after it. What they say
in the end can be read off the stored model and the merged one alone: they are the differences of
the two, where elements are told apart by their local ids. `Model.changes` computes these
differences, and up to their order the notices are nothing else.
-/

namespace SchemaLedger

open Text

/-! ### Differences -/

/-- The differences of two lists of elements that are told apart by their local ids: the elements
that are only before, and for each element after what has changed in it, or that it is new. -/
def changesOf {β : Type} (localId : β → UInt32) (removed added : β → Notice)
    (changed : β → β → List Notice) (before after : List β) : List Notice :=
  (before.filter (localId · ∉ after.map localId)).map removed ++
    after.flatMap fun y => (before.find? (localId · = localId y)).elim [added y] (changed · y)

/-- What has changed in a property of the entity `owner`. -/
def Property.changes (owner : String) (x y : Property) : List Notice :=
  (if x.id.uid ≠ y.id.uid then [.propertyReset owner y.name x.id.uid y.id.uid] else []) ++
    (if x.index = none ∧ y.index ≠ none then [.indexAdded owner y.name] else []) ++
    (if x.index ≠ none ∧ y.index = none then [.indexRemoved owner y.name] else []) ++
    (if x.name ≠ y.name then [.propertyRenamed owner x.name y.name] else [])

/-- What has changed in a relation of the entity `owner`. -/
def Relation.changes (owner : String) (x y : Relation) : List Notice :=
  if x.name ≠ y.name then [.relationRenamed owner x.name y.name] else []

/-- What has changed among the properties of the entity `owner`. -/
def propertyChanges (owner : String) : List Property → List Property → List Notice :=
  changesOf (·.id.id) (fun p => .propertyRemoved owner p.name)
    (fun p => .propertyAdded owner p.name) (Property.changes owner)

/-- What has changed among the relations of the entity `owner`. -/
def relationChanges (owner : String) : List Relation → List Relation → List Notice :=
  changesOf (·.id.id) (fun r => .relationRemoved owner r.name)
    (fun r => .relationAdded owner r.name) (Relation.changes owner)

/-- What has changed in an entity. Its elements are spoken of under its new name. -/
def Entity.changes (x y : Entity) : List Notice :=
  (if x.name ≠ y.name then [.entityRenamed x.name y.name] else []) ++
    propertyChanges y.name x.properties y.properties ++
    relationChanges y.name x.relations y.relations

/-- What has changed in a model. -/
def Model.changes (S M : Model) : List Notice :=
  changesOf (·.id.id) (fun e => .entityRemoved e.name) (fun e => .entityAdded e.name)
    Entity.changes S.entities M.entities

namespace Merge

/-! ### Scopes -/

section Scopes

variable {β : Type} {key : β → UInt64} {localId : β → UInt32} {removed added : β → Notice}
variable {changed : β → β → List Notice} {before : List β} {ks : List UInt64}
variable {rs : List (Settled β)}

/-- Among elements with distinct keys, the one with a key is found by it. -/
theorem find?_key_eq_some {κ : Type} [DecidableEq κ] {key : β → κ}
    (distinct : (before.map key).Nodup) {k : κ} {x : β} :
    before.find? (key · = k) = some x ↔ x ∈ before ∧ key x = k := by
  constructor
  · intro located
    exact ⟨List.mem_of_find?_eq_some located, by simpa using List.find?_some located⟩
  · rintro ⟨hx, rfl⟩
    apply find?_eq_some_of_only hx (by simp)
    intro y hy same
    exact List.inj_on_of_nodup_map distinct hy hx (of_decide_eq_true same)

/-- If the elements with the given keys are found, then what is found is what has such a key. -/
theorem found_iff (all : rs.filterMap (·.found) = select key before ks)
    (distinct : (before.map key).Nodup) {x : β} (hx : x ∈ before) :
    key x ∈ ks ↔ ∃ r ∈ rs, r.found = some x := by
  rw [← List.mem_filterMap, all, select, List.mem_filterMap]
  simp [find?_key_eq_some distinct, hx]

/-- If what is made in a scope has the local ids of what was found for it, and of each result is
told what has changed, then together this tells of the differences. -/
theorem changesOf_settled (all : rs.filterMap (·.found) = select key before ks)
    (distinct : (before.map key).Nodup) (distinctIds : (before.map localId).Nodup)
    (located : ∀ r ∈ rs, before.find? (localId · = localId r.made) = r.found)
    (told : ∀ r ∈ rs, r.notices = r.found.elim [added r.made] (changed · r.made)) :
    (before.filter (key · ∉ ks)).map removed ++ rs.flatMap (·.notices) =
      changesOf localId removed added changed before (rs.map (·.made)) := by
  have gone : before.filter (key · ∉ ks) =
      before.filter (localId · ∉ (rs.map (·.made)).map localId) := by
    apply List.filter_congr
    intro x hx
    rw [decide_eq_decide, found_iff all distinct hx, List.map_map, List.mem_map, not_iff_not]
    refine exists_congr fun r => and_congr_right fun hr => ?_
    rw [← located r hr, find?_key_eq_some distinctIds]
    exact ⟨fun there => there.2.symm, fun same => ⟨hx, same.symm⟩⟩
  have each : rs.flatMap (·.notices) = (rs.map (·.made)).flatMap fun y =>
      (before.find? (localId · = localId y)).elim [added y] (changed · y) := by
    rw [List.flatMap_map]
    apply List.flatMap_congr
    intro r hr
    rw [told r hr, located r hr]
  rw [changesOf, gone, each]

end Scopes

variable {S m m' : Model} {i : Nat} {b b' : Site} {owner planned : Entity} {name : String}
variable {isNew : Bool} {notices : List Notice} {targets : Targets}

/-! ### Properties -/

section Properties

variable {found : List (Option PropertyMatch)} {rs : List (Settled Property)}

/-- That a property is reset can be seen from its uid. -/
theorem PropertyPlaced.told {Fresh : UInt64 → Prop} {stored : Model} {p q : Property}
    {f : Option PropertyMatch} {last last' : Option IdPair} {id : IdPair}
    (h : PropertyPlaced Fresh f (some q) last id last')
    (matched : PropertyMatched stored owner p f) :
    placementNotices name isNew p f =
      if q.id.uid ≠ id.uid then [.propertyReset name p.name q.id.uid id.uid] else [] := by
  cases h with
  | existing => simp [placementNotices]
  | reset =>
      obtain ⟨new, -, unlisted, -, q', named, same⟩ := matched.of_reset
      have other : q.id.uid ≠ p.id.uid := by
        intro equal
        apply unlisted
        rw [← equal, ← same]
        exact List.mem_map_of_mem (property?_eq_some named).1
      simp [placementNotices, new, other]

/-- That an index comes or goes can be seen from the indexes before and after. -/
theorem IndexSettled.told {Fresh : UInt64 → Prop} {p : Property}
    {stored now last last' : Option IdPair}
    (h : IndexSettled Fresh stored p.index last now last') :
    indexNotices name false p stored =
      (if stored = none ∧ now ≠ none then [.indexAdded name p.name] else []) ++
        (if stored ≠ none ∧ now = none then [.indexRemoved name p.name] else []) := by
  generalize wanted : p.index = w at h
  cases h <;> simp [indexNotices, wanted]

/-- A step in an entity that was there before tells what has changed in its property. -/
theorem PropertyStep.told {p : Property} {f : Option PropertyMatch} {r : Settled Property}
    {stored : Model} (h : PropertyStep m i name false b (p, f) r b')
    (matched : PropertyMatched stored owner p f) :
    r.notices = r.found.elim [.propertyAdded name r.made.name] (·.changes name r.made) := by
  have called : r.made.name = p.name := by rw [h.made]
  have placed := h.placed
  have indexed := h.indexed
  have notices := h.notices
  cases found : r.found with
  | none =>
      rw [found] at placed notices
      obtain rfl : f = none := Option.map_eq_none_iff.mp placed.found_eq.symm
      cases wanted : p.index <;>
        simp [notices, propertyNotices, placementNotices, indexNotices, renameNotices, wanted,
          called]
  | some q =>
      rw [found] at placed notices
      rw [found, Option.bind_some] at indexed
      have is_matched : f.isNone = false := by
        have same := placed.found_eq
        cases f with
        | none => cases same
        | some => rfl
      rw [notices, propertyNotices, placed.told matched, is_matched, Bool.or_false,
        Option.bind_some, show indexNotices name false p q.index = _ from indexed.told]
      simp [Property.changes, renameNotices, called, List.append_assoc]

/-- A step in a new entity tells nothing. -/
theorem PropertyStep.quiet {a : Property × Option PropertyMatch} {r : Settled Property}
    (h : PropertyStep m i name true b a r b') (found : r.found = none) : r.notices = [] := by
  have placed := h.placed
  rw [found] at placed
  have unmatched : a.2 = none := Option.map_eq_none_iff.mp placed.found_eq.symm
  cases wanted : a.1.index <;>
    simp [h.notices, found, unmatched, propertyNotices, placementNotices, indexNotices,
      renameNotices, wanted]

namespace PropertiesMerged

/-- What merging the properties of an entity that was there before tells is what has changed among
them. -/
theorem told (h : PropertiesMerged m i planned false b found rs b' notices)
    (lt : i < m.entities.length) (distinct : (b.entity.properties.map (·.id.uid)).Nodup)
    (distinctIds : (b.entity.properties.map (·.id.id)).Nodup)
    (below : ∀ p ∈ b.entity.properties, p.id.id ≤ IdPair.lastId b.entity.lastProperty)
    (numbered : ∀ q ∈ b'.entity.properties, Numbered q)
    (distinct' : (b'.entity.properties.map (·.id.uid)).Nodup) :
    notices = propertyChanges planned.name b.entity.properties b'.entity.properties := by
  obtain ⟨all, -⟩ := h.settles lt distinct
  obtain ⟨-, outcomes⟩ := h.outcomes lt distinct numbered (.refl _)
  obtain ⟨c, steps, -⟩ := h.steps
  rw [h.notices, h.properties_eq lt distinct distinct']
  apply changesOf_settled all distinct distinctIds
  · intro r hr
    obtain ⟨p, -, outcome⟩ := exists_of_forall₂ outcomes hr
    exact outcome.origin.found_eq distinctIds below
  · intro r hr
    obtain ⟨⟨p, f⟩, ha, s, t, step⟩ := exists_of_forall₂ steps.each hr
    exact step.told ((List.forall₂_iff_zip.mp h.matched).2 ha)

/-- Merging the properties of a new entity tells nothing. -/
theorem quiet (h : PropertiesMerged m i planned true b found rs b' notices)
    (lt : i < m.entities.length) (blank : b.entity.properties = []) : notices = [] := by
  obtain ⟨all, -⟩ := h.settles lt (by simp [blank])
  obtain ⟨c, steps, -⟩ := h.steps
  rw [h.notices, blank, List.filter_nil, List.map_nil, List.nil_append]
  apply List.flatMap_eq_nil_iff.mpr
  intro r hr
  obtain ⟨a, -, s, t, step⟩ := exists_of_forall₂ steps.each hr
  cases found : r.found with
  | none => exact step.quiet found
  | some q => simpa [blank] using mem_of_found all hr found

end PropertiesMerged

end Properties

/-! ### Relations -/

section Relations

variable {found : List (Option UInt64)} {xs : List (Settled Relation)}

/-- A step in an entity that was there before tells what has changed in its relation. -/
theorem RelationStep.told {a : Relation × Option UInt64} {x : Settled Relation}
    (h : RelationStep m i name false targets b a x b') :
    x.notices = x.found.elim [.relationAdded name x.made.name] (·.changes name x.made) := by
  have called : x.made.name = a.1.name := by rw [h.made]
  rw [h.notices, called]
  cases found : x.found with
  | none => simp [relationNotices]
  | some q => simp [relationNotices, Relation.changes, called]

namespace RelationsMerged

/-- What merging the relations of an entity that was there before tells is what has changed among
them. -/
theorem told (h : RelationsMerged m i planned false targets b found xs b' notices)
    (lt : i < m.entities.length) (distinct : (b.entity.relations.map (·.id.uid)).Nodup)
    (distinctIds : (b.entity.relations.map (·.id.id)).Nodup)
    (below : ∀ r ∈ b.entity.relations, r.id.id ≤ IdPair.lastId b.lastRelation)
    (numbered : ∀ r ∈ b'.entity.relations, r.id.id ≠ 0)
    (distinct' : (b'.entity.relations.map (·.id.uid)).Nodup) :
    notices = relationChanges planned.name b.entity.relations b'.entity.relations := by
  obtain ⟨all, -⟩ := h.settles lt distinct
  obtain ⟨-, outcomes⟩ := h.outcomes lt distinct numbered (.refl _)
  obtain ⟨c, steps, -⟩ := h.steps
  rw [h.notices, h.relations_eq lt distinct distinct']
  apply changesOf_settled all distinct distinctIds
  · intro x hx
    obtain ⟨r, -, outcome⟩ := exists_of_forall₂ outcomes hx
    exact outcome.origin.found_eq (fun _ named => (relation?_eq_some named).1) distinctIds below
  · intro x hx
    obtain ⟨a, -, s, t, step⟩ := exists_of_forall₂ steps.each hx
    exact step.told

/-- Merging the relations of a new entity tells nothing. -/
theorem quiet (h : RelationsMerged m i planned true targets b found xs b' notices)
    (lt : i < m.entities.length) (blank : b.entity.relations = []) : notices = [] := by
  obtain ⟨all, -⟩ := h.settles lt (by simp [blank])
  obtain ⟨c, steps, -⟩ := h.steps
  rw [h.notices, blank, List.filter_nil, List.map_nil, List.nil_append]
  apply List.flatMap_eq_nil_iff.mpr
  intro x hx
  obtain ⟨a, -, s, t, step⟩ := exists_of_forall₂ steps.each hx
  cases found : x.found with
  | none => simp [step.notices, found, relationNotices]
  | some q => simpa [blank] using mem_of_found all hx found

end RelationsMerged

end Relations

/-! ### Entities -/

section Entities

variable {m₁ m₂ : Model} {a : Entity × UInt64 × Bool} {r : Settled Entity} {x : Entity}

/-- Within an entity of the model, local ids are distinct and none lies above the last one of its
scope. -/
structure HasLocalIds (S : Model) (x : Entity) : Prop where
  properties : (x.properties.map (·.id.id)).Nodup
  propertiesBelow : ∀ p ∈ x.properties, p.id.id ≤ IdPair.lastId x.lastProperty
  relations : (x.relations.map (·.id.id)).Nodup
  relationsBelow : ∀ r ∈ x.relations, r.id.id ≤ IdPair.lastId S.lastRelation

theorem hasLocalIds_of_isConsistent (h : S.IsConsistent) (hx : x ∈ S.entities) :
    HasLocalIds S x := by
  have properties := h.propertyIds hx
  have all_ids : S.relationIds.map (·.id) = S.entities.flatMap (·.relations.map (·.id.id)) := by
    simp [Model.relationIds, Model.relations, List.map_flatMap, Function.comp_def]
  exact {
    properties := by simpa [Function.comp_def] using properties.distinct
    propertiesBelow := fun p hp => properties.below _ (List.mem_map_of_mem hp)
    relations := (List.nodup_flatMap.mp (all_ids ▸ h.distinctRelationIds)).1 x hx
    relationsBelow := fun r hr =>
      h.relationIds_le _ (Model.mem_relationIds.mpr ⟨x, hx, r, hr, rfl⟩) }

theorem EntityContents.some_made {ids : List IdPair} {e : Entity}
    (h : EntityContents S targets ids e x r) (some_planned : e.properties ≠ []) :
    r.made.properties ≠ [] := by
  obtain ⟨ps, each, made, -⟩ := h.properties
  intro none_made
  obtain rfl : ps = [] := by simpa [none_made] using made.symm
  exact some_planned (List.forall₂_nil_right_iff.mp each)

/-- What merging an entity that was there before tells is what has changed in it. -/
theorem EntityTurn.told (h : EntityTurn S m targets a r m₁ m₂ x) (old : a.2.2 = false)
    (ids : HasLocalIds S x) : r.notices = x.changes r.made := by
  have some_made := h.contents.2.some_made h.some_planned
  have called : r.made.name = a.1.name := by rw [h.contents.2.made]
  have numbered := h.numbered
  have distinct' := h.distinct'
  obtain ⟨i, x', fs, ps, b₁, told₁, gs, rs, b₂, told₂, at_i, -, properties, relations, rfl, rfl⟩ :=
    h.step
  obtain rfl := Option.some.inj h.found
  have lt := (List.getElem?_eq_some_iff.mp at_i).1
  have relations₁ : b₁.entity.relations = x'.relations := by
    rw [properties.entity_eq]
    rfl
  have properties₂ : b₂.entity.properties = b₁.entity.properties := by rw [relations.entity_eq]
  rw [old] at properties relations
  have below : ∀ r ∈ x'.relations, r.id.id ≤ IdPair.lastId b₁.lastRelation := by
    intro r hr
    have evolves := (properties.outcomes lt h.distinct.properties
      (by rw [← properties₂]; exact numbered.properties) (.refl _)).1
    exact UInt32.le_trans (ids.relationsBelow r hr)
      (UInt32.le_trans h.later.lastRelation evolves.lastRelation)
  have changed₁ := properties.told lt h.distinct.properties ids.properties ids.propertiesBelow
    (by rw [← properties₂]; exact numbered.properties)
    (by rw [← properties₂]; exact distinct'.properties)
  have changed₂ := relations.told lt (by rw [relations₁]; exact h.distinct.relations)
    (by rw [relations₁]; exact ids.relations) (by rw [relations₁]; exact below)
    (numbered.relations some_made) distinct'.relations
  rw [relations₁] at changed₂
  rw [← properties₂] at changed₁
  rw [Entity.changes, called, ← changed₂]
  change entityRenamed _ _ ++ told₁ ++ told₂ = _
  rw [changed₁]
  rfl

/-- Merging a new entity tells nothing. -/
theorem EntityTurn.quiet (h : EntityTurn S m targets a r m₁ m₂ x) (new : a.2.2 = true)
    (blank : x = { id := x.id, name := a.1.name }) : r.notices = [] := by
  obtain ⟨i, x', fs, ps, b₁, told₁, gs, rs, b₂, told₂, at_i, -, properties, relations, rfl, rfl⟩ :=
    h.step
  obtain rfl := Option.some.inj h.found
  have lt := (List.getElem?_eq_some_iff.mp at_i).1
  rw [new] at properties relations
  have same : x'.name = a.1.name := by rw [blank]
  have quiet₁ := properties.quiet lt (by
    change x'.properties = []
    rw [blank])
  have quiet₂ := relations.quiet lt (by
    rw [properties.entity_eq]
    change x'.relations = []
    rw [blank])
  simp [entityRenamed, same, quiet₁, quiet₂]

end Entities

/-! ### Plans -/

section Plans

variable {M : Model} {plan : List Entity} {found : List (Option UInt64)}
variable {settled : List (UInt64 × Bool)} {rs : List (Settled Entity)}

/-- What is told of a planned entity when it is settled on and when it is merged is what has changed
in the stored entity with its local id, or that there is none. -/
theorem EntitySettled.told {e x : Entity} {f : Option UInt64} {u : UInt64 × Bool}
    {r : Settled Entity} {m₁ m₂ : Model} (settled : EntitySettled S m.entities (e, f) u)
    (turn : EntityTurn S m targets (e, u) r m₁ m₂ x) (stored : S.IsConsistent)
    (matched : EntityMatched S e f) (distinct : (m.entities.map (·.id.uid)).Nodup)
    (kept : ∀ uid, f = some uid → ∀ y ∈ S.entities, y.id.uid = uid → y ∈ m.entities) :
    ∃ y, S.entities.find? (·.id.id = r.made.id.id) = y ∧ y.map (·.id.uid) = f ∧
      additionNotices (e, f) ++ r.notices =
        y.elim [.entityAdded r.made.name] (·.changes r.made) := by
  have ids := stored.entityIds
  have made := turn.contents.2.made
  have id : r.made.id = x.id := by rw [made]
  rw [id]
  cases settled with
  | @found e uid =>
      obtain ⟨y, hy, rfl⟩ := List.mem_map.mp (EntityMatched.mem matched)
      obtain rfl : y = x :=
        List.inj_on_of_nodup_map distinct (kept _ rfl y hy rfl) turn.there turn.uid.symm
      refine ⟨some y, ?_, rfl, turn.told rfl (hasLocalIds_of_isConsistent stored hy)⟩
      exact (find?_key_eq_some (by simpa [Function.comp_def] using ids.distinct)).mpr ⟨hy, rfl⟩
  | @created e new added above =>
      obtain rfl : ({ id := new, name := e.name } : Entity) = x :=
        List.inj_on_of_nodup_map distinct added turn.there turn.uid.symm
      refine ⟨none, List.find?_eq_none.mpr ?_, rfl, ?_⟩
      · intro y hy same
        have below := ids.below _ (List.mem_map_of_mem hy)
        rw [of_decide_eq_true same] at below
        exact absurd (UInt32.lt_of_lt_of_le above below) (UInt32.lt_irrefl _)
      · rw [turn.quiet rfl rfl, made]
        rfl

/-- What is told of each position in each phase, put together. -/
theorem told_of_phases (stored : S.IsConsistent) (distinct : (m.entities.map (·.id.uid)).Nodup)
    (kept : ∀ uid, some uid ∈ found → ∀ y ∈ S.entities, y.id.uid = uid → y ∈ m.entities)
    (matched : List.Forall₂ (EntityMatched S) plan found)
    (placed : List.Forall₂ (EntitySettled S m.entities) (plan.zip found) settled)
    (turns : List.Forall₂ (fun a r => ∃ m₁ m₂ x, EntityTurn S m targets a r m₁ m₂ x)
      (plan.zip settled) rs) :
    ∃ os : List (Settled Entity), os.map (·.made) = rs.map (·.made) ∧
      os.map (·.found.map (·.id.uid)) = found ∧
      ((plan.zip found).flatMap additionNotices ++ rs.flatMap (·.notices)).Perm
        (os.flatMap (·.notices)) ∧
      ∀ o ∈ os, S.entities.find? (·.id.id = o.made.id.id) = o.found ∧
        o.notices = o.found.elim [.entityAdded o.made.name] (·.changes o.made) := by
  induction matched generalizing settled rs with
  | nil =>
      cases placed
      cases turns
      exact ⟨[], rfl, rfl, .refl _, nofun⟩
  | cons first _ ih =>
      cases placed with
      | cons settle placed =>
          cases turns with
          | @cons _ r _ rs turn turns =>
              obtain ⟨m₁, m₂, x, turn⟩ := turn
              obtain ⟨y, located, uid, told⟩ := settle.told turn stored first distinct
                fun uid hf => kept uid (by simp [hf])
              obtain ⟨os, mades, founds, perm, each⟩ :=
                ih (fun uid hf => kept uid (List.mem_cons_of_mem _ hf)) placed turns
              refine ⟨⟨y, r.made, _⟩ :: os, by simp [mades], by simp [uid, founds], ?_,
                List.forall_mem_cons.mpr ⟨⟨located, told⟩, each⟩⟩
              simp only [List.zip_cons_cons, List.flatMap_cons, List.append_assoc]
              refine .append_left _ (.trans ?_ (perm.append_left _))
              rw [← List.append_assoc, ← List.append_assoc]
              exact List.perm_append_comm.append_right _

/-- The notices of a merge are the differences between the stored model and the result. -/
theorem PlanMerged.told (h : PlanMerged S plan M notices found settled rs)
    (some_planned : ∀ e ∈ plan, e.properties ≠ []) (stored : S.IsConsistent)
    (merged : M.IsConsistent) :
    notices.Perm (S.changes M) ∧ M.entities.map (·.name) = plan.map (·.name) := by
  obtain ⟨m, phases⟩ := h.entitiesSettled some_planned stored.distinctUids
    (distinctUids_of_isConsistent stored) (isAssigned_of_isConsistent merged)
  obtain ⟨os, mades, founds, perm, each⟩ := told_of_phases stored phases.distinct phases.kept
    h.matched phases.placed phases.turns
  have distinctIds : (S.entities.map (·.id.id)).Nodup := by
    simpa [Function.comp_def] using stored.entityIds.distinct
  have all : os.filterMap (·.found) = select (·.id.uid) S.entities (claimed id found) := by
    rw [select, claimed, ← founds, List.filterMap_filterMap, List.filterMap_map]
    apply List.filterMap_congr
    intro o ho
    cases there : o.found with
    | none => simp [there]
    | some y =>
        have located := (each o ho).1
        rw [there, find?_key_eq_some distinctIds] at located
        simpa [there] using ((find?_key_eq_some stored.distinctUids).mpr ⟨located.1, rfl⟩).symm
  constructor
  · rw [h.notices, List.append_assoc]
    refine (perm.append_left _).trans (.of_eq ?_)
    rw [Model.changes, phases.made, ← mades]
    exact changesOf_settled all stored.distinctUids distinctIds (fun o ho => (each o ho).1)
      fun o ho => (each o ho).2
  · obtain ⟨-, os, made, -, outcomes⟩ := h.outcome some_planned stored.distinctUids
      (distinctUids_of_isConsistent stored) (isAssigned_of_isConsistent merged)
    rw [made, List.map_map, eq_comm, ← List.forall₂_eq_eq_eq]
    refine List.forall₂_map_left_iff.mpr (List.forall₂_map_right_iff.mpr (outcomes.imp ?_))
    intro e o outcome
    rw [Function.comp_apply, outcome.contents.made]

/-- If drafts are merged into a consistent model with a consistent result, then up to their order
the notices are the differences of the two models. The entities of the result have the names that
the plan gives them. -/
theorem notices_perm_changes {kinds : List PropertyKind} {drafts : List EntityDraft}
    {store store' : Store} (planned : Plan.ofDrafts kinds drafts = .ok plan)
    (stored : store.model.IsConsistent) (run : store.merge plan = .ok (notices, store'))
    (merged : store'.model.IsConsistent) :
    notices.Perm (store.model.changes store'.model) ∧
      store'.model.entities.map (·.name) = plan.map (·.name) := by
  obtain ⟨found, settled, rs, phases⟩ := of_merge run
  exact phases.told (Plan.properties_ne_nil planned) stored merged

/-- A schema that keeps only the first of the two entities, under another name, resets its ID and
adds a property. -/
def onlyItem : List EntityDraft :=
  [{ name := "Item"
     annotations := KeyMap.empty.insert "uid" (.value "1")
     fields := [
      { name := "id", base := .long, annotations := KeyMap.empty.insert "uid" (.value "9") },
      { name := "done", base := .bool }] }]

theorem notices_perm_changes_onlyItem :
    ∃ plan notices store', Plan.ofDrafts [] onlyItem = .ok plan ∧ taskAndNote.IsConsistent ∧
      Store.merge plan ⟨taskAndNote, .counting⟩ = .ok (notices, store') ∧
      store'.model.IsConsistent ∧
      notices = [.entityRemoved "Note", .entityRenamed "Task" "Item",
        .propertyReset "Item" "id" 2 9, .propertyAdded "Item" "done"] ∧
      notices.Perm (taskAndNote.changes store'.model) ∧
      store'.model.entities.map (·.name) = plan.map (·.name) := by
  obtain ⟨plan, notices, store', planned, run, merged⟩ := exists_plan_of_merge [] onlyItem
    ⟨taskAndNote, .counting⟩ (by decide +kernel)
  have told : (do
      let plan ← Plan.ofDrafts [] onlyItem
      let merged ← Store.merge plan ⟨taskAndNote, .counting⟩
      return merged.1) = .ok [.entityRemoved "Note", .entityRenamed "Task" "Item",
        .propertyReset "Item" "id" 2 9, .propertyAdded "Item" "done"] := by
    decide +kernel
  have stored : taskAndNote.IsConsistent := by decide
  refine ⟨plan, notices, store', planned, stored, run, merged, ?_,
    notices_perm_changes planned stored run merged⟩
  simpa [planned, run, bind, Except.bind, pure, Except.pure] using told

end Plans

end Merge

end SchemaLedger
