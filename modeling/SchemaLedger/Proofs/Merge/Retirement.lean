import SchemaLedger.Proofs.Merge.Outcome
import SchemaLedger.Proofs.Store.Turnover

/-!
# What merging retires

Whatever a plan takes out of use, be it with its entity, with its property, by dropping an index or
by resetting a property, is retired then and there, and only what was stored can go. So the books of
the stored model and those of the result balance, and the uids that have been added to the retired
ones are exactly those that are no longer in use.
-/

namespace SchemaLedger.Merge

/-! ### Properties -/

/-- What belongs to the element that is replaced gives way to what belongs to the one in its
place. -/
theorem Touches.flatMap_perm {β γ : Type} [DecidableEq γ] {xs ys : List β} {found : Option β}
    {y : β} (h : Touches xs found y ys) (of : β → List γ) :
    (ys.flatMap of ++ found.toList.flatMap of).Perm (xs.flatMap of ++ of y) := by
  rw [List.perm_iff_count]
  intro c
  cases h with
  | replaced before after =>
      have before := (before.flatMap_right of).count_eq c
      have after := (after.flatMap_right of).count_eq c
      simp only [Option.toList_some, List.flatMap_cons, List.flatMap_nil, List.append_nil,
        List.count_append] at *
      omega
  | added after =>
      have after := (after.flatMap_right of).count_eq c
      simp only [Option.toList_none, List.flatMap_cons, List.flatMap_nil, List.append_nil,
        List.count_append] at *
      omega

/-- The identifiers that go out of use when a property is merged. -/
def removedIds (planned : Property × Option PropertyMatch) (found : Option Property) :
    IdSort → List IdPair
  | .property =>
    match planned.2 with
    | some (.reset _ _) => found.toList.map (·.id)
    | _ => []
  | .index => if planned.1.index = none then (found.bind (·.index)).toList else []
  | _ => []

/-- The identifiers that come into use when a property is merged. -/
def addedIds (planned : Property × Option PropertyMatch) (r : Settled Property) :
    IdSort → List IdPair
  | .property =>
    match planned.2 with
    | some (.existing _) => []
    | _ => [r.made.id]
  | .index => if r.found.bind (·.index) = none then r.made.index.toList else []
  | _ => []

section Properties

variable {m : Model} {i : Nat} {b b' : Site} {owner : String} {isNew : Bool}
variable {a : Property × Option PropertyMatch} {r : Settled Property}

theorem PropertyStep.idsOf_made_perm (h : PropertyStep m i owner isNew b a r b') (sort : IdSort) :
    (r.made.idsOf sort ++ removedIds a r.found sort).Perm
      (r.found.toList.flatMap (·.idsOf sort) ++ addedIds a r sort) := by
  obtain ⟨p, f⟩ := a
  have placed := h.placed
  have indexed := h.indexed
  cases sort with
  | entity => simp [Property.idsOf, removedIds, addedIds]
  | property =>
      generalize made : r.made.id = id at placed
      generalize r.found = found at placed ⊢
      generalize b'.entity.lastProperty = last' at placed
      cases placed with
      | existing => simp [Property.idsOf, removedIds, addedIds, made]
      | reset => simpa [Property.idsOf, removedIds, addedIds, made] using List.Perm.swap _ _ _
      | created => simp [Property.idsOf, removedIds, addedIds, made]
  | index =>
      have found : r.found.toList.flatMap (·.idsOf .index) =
          (r.found.bind (·.index)).toList := by
        cases r.found <;> simp [Property.idsOf]
      rw [found]
      simp only [Property.idsOf, removedIds, addedIds]
      generalize r.made.index = index at indexed ⊢
      generalize r.found.bind (·.index) = stored at indexed ⊢
      generalize p.index = wanted at indexed ⊢
      generalize b'.lastIndex = last' at indexed
      cases indexed <;> simp
  | relation => simp [Property.idsOf, removedIds, addedIds]

/-- The new identifiers come after the last ones, except for the one that a reset gives. -/
theorem PropertyStep.follow (h : PropertyStep m i owner isNew b a r b') (sort : IdSort)
    (counted : sort = .property → resetUids a.2 = []) :
    IdPair.Follow (b.books.last sort) (addedIds a r sort) (b'.books.last sort) := by
  obtain ⟨p, f⟩ := a
  have placed := h.placed
  have indexed := h.indexed
  cases sort with
  | entity => exact .nil
  | property =>
      have counted := counted rfl
      simp only [Site.books, addedIds]
      generalize r.made.id = id at placed ⊢
      generalize r.found = found at placed
      generalize b'.entity.lastProperty = last' at placed ⊢
      cases placed with
      | existing => exact .nil
      | reset => simp [resetUids] at counted
      | created => exact .single _ _
  | index =>
      simp only [Site.books, addedIds]
      generalize r.made.index = index at indexed ⊢
      generalize r.found.bind (·.index) = stored at indexed ⊢
      generalize p.index = wanted at indexed
      generalize b'.lastIndex = last' at indexed ⊢
      cases indexed with
      | created => exact .single _ _
      | _ => exact .nil
  | relation =>
      simp only [Site.books, addedIds, h.lastRelation]
      exact .nil

/-- The uids of what goes out of use are retired. -/
theorem PropertyStep.uidsOf_retired (h : PropertyStep m i owner isNew b a r b')
    (assigned : ∀ q, r.found = some q → q.HasIndexUid) (sort : IdSort) :
    b'.retired.uidsOf sort =
      b.retired.uidsOf sort ++ (removedIds a r.found sort).map (·.uid) := by
  obtain ⟨p, f⟩ := a
  rw [h.retired]
  cases sort with
  | entity => simp [Retired.uidsOf, removedIds]
  | property =>
      simp only [Retired.uidsOf, List.append_cancel_left_eq]
      have placed := h.placed
      generalize r.made.id = id at placed
      generalize r.found = found at placed ⊢
      generalize b'.entity.lastProperty = last' at placed
      cases placed <;> simp [resetUids, removedIds]
  | index =>
      simp only [Retired.uidsOf, List.append_cancel_left_eq]
      cases found : r.found with
      | none => cases wanted : p.index <;> simp [droppedUids, removedIds, wanted]
      | some q =>
          have uids := Property.toList_indexUid? (assigned q found)
          cases wanted : p.index <;> simp [droppedUids, removedIds, wanted, uids]
  | relation => simp [Retired.uidsOf, removedIds]

/-- What merging a property means for the books. -/
theorem PropertyStep.turnover (h : PropertyStep m i owner isNew b a r b')
    (assigned : ∀ q, r.found = some q → q.HasIndexUid) :
    Turnover (fun sort => sort = .property → resetUids a.2 = []) (removedIds a r.found)
      (addedIds a r) b.books b'.books := by
  refine Site.turnover_of_properties ?_ (h.uidsOf_retired assigned) h.follow (by rw [h.entity])
    (by rw [h.entity])
  · intro sort
    have touched := h.touches.flatMap_perm (·.idsOf sort)
    have made := h.idsOf_made_perm sort
    rw [List.perm_iff_count] at touched made ⊢
    intro x
    have := touched x
    have := made x
    simp only [List.count_append] at *
    omega

theorem removedIds_subset (a : Property × Option PropertyMatch) (found : Option Property)
    (sort : IdSort) : removedIds a found sort ⊆ found.toList.flatMap (·.idsOf sort) := by
  intro id hid
  cases sort with
  | entity => simp [removedIds] at hid
  | property =>
      simp only [removedIds] at hid
      split at hid
      · cases found <;> simp_all [Property.idsOf]
      · simp at hid
  | index =>
      simp only [removedIds] at hid
      split at hid
      · cases found <;> simp_all [Property.idsOf]
      · simp at hid
  | relation => simp [removedIds] at hid

/-- What comes into use is fresh, or a reset gives it. -/
theorem PropertyStep.fresh (h : PropertyStep m i owner isNew b a r b') {sort : IdSort} {id : IdPair}
    (hid : id ∈ addedIds a r sort) :
    (m.place i b).Fresh id.uid ∨ ∃ old, a.2 = some (.reset old id.uid) := by
  obtain ⟨p, f⟩ := a
  have placed := h.placed
  have indexed := h.indexed
  cases sort with
  | entity => simp [addedIds] at hid
  | property =>
      simp only [addedIds] at hid
      generalize r.made.id = made at placed hid
      generalize r.found = found at placed
      generalize b'.entity.lastProperty = last' at placed
      cases placed with
      | existing => simp at hid
      | reset =>
          obtain rfl := List.mem_singleton.mp hid
          exact .inr ⟨_, rfl⟩
      | created fresh =>
          obtain rfl := List.mem_singleton.mp hid
          exact .inl fresh
  | index =>
      simp only [addedIds] at hid
      generalize r.made.index = index at indexed hid
      generalize r.found.bind (·.index) = stored at indexed hid
      generalize p.index = wanted at indexed
      generalize b'.lastIndex = last' at indexed
      cases indexed with
      | created fresh =>
          obtain rfl : id = _ := by simpa using hid
          exact .inl fresh
      | _ => simp at hid
  | relation => simp [addedIds] at hid

/-- Where merging the properties of an entity leads. -/
theorem PropertiesMerged.leadTo {planned : Entity} {found : List (Option PropertyMatch)}
    {rs : List (Settled Property)} {notices : List Notice}
    (h : PropertiesMerged m i planned isNew b found rs b' notices) (lt : i < m.entities.length)
    (nodup : (b.entity.properties.map (·.id.uid)).Nodup)
    (assigned : ∀ p ∈ b.entity.properties, p.HasIndexUid) :
    b.books.LeadTo (fun sort => sort = .property → ∀ p ∈ planned.properties, p.id.uid = 0)
      b.entity.partIds (m.place i b).Fresh b'.books := by
  obtain ⟨all, -⟩ := h.settles lt nodup
  obtain ⟨c, steps, rfl⟩ := h.steps
  have of_properties (ps : List Property) (there : ps ⊆ b.entity.properties) (sort : IdSort) :
      ps.flatMap (·.idsOf sort) ⊆ b.entity.partIds sort := by
    intro id hid
    obtain ⟨p, hp, hid⟩ := List.mem_flatMap.mp hid
    exact List.mem_append_left _ (List.mem_flatMap.mpr ⟨p, there hp, hid⟩)
  refine (steps.preserves (I := fun c => b.books.LeadTo _ b.entity.partIds _ c.books) ?_ ?_).trans
    (.of_unchanged (c.turnover_withProperties (reorder_perm _ _)))
  · exact ⟨_, _, b.turnover_keepProperties _ assigned,
      of_properties _ fun p hp => List.mem_of_mem_filter hp, nofun⟩
  · rintro s t ⟨p, f⟩ ha r hr step so_far
    have matched : PropertyMatched (m.place i b) b.entity p f :=
      (List.forall₂_iff_zip.mp h.matched).2 ha
    have there : r.found.toList ⊆ b.entity.properties := by
      intro q hq
      exact mem_of_found all hr (Option.mem_toList.mp hq)
    have turnover := step.turnover fun q found => assigned q (there (by simp [found]))
    refine so_far.trans ⟨_, _, turnover.mono ?_, ?_, ?_⟩
    · intro sort unused same
      have zero := unused same p (List.of_mem_zip ha).1
      cases matched with
      | byUid => rfl
      | reset given => exact absurd zero given
      | byName => cases b.entity.property? p.name <;> rfl
    · exact fun sort => List.Subset.trans (removedIds_subset _ _ sort) (of_properties _ there sort)
    · intro sort id hid
      rcases step.fresh hid with fresh | ⟨old, rfl⟩
      · exact Model.fresh_of_uids_subset (Model.leadTo_place lt so_far).uids_subset fresh
      · obtain ⟨same, given, -, unmentioned, -⟩ := matched.of_reset
        rw [same]
        exact .of_unmentioned given unmentioned

end Properties

/-! ### Relations -/

section Relations

variable {m : Model} {i : Nat} {b b' : Site} {owner : String} {isNew : Bool} {targets : Targets}
variable {a : Relation × Option UInt64} {x : Settled Relation}

/-- The identifiers that come into use when a relation is merged: its own, unless it was matched. -/
def addedRelationIds (matched : Option UInt64) (x : Settled Relation) : IdSort → List IdPair :=
  IdSort.only .relation (if matched = none then [x.made.id] else [])

/-- What merging a relation means for the books. -/
theorem RelationStep.turnover {counted : IdSort → Prop}
    (h : RelationStep m i owner isNew targets b a x b') :
    Turnover counted (fun _ => []) (addedRelationIds a.2 x) b.books b'.books := by
  have touched (sort : IdSort) := h.touches.flatMap_perm (·.idsOf sort)
  have made (sort : IdSort) : x.made.idsOf sort = IdSort.only .relation [x.made.id] sort := by
    cases sort <;> rfl
  have id : b'.entity.id = b.entity.id := by rw [h.entity]
  have properties : b'.entity.properties = b.entity.properties := by rw [h.entity]
  have last : b'.entity.lastProperty = b.entity.lastProperty := by rw [h.entity]
  have placed := h.placed
  rw [addedRelationIds]
  generalize x.made.id = got at placed made ⊢
  generalize x.found = found at placed touched
  generalize a.2 = matched at placed ⊢
  generalize last' : b'.lastRelation = now at placed
  refine Site.turnover_of_relations ?_ (fun _ => by simp [h.retired]) ?_ id properties
  · intro sort
    have touched := touched sort
    rw [made] at touched
    cases placed with
    | @existing q =>
        have same : [q].flatMap (·.idsOf sort) = IdSort.only .relation [q.id] sort := by
          cases sort <;> rfl
        rw [Option.toList_some, same] at touched
        simpa [IdSort.only] using (List.perm_append_right_iff _).mp touched
    | created => simpa using touched
  · intro sort _
    cases sort with
    | relation =>
        simp only [Site.books, last']
        cases placed with
        | existing => exact .nil
        | created => exact .single _ _
    | _ =>
        simp only [Site.books, last, h.lastIndex]
        exact .nil

/-- A relation that comes into use has a fresh uid. -/
theorem RelationStep.fresh (h : RelationStep m i owner isNew targets b a x b') {sort : IdSort}
    {id : IdPair} (hid : id ∈ addedRelationIds a.2 x sort) : (m.place i b).Fresh id.uid := by
  have placed := h.placed
  obtain ⟨-, hid⟩ := IdSort.mem_only.mp hid
  generalize x.made.id = got at placed hid
  generalize x.found = found at placed
  generalize a.2 = matched at placed hid
  generalize b'.lastRelation = last' at placed
  cases placed with
  | existing => simp at hid
  | created fresh =>
      obtain rfl : id = _ := by simpa using hid
      exact fresh

/-- Where merging the relations of an entity leads. -/
theorem RelationsMerged.leadTo {counted : IdSort → Prop} {planned : Entity}
    {found : List (Option UInt64)} {xs : List (Settled Relation)} {notices : List Notice}
    (h : RelationsMerged m i planned isNew targets b found xs b' notices)
    (lt : i < m.entities.length) :
    b.books.LeadTo counted (fun sort => b.entity.relations.flatMap (·.idsOf sort))
      (m.place i b).Fresh b'.books := by
  obtain ⟨c, steps, rfl⟩ := h.steps
  refine (steps.preserves (I := fun c => b.books.LeadTo counted _ _ c.books) ?_ ?_).trans
    (.of_unchanged (c.turnover_withRelations (reorder_perm _ _)))
  · refine ⟨_, _, b.turnover_keepRelations _, ?_, nofun⟩
    intro sort id hid
    obtain ⟨r, hr, hid⟩ := List.mem_flatMap.mp hid
    exact List.mem_flatMap.mpr ⟨r, List.mem_of_mem_filter hr, hid⟩
  · intro s t a _ x _ step so_far
    refine so_far.trans ⟨_, _, step.turnover, fun _ => List.nil_subset _, ?_⟩
    intro sort id hid
    exact Model.fresh_of_uids_subset (Model.leadTo_place lt so_far).uids_subset (step.fresh hid)

end Relations

/-! ### Entities -/

section Entities

variable {S M m m' : Model} {targets : Targets} {a : Entity × UInt64 × Bool} {r : Settled Entity}

/-- Where merging an entity leads. Its last property identifier is counted on unless a property may
be reset. -/
theorem EntityStep.leadTo (h : EntityStep targets m a r m') {x : Entity} (found : r.found = some x)
    (distinct : DistinctUids x) (assigned : ∀ p ∈ x.properties, p.HasIndexUid) :
    ∃ i b, m.entities[i]? = some x ∧ m' = m.place i b ∧ r.made = b.entity ∧
      (m.siteOf x).books.LeadTo (fun sort => sort = .property → ∀ p ∈ a.1.properties, p.id.uid = 0)
        x.partIds m.Fresh b.books := by
  obtain ⟨i, y, fs, ps, b₁, told₁, gs, rs, b₂, told₂, at_i, -, properties, relations, rfl, rfl⟩ := h
  obtain rfl : y = x := Option.some.inj found
  have lt := (List.getElem?_eq_some_iff.mp at_i).1
  refine ⟨i, b₂, at_i, rfl, rfl, ?_⟩
  -- taking over what the plan says about the entity itself changes no identifier
  have same : (adoptedSite m a.1 y).books = (m.siteOf y).books := rfl
  have fresh : ∀ uid, (m.place i (adoptedSite m a.1 y)).Fresh uid → m.Fresh uid := by
    intro uid fresh
    refine Model.fresh_of_uids_subset ?_ fresh
    conv_lhs => rw [← Model.place_siteOf at_i]
    have unchanged : (m.siteOf y).books.LeadTo (fun _ => True) (fun _ => []) (fun _ => True)
        (adoptedSite m a.1 y).books := .refl _
    exact (Model.leadTo_place lt unchanged).uids_subset
  have first := properties.leadTo lt distinct.properties assigned
  have second : b₁.books.LeadTo (fun sort => sort = .property → ∀ p ∈ a.1.properties, p.id.uid = 0)
      (fun sort => b₁.entity.relations.flatMap (·.idsOf sort)) (m.place i b₁).Fresh b₂.books :=
    relations.leadTo lt
  rw [properties.entity_eq] at second
  rw [← same]
  refine (first.mono (fun _ on => on) (fun _ => List.Subset.refl _) fresh).trans
    (second.mono (fun _ on => on) (fun _ => List.subset_append_right _ _) ?_)
  intro uid new
  exact fresh uid (Model.fresh_of_uids_subset (Model.leadTo_place lt first).uids_subset new)

/-- After settling on entities, each of them is a stored one or a new one with nothing in it. -/
theorem stored_or_blank_of_settling {xs : List (Entity × Option UInt64)}
    {settled : List (UInt64 × Bool)} (h : Traversal EntityPlaced m xs settled m')
    (start : m.entities ⊆ S.entities) :
    ∀ x ∈ m'.entities, x ∈ S.entities ∨ ∃ id name, x = { id, name } := by
  refine h.preserves (I := fun m => ∀ x ∈ m.entities,
    x ∈ S.entities ∨ ∃ id name, x = { id, name }) (fun x hx => .inl (start hx)) ?_
  intro m m' a _ u _ step so_far
  cases step with
  | found => exact so_far
  | created =>
      intro x hx
      rcases List.mem_append.mp hx with hx | hx
      · exact so_far x hx
      · exact .inr ⟨_, _, List.mem_singleton.mp hx⟩

theorem partIds_subset_idsOf {x : Entity} (hx : x ∈ S.entities) (sort : IdSort) :
    x.partIds sort ⊆ S.idsOf sort := by
  intro id hid
  exact List.mem_flatMap.mpr ⟨x, hx, List.mem_append_right _ hid⟩

/-- Settling on entities only brings new ones. -/
theorem leadTo_of_settling {xs : List (Entity × Option UInt64)} {settled : List (UInt64 × Bool)}
    (h : Traversal EntityPlaced m xs settled m')
    (start : S.books.LeadTo (· ≠ .property) S.idsOf S.Fresh m.books) :
    S.books.LeadTo (· ≠ .property) S.idsOf S.Fresh m'.books := by
  refine h.preserves (I := fun m => S.books.LeadTo (· ≠ .property) S.idsOf S.Fresh m.books)
    start ?_
  intro m m' a _ u _ step so_far
  cases step with
  | found => exact so_far
  | created fresh =>
      refine so_far.trans ⟨_, _, m.turnover_addEntity _ _, fun _ => List.nil_subset _, ?_⟩
      intro sort id hid
      obtain rfl := List.mem_singleton.mp (IdSort.mem_only.mp hid).2
      exact Model.fresh_of_uids_subset so_far.uids_subset fresh

/-- Merging entities leads on, provided that their parts were stored. -/
theorem leadTo_of_entitySteps {xs : List (Entity × UInt64 × Bool)} {rs : List (Settled Entity)}
    (h : Traversal (EntityStep targets) m xs rs m')
    (known : ∀ r ∈ rs, ∀ x, r.found = some x → DistinctUids x ∧
      (∀ p ∈ x.properties, p.HasIndexUid) ∧ ∀ sort, x.partIds sort ⊆ S.idsOf sort)
    (start : S.books.LeadTo (· ≠ .property) S.idsOf S.Fresh m.books) :
    S.books.LeadTo (· ≠ .property) S.idsOf S.Fresh m'.books := by
  refine h.preserves (I := fun m => S.books.LeadTo (· ≠ .property) S.idsOf S.Fresh m.books)
    start ?_
  intro m m' a _ r hr step so_far
  obtain ⟨x, there, -⟩ := Option.map_eq_some_iff.mp step.replaces.2.1
  obtain ⟨distinct, assigned, stored⟩ := known r hr x there
  obtain ⟨i, b, at_i, rfl, -, leads⟩ := step.leadTo there distinct assigned
  have leads := Model.leadTo_place (List.getElem?_eq_some_iff.mp at_i).1 leads
  rw [Model.place_siteOf at_i] at leads
  refine so_far.trans (leads.mono ?_ stored ?_)
  · exact fun sort other => ⟨other, fun same => absurd same other⟩
  · exact fun uid fresh => Model.fresh_of_uids_subset so_far.uids_subset fresh

theorem turnover_upgrade {counted : IdSort → Prop} {entities : List Entity}
    (perm : entities.Perm m.entities) :
    Turnover counted (fun _ => []) (fun _ => []) m.books (upgrade { m with entities }).books := by
  refine Model.turnover_withEntities (by simpa using perm) ?_ ?_
  all_goals
    unfold upgrade
    split <;> rfl

/-- Where merging a plan leads: what goes was stored, and what comes is new to the stored model. -/
theorem PlanMerged.leadTo {plan : List Entity} {notices : List Notice}
    {found : List (Option UInt64)} {settled : List (UInt64 × Bool)} {rs : List (Settled Entity)}
    (h : PlanMerged S plan M notices found settled rs)
    (distinct : (S.entities.map (·.id.uid)).Nodup) (distinctUids : ∀ e ∈ S.entities, DistinctUids e)
    (assigned : ∀ e ∈ S.entities, ∀ p ∈ e.properties, p.HasIndexUid) :
    S.books.LeadTo (· ≠ .property) S.idsOf S.Fresh M.books := by
  obtain ⟨m₁, m₂, placed, steps, rfl⟩ := h.steps
  have lengths := length_settled placed h.matched
  obtain ⟨distinct₁, uids⟩ := uids_perm_settled placed distinct h.matched h.distinct
  obtain ⟨all, -⟩ := entitySteps_settle steps lengths distinct₁ uids
  have kept : S.books.LeadTo (· ≠ .property) S.idsOf S.Fresh
      (S.keepEntities (·.id.uid ∈ claimed id found)).books := by
    refine ⟨_, _, S.turnover_keepEntities _ assigned, ?_, nofun⟩
    intro sort id hid
    obtain ⟨x, hx, hid⟩ := List.mem_flatMap.mp hid
    exact List.mem_flatMap.mpr ⟨x, List.mem_of_mem_filter hx, hid⟩
  refine (leadTo_of_entitySteps steps ?_ (leadTo_of_settling placed kept)).trans
    (.of_unchanged (turnover_upgrade (reorder_perm _ _)))
  intro r hr x there
  have there := mem_of_found all hr there
  refine ⟨distinctUids_settled placed (fun e he => distinctUids e (List.mem_of_mem_filter he)) x
    there, ?_⟩
  rcases stored_or_blank_of_settling (S := S) placed (fun y hy => List.mem_of_mem_filter hy) x there
    with stored | ⟨id, name, rfl⟩
  · exact ⟨assigned x stored, partIds_subset_idsOf stored⟩
  · simp [Entity.partIds]

end Entities

/-! ### Exactly what is gone -/

/-- The uids of the sort that were retired on the way from `S` to `M` are those that were in use and
are not any more, each once. Those that were retired before stay in front. -/
def RetiresGone (S M : Model) (sort : IdSort) : Prop :=
  ∃ gone, M.retired.uidsOf sort = S.retired.uidsOf sort ++ gone ∧ gone.Nodup ∧
    ∀ uid, uid ∈ gone ↔
      uid ∈ (S.idsOf sort).map (·.uid) ∧ uid ∉ (M.idsOf sort).map (·.uid)

section Gone

variable {S M : Model} {plan : List Entity} {notices : List Notice} {store store' : Store}

theorem retiresGone_of_leadTo {counted : IdSort → Prop}
    (h : S.books.LeadTo counted S.idsOf S.Fresh M.books) (distinct : S.census.Nodup)
    (sort : IdSort) : RetiresGone S M sort := by
  obtain ⟨gone, new, turnover, removed, fresh⟩ := h
  let uids (ids : List IdPair) : List UInt64 := ids.map (·.uid)
  have total (uid : UInt64) : (uids (M.idsOf sort)).count uid + (uids (gone sort)).count uid =
      (uids (S.idsOf sort)).count uid + (uids (new sort)).count uid := by
    have balance := ((turnover.live sort).map (·.uid)).count_eq uid
    rwa [List.map_append, List.map_append, List.count_append, List.count_append] at balance
  have once (uid : UInt64) : (uids (S.idsOf sort)).count uid ≤ 1 := by
    have books := S.census_perm.nodup_iff.mp distinct
    have of_sort := (List.nodup_flatMap.mp books).1 sort (by cases sort <;> decide)
    exact List.nodup_iff_count_le_one.mp of_sort.of_append_left uid
  have not_new {uid : UInt64} (live : uid ∈ uids (S.idsOf sort)) :
      (uids (new sort)).count uid = 0 := by
    refine List.count_eq_zero.mpr fun listed => ?_
    obtain ⟨id, hid, rfl⟩ := List.mem_map.mp listed
    exact (fresh sort id hid).2
      (S.census_perm.mem_iff.mpr (Books.mem_uids.mpr ⟨sort, .inl live⟩))
  have was_live {uid : UInt64} (listed : uid ∈ uids (gone sort)) :
      uid ∈ uids (S.idsOf sort) := List.map_subset _ (removed sort) listed
  refine ⟨uids (gone sort), turnover.retired sort, ?_, ?_⟩
  · refine List.nodup_iff_count_le_one.mpr fun uid => ?_
    by_cases listed : uid ∈ uids (gone sort)
    · have := total uid
      have := once uid
      have := not_new (was_live listed)
      omega
    · have := List.count_eq_zero.mpr listed
      omega
  · intro uid
    constructor
    · intro listed
      refine ⟨was_live listed, fun live => ?_⟩
      have : 0 < (uids (gone sort)).count uid := List.count_pos_iff.mpr listed
      have : 0 < (uids (M.idsOf sort)).count uid := List.count_pos_iff.mpr live
      have := total uid
      have := once uid
      have := not_new (was_live listed)
      omega
    · rintro ⟨live, unused⟩
      have : 0 < (uids (S.idsOf sort)).count uid := List.count_pos_iff.mpr live
      have : (uids (M.idsOf sort)).count uid = 0 := List.count_eq_zero.mpr unused
      have := total uid
      exact List.count_pos_iff.mp (by omega)

/-- Merging a plan into a consistent model retires exactly what is no longer in use. -/
theorem retiresGone_of_merge (stored : store.model.IsConsistent)
    (run : store.merge plan = .ok (notices, store')) (sort : IdSort) :
    RetiresGone store.model store'.model sort := by
  obtain ⟨found, settled, rs, phases⟩ := of_merge run
  refine retiresGone_of_leadTo (phases.leadTo stored.distinctUids
    (distinctUids_of_isConsistent stored) ?_) stored.census_nodup sort
  intro e he p hp index there
  exact (((stored.isChecked he).properties p hp).index index there).2

theorem retiresGone_of_merge_oneEntity :
    ∃ plan notices store', Plan.ofDrafts [] [.onlyId "Note"] = .ok plan ∧
      Store.merge plan ⟨oneEntity "Task", .counting⟩ = .ok (notices, store') ∧
      ∀ sort, RetiresGone (oneEntity "Task") store'.model sort := by
  obtain ⟨plan, notices, store', planned, run, -⟩ := exists_plan_of_merge [] [.onlyId "Note"]
    ⟨oneEntity "Task", .counting⟩ (by decide)
  exact ⟨plan, notices, store', planned, run, retiresGone_of_merge (by decide) run⟩

end Gone

end SchemaLedger.Merge
