import SchemaLedger.Proofs.Merge.Binding

/-!
# Merging without a notice

A merge that reports nothing has neither created nor removed anything, and it has given no element
another name or identifier. It still writes what no notice tells of: the order of the elements,
kinds, flags and targets, and the format version. So the document stays as it is exactly if it
says all this already.
-/

namespace SchemaLedger

open Text

/-! ### What stays without a notice -/

/-- The identifiers and the name of a property. -/
def Property.label (p : Property) : IdPair × Option IdPair × String := (p.id, p.index, p.name)

/-- The identifier and the name of a relation. -/
def Relation.label (r : Relation) : IdPair × String := (r.id, r.name)

/-- The entities have the same name and the same identifiers, and so have their elements, in
whatever order. -/
structure Entity.Resembles (x y : Entity) : Prop where
  id : y.id = x.id
  name : y.name = x.name
  lastProperty : y.lastProperty = x.lastProperty
  properties : (y.properties.map Property.label).Perm (x.properties.map Property.label)
  relations : (y.relations.map Relation.label).Perm (x.relations.map Relation.label)

/-- The models have the same entities by name and identifiers, in whatever order, and apart from the
format version they differ in nothing else. -/
structure Model.Resembles (S M : Model) : Prop where
  entities : ∃ xs, xs.Perm S.entities ∧ List.Forall₂ Entity.Resembles xs M.entities
  rest : M = Merge.upgrade { S with entities := M.entities }

theorem Entity.kept_bare (e : Entity) : e.kept.bare = e.bare.kept := by
  simp only [bare, kept, List.map_map]
  rfl

/-- Nothing is written but what is kept. -/
theorem Entity.toJson_kept (e : Entity) : e.kept.toJson = e.toJson := by
  have properties : (e.properties.map Property.kept).map Property.toJson =
      e.properties.map Property.toJson := by
    rw [List.map_map]
    rfl
  have relations : (e.relations.map Relation.kept).map Relation.toJson =
      e.relations.map Relation.toJson := by
    rw [List.map_map]
    rfl
  simp only [toJson, kept, properties, relations, List.map_eq_nil_iff]

namespace Merge

section Scopes

variable {β γ : Type} {key : β → UInt64} {label : β → γ} {before : List β} {ks : List UInt64}
variable {rs : List (Settled β)}

/-- What every result has to do with what was found for it, the lists have to do with one
another. -/
theorem forall₂_found {R : β → β → Prop}
    (each : ∀ r ∈ rs, ∃ x, r.found = some x ∧ R x r.made) :
    List.Forall₂ R (rs.filterMap (·.found)) (rs.map (·.made)) := by
  induction rs with
  | nil => exact .nil
  | cons r rs ih =>
      obtain ⟨x, found, related⟩ := each r List.mem_cons_self
      rw [List.filterMap_cons_some found, List.map_cons]
      exact .cons related (ih fun r hr => each r (List.mem_cons_of_mem _ hr))

/-- If all keys are given, then everything is selected. -/
theorem select_perm (distinct : (before.map key).Nodup) (nodup : ks.Nodup)
    (present : ks ⊆ before.map key) (kept : ∀ x ∈ before, key x ∈ ks) :
    (select key before ks).Perm before := by
  have parts := filter_perm_select distinct nodup present
  rw [List.filter_eq_self.mpr fun x hx => decide_eq_true (kept x hx)] at parts
  exact parts.symm

/-- If everything is found and results have the labels of what was found, then there are the same
labels as before. -/
theorem labels_perm (all : rs.filterMap (·.found) = select key before ks)
    (selected : (select key before ks).Perm before)
    (each : ∀ r ∈ rs, ∃ x, r.found = some x ∧ label r.made = label x) :
    ((rs.map (·.made)).map label).Perm (before.map label) := by
  have labels : (rs.map (·.made)).map label = (rs.filterMap (·.found)).map label := by
    refine List.forall₂_eq_eq_eq ▸ List.forall₂_map_left_iff.mpr
      (List.forall₂_map_right_iff.mpr (forall₂_found each).flip)
  rw [labels, all]
  exact selected.map _

end Scopes

variable {S m m' : Model} {i : Nat} {b b' : Site} {owner planned : Entity} {name : String}
variable {notices : List Notice} {targets : Targets}

/-! ### Properties -/

section Properties

variable {found : List (Option PropertyMatch)} {rs : List (Settled Property)}

theorem PropertyPlaced.of_existing {Fresh : UInt64 → Prop} {uid : UInt64} {f : Option Property}
    {last last' : Option IdPair} {id : IdPair}
    (h : PropertyPlaced Fresh (some (.existing uid)) f last id last') :
    ∃ q, f = some q ∧ id = q.id ∧ last' = last := by
  cases h
  exact ⟨_, rfl, rfl, rfl⟩

/-- An index of which nothing is told stays. -/
theorem IndexSettled.silent {Fresh : UInt64 → Prop} {p : Property}
    {stored now last last' : Option IdPair}
    (h : IndexSettled Fresh stored p.index last now last')
    (silent : indexNotices name false p stored = []) :
    now = stored ∧ last' = last ∧ (p.index = none → stored = none) := by
  generalize wanted : p.index = w at h ⊢
  cases h <;> simp [indexNotices, wanted] at silent ⊢

/-- A step without a notice finds its property and changes neither its identifiers nor its name, and
it touches nothing else. -/
theorem PropertyStep.silent {a : Property × Option PropertyMatch} {r : Settled Property}
    (h : PropertyStep m i name false b a r b') (silent : r.notices = []) :
    (∃ q, r.found = some q ∧ r.made.label = q.label) ∧
      b' = b.withProperties b'.entity.properties := by
  obtain ⟨p, f⟩ := a
  have called : r.made.name = p.name := by rw [h.made]
  have placed := h.placed
  have indexed := h.indexed
  have retired := h.retired
  rw [h.notices, propertyNotices, List.append_eq_nil_iff, List.append_eq_nil_iff] at silent
  obtain ⟨placement, index, rename⟩ := silent
  rcases f with _ | uid | ⟨old, new⟩
  · simp [placementNotices] at placement
  · obtain ⟨q, found, id, lastProperty⟩ := placed.of_existing
    rw [found] at indexed index rename retired
    obtain ⟨now, lastIndex, unwanted⟩ := indexed.silent index
    have name : q.name = p.name := by simpa [renameNotices] using rename
    have dropped : droppedUids p.index (some q) = [] := by
      cases wanted : p.index with
      | none =>
          have none_stored : q.index = none := unwanted wanted
          simp [droppedUids, Property.indexUid?, none_stored]
      | some _ => rfl
    refine ⟨⟨q, found, ?_⟩, ?_⟩
    · rw [Property.label, id, now, called, ← name]
      rfl
    · simp only [dropped, resetUids, List.append_nil] at retired
      have entity := h.entity
      rw [lastProperty] at entity
      change (⟨b'.entity, b'.lastIndex, b'.lastRelation, b'.retired⟩ : Site) = _
      rw [lastIndex, h.lastRelation, retired]
      exact congrArg (⟨·, b.lastIndex, b.lastRelation, b.retired⟩ : Entity → Site) entity
  · simp [placementNotices] at placement

/-- Without a notice the properties of an entity keep their identifiers and names, and nothing else
is touched. -/
theorem PropertiesMerged.silent (h : PropertiesMerged m i planned false b found rs b' [])
    (lt : i < m.entities.length) (distinct : (b.entity.properties.map (·.id.uid)).Nodup) :
    (b'.entity.properties.map Property.label).Perm (b.entity.properties.map Property.label) ∧
      b' = b.withProperties b'.entity.properties := by
  obtain ⟨all, perm⟩ := h.settles lt distinct
  obtain ⟨c, steps, final⟩ := h.steps
  obtain ⟨gone, told⟩ := List.append_eq_nil_iff.mp h.notices.symm
  have kept : ∀ p ∈ b.entity.properties,
      p.id.uid ∈ claimed PropertyMatch.storedUid found := by
    simpa using gone
  have silent : ∀ r ∈ rs, r.notices = [] := List.flatMap_eq_nil_iff.mp told
  rw [b.keepProperties_eq_self fun p hp => decide_eq_true (kept p hp)] at steps
  constructor
  · refine (perm.map _).trans (labels_perm all (select_perm distinct h.distinct
      (claimed_subset h.matched fun _ _ => PropertyMatched.mem) kept) ?_)
    intro r hr
    obtain ⟨a, -, s, t, step⟩ := exists_of_forall₂ steps.each hr
    exact (step.silent (silent r hr)).1
  · have same : c = b.withProperties c.entity.properties := by
      refine steps.preserves (I := fun c => c = b.withProperties c.entity.properties) rfl ?_
      intro s t a _ r hr step so_far
      rw [(step.silent (silent r hr)).2, so_far]
      rfl
    rw [final, same]
    rfl

end Properties

/-! ### Relations -/

section Relations

variable {found : List (Option UInt64)} {xs : List (Settled Relation)}

theorem RelationPlaced.of_some {Fresh : UInt64 → Prop} {f : Option UInt64} {q : Relation}
    {last last' : Option IdPair} {id : IdPair}
    (h : RelationPlaced Fresh f (some q) last id last') : id = q.id ∧ last' = last := by
  cases h
  exact ⟨rfl, rfl⟩

/-- A step without a notice finds its relation and changes neither its identifier nor its name, and
it touches nothing else. -/
theorem RelationStep.silent {a : Relation × Option UInt64} {x : Settled Relation}
    (h : RelationStep m i name false targets b a x b') (silent : x.notices = []) :
    (∃ q, x.found = some q ∧ x.made.label = q.label) ∧
      b' = b.withRelations b'.entity.relations := by
  have called : x.made.name = a.1.name := by rw [h.made]
  have placed := h.placed
  rw [h.notices] at silent
  cases found : x.found with
  | none => simp [found, relationNotices] at silent
  | some q =>
      rw [found] at placed silent
      have name : q.name = a.1.name := by simpa [relationNotices] using silent
      obtain ⟨id, lastRelation⟩ := placed.of_some
      refine ⟨⟨q, rfl, by rw [Relation.label, id, called, ← name]; rfl⟩, ?_⟩
      change (⟨b'.entity, b'.lastIndex, b'.lastRelation, b'.retired⟩ : Site) = _
      rw [h.lastIndex, lastRelation, h.retired]
      exact congrArg (⟨·, b.lastIndex, b.lastRelation, b.retired⟩ : Entity → Site) h.entity

/-- Without a notice the relations of an entity keep their identifiers and names, and nothing else
is touched. -/
theorem RelationsMerged.silent (h : RelationsMerged m i planned false targets b found xs b' [])
    (lt : i < m.entities.length) (distinct : (b.entity.relations.map (·.id.uid)).Nodup) :
    (b'.entity.relations.map Relation.label).Perm (b.entity.relations.map Relation.label) ∧
      b' = b.withRelations b'.entity.relations := by
  obtain ⟨all, perm⟩ := h.settles lt distinct
  obtain ⟨c, steps, final⟩ := h.steps
  obtain ⟨gone, told⟩ := List.append_eq_nil_iff.mp h.notices.symm
  have kept : ∀ r ∈ b.entity.relations, r.id.uid ∈ claimed id found := by simpa using gone
  have silent : ∀ x ∈ xs, x.notices = [] := List.flatMap_eq_nil_iff.mp told
  rw [b.keepRelations_eq_self fun r hr => decide_eq_true (kept r hr)] at steps
  constructor
  · refine (perm.map _).trans (labels_perm all (select_perm distinct h.distinct
      (claimed_subset h.matched fun _ _ => RelationMatched.mem) kept) ?_)
    intro x hx
    obtain ⟨a, -, s, t, step⟩ := exists_of_forall₂ steps.each hx
    exact (step.silent (silent x hx)).1
  · have same : c = b.withRelations c.entity.relations := by
      refine steps.preserves (I := fun c => c = b.withRelations c.entity.relations) rfl ?_
      intro s t a _ x hx step so_far
      rw [(step.silent (silent x hx)).2, so_far]
      rfl
    rw [final, same]
    rfl

end Relations

/-! ### Entities -/

section Entities

variable {a : Entity × UInt64 × Bool} {r : Settled Entity} {x : Entity}

/-- A step without a notice leaves an entity that resembles the one before, and changes nothing
else. -/
theorem EntityStep.silent (h : EntityStep targets m a r m') (old : a.2.2 = false)
    (found : r.found = some x) (distinct : DistinctUids x) (silent : r.notices = []) :
    x.Resembles r.made ∧ m' = { m with entities := m'.entities } := by
  obtain ⟨i, x', fs, ps, b₁, told₁, gs, rs, b₂, told₂, at_i, -, properties, relations, rfl, rfl⟩ :=
    h
  obtain rfl := Option.some.inj found
  have lt := (List.getElem?_eq_some_iff.mp at_i).1
  obtain ⟨renamed, rfl, rfl⟩ : entityRenamed x'.name a.1.name = [] ∧ told₁ = [] ∧ told₂ = [] := by
    simpa using silent
  rw [old] at properties relations
  obtain ⟨properties', site₁⟩ := properties.silent lt distinct.properties
  have relations₁ : b₁.entity.relations = x'.relations := by
    rw [site₁]
    rfl
  obtain ⟨relations', site₂⟩ := relations.silent lt (by rw [relations₁]; exact distinct.relations)
  rw [relations₁] at relations'
  have name : a.1.name = x'.name := by simpa [entityRenamed, eq_comm] using renamed
  have placed : b₂ = ((adoptedSite m a.1 x').withProperties b₁.entity.properties).withRelations
      b₂.entity.relations := by rw [← site₁, ← site₂]
  have properties₂ : b₂.entity.properties = b₁.entity.properties := by rw [site₂]; rfl
  constructor
  · exact {
      id := by rw [placed]; rfl
      name := by rw [placed]; exact name
      lastProperty := by rw [placed]; rfl
      properties := by
        change (b₂.entity.properties.map _).Perm _
        rw [properties₂]
        exact properties'
      relations := relations' }
  · rw [placed]
    rfl

end Entities

/-! ### Plans -/

section Plans

variable {M : Model} {plan : List Entity} {found : List (Option UInt64)}
variable {settled : List (UInt64 × Bool)} {rs : List (Settled Entity)}

/-- Without a notice no entity is created. -/
theorem eq_of_settling_silently {xs : List (Entity × Option UInt64)}
    (h : Traversal EntityPlaced m xs settled m') (silent : xs.flatMap additionNotices = []) :
    m' = m ∧ ∀ u ∈ settled, u.2 = false := by
  induction h with
  | nil => exact ⟨rfl, nofun⟩
  | cons step _ ih =>
      obtain ⟨first, others⟩ := List.append_eq_nil_iff.mp silent
      cases step with
      | found =>
          obtain ⟨same, old⟩ := ih others
          exact ⟨same, List.forall_mem_cons.mpr ⟨rfl, old⟩⟩
      | created => simp [additionNotices] at first

/-- Without a notice the result resembles the stored model. -/
theorem PlanMerged.silent (h : PlanMerged S plan M [] found settled rs)
    (distinct : (S.entities.map (·.id.uid)).Nodup)
    (distinctUids : ∀ e ∈ S.entities, DistinctUids e) : S.Resembles M := by
  obtain ⟨m₁, m₂, placed, steps, rfl⟩ := h.steps
  obtain ⟨⟨gone, added⟩, told⟩ := (List.append_eq_nil_iff.mp h.notices.symm).imp_left
    List.append_eq_nil_iff.mp
  have kept : ∀ e ∈ S.entities, e.id.uid ∈ claimed id found := by simpa using gone
  have silent : ∀ r ∈ rs, r.notices = [] := List.flatMap_eq_nil_iff.mp told
  obtain ⟨distinct₁, uids⟩ := uids_perm_settled placed distinct h.matched h.distinct
  have lengths := length_settled placed h.matched
  rw [S.keepEntities_eq_self fun e he => decide_eq_true (kept e he)] at placed
  obtain ⟨rfl, old⟩ := eq_of_settling_silently placed added
  obtain ⟨all, perm⟩ := entitySteps_settle steps lengths distinct₁ uids
  obtain ⟨-, entities⟩ := reorder_made steps lengths perm (uids.nodup_iff.mp distinct₁)
  obtain ⟨rest, each⟩ := steps.invariant (I := fun m => m = { m₁ with entities := m.entities })
    (R := fun _ r => ∃ x, r.found = some x ∧ x.Resembles r.made) rfl (by
      intro m m' a ha r hr step so_far
      obtain ⟨x, there, -⟩ := Option.map_eq_some_iff.mp step.replaces.2.1
      obtain ⟨resembles, same⟩ := step.silent (old a.2 (List.of_mem_zip ha).2) there
        (distinctUids x (mem_of_found all hr there)) (silent r hr)
      refine ⟨?_, x, there, resembles⟩
      rw [same, so_far])
  have every : ∀ r ∈ rs, ∃ x, r.found = some x ∧ x.Resembles r.made := by
    intro r hr
    obtain ⟨-, -, resembles⟩ := exists_of_forall₂ each hr
    exact resembles
  rw [entities, rest]
  refine ⟨⟨rs.filterMap (·.found), ?_, by simpa using forall₂_found every⟩, by simp⟩
  rw [all]
  refine select_perm distinct (uids.nodup_iff.mp distinct₁) (fun k hk => uids.mem_iff.mpr hk) ?_
  exact fun x hx => uids.mem_iff.mp (List.mem_map_of_mem hx)

end Plans

/-! ### What the document says -/

/-- The document of the model says of the entity `x` what the plan says of `e`, and the relations of
`x` point at the entities of the model that the plan names. -/
structure States (S : Model) (e x : Entity) : Prop where
  contents : x.kept.bare = e.kept.bare
  targets : x.relations.map (·.targetId) =
    e.relations.map fun r => (S.entity? r.target).map (·.id)

section Lists

variable {α β γ δ : Type} {xs ys : List α}

theorem forall₂_comp {R : α → β → Prop} {T : β → γ → Prop} {as : List α} {bs : List β}
    {cs : List γ} (h : List.Forall₂ R as bs) (h' : List.Forall₂ T bs cs) :
    List.Forall₂ (fun a c => ∃ b, R a b ∧ T b c) as cs := by
  induction h generalizing cs with
  | nil =>
      cases h'
      exact .nil
  | cons first _ ih =>
      cases h' with
      | cons second rest => exact .cons ⟨_, first, second⟩ (ih rest)

/-- A list is determined by its elements and the order of their keys, if these are distinct. -/
theorem eq_of_perm_of_map_eq {f : α → β} (perm : xs.Perm ys) (same : xs.map f = ys.map f)
    (distinct : (ys.map f).Nodup) : xs = ys := by
  refine List.forall₂_eq_eq_eq ▸ (List.forall₂_iff_zip.mpr ⟨perm.length_eq, fun {x y} both => ?_⟩)
  have key := (List.forall₂_iff_zip.mp (forall₂_of_map_eq same)).2 both
  obtain ⟨hx, hy⟩ := List.of_mem_zip both
  exact List.inj_on_of_nodup_map distinct (perm.mem_iff.mp hx) hy key

theorem map_eq_of_map_eq {f : α → β} {g : α → γ} (same : xs.map f = ys.map f)
    (only : ∀ x y, f x = f y → g x = g y) : xs.map g = ys.map g := by
  refine List.forall₂_eq_eq_eq ▸ List.forall₂_map_left_iff.mpr (List.forall₂_map_right_iff.mpr ?_)
  exact (forall₂_of_map_eq same).imp only

/-- Elements that are made up of their label and the rest are the same as lists if their rests are,
and their labels in whatever order, provided that the labels are told apart by names in the
rest. -/
theorem map_eq_of_labels (label : α → β) (rest : α → γ) (whole : α → δ) (name : α → String)
    (nameOf : β → String) (labels : (ys.map label).Perm (xs.map label))
    (rests : ys.map rest = xs.map rest) (made : ∀ x y, label x = label y → rest x = rest y →
      whole x = whole y) (named : ∀ x, nameOf (label x) = name x)
    (names : ys.map name = xs.map name)
    (distinct : (xs.map fun x => foldCase (name x)).Nodup) : ys.map whole = xs.map whole := by
  have named' (zs : List α) : (zs.map label).map nameOf = zs.map name := by
    rw [List.map_map]
    exact List.map_congr_left fun x _ => named x
  have distinct' : ((xs.map label).map nameOf).Nodup := by
    rw [named']
    exact List.Nodup.of_map (f := foldCase) (by rwa [List.map_map])
  have same := eq_of_perm_of_map_eq labels (by rw [named', named', names]) distinct'
  have both : ys.map (fun x => (label x, rest x)) = xs.map fun x => (label x, rest x) := by
    rw [← List.zip_map', ← List.zip_map', same, rests]
  exact map_eq_of_map_eq both fun x y equal =>
    made x y (congrArg Prod.fst equal) (congrArg Prod.snd equal)

end Lists

section Documents

variable {M : Model} {plan : List Entity} {e x y : Entity}

/-- Two entities with the same names and identifiers of which the same is said are the same in a
document. -/
theorem States.kept_eq (h : States S e x) (h' : States S e y) (resembles : x.Resembles y)
    (names : DistinctNames x) : y.kept = x.kept := by
  have said := h'.contents.trans h.contents.symm
  have flags : y.kept.bare.flags = x.kept.bare.flags := by rw [said]
  have properties : (y.properties.map Property.kept).map Property.bare =
      (x.properties.map Property.kept).map Property.bare := congrArg Entity.properties said
  have relations : (y.relations.map Relation.kept).map Relation.bare =
      (x.relations.map Relation.kept).map Relation.bare := congrArg Entity.relations said
  rw [List.map_map, List.map_map] at properties relations
  have properties' : y.properties.map Property.kept = x.properties.map Property.kept := by
    refine map_eq_of_labels Property.label (Property.bare ∘ Property.kept) Property.kept
      Property.name (·.2.2) resembles.properties properties ?_ (fun _ => rfl) ?_ names.properties
    · intro p q label rest
      have made (p : Property) : p.kept =
        { (Property.bare ∘ Property.kept) p with id := p.label.1, index := p.label.2.1 } := rfl
      rw [made p, made q, label, rest]
    · exact map_eq_of_map_eq properties fun p q same =>
        (Property.of_bare_eq (q := p.kept) (p := q.kept) same).1
  have relations' : y.relations.map Relation.kept = x.relations.map Relation.kept := by
    refine map_eq_of_labels Relation.label Relation.targetId Relation.kept Relation.name (·.2)
      resembles.relations (h'.targets.trans h.targets.symm) ?_ (fun _ => rfl) ?_ names.relations
    · intro r z label target
      have made (r : Relation) : r.kept =
        { id := r.label.1, name := r.label.2, targetId := r.targetId } := rfl
      rw [made r, made z, label, target]
    · exact map_eq_of_map_eq relations fun r z same =>
        (Relation.of_bare_eq (q := r.kept) (r := z.kept) same).1
  have flags' : y.flags = x.flags := flags
  rw [Entity.kept, Entity.kept, resembles.id, resembles.lastProperty, resembles.name, flags',
    properties', relations']

/-- Entities that are the same in a document are spoken of in the same way. -/
theorem States.of_kept_eq (h : States S e y) (same : x.kept = y.kept) : States S e x := by
  have relations : x.relations.map Relation.kept = y.relations.map Relation.kept :=
    congrArg Entity.relations same
  exact {
    contents := by rw [same, h.contents]
    targets := (map_eq_of_map_eq relations fun _ _ => congrArg Relation.targetId).trans h.targets }

theorem upgrade_entities_eq (es : List Entity) :
    upgrade { S with entities := es } = { upgrade S with entities := es } := by
  unfold upgrade
  split <;> rfl

theorem upgrade_eq_self (version : (upgrade S).formatVersion = S.formatVersion)
    (minimum : (upgrade S).parserMinimum = S.parserMinimum) : upgrade S = S := by
  by_cases old : S.formatVersion ≤ currentFormat
  · have version : currentFormat = S.formatVersion := by simpa [upgrade, old] using version
    have minimum : currentFormat = S.parserMinimum := by simpa [upgrade, old] using minimum
    have same (v w : UInt32) (hv : v = S.formatVersion) (hw : w = S.parserMinimum) :
        { S with formatVersion := v, parserMinimum := w } = S := by
      rw [hv, hw]
    rw [upgrade, if_pos old]
    exact same _ _ version minimum
  · rw [upgrade, if_neg old]

end Documents

end Merge

/-! ### Resembling models -/

namespace Entity.Resembles

variable {x y : Entity} (h : x.Resembles y)
include h

theorem exists_property {p : Property} (hp : p ∈ y.properties) :
    ∃ q ∈ x.properties, q.label = p.label :=
  List.mem_map.mp (h.properties.mem_iff.mp (List.mem_map_of_mem hp))

theorem exists_relation {r : Relation} (hr : r ∈ y.relations) :
    ∃ q ∈ x.relations, q.label = r.label :=
  List.mem_map.mp (h.relations.mem_iff.mp (List.mem_map_of_mem hr))

theorem properties_ne_nil (used : y.properties ≠ []) : x.properties ≠ [] := by
  have length := h.properties.length_eq
  rw [List.length_map, List.length_map] at length
  exact List.ne_nil_of_length_pos (length ▸ List.length_pos_iff.mpr used)

theorem distinctUids (distinct : Merge.DistinctUids x) : Merge.DistinctUids y := by
  have properties := h.properties.map (·.1.uid)
  have relations := h.relations.map (·.1.uid)
  rw [List.map_map, List.map_map] at properties relations
  exact ⟨properties.nodup_iff.mpr distinct.properties, relations.nodup_iff.mpr distinct.relations⟩

theorem allNumbered (checked : x.IsChecked) : Merge.AllNumbered y where
  properties p hp := by
    obtain ⟨q, hq, same⟩ := h.exists_property hp
    have sound := checked.properties q hq
    obtain ⟨id, index, -⟩ : q.id = p.id ∧ q.index = p.index ∧ q.name = p.name := by
      simpa [Property.label] using same
    refine ⟨id ▸ sound.id, fun i there => (sound.index i (index.trans there)).1⟩
  relations used r hr := by
    obtain ⟨q, hq, same⟩ := h.exists_relation hr
    have id : q.id = r.id := congrArg Prod.fst same
    exact id ▸ (checked.relations (h.properties_ne_nil used) q hq).id

end Entity.Resembles

namespace Model.Resembles

variable {S M : Model} (h : S.Resembles M)
include h

theorem eq : M = { Merge.upgrade S with entities := M.entities } := by
  rw [← Merge.upgrade_entities_eq]
  exact h.rest

/-- Every entity of the result is one of the stored model. -/
theorem exists_entity {y : Entity} (hy : y ∈ M.entities) : ∃ x ∈ S.entities, x.Resembles y := by
  obtain ⟨xs, perm, each⟩ := h.entities
  obtain ⟨x, hx, resembles⟩ := exists_of_forall₂ each hy
  exact ⟨x, perm.mem_iff.mp hx, resembles⟩

theorem isAssigned (stored : S.IsConsistent) : Merge.IsAssigned M where
  numbered y hy := by
    obtain ⟨x, hx, resembles⟩ := h.exists_entity hy
    exact resembles.id ▸ (stored.isChecked hx).id
  allNumbered y hy := by
    obtain ⟨x, hx, resembles⟩ := h.exists_entity hy
    exact resembles.allNumbered (stored.isChecked hx)
  distinct := by
    obtain ⟨xs, perm, each⟩ := h.entities
    have uids : M.entities.map (·.id.uid) = xs.map (·.id.uid) := by
      refine List.forall₂_eq_eq_eq ▸ List.forall₂_map_left_iff.mpr
        (List.forall₂_map_right_iff.mpr (each.flip.imp ?_))
      intro y x resembles
      rw [resembles.id]
    rw [uids]
    exact (perm.map _).nodup_iff.mpr stored.distinctUids
  distinctUids y hy := by
    obtain ⟨x, hx, resembles⟩ := h.exists_entity hy
    exact resembles.distinctUids
      ⟨stored.distinctPropertyUids hx, stored.distinctRelationUids hx⟩

theorem isWritable (stored : S.IsWritable)
    (targets : ∀ y ∈ M.entities, ∀ r ∈ y.relations, ∀ t, r.targetId = some t → ¬ t.IsUnassigned) :
    M.IsWritable where
  lastEntity := by
    rw [h.eq]
    simpa using stored.lastEntity
  lastIndex := by
    rw [h.eq]
    simpa using stored.lastIndex
  lastRelation := by
    rw [h.eq]
    simpa using stored.lastRelation
  lastProperty y hy := by
    obtain ⟨x, hx, resembles⟩ := h.exists_entity hy
    rw [resembles.lastProperty]
    exact stored.lastProperty x hx
  targets := targets

/-- The document stays as it is if what it says of the entities does, and the format version. -/
theorem text_eq_iff (stored : S.IsWritable) (merged : M.IsWritable) :
    M.text = S.text ↔ M.entities.map Entity.kept = S.entities.map Entity.kept ∧
      Merge.upgrade S = S := by
  constructor
  · intro same
    have read := congrArg Model.ofText same
    rw [ofText_text merged, ofText_text stored] at read
    have kept := Except.ok.inj read
    have version : M.formatVersion = S.formatVersion := by
      have version := congrArg Model.formatVersion kept
      exact version
    have minimum : M.parserMinimum = S.parserMinimum := by
      have minimum := congrArg Model.parserMinimum kept
      exact minimum
    rw [h.eq] at version minimum
    exact ⟨congrArg Model.entities kept, Merge.upgrade_eq_self version minimum⟩
  · rintro ⟨entities, upgraded⟩
    have values : M.entities.map Entity.toJson = S.entities.map Entity.toJson := by
      have same := congrArg (List.map Entity.toJson) entities
      simpa [Function.comp_def, Entity.toJson_kept] using same
    rw [h.eq, upgraded]
    simp only [Model.text, Model.toJson, values]

end Model.Resembles

namespace Merge

variable {S M : Model} {plan : List Entity}

/-- A model that realizes the plan says what the plan says, and so does one that it resembles, as
far as targets are concerned. -/
theorem Realizes.states (h : Realizes plan M) (resembles : S.Resembles M)
    (stored : S.IsConsistent) : List.Forall₂ (States S) plan M.entities := by
  apply (forall₂_and_mem h.reads).imp
  rintro e y ⟨same, hy⟩
  refine ⟨by rw [Entity.kept_bare, Entity.kept_bare, same], ?_⟩
  have relations : e.relations.map Relation.bare = y.relations.map Relation.bare :=
    congrArg Entity.relations same.symm
  refine List.forall₂_eq_eq_eq ▸ List.forall₂_map_left_iff.mpr (List.forall₂_map_right_iff.mpr ?_)
  apply (forall₂_and_mem (forall₂_of_map_eq relations)).flip.imp
  rintro z r ⟨same, hz⟩
  obtain ⟨f, hf, target, -⟩ := h.targets y hy z hz
  have named := h.sameName_of_target (resembles.isAssigned stored).distinct hy hf hz target
  obtain ⟨x, hx, alike⟩ := resembles.exists_entity hf
  have located : S.entity? r.target = some x := by
    rw [alike.name, ← (Relation.of_bare_eq same).2] at named
    exact find?_eq_some_of_only hx (decide_eq_true named) fun e he there =>
      stored.eq_of_sameName he hx ((of_decide_eq_true there).trans named.symm)
  rw [target, located, alike.id]
  rfl

/-- If the same is said of two models that resemble one another, then they are the same in a
document. -/
theorem map_kept_eq_of_states (some_planned : ∀ e ∈ plan, e.properties ≠ [])
    (resembles : S.Resembles M) (stored : S.IsConsistent)
    (said : List.Forall₂ (States S) plan S.entities)
    (said' : List.Forall₂ (States S) plan M.entities) :
    M.entities.map Entity.kept = S.entities.map Entity.kept := by
  have used : ∀ x ∈ S.entities, x.properties ≠ [] := by
    intro x hx none_left
    obtain ⟨e, he, states⟩ := exists_of_forall₂ said hx
    apply some_planned e he
    have same := congrArg Entity.properties states.contents
    simpa [Entity.bare, Entity.kept, none_left, eq_comm] using same
  refine List.forall₂_eq_eq_eq ▸ List.forall₂_map_left_iff.mpr (List.forall₂_map_right_iff.mpr ?_)
  apply (forall₂_comp (forall₂_and_mem said').flip (forall₂_and_mem said)).imp
  rintro y x ⟨e, ⟨states', hy⟩, states, hx⟩
  obtain ⟨x', hx', alike⟩ := resembles.exists_entity hy
  have name : y.kept.bare.name = x.kept.bare.name := by rw [states'.contents, states.contents]
  obtain rfl : x' = x := by
    apply stored.eq_of_sameName hx' hx
    rw [← alike.name, show y.name = x.name from name]
    exact SameName.refl _
  exact states.kept_eq states' alike (distinctNames_of_isConsistent stored used _ hx)

section Runs

variable {kinds : List PropertyKind} {drafts : List EntityDraft} {store store' : Store}

/-- If drafts are merged into a consistent model without a notice, then all that was stored is still
there, with its identifiers and names, and nothing else has come to it. The document stays as it is
exactly if the stored one says what the plan says, in its order, and has an up-to-date format. -/
theorem text_eq_iff_of_silent_merge (planned : Plan.ofDrafts kinds drafts = .ok plan)
    (stored : store.model.IsConsistent) (run : store.merge plan = .ok ([], store')) :
    store.model.Resembles store'.model ∧
      (store'.model.text = store.model.text ↔
        List.Forall₂ (States store.model) plan store.model.entities ∧
          upgrade store.model = store.model) := by
  obtain ⟨found, settled, rs, phases⟩ := of_merge run
  have resembles := phases.silent stored.distinctUids (distinctUids_of_isConsistent stored)
  have some_planned := Plan.properties_ne_nil planned
  have realizes : Realizes plan store'.model := phases.realizes some_planned
    (hasUniqueUids_of_isConsistent stored) (resembles.isAssigned stored)
  have states := realizes.states resembles stored
  have writable : store'.model.IsWritable := by
    refine resembles.isWritable stored.isWritable fun y hy r hr t there zero => ?_
    obtain ⟨f, hf, target, -⟩ := realizes.targets y hy r hr
    rw [there, Option.some.injEq] at target
    exact (resembles.isAssigned stored).numbered f hf (target ▸ zero.1)
  refine ⟨resembles, ?_⟩
  rw [resembles.text_eq_iff stored.isWritable writable]
  refine and_congr_left fun _ => ⟨fun kept => ?_, fun said =>
    map_kept_eq_of_states some_planned resembles stored said states⟩
  apply (forall₂_comp states (forall₂_of_map_eq kept)).imp
  rintro e x ⟨y, said, same⟩
  exact said.of_kept_eq same.symm

/-- A model with one entity that has a text beside its ID. -/
def taskWithText : Model :=
  { Model.empty with
    entities := [{
      id := ⟨1, 1⟩, lastProperty := some ⟨2, 3⟩, name := "Task",
      properties := [
        { id := ⟨1, 2⟩, name := "id", kind := .long, flags := .objectId },
        { id := ⟨2, 3⟩, name := "text", kind := .string }] }]
    lastEntity := some ⟨1, 1⟩ }

/-- A schema in which the text has become a number. -/
def textAsInt : List EntityDraft :=
  [{ name := "Task"
     fields := [{ name := "id", base := .long }, { name := "text", base := .int }] }]

theorem exists_silent_merge_textAsInt :
    ∃ (plan : List Entity) (store' : Store), Plan.ofDrafts [] textAsInt = .ok plan ∧
      Store.merge plan ⟨taskWithText, .counting⟩ = .ok ([], store') ∧
      store'.model.IsConsistent ∧
      (store'.model.entities.flatMap Entity.properties).map Property.kind = [.long, .int] := by
  have run : (do
      let plan ← Plan.ofDrafts [] textAsInt
      let merged ← Store.merge plan ⟨taskWithText, .counting⟩
      return (merged.1, merged.2.model.check,
        (merged.2.model.entities.flatMap Entity.properties).map Property.kind)) =
      .ok ([], .ok (), [.long, .int]) := by
    decide
  simp only [except_bind_eq_ok, except_pure_eq_ok, Prod.exists, Prod.mk.injEq] at run
  obtain ⟨plan, planned, notices, store', merged, rfl, consistent, kinds⟩ := run
  exact ⟨plan, store', planned, merged, consistent, kinds⟩

theorem text_eq_iff_of_silent_merge_textAsInt :
    ∃ (plan : List Entity) (store' : Store), Plan.ofDrafts [] textAsInt = .ok plan ∧
      taskWithText.IsConsistent ∧ Store.merge plan ⟨taskWithText, .counting⟩ = .ok ([], store') ∧
      taskWithText.Resembles store'.model ∧
      (store'.model.text = taskWithText.text ↔
        List.Forall₂ (States taskWithText) plan taskWithText.entities ∧
          upgrade taskWithText = taskWithText) := by
  obtain ⟨plan, store', planned, run, -⟩ := exists_silent_merge_textAsInt
  have stored : taskWithText.IsConsistent := by decide
  exact ⟨plan, store', planned, stored, run, text_eq_iff_of_silent_merge planned stored run⟩

/-- The kind of a property is overwritten without a notice, and the document is another one. -/
theorem text_ne_of_silent_merge_textAsInt :
    ∃ (plan : List Entity) (store' : Store), Plan.ofDrafts [] textAsInt = .ok plan ∧
      taskWithText.IsConsistent ∧ Store.merge plan ⟨taskWithText, .counting⟩ = .ok ([], store') ∧
      store'.model.IsConsistent ∧ store'.model.text ≠ taskWithText.text := by
  obtain ⟨plan, store', planned, run, merged, kinds⟩ := exists_silent_merge_textAsInt
  have stored : taskWithText.IsConsistent := by decide
  refine ⟨plan, store', planned, stored, run, merged, fun same => ?_⟩
  have read := congrArg Model.read same
  rw [Model.read_text merged, Model.read_text stored] at read
  have kept := congrArg (fun m : Model => (m.entities.flatMap Entity.properties).map Property.kind)
    (Except.ok.inj read)
  have kinds' : (store'.model.kept.entities.flatMap Entity.properties).map Property.kind =
      [.long, .int] := by
    rw [← kinds]
    simp [Model.kept, Entity.kept, Property.kept, List.flatMap_map, List.map_flatMap,
      Function.comp_def]
  rw [kinds'] at kept
  revert kept
  decide

end Runs

end Merge

end SchemaLedger
