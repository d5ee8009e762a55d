import SchemaLedger.Merge.Relations
import SchemaLedger.Proofs.Merge.Claiming
import SchemaLedger.Proofs.Merge.Traversal
import SchemaLedger.Proofs.Store.Revision
import SchemaLedger.Proofs.Store.Site

/-!
# What becomes of the relations of an entity

Relations go the way of properties: those that nobody claims are retired, the others are gone
through one by one. They cannot be reset and have no index, but they point at an entity, which is
found by the name that the plan has for it.
-/

namespace SchemaLedger.Merge

open Text

/-! ### One relation after the other -/

/-- Where the identifier of a merged relation comes from. A stored relation keeps it, and a new one
gets the next local id of the model with a fresh uid. -/
inductive RelationPlaced (Fresh : UInt64 → Prop) : Option UInt64 → Option Relation →
    Option IdPair → IdPair → Option IdPair → Prop
  | existing {q : Relation} {last : Option IdPair} :
      RelationPlaced Fresh (some q.id.uid) (some q) last q.id last
  | created {uid : UInt64} {last : Option IdPair} : Fresh uid →
      RelationPlaced Fresh none none last ⟨IdPair.next last, uid⟩ (some ⟨IdPair.next last, uid⟩)

/-- The plan's name for the target leads to an entity with this identifier. -/
def PointsAt (targets : Targets) (ids : List IdPair) (r : Relation) (target : IdPair) : Prop :=
  targets.lookup (foldCase r.target) = some target.uid ∧ target ∈ ids

/-- Everything that is reported about a relation. -/
def relationNotices (owner : String) (isNew : Bool) (r : Relation) : Option Relation → List Notice
  | none => if isNew then [] else [.relationAdded owner r.name]
  | some q => if q.name ≠ r.name then [.relationRenamed owner q.name r.name] else []

/-- What finding or creating a relation does at a site: the relation `q` stands at position `j` and
waits for its target and the rest of the plan. -/
structure RelationFound (m : Model) (i : Nat) (r : Relation) (matched : Option UInt64) (b : Site)
    (found : Option Relation) (j : Nat) (q : Relation) (b' : Site) : Prop where
  there : b'.entity.relations[j]? = some q
  touches : ∀ y, Touches b.entity.relations found y (b'.entity.relations.set j y)
  placed : RelationPlaced (m.place i b).Fresh matched found b.lastRelation q.id b'.lastRelation
  name : q.name = (found.map (·.name)).getD r.name
  entity : b'.entity = { b.entity with relations := b'.entity.relations }
  lastIndex : b'.lastIndex = b.lastIndex
  retired : b'.retired = b.retired

/-- What merging a relation does at a site of the model. -/
structure RelationStep (m : Model) (i : Nat) (owner : String) (isNew : Bool) (targets : Targets)
    (b : Site) (planned : Relation × Option UInt64) (x : Settled Relation) (b' : Site) :
    Prop where
  touches : Touches b.entity.relations x.found x.made b'.entity.relations
  made : x.made =
    { planned.1 with id := x.made.id, targetId := x.made.targetId, uidRequested := false }
  target : ∃ t, x.made.targetId = some t ∧
    PointsAt targets ((m.place i b).entities.map (·.id)) planned.1 t
  placed : RelationPlaced (m.place i b).Fresh planned.2 x.found b.lastRelation x.made.id
    b'.lastRelation
  entity : b'.entity = { b.entity with relations := b'.entity.relations }
  lastIndex : b'.lastIndex = b.lastIndex
  retired : b'.retired = b.retired
  notices : x.notices = relationNotices owner isNew planned.1 x.found

section Steps

variable {m : Model} {i j : Nat} {b : Site} {s t : Store} {planned : Entity} {r : Relation}
variable {isNew : Bool} {notices : List Notice} {targets : Targets}

theorem locateRelation_eq_ok {uid : UInt64} (at_site : s.model = m.place i b)
    (h : i < m.entities.length) :
    locateRelation planned i uid s = .ok j t ↔
      b.entity.findRelationByUid? uid = some j ∧ s = t := by
  simp only [locateRelation, Revision.bind_eq_ok, Revision.entityAt_eq_ok, at_site,
    Model.place_entity h]
  cases hf : b.entity.findRelationByUid? uid <;> simp [hf]

theorem targetOf_eq_ok {target : IdPair} (h : targetOf targets m r = .ok target) :
    PointsAt targets (m.entities.map (·.id)) r target := by
  unfold targetOf at h
  split at h
  · next e found =>
      obtain rfl := Except.ok.inj h
      obtain ⟨uid, looked_up, found⟩ := Option.bind_eq_some_iff.mp found
      obtain rfl : e.id.uid = uid := by simpa using List.find?_some found
      exact ⟨looked_up, List.mem_map_of_mem (List.mem_of_find?_eq_some found)⟩
  · cases h

theorem ids_place (b' : Site) (same : b'.entity.id = b.entity.id) :
    (m.place i b').entities.map (·.id) = (m.place i b).entities.map (·.id) := by
  simp [Model.place, List.map_set, same]

theorem RelationFound.existing {q : Relation} (there : b.entity.relations[j]? = some q) :
    RelationFound m i r (some q.id.uid) b (some q) j q b where
  there
  touches y := Touches.set y there
  placed := .existing
  name := rfl
  entity := rfl
  lastIndex := rfl
  retired := rfl

theorem RelationFound.created {uid : UInt64} (fresh : (m.place i b).Fresh uid) :
    RelationFound m i r none b none b.entity.relations.length
      { id := ⟨IdPair.next b.lastRelation, uid⟩, name := r.name }
      { b.withRelations
          (b.entity.relations ++ [{ id := ⟨IdPair.next b.lastRelation, uid⟩, name := r.name }]) with
        lastRelation := some ⟨IdPair.next b.lastRelation, uid⟩ } where
  there := by simp [Site.withRelations]
  touches y := by simpa [Site.withRelations] using Touches.append b.entity.relations y
  placed := .created fresh
  name := rfl
  entity := rfl
  lastIndex := rfl
  retired := rfl

/-- Placing a relation finds or creates it at the site. -/
theorem of_placeRelation {matched : Option UInt64} (at_site : s.model = m.place i b)
    (h : i < m.entities.length)
    (run : placeRelation planned i isNew r matched s = .ok (j, notices) t) :
    ∃ found q b', RelationFound m i r matched b found j q b' ∧ t.model = m.place i b' ∧
      notices ++ (if q.name ≠ r.name then [.relationRenamed planned.name q.name r.name] else []) =
        relationNotices planned.name isNew r found := by
  cases matched with
  | none =>
      simp only [placeRelation, Revision.bind_eq_ok, Revision.pure_eq_ok, Prod.mk.injEq] at run
      obtain ⟨_, s', created, ⟨rfl, rfl⟩, rfl⟩ := run
      obtain ⟨e, uid, at_i, assigned, unknown, rfl, after⟩ := Revision.of_createRelation created
      rw [at_site, Model.place_entity h] at at_i
      obtain rfl := Option.some.inj at_i
      rw [at_site, Model.addRelation_place h] at after
      rw [at_site] at unknown
      exact ⟨none, _, _, .created (.of_unmentioned assigned unknown), after,
        by simp [relationNotices]⟩
  | some uid =>
      simp only [placeRelation, Revision.bind_eq_ok, Revision.within_eq_ok,
        locateRelation_eq_ok at_site h, Revision.pure_eq_ok, Prod.mk.injEq] at run
      obtain ⟨j, _, ⟨located, rfl⟩, ⟨rfl, rfl⟩, rfl⟩ := run
      obtain ⟨q, there, rfl⟩ := of_findIdx? located
      exact ⟨some q, q, b, .existing there, at_site, rfl⟩

/-- Merging a relation is a step at the site. -/
theorem of_mergeRelation {matched : Option UInt64} {uid : UInt64}
    (at_site : s.model = m.place i b) (h : i < m.entities.length)
    (run : mergeRelation planned i isNew targets r matched s = .ok (uid, notices) t) :
    ∃ x b', RelationStep m i planned.name isNew targets b (r, matched) x b' ∧
      t.model = m.place i b' ∧ uid = x.made.id.uid ∧ notices = x.notices := by
  simp only [mergeRelation, Revision.bind_eq_ok, Revision.model_eq_ok, Revision.ofExcept_eq_ok,
    Revision.relationAt_eq_ok, Revision.update_eq_ok, Revision.pure_eq_ok, Prod.exists,
    Prod.mk.injEq] at run
  obtain ⟨j, placed, s', place, _, _, ⟨rfl, rfl⟩, target, _, ⟨points, rfl⟩, stored, _,
    ⟨there, rfl⟩, -, _, rfl, ⟨rfl, rfl⟩, rfl⟩ := run
  obtain ⟨found, q, b₁, how, at_site', told⟩ := of_placeRelation at_site h place
  rw [at_site', Model.relationAt_place h, how.there] at there
  obtain rfl := Option.some.inj there
  have points := targetOf_eq_ok points
  rw [at_site', ids_place (b := b) b₁ (by rw [how.entity])] at points
  let made := adoptRelation target r q
  refine ⟨⟨found, made, _⟩, b₁.withRelations (b₁.entity.relations.set j made), ?_, ?_, rfl, rfl⟩
  · exact {
      touches := how.touches made
      made := rfl
      target := ⟨target, rfl, points⟩
      placed := how.placed
      entity := by
        simp only [Site.withRelations]
        rw [how.entity]
      lastIndex := how.lastIndex
      retired := how.retired
      notices := told }
  · change s'.model.modifyRelation i _ _ = _
    rw [at_site']
    exact Model.modifyRelation_place h how.there _

/-- The first relation is merged, and then the others are merged. -/
theorem mergeEachRelation_cons_eq_ok {x : Relation × Option UInt64}
    {xs : List (Relation × Option UInt64)} {uids : List UInt64} :
    mergeEachRelation planned i isNew targets (x :: xs) s = .ok (uids, notices) t ↔
      ∃ uid told s' uids' others,
        mergeRelation planned i isNew targets x.1 x.2 s = .ok (uid, told) s' ∧
        mergeEachRelation planned i isNew targets xs s' = .ok (uids', others) t ∧
        uids = uid :: uids' ∧ notices = told ++ others := by
  simp only [mergeEachRelation, Revision.bind_eq_ok, Revision.pure_eq_ok, Prod.exists,
    Prod.mk.injEq]
  constructor
  · rintro ⟨uid, told, s', first, uids', others, _, rest, ⟨rfl, rfl⟩, rfl⟩
    exact ⟨uid, told, s', uids', others, first, rest, rfl, rfl⟩
  · rintro ⟨uid, told, s', uids', others, first, rest, rfl, rfl⟩
    exact ⟨uid, told, s', first, uids', others, t, rest, ⟨rfl, rfl⟩, rfl⟩

/-- Merging relations one after the other goes through them at the site. -/
theorem of_mergeEachRelation {xs : List (Relation × Option UInt64)} {uids : List UInt64}
    (at_site : s.model = m.place i b) (h : i < m.entities.length)
    (run : mergeEachRelation planned i isNew targets xs s = .ok (uids, notices) t) :
    ∃ rs b', Traversal (RelationStep m i planned.name isNew targets) b xs rs b' ∧
      t.model = m.place i b' ∧ uids = rs.map (·.made.id.uid) ∧
      notices = rs.flatMap (·.notices) := by
  induction xs generalizing s b uids notices with
  | nil =>
      simp only [mergeEachRelation, Revision.pure_eq_ok, Prod.mk.injEq] at run
      obtain ⟨⟨rfl, rfl⟩, rfl⟩ := run
      exact ⟨[], b, .nil, at_site, rfl, rfl⟩
  | cons x xs ih =>
      obtain ⟨uid, told, s', uids', others, first, rest, rfl, rfl⟩ :=
        mergeEachRelation_cons_eq_ok.mp run
      obtain ⟨y, b₁, step, at_site', rfl, rfl⟩ := of_mergeRelation at_site h first
      obtain ⟨ys, b', steps, at_site'', rfl, rfl⟩ := ih at_site' rest
      exact ⟨y :: ys, b', .cons step steps, at_site'', rfl, rfl⟩

end Steps

/-! ### Identifiers -/

variable {S m : Model} {i : Nat} {b b' : Site} {owner planned : Entity} {r : Relation}
variable {name : String} {isNew : Bool} {notices : List Notice} {x : Settled Relation}
variable {targets : Targets} {ids : List IdPair}

/-- The last relation identifier never goes down, and a new relation gets a local id above it. -/
theorem RelationPlaced.advances {Fresh : UInt64 → Prop} {matched : Option UInt64}
    {found : Option Relation} {last last' : Option IdPair} {id : IdPair}
    (h : RelationPlaced Fresh matched found last id last') (assigned : id.id ≠ 0) :
    IdPair.lastId last ≤ IdPair.lastId last' ∧ (found = none → IdPair.lastId last < id.id) := by
  cases h with
  | existing => exact ⟨UInt32.le_refl _, nofun⟩
  | created =>
      have above := IdPair.lastId_lt_next assigned
      exact ⟨UInt32.le_of_lt above, fun _ => above⟩

theorem RelationPlaced.found_eq {Fresh : UInt64 → Prop} {matched : Option UInt64}
    {found : Option Relation} {last last' : Option IdPair} {id : IdPair}
    (h : RelationPlaced Fresh matched found last id last') :
    found.map (·.id.uid) = matched ∧ ∀ q, found = some q → id = q.id := by
  cases h with
  | existing => exact ⟨rfl, fun q hq => by rw [Option.some.inj hq]⟩
  | created => exact ⟨rfl, nofun⟩

theorem RelationStep.retains {a : Relation × Option UInt64}
    (h : RelationStep m i name isNew targets b a x b') : b.Retains b' := by
  have id : b'.entity.id = b.entity.id := by rw [h.entity]
  have properties : b'.entity.properties = b.entity.properties := by rw [h.entity]
  intro uid _ hu
  simp only [Site.census, Entity.ownUids, List.cons_append, List.mem_cons, List.mem_append, id,
    properties, h.retired] at hu ⊢
  refine hu.imp_right (Or.imp_left (Or.imp_right fun hu => ?_))
  rw [List.map_eq_flatMap] at hu ⊢
  rcases h.touches.mem_flatMap _ hu with hu | ⟨q, hq, hu⟩
  · exact hu
  · rw [← h.placed.found_eq.2 q hq] at hu
    exact List.mem_flatMap.mpr ⟨x.made, h.touches.mem, hu⟩

theorem RelationStep.evolves {a : Relation × Option UInt64}
    (h : RelationStep m i name isNew targets b a x b') (numbered : x.made.id.id ≠ 0) :
    b.Evolves b' :=
  ⟨by rw [h.entity], h.retains, by rw [h.retired]; exact .refl _,
    by rw [h.entity]; exact UInt32.le_refl _, by rw [h.lastIndex]; exact UInt32.le_refl _,
    (h.placed.advances numbered).1⟩

/-! ### Origins -/

/-- Where the identifier of a merged relation comes from, given what is stored. -/
abbrev RelationOrigin (S : Model) (owner : Entity) (r : Relation) :
    Option Relation → IdPair → Prop :=
  Origin Relation.id owner.relations (owner.relation? r.name) r.id.uid r.uidRequested S.lastRelation
    S.Fresh

/-- What becomes of a planned relation, given the stored entity it belongs to. -/
structure RelationOutcome (S : Model) (owner : Entity) (targets : Targets) (ids : List IdPair)
    (r : Relation) (x : Settled Relation) : Prop where
  made : x.made = { r with id := x.made.id, targetId := x.made.targetId, uidRequested := false }
  origin : RelationOrigin S owner r x.found x.made.id
  target : ∃ t, x.made.targetId = some t ∧ PointsAt targets ids r t

theorem relation?_eq_some {n : String} {q : Relation} (h : owner.relation? n = some q) :
    q ∈ owner.relations ∧ SameName q.name n :=
  ⟨List.mem_of_find?_eq_some h, by simpa using List.find?_some h⟩

theorem RelationMatched.mem {uid : UInt64} (h : RelationMatched owner r (some uid)) :
    uid ∈ owner.relations.map (·.id.uid) :=
  Matched.mem h fun _ named => List.mem_map_of_mem (relation?_eq_some named).1

/-- A step gives its relation the identifier that the match asks for. -/
theorem RelationStep.origin {f : Option UInt64}
    (h : RelationStep m i name isNew targets b (r, f) x b') (numbered : x.made.id.id ≠ 0)
    (later : S.Evolves (m.place i b)) (nodup : (owner.relations.map (·.id.uid)).Nodup)
    (there : ∀ q, x.found = some q → q ∈ owner.relations) (matched : RelationMatched owner r f) :
    RelationOrigin S owner r x.found x.made.id := by
  have placed := h.placed
  have advances := (placed.advances numbered).2
  generalize x.made.id = id at placed advances ⊢
  generalize x.found = found at placed advances there ⊢
  generalize b'.lastRelation = last' at placed
  cases placed with
  | existing =>
      apply Origin.of_found matched (there _ rfl)
      intro y named same
      exact List.inj_on_of_nodup_map nodup (relation?_eq_some named).1 (there _ rfl) same
  | created fresh =>
      exact .of_created matched (UInt32.lt_of_le_of_lt later.lastRelation (advances rfl))
        (later.fresh fresh)

/-- The uid of the result is the one that was matched, or it is new at the site. -/
theorem RelationStep.avoids {a : Relation × Option UInt64}
    (h : RelationStep m i name isNew targets b a x b') (lt : i < m.entities.length) :
    a.2 = some x.made.id.uid ∨ x.made.id.uid ∉ b.entity.relations.map (·.id.uid) := by
  have placed := h.placed
  generalize x.made.id = id at placed ⊢
  generalize x.found = found at placed
  generalize a.2 = matched at placed ⊢
  generalize b'.lastRelation = last' at placed
  cases placed with
  | existing => exact .inl rfl
  | created fresh =>
      apply Or.inr
      intro listed
      obtain ⟨q, hq, same⟩ := List.mem_map.mp listed
      apply fresh.2
      rw [Model.mem_census_place lt]
      exact .inl (List.mem_append_left _ (Entity.mem_ownUids.mpr (.inr (.inr ⟨q, hq, same⟩))))

/-! ### The scope as a whole -/

/-- What merging the relations of an entity does at its site. -/
structure RelationsMerged (m : Model) (i : Nat) (planned : Entity) (isNew : Bool)
    (targets : Targets) (b : Site) (found : List (Option UInt64)) (xs : List (Settled Relation))
    (b' : Site) (notices : List Notice) : Prop where
  matched : List.Forall₂ (RelationMatched b.entity) planned.relations found
  distinct : (claimed id found).Nodup
  steps : ∃ c, Traversal (RelationStep m i planned.name isNew targets)
      (b.keepRelations (·.id.uid ∈ claimed id found)) (planned.relations.zip found) xs c ∧
    b' = c.withRelations (reorder (·.id.uid) (xs.map (·.made.id.uid)) c.entity.relations)
  notices : notices =
    (b.entity.relations.filter (·.id.uid ∉ claimed id found)).map
      (fun r => Notice.relationRemoved planned.name r.name) ++ xs.flatMap (·.notices)

/-- Merging the relations of an entity keeps the claimed ones, merges the planned ones one after the
other and brings them into their order. -/
theorem mergeRelations_eq_ok {s t : Store} :
    mergeRelations planned i isNew targets s = .ok notices t ↔
      ∃ owner found order told s', s.model.entities[i]? = some owner ∧
        matchRelations planned owner = .ok found ∧
        mergeEachRelation planned i isNew targets (planned.relations.zip found)
          ⟨s.model.keepRelations i (·.id.uid ∈ claimed id found), s.uids⟩ = .ok (order, told) s' ∧
        t = ⟨s'.model.modifyEntity i fun e =>
          { e with relations := reorder (·.id.uid) order e.relations }, s'.uids⟩ ∧
        notices = (owner.relations.filter (·.id.uid ∉ claimed id found)).map
          (fun r => Notice.relationRemoved planned.name r.name) ++ told := by
  have same (found : List (Option UInt64)) : found.filterMap id = claimed id found := by
    simp [claimed]
  simp only [mergeRelations, Revision.bind_eq_ok, Revision.entityAt_eq_ok,
    Revision.ofExcept_eq_ok, Revision.update_eq_ok, Revision.pure_eq_ok, Prod.exists, same]
  constructor
  · rintro ⟨owner, _, ⟨at_i, rfl⟩, found, _, ⟨matched, rfl⟩, -, _, rfl, order, told, s', each, -, _,
      rfl, rfl, rfl⟩
    exact ⟨owner, found, order, told, s', at_i, matched, each, rfl, rfl⟩
  · rintro ⟨owner, found, order, told, s', at_i, matched, each, rfl, rfl⟩
    exact ⟨owner, _, ⟨at_i, rfl⟩, found, _, ⟨matched, rfl⟩, (), _, rfl, order, told, s', each, (),
      _, rfl, rfl, rfl⟩

theorem of_mergeRelations {s t : Store} (at_site : s.model = m.place i b)
    (h : i < m.entities.length) (run : mergeRelations planned i isNew targets s = .ok notices t) :
    ∃ found xs b', RelationsMerged m i planned isNew targets b found xs b' notices ∧
      t.model = m.place i b' := by
  obtain ⟨e, found, order, told, s', at_i, match_ok, each, rfl, rfl⟩ := mergeRelations_eq_ok.mp run
  rw [at_site, Model.place_entity h] at at_i
  obtain rfl := Option.some.inj at_i
  obtain ⟨matched, distinct⟩ := matchRelations_eq_ok.mp match_ok
  have kept := Model.keepRelations_place (b := b) h (·.id.uid ∈ claimed id found)
  rw [← at_site] at kept
  obtain ⟨xs, c, steps, at_site', rfl, rfl⟩ := of_mergeEachRelation kept h each
  refine ⟨found, xs, _, ⟨matched, distinct, ⟨c, steps, rfl⟩, rfl⟩, ?_⟩
  change s'.model.modifyEntity i _ = _
  rw [at_site', Model.modifyEntity_place h]
  rfl

namespace RelationsMerged

variable {found : List (Option UInt64)} {xs : List (Settled Relation)}

/-- The claimed relations are found, in the order of the plan, and what is made of them takes their
place beside the new relations. -/
theorem settles (h : RelationsMerged m i planned isNew targets b found xs b' notices)
    (lt : i < m.entities.length) (nodup : (b.entity.relations.map (·.id.uid)).Nodup) :
    xs.filterMap (·.found) = select (·.id.uid) b.entity.relations (claimed id found) ∧
      b'.entity.relations.Perm (xs.map (·.made)) := by
  obtain ⟨c, steps, rfl⟩ := h.steps
  have lengths := h.matched.length_eq
  have want : (planned.relations.zip found).filterMap (·.2) = claimed id found := by
    simpa using claimed_zip id lengths
  have present : claimed id found ⊆ b.entity.relations.map (·.id.uid) :=
    claimed_subset h.matched fun _ _ => RelationMatched.mem
  have parts := filter_perm_select nodup h.distinct present
  rw [← List.nil_append (select _ _ _)] at parts
  obtain ⟨all, final⟩ := steps.settles (·.entity.relations) (·.id.uid) (·.2)
    (fun s a x t step => step.touches) (fun s a x t step => step.placed.found_eq.1)
    (fun s t a _ x _ step => (step.avoids lt).imp_right .inl)
    parts (by rw [want, map_select present]) (by rw [want]; exact h.distinct) (by simp)
    (by rw [want]; exact present)
  refine ⟨all, (reorder_perm _ _).trans ?_⟩
  simpa using final

/-- If their uids are distinct, the relations stand in the order of the plan. -/
theorem relations_eq (h : RelationsMerged m i planned isNew targets b found xs b' notices)
    (lt : i < m.entities.length) (nodup : (b.entity.relations.map (·.id.uid)).Nodup)
    (nodup' : (b'.entity.relations.map (·.id.uid)).Nodup) :
    b'.entity.relations = xs.map (·.made) := by
  obtain ⟨-, perm⟩ := h.settles lt nodup
  obtain ⟨c, steps, rfl⟩ := h.steps
  have uids : xs.map (·.made.id.uid) = (xs.map (·.made)).map (·.id.uid) := by simp
  simp only [Site.withRelations, uids] at perm nodup' ⊢
  exact reorder_eq ((reorder_perm _ _).symm.trans perm) ((perm.map _).nodup_iff.mp nodup')

/-- Apart from the relations, the entity stays as it is. -/
theorem entity_eq (h : RelationsMerged m i planned isNew targets b found xs b' notices) :
    b'.entity = { b.entity with relations := b'.entity.relations } := by
  obtain ⟨c, steps, rfl⟩ := h.steps
  have final := steps.preserves
    (I := fun c => c.entity = { b.entity with relations := c.entity.relations }) rfl (by
      intro s t a _ x _ step so_far
      rw [step.entity, so_far])
  simp only [Site.withRelations]
  rw [final]

/-- Merging the relations of an entity loses no uid. -/
theorem retains (h : RelationsMerged m i planned isNew targets b found xs b' notices) :
    b.Retains b' := by
  obtain ⟨c, steps, rfl⟩ := h.steps
  have kept := steps.preserves (I := (b.Retains ·))
    (b.evolves_keepRelations (·.id.uid ∈ claimed id found)).retains
    fun _ _ _ _ _ _ step so_far => so_far.trans step.retains
  exact kept.trans (c.evolves_withRelations (reorder_perm _ _)).retains

/-- Merging the relations of an entity gives every planned relation an identifier and a target as it
should have, provided that the local ids are not used up. -/
theorem outcomes (h : RelationsMerged m i planned isNew targets b found xs b' notices)
    (lt : i < m.entities.length) (nodup : (b.entity.relations.map (·.id.uid)).Nodup)
    (numbered : ∀ r ∈ b'.entity.relations, r.id.id ≠ 0) (later : S.Evolves (m.place i b)) :
    b.Evolves b' ∧
      List.Forall₂ (RelationOutcome S b.entity targets ((m.place i b).entities.map (·.id)))
        planned.relations xs := by
  obtain ⟨all, perm⟩ := h.settles lt nodup
  obtain ⟨c, steps, rfl⟩ := h.steps
  have zipped : ∀ r f, (r, f) ∈ planned.relations.zip found → RelationMatched b.entity r f :=
    fun r f => (List.forall₂_iff_zip.mp h.matched).2
  have start := b.evolves_keepRelations (·.id.uid ∈ claimed id found)
  obtain ⟨final, each⟩ := steps.invariant (I := (b.Evolves ·))
    (R := fun a x =>
      RelationOutcome S b.entity targets ((m.place i b).entities.map (·.id)) a.1 x) start (by
      rintro s t ⟨r, f⟩ ha x hx step so_far
      have number : x.made.id.id ≠ 0 := numbered _ (perm.mem_iff.mpr (List.mem_map_of_mem hx))
      have later' := later.trans (Model.evolves_place lt so_far)
      have there : ∀ q, x.found = some q → q ∈ b.entity.relations := by
        intro q found
        exact mem_of_found all hx found
      have target := step.target
      rw [ids_place s so_far.id] at target
      exact ⟨so_far.trans (step.evolves number), {
        made := step.made
        origin := step.origin number later' nodup there (zipped r f ha)
        target }⟩)
  refine ⟨final.trans (c.evolves_withRelations (reorder_perm _ _)), ?_⟩
  exact forall₂_of_zip h.matched.length_eq each

end RelationsMerged

end SchemaLedger.Merge
