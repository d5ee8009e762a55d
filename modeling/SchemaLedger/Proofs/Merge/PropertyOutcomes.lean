import SchemaLedger.Proofs.Merge.Claiming
import SchemaLedger.Proofs.Merge.PropertySteps

/-!
# What becomes of the properties of an entity

Properties that nobody claims are retired, and the others are gone through in the order of the plan.
Since no uid is claimed twice, every planned property gets the stored property that it was matched
with, however much has changed before its turn.
-/

namespace SchemaLedger.Merge

open Text

variable {S m : Model} {i : Nat} {b b' : Site} {owner planned : Entity} {p : Property}
variable {name : String} {isNew : Bool} {notices : List Notice} {r : Settled Property}

/-! ### Identifiers -/

/-- The last property identifier never goes down, and a new property gets a local id above it. -/
theorem PropertyPlaced.advances {Fresh : UInt64 → Prop} {matched : Option PropertyMatch}
    {found : Option Property} {last last' : Option IdPair} {id : IdPair}
    (h : PropertyPlaced Fresh matched found last id last') (assigned : id.id ≠ 0) :
    IdPair.lastId last ≤ IdPair.lastId last' ∧ (found = none → IdPair.lastId last < id.id) := by
  cases h with
  | existing => exact ⟨UInt32.le_refl _, nofun⟩
  | reset =>
      refine ⟨?_, nofun⟩
      split
      · next same => simp [same]
      · exact UInt32.le_refl _
  | created =>
      have above := IdPair.lastId_lt_next assigned
      exact ⟨UInt32.le_of_lt above, fun _ => above⟩

/-- The last index identifier never goes down, and a new index gets a local id above it. -/
theorem IndexSettled.advances {Fresh : UInt64 → Prop}
    {stored wanted last index last' : Option IdPair}
    (h : IndexSettled Fresh stored wanted last index last')
    (assigned : ∀ x, index = some x → x.id ≠ 0) :
    IdPair.lastId last ≤ IdPair.lastId last' ∧
      (stored = none → ∀ x, index = some x → IdPair.lastId last < x.id) := by
  cases h with
  | kept => exact ⟨UInt32.le_refl _, nofun⟩
  | dropped => exact ⟨UInt32.le_refl _, nofun⟩
  | created =>
      have above := IdPair.lastId_lt_next (assigned _ rfl)
      refine ⟨UInt32.le_of_lt above, ?_⟩
      intro _ x hx
      obtain rfl := Option.some.inj hx
      exact above
  | absent => exact ⟨UInt32.le_refl _, nofun⟩

/-- The property and its index have local ids. -/
def Numbered (p : Property) : Prop := p.id.id ≠ 0 ∧ ∀ index, p.index = some index → index.id ≠ 0

theorem PropertyStep.extends {a : Property × Option PropertyMatch}
    (h : PropertyStep m i name isNew b a r b') : b.retired.Extends b'.retired := by
  rw [h.retired]
  exact ⟨List.prefix_rfl, List.prefix_append _ _, List.prefix_append _ _, List.prefix_rfl⟩

theorem PropertyStep.retains {a : Property × Option PropertyMatch}
    (h : PropertyStep m i name isNew b a r b') : b.Retains b' := by
  apply retains_of_properties h.touches h.entity h.extends
  intro q hq uid hu assigned
  have placed := h.placed
  have indexed := h.indexed
  rw [hq] at placed indexed
  rw [Property.uids, List.mem_cons] at hu ⊢
  rcases hu with rfl | hu
  · rcases placed.of_found with ⟨-, same, -⟩ | ⟨new, reset, -, -⟩
    · exact .inl (.inl (by rw [same]))
    · exact .inr (by simp [h.retired, Retired.uids, reset, resetUids])
  · obtain ⟨index, there, rfl⟩ := Option.map_eq_some_iff.mp (Option.mem_toList.mp hu)
    rw [Option.bind_some, there] at indexed
    rcases indexed.of_stored.2 with ⟨-, kept⟩ | ⟨unwanted, -⟩
    · exact .inl (.inr (by simp [kept]))
    · have dropped : q.indexUid? = some index.uid := by
        simp [Property.indexUid?, there, assigned]
      exact .inr (by simp [h.retired, Retired.uids, droppedUids, unwanted, hq, dropped])

theorem PropertyStep.evolves {a : Property × Option PropertyMatch}
    (h : PropertyStep m i name isNew b a r b') (numbered : Numbered r.made) : b.Evolves b' :=
  ⟨by rw [h.entity], h.retains, h.extends, (h.placed.advances numbered.1).1,
    (h.indexed.advances numbered.2).1, by rw [h.lastRelation]; exact UInt32.le_refl _⟩

/-! ### Origins -/

/-- Where the identifier of a merged property comes from, given what is stored: a stored property
keeps it, or keeps the local id and gets the uid of the plan; a new property gets an identifier that
has never been in use. -/
inductive PropertyOrigin (S : Model) (owner : Entity) (p : Property) :
    Option Property → IdPair → Prop
  | byUid {q : Property} : p.id.uid ≠ 0 → q ∈ owner.properties → q.id.uid = p.id.uid →
      PropertyOrigin S owner p (some q) q.id
  | reset {q : Property} : p.id.uid ≠ 0 → p.id.uid ∉ owner.properties.map (·.id.uid) →
      owner.property? p.name = some q → S.Fresh p.id.uid →
      PropertyOrigin S owner p (some q) ⟨q.id.id, p.id.uid⟩
  | byName {q : Property} : p.id.uid = 0 → p.uidRequested = false →
      owner.property? p.name = some q → PropertyOrigin S owner p (some q) q.id
  | created {id : IdPair} : p.id.uid = 0 → p.uidRequested = false →
      owner.property? p.name = none → IdPair.lastId owner.lastProperty < id.id → S.Fresh id.uid →
      PropertyOrigin S owner p none id

/-- Where the index of a merged property comes from, given the stored index and the wanted one. -/
inductive IndexOrigin (S : Model) : Option IdPair → Option IdPair → Option IdPair → Prop
  | kept {index wanted : IdPair} : IndexOrigin S (some index) (some wanted) (some index)
  | dropped {index : IdPair} : IndexOrigin S (some index) none none
  | created {index wanted : IdPair} : IdPair.lastId S.lastIndex < index.id → S.Fresh index.uid →
      IndexOrigin S none (some wanted) (some index)
  | absent : IndexOrigin S none none none

/-- What becomes of a planned property, given the stored entity it belongs to. -/
structure PropertyOutcome (S : Model) (owner : Entity) (name : String) (p : Property)
    (r : Settled Property) : Prop where
  made : r.made = { p with id := r.made.id, index := r.made.index, uidRequested := false }
  origin : PropertyOrigin S owner p r.found r.made.id
  index : IndexOrigin S (r.found.bind (·.index)) p.index r.made.index
  /-- That values are lost is reported. -/
  reset : ∀ q, r.found = some q → q.id.uid ≠ r.made.id.uid →
    .propertyReset name p.name q.id.uid r.made.id.uid ∈ r.notices

theorem property?_eq_some {n : String} {q : Property} (h : owner.property? n = some q) :
    q ∈ owner.properties ∧ SameName q.name n :=
  ⟨List.mem_of_find?_eq_some h, by simpa using List.find?_some h⟩

/-- The stored property that was found keeps its local id, and a new one is numbered anew. -/
theorem PropertyOrigin.local_id {found : Option Property} {id : IdPair}
    (h : PropertyOrigin S owner p found id) :
    (∀ q, found = some q → q ∈ owner.properties ∧ q.id.id = id.id) ∧
      (found = none → IdPair.lastId owner.lastProperty < id.id) := by
  cases h with
  | byUid _ there _ =>
      refine ⟨?_, nofun⟩
      intro q same
      obtain rfl := Option.some.inj same
      exact ⟨there, rfl⟩
  | reset _ _ named _ =>
      refine ⟨?_, nofun⟩
      intro q same
      obtain rfl := Option.some.inj same
      exact ⟨(property?_eq_some named).1, rfl⟩
  | byName _ _ named =>
      refine ⟨?_, nofun⟩
      intro q same
      obtain rfl := Option.some.inj same
      exact ⟨(property?_eq_some named).1, rfl⟩
  | created _ _ _ above _ => exact ⟨fun _ => nofun, fun _ => above⟩

theorem PropertyMatched.mem {matched : PropertyMatch}
    (h : PropertyMatched m owner p (some matched)) :
    matched.storedUid ∈ owner.properties.map (·.id.uid) := by
  cases matched with
  | existing uid =>
      rcases h.of_existing with ⟨-, -, listed⟩ | ⟨-, -, q, named, rfl⟩
      · exact listed
      · exact List.mem_map_of_mem (property?_eq_some named).1
  | reset old new =>
      obtain ⟨-, -, -, -, q, named, rfl⟩ := h.of_reset
      exact List.mem_map_of_mem (property?_eq_some named).1

/-- The uid of the result is the one that was matched, or it is new at the site, or the plan gives
it and the stored entity does not have it. -/
theorem PropertyStep.avoids {a : Property × Option PropertyMatch} {stored : Model}
    (h : PropertyStep m i name isNew b a r b') (lt : i < m.entities.length)
    (matched : PropertyMatched stored owner a.1 a.2) :
    a.2.map PropertyMatch.storedUid = some r.made.id.uid ∨
      r.made.id.uid ∉ b.entity.properties.map (·.id.uid) ∨
      r.made.id.uid ∉ owner.properties.map (·.id.uid) := by
  obtain ⟨p, f⟩ := a
  have placed := h.placed
  generalize r.made.id = id at placed ⊢
  generalize r.found = found at placed
  generalize b'.entity.lastProperty = last' at placed
  cases placed with
  | existing => exact .inl rfl
  | reset =>
      obtain ⟨new, -, unlisted, -⟩ := matched.of_reset
      exact .inr (.inr (by rw [new]; exact unlisted))
  | created fresh =>
      refine .inr (.inl ?_)
      intro listed
      obtain ⟨q, hq, rfl⟩ := List.mem_map.mp listed
      apply fresh.2
      rw [Model.mem_census_place lt]
      exact .inl (List.mem_append_left _
        (Entity.mem_ownUids.mpr (.inr (.inl ⟨q, hq, List.mem_cons_self⟩))))

theorem property?_eq_of_uid (nodup : (owner.properties.map (·.id.uid)).Nodup) {n : String}
    {q q' : Property} (named : owner.property? n = some q) (hq : q' ∈ owner.properties)
    (same : q.id.uid = q'.id.uid) : owner.property? n = some q' := by
  rw [← List.inj_on_of_nodup_map nodup (property?_eq_some named).1 hq same]
  exact named

/-- A step gives its property the identifier that the match asks for. -/
theorem PropertyStep.origin {f : Option PropertyMatch} {stored : Model}
    (h : PropertyStep m i name isNew b (p, f) r b') (numbered : Numbered r.made)
    (later : S.Evolves (m.place i b)) (later' : S.Evolves stored)
    (above : IdPair.lastId owner.lastProperty ≤ IdPair.lastId b.entity.lastProperty)
    (nodup : (owner.properties.map (·.id.uid)).Nodup)
    (there : ∀ q, r.found = some q → q ∈ owner.properties)
    (matched : PropertyMatched stored owner p f) : PropertyOrigin S owner p r.found r.made.id := by
  have placed := h.placed
  have advances := (placed.advances numbered.1).2
  generalize r.made.id = id at placed advances ⊢
  generalize r.found = found at placed advances there ⊢
  generalize b'.entity.lastProperty = last' at placed
  cases placed with
  | existing =>
      rcases matched.of_existing with ⟨given, same, -⟩ | ⟨none_given, silent, q, named, same⟩
      · exact .byUid given (there _ rfl) same
      · exact .byName none_given silent (property?_eq_of_uid nodup named (there _ rfl) same)
  | reset =>
      obtain ⟨rfl, given, unlisted, unmentioned, q, named, same⟩ := matched.of_reset
      exact .reset given unlisted (property?_eq_of_uid nodup named (there _ rfl) same)
        (later'.fresh (.of_unmentioned given unmentioned))
  | created fresh =>
      obtain ⟨none_given, silent, unnamed⟩ := matched.of_none
      exact .created none_given silent unnamed (UInt32.lt_of_le_of_lt above (advances rfl))
        (later.fresh fresh)

theorem PropertyStep.index {a : Property × Option PropertyMatch}
    (h : PropertyStep m i name isNew b a r b') (numbered : Numbered r.made)
    (later : S.Evolves (m.place i b)) :
    IndexOrigin S (r.found.bind (·.index)) a.1.index r.made.index := by
  have indexed := h.indexed
  have advances := (indexed.advances numbered.2).2
  generalize r.made.index = now at indexed advances ⊢
  generalize r.found.bind (·.index) = stored at indexed advances ⊢
  generalize a.1.index = wanted at indexed ⊢
  generalize b'.lastIndex = last' at indexed
  cases indexed with
  | kept => exact .kept
  | dropped => exact .dropped
  | created fresh =>
      exact .created (UInt32.lt_of_le_of_lt later.lastIndex (advances rfl _ rfl))
        (later.fresh fresh)
  | absent => exact .absent

theorem PropertyStep.reset {a : Property × Option PropertyMatch}
    (h : PropertyStep m i name isNew b a r b') (q : Property) (found : r.found = some q)
    (other : q.id.uid ≠ r.made.id.uid) :
    .propertyReset name a.1.name q.id.uid r.made.id.uid ∈ r.notices := by
  have placed := h.placed
  rw [found] at placed
  rcases placed.of_found with ⟨-, same, -⟩ | ⟨new, reset, same, -⟩
  · exact absurd (by rw [same]) other
  · simp [h.notices, propertyNotices, placementNotices, reset, same]

/-! ### The scope as a whole -/

/-- What merging the properties of an entity does at its site. -/
structure PropertiesMerged (m : Model) (i : Nat) (planned : Entity) (isNew : Bool) (b : Site)
    (found : List (Option PropertyMatch)) (rs : List (Settled Property)) (b' : Site)
    (notices : List Notice) : Prop where
  matched : List.Forall₂ (PropertyMatched (m.place i b) b.entity) planned.properties found
  distinct : (claimed PropertyMatch.storedUid found).Nodup
  steps : ∃ c, Traversal (PropertyStep m i planned.name isNew)
      (b.keepProperties (·.id.uid ∈ claimed PropertyMatch.storedUid found))
      (planned.properties.zip found) rs c ∧
    b' = c.withProperties (reorder (·.id.uid) (rs.map (·.made.id.uid)) c.entity.properties)
  notices : notices =
    (b.entity.properties.filter (·.id.uid ∉ claimed PropertyMatch.storedUid found)).map
      (fun p => Notice.propertyRemoved planned.name p.name) ++ rs.flatMap (·.notices)

/-- Merging the properties of an entity keeps the claimed ones, merges the planned ones one after
the other and brings them into their order. -/
theorem mergeProperties_eq_ok {s t : Store} :
    mergeProperties planned i isNew s = .ok notices t ↔
      ∃ owner found order told s', s.model.entities[i]? = some owner ∧
        matchProperties s planned owner = .ok found ∧
        mergeEachProperty planned i isNew (planned.properties.zip found)
          ⟨s.model.keepProperties i (·.id.uid ∈ claimed PropertyMatch.storedUid found), s.uids⟩ =
            .ok (order, told) s' ∧
        t = ⟨s'.model.modifyEntity i fun e =>
          { e with properties := reorder (·.id.uid) order e.properties }, s'.uids⟩ ∧
        notices = (owner.properties.filter
          (·.id.uid ∉ claimed PropertyMatch.storedUid found)).map
            (fun p => Notice.propertyRemoved planned.name p.name) ++ told := by
  simp only [mergeProperties, Revision.bind_eq_ok, Revision.entityAt_eq_ok, Revision.get_eq_ok,
    Revision.ofExcept_eq_ok, Revision.update_eq_ok, Revision.pure_eq_ok, Prod.exists]
  constructor
  · rintro ⟨owner, _, ⟨at_i, rfl⟩, _, _, ⟨rfl, rfl⟩, found, _, ⟨matched, rfl⟩, -, _, rfl, order,
      told, s', each, -, _, rfl, rfl, rfl⟩
    exact ⟨owner, found, order, told, s', at_i, matched, each, rfl, rfl⟩
  · rintro ⟨owner, found, order, told, s', at_i, matched, each, rfl, rfl⟩
    exact ⟨owner, _, ⟨at_i, rfl⟩, s, _, ⟨rfl, rfl⟩, found, _, ⟨matched, rfl⟩, (), _, rfl, order,
      told, s', each, (), _, rfl, rfl, rfl⟩

theorem of_mergeProperties {s t : Store} (at_site : s.model = m.place i b)
    (h : i < m.entities.length) (run : mergeProperties planned i isNew s = .ok notices t) :
    ∃ found rs b', PropertiesMerged m i planned isNew b found rs b' notices ∧
      t.model = m.place i b' := by
  obtain ⟨e, found, order, told, s', at_i, match_ok, each, rfl, rfl⟩ := mergeProperties_eq_ok.mp run
  rw [at_site, Model.place_entity h] at at_i
  obtain rfl := Option.some.inj at_i
  obtain ⟨matched, distinct⟩ := matchProperties_eq_ok.mp match_ok
  rw [at_site] at matched
  have kept := Model.keepProperties_place (b := b) h
    (·.id.uid ∈ claimed PropertyMatch.storedUid found)
  rw [← at_site] at kept
  obtain ⟨rs, c, steps, at_site', rfl, rfl⟩ := of_mergeEachProperty kept h each
  refine ⟨found, rs, _, ⟨matched, distinct, ⟨c, steps, rfl⟩, rfl⟩, ?_⟩
  change s'.model.modifyEntity i _ = _
  rw [at_site', Model.modifyEntity_place h]
  rfl

namespace PropertiesMerged

variable {found : List (Option PropertyMatch)} {rs : List (Settled Property)}

/-- The claimed properties are found, in the order of the plan, and what is made of them takes their
place beside the new properties. -/
theorem settles (h : PropertiesMerged m i planned isNew b found rs b' notices)
    (lt : i < m.entities.length) (nodup : (b.entity.properties.map (·.id.uid)).Nodup) :
    rs.filterMap (·.found) =
        select (·.id.uid) b.entity.properties (claimed PropertyMatch.storedUid found) ∧
      b'.entity.properties.Perm (rs.map (·.made)) := by
  obtain ⟨c, steps, rfl⟩ := h.steps
  have lengths := h.matched.length_eq
  have zipped : ∀ p f, (p, f) ∈ planned.properties.zip found →
      PropertyMatched (m.place i b) b.entity p f :=
    fun p f => (List.forall₂_iff_zip.mp h.matched).2
  have want : (planned.properties.zip found).filterMap (·.2.map PropertyMatch.storedUid) =
      claimed PropertyMatch.storedUid found := claimed_zip _ lengths
  have present : claimed PropertyMatch.storedUid found ⊆ b.entity.properties.map (·.id.uid) :=
    claimed_subset h.matched fun _ _ => PropertyMatched.mem
  have parts := filter_perm_select nodup h.distinct present
  rw [← List.nil_append (select _ _ _)] at parts
  obtain ⟨all, final⟩ := steps.settles (·.entity.properties) (·.id.uid)
    (·.2.map PropertyMatch.storedUid) (fun s a r t step => step.touches)
    (fun s a r t step => step.placed.found_eq)
    (by
      rintro s t ⟨p, f⟩ ha r - step
      exact step.avoids lt (zipped p f ha))
    parts (by rw [want, map_select present]) (by rw [want]; exact h.distinct) (by simp)
    (by rw [want]; exact present)
  refine ⟨all, (reorder_perm _ _).trans ?_⟩
  simpa using final

/-- If their uids are distinct, the properties stand in the order of the plan. -/
theorem properties_eq (h : PropertiesMerged m i planned isNew b found rs b' notices)
    (lt : i < m.entities.length) (nodup : (b.entity.properties.map (·.id.uid)).Nodup)
    (nodup' : (b'.entity.properties.map (·.id.uid)).Nodup) :
    b'.entity.properties = rs.map (·.made) := by
  obtain ⟨-, perm⟩ := h.settles lt nodup
  obtain ⟨c, steps, rfl⟩ := h.steps
  have uids : rs.map (·.made.id.uid) = (rs.map (·.made)).map (·.id.uid) := by simp
  simp only [Site.withProperties, uids] at perm nodup' ⊢
  exact reorder_eq ((reorder_perm _ _).symm.trans perm) ((perm.map _).nodup_iff.mp nodup')

/-- Apart from the properties and the last property identifier, the entity stays as it is. -/
theorem entity_eq (h : PropertiesMerged m i planned isNew b found rs b' notices) :
    b'.entity = { b.entity with
      lastProperty := b'.entity.lastProperty, properties := b'.entity.properties } := by
  obtain ⟨c, steps, rfl⟩ := h.steps
  have final := steps.preserves
    (I := fun c => c.entity = { b.entity with
      lastProperty := c.entity.lastProperty, properties := c.entity.properties }) rfl (by
      intro s t a _ r _ step so_far
      rw [step.entity, so_far])
  simp only [Site.withProperties]
  rw [final]

/-- Merging the properties of an entity loses no uid. -/
theorem retains (h : PropertiesMerged m i planned isNew b found rs b' notices) : b.Retains b' := by
  obtain ⟨c, steps, rfl⟩ := h.steps
  have kept := steps.preserves (I := (b.Retains ·))
    (b.evolves_keepProperties (·.id.uid ∈ claimed PropertyMatch.storedUid found)).retains
    fun _ _ _ _ _ _ step so_far => so_far.trans step.retains
  exact kept.trans (c.evolves_withProperties (reorder_perm _ _)).retains

/-- Merging the properties of an entity gives every planned property an identifier as it should
have, provided that the local ids are not used up. -/
theorem outcomes (h : PropertiesMerged m i planned isNew b found rs b' notices)
    (lt : i < m.entities.length) (nodup : (b.entity.properties.map (·.id.uid)).Nodup)
    (numbered : ∀ q ∈ b'.entity.properties, Numbered q) (later : S.Evolves (m.place i b)) :
    b.Evolves b' ∧
      List.Forall₂ (PropertyOutcome S b.entity planned.name) planned.properties rs := by
  obtain ⟨all, perm⟩ := h.settles lt nodup
  obtain ⟨c, steps, rfl⟩ := h.steps
  have zipped : ∀ p f, (p, f) ∈ planned.properties.zip found →
      PropertyMatched (m.place i b) b.entity p f :=
    fun p f => (List.forall₂_iff_zip.mp h.matched).2
  have start := b.evolves_keepProperties
    (·.id.uid ∈ claimed PropertyMatch.storedUid found)
  obtain ⟨final, each⟩ := steps.invariant (I := (b.Evolves ·))
    (R := fun a r => PropertyOutcome S b.entity planned.name a.1 r) start (by
      rintro s t ⟨p, f⟩ ha r hr step so_far
      have number : Numbered r.made :=
        numbered _ (perm.mem_iff.mpr (List.mem_map_of_mem hr))
      have later' := later.trans (Model.evolves_place lt so_far)
      have there : ∀ q, r.found = some q → q ∈ b.entity.properties := by
        intro q found
        exact mem_of_found all hr found
      exact ⟨so_far.trans (step.evolves number), {
        made := step.made
        origin := step.origin number later' later so_far.lastProperty nodup there (zipped p f ha)
        index := step.index number later'
        reset := step.reset }⟩)
  refine ⟨final.trans (c.evolves_withProperties (reorder_perm _ _)), ?_⟩
  exact forall₂_of_zip h.matched.length_eq each

end PropertiesMerged

end SchemaLedger.Merge
