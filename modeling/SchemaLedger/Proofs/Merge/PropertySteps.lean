import SchemaLedger.Merge.Properties
import SchemaLedger.Proofs.Merge.Traversal
import SchemaLedger.Proofs.Store.Revision
import SchemaLedger.Proofs.Store.Site

/-!
# One property after the other

A step of the traversal of properties merges one of them. `PropertyStep` tells all there is to know
about it: where the identifiers of the property and of its index come from, what is retired, and
what is reported. Everything else at the site stays as it is.
-/

namespace SchemaLedger.Merge

/-- Where the identifier of a merged property comes from. A stored property keeps it, a reset one
gets another uid with it, and a new one gets the next local id with a fresh uid. The last identifier
follows. -/
inductive PropertyPlaced (Fresh : UInt64 → Prop) : Option PropertyMatch → Option Property →
    Option IdPair → IdPair → Option IdPair → Prop
  | existing {q : Property} {last : Option IdPair} :
      PropertyPlaced Fresh (some (.existing q.id.uid)) (some q) last q.id last
  | reset {q : Property} {new : UInt64} {last : Option IdPair} :
      PropertyPlaced Fresh (some (.reset q.id.uid new)) (some q) last ⟨q.id.id, new⟩
        (if last = some q.id then some ⟨q.id.id, new⟩ else last)
  | created {uid : UInt64} {last : Option IdPair} : Fresh uid →
      PropertyPlaced Fresh none none last ⟨IdPair.next last, uid⟩ (some ⟨IdPair.next last, uid⟩)

/-- A property that was found keeps its local id, and its uid too unless it is reset. -/
theorem PropertyPlaced.of_found {Fresh : UInt64 → Prop} {matched : Option PropertyMatch}
    {q : Property} {last last' : Option IdPair} {id : IdPair}
    (h : PropertyPlaced Fresh matched (some q) last id last') :
    (matched = some (.existing q.id.uid) ∧ id = q.id ∧ last' = last) ∨
      ∃ new, matched = some (.reset q.id.uid new) ∧ id = ⟨q.id.id, new⟩ ∧
        last' = if last = some q.id then some id else last := by
  cases h with
  | existing => exact .inl ⟨rfl, rfl, rfl⟩
  | reset => exact .inr ⟨_, rfl, rfl, rfl⟩

/-- What is found is what was matched. -/
theorem PropertyPlaced.found_eq {Fresh : UInt64 → Prop} {matched : Option PropertyMatch}
    {found : Option Property} {last last' : Option IdPair} {id : IdPair}
    (h : PropertyPlaced Fresh matched found last id last') :
    found.map (·.id.uid) = matched.map PropertyMatch.storedUid := by
  cases h <;> rfl

/-- What becomes of an index: it is kept or dropped, or the next one is taken. The arguments are the
stored index and the wanted one, then the last index before, the index that results, and the last
index after. -/
inductive IndexSettled (Fresh : UInt64 → Prop) : Option IdPair → Option IdPair →
    Option IdPair → Option IdPair → Option IdPair → Prop
  | kept {index wanted : IdPair} {last : Option IdPair} :
      IndexSettled Fresh (some index) (some wanted) last (some index) last
  | dropped {index : IdPair} {last : Option IdPair} :
      IndexSettled Fresh (some index) none last none last
  | created {wanted : IdPair} {uid : UInt64} {last : Option IdPair} : Fresh uid →
      IndexSettled Fresh none (some wanted) last (some ⟨IdPair.next last, uid⟩)
        (some ⟨IdPair.next last, uid⟩)
  | absent {last : Option IdPair} : IndexSettled Fresh none none last none last

/-- An index that is stored is kept if one is wanted, and dropped otherwise. -/
theorem IndexSettled.of_stored {Fresh : UInt64 → Prop} {index : IdPair}
    {wanted last now last' : Option IdPair}
    (h : IndexSettled Fresh (some index) wanted last now last') :
    last' = last ∧ (wanted ≠ none ∧ now = some index ∨ wanted = none ∧ now = none) := by
  cases h with
  | kept => exact ⟨rfl, .inl ⟨nofun, rfl⟩⟩
  | dropped => exact ⟨rfl, .inr ⟨rfl, rfl⟩⟩

/-- The uid that a reset retires. -/
def resetUids : Option PropertyMatch → List UInt64
  | some (.reset old _) => [old]
  | _ => []

/-- The uid of the index that is dropped if the schema wants none. -/
def droppedUids (wanted : Option IdPair) (found : Option Property) : List UInt64 :=
  match wanted with
  | none => (found.bind Property.indexUid?).toList
  | some _ => []

/-- The notice of how a property was found, if there is one. -/
def placementNotices (owner : String) (isNew : Bool) (p : Property) :
    Option PropertyMatch → List Notice
  | some (.existing _) => []
  | some (.reset old new) => [.propertyReset owner p.name old new]
  | none => if isNew then [] else [.propertyAdded owner p.name]

/-- The notice of what has become of an index, if there is one. -/
def indexNotices (owner : String) (quiet : Bool) (p : Property) (stored : Option IdPair) :
    List Notice :=
  match stored, p.index with
  | some _, none => if quiet then [] else [.indexRemoved owner p.name]
  | none, some _ => if quiet then [] else [.indexAdded owner p.name]
  | _, _ => []

/-- The notice of a change of name, if there is one. -/
def renameNotices (owner before after : String) : List Notice :=
  if before ≠ after then [.propertyRenamed owner before after] else []

/-- Everything that is reported about a property. -/
def propertyNotices (owner : String) (isNew : Bool) (p : Property) (matched : Option PropertyMatch)
    (found : Option Property) : List Notice :=
  placementNotices owner isNew p matched ++
    (indexNotices owner (isNew || matched.isNone) p (found.bind (·.index)) ++
      renameNotices owner ((found.map (·.name)).getD p.name) p.name)

/-- What merging a property does at a site of the model. -/
structure PropertyStep (m : Model) (i : Nat) (owner : String) (isNew : Bool) (b : Site)
    (planned : Property × Option PropertyMatch) (r : Settled Property) (b' : Site) : Prop where
  touches : Touches b.entity.properties r.found r.made b'.entity.properties
  made : r.made =
    { planned.1 with id := r.made.id, index := r.made.index, uidRequested := false }
  placed : PropertyPlaced (m.place i b).Fresh planned.2 r.found b.entity.lastProperty r.made.id
    b'.entity.lastProperty
  indexed : IndexSettled (m.place i b).Fresh (r.found.bind (·.index)) planned.1.index b.lastIndex
    r.made.index b'.lastIndex
  /-- A new index does not take the uid that the property has just got. -/
  apart : r.found.bind (·.index) = none → ∀ index, r.made.index = some index →
    index.uid ≠ r.made.id.uid
  entity : b'.entity = { b.entity with
    lastProperty := b'.entity.lastProperty, properties := b'.entity.properties }
  lastRelation : b'.lastRelation = b.lastRelation
  retired : b'.retired = { b.retired with
    indexes := b.retired.indexes ++ droppedUids planned.1.index r.found
    properties := b.retired.properties ++ resetUids planned.2 }
  notices : r.notices = propertyNotices owner isNew planned.1 planned.2 r.found

/-- A change of properties retains the uids of a site if it retains those of the property that is
replaced. -/
theorem retains_of_properties {b b' : Site} {found : Option Property} {made : Property}
    (touched : Touches b.entity.properties found made b'.entity.properties)
    (entity : b'.entity = { b.entity with
      lastProperty := b'.entity.lastProperty, properties := b'.entity.properties })
    (retired : b.retired.Extends b'.retired)
    (kept : ∀ q, found = some q → ∀ uid ∈ q.uids, uid ≠ 0 →
      uid ∈ made.uids ∨ uid ∈ b'.retired.uids) :
    b.Retains b' := by
  have id : b'.entity.id = b.entity.id := by rw [entity]
  have relations : b'.entity.relations = b.entity.relations := by rw [entity]
  intro uid assigned hu
  simp only [Site.census, Entity.ownUids, List.cons_append, List.mem_cons, List.mem_append, id,
    relations] at hu ⊢
  rcases hu with hu | (hu | hu) | hu
  · exact .inl hu
  · rcases touched.mem_flatMap Property.uids hu with hu | ⟨q, hq, hu⟩
    · exact .inr (.inl (.inl hu))
    · rcases kept q hq uid hu assigned with hu | hu
      · exact .inr (.inl (.inl (List.mem_flatMap.mpr ⟨made, touched.mem, hu⟩)))
      · exact .inr (.inr hu)
  · exact .inr (.inl (.inr hu))
  · exact .inr (.inr (retired.mem_uids hu))

theorem IndexSettled.mono {Fresh Fresh' : UInt64 → Prop}
    {stored wanted last index last' : Option IdPair}
    (h : IndexSettled Fresh stored wanted last index last')
    (weaker : ∀ uid, Fresh uid → Fresh' uid) :
    IndexSettled Fresh' stored wanted last index last' := by
  cases h with
  | kept => exact .kept
  | dropped => exact .dropped
  | created fresh => exact .created (weaker _ fresh)
  | absent => exact .absent

/-- A new index has a uid that is not in use. -/
theorem IndexSettled.ne_of_created {m : Model} {wanted last last' : Option IdPair} {index : IdPair}
    {uid : UInt64} (h : IndexSettled m.Fresh none wanted last (some index) last')
    (known : uid ∈ m.census) : index.uid ≠ uid := by
  cases h with
  | created fresh =>
      rintro rfl
      exact fresh.2 known

/-- What finding, resetting or creating a property does at a site: the property `q` stands at
position `j` and waits for its index and the rest of the plan. -/
structure PropertyFound (m : Model) (i : Nat) (p : Property) (matched : Option PropertyMatch)
    (b : Site) (found : Option Property) (j : Nat) (q : Property) (b' : Site) : Prop where
  there : b'.entity.properties[j]? = some q
  touches : ∀ y, Touches b.entity.properties found y (b'.entity.properties.set j y)
  placed : PropertyPlaced (m.place i b).Fresh matched found b.entity.lastProperty q.id
    b'.entity.lastProperty
  index : q.index = found.bind (·.index)
  name : q.name = (found.map (·.name)).getD p.name
  entity : b'.entity = { b.entity with
    lastProperty := b'.entity.lastProperty, properties := b'.entity.properties }
  lastIndex : b'.lastIndex = b.lastIndex
  lastRelation : b'.lastRelation = b.lastRelation
  retired : b'.retired = { b.retired with
    properties := b.retired.properties ++ resetUids matched }

theorem PropertyFound.retains {m : Model} {i j : Nat} {p q : Property}
    {matched : Option PropertyMatch} {b b' : Site} {found : Option Property}
    (h : PropertyFound m i p matched b found j q b') : b.Retains b' := by
  have touched := h.touches q
  rw [set_eq_self h.there] at touched
  refine retains_of_properties touched h.entity ?_ ?_
  · rw [h.retired]
    exact ⟨List.prefix_rfl, List.prefix_rfl, List.prefix_append _ _, List.prefix_rfl⟩
  · rintro x rfl uid hu -
    have same : q.index = x.index := h.index
    rw [Property.uids, List.mem_cons] at hu ⊢
    rcases hu with rfl | hu
    · rcases h.placed.of_found with ⟨-, same, -⟩ | ⟨new, rfl, -, -⟩
      · exact .inl (.inl (by rw [same]))
      · exact .inr (by simp [h.retired, Retired.uids, resetUids])
    · exact .inl (.inr (by rwa [same]))

/-- The site with another uid for the property `q` at position `j`. Its old uid is retired. -/
def resetSite (b : Site) (j : Nat) (q : Property) (new : UInt64) : Site :=
  { b with
    entity := { b.entity with
      properties := b.entity.properties.set j { q with id := ⟨q.id.id, new⟩ }
      lastProperty := if b.entity.lastProperty = some q.id then some ⟨q.id.id, new⟩
        else b.entity.lastProperty }
    retired := { b.retired with properties := b.retired.properties ++ [q.id.uid] } }

namespace PropertyFound

variable {m : Model} {i j : Nat} {b : Site} {p q : Property} {uid : UInt64}

theorem existing (there : b.entity.properties[j]? = some q) :
    PropertyFound m i p (some (.existing q.id.uid)) b (some q) j q b where
  there
  touches y := Touches.set y there
  placed := .existing
  index := rfl
  name := rfl
  entity := rfl
  lastIndex := rfl
  lastRelation := rfl
  retired := by simp [resetUids]

theorem reset (there : b.entity.properties[j]? = some q) (new : UInt64) :
    PropertyFound m i p (some (.reset q.id.uid new)) b (some q) j
      { q with id := ⟨q.id.id, new⟩ } (resetSite b j q new) where
  there := by
    have lt := (List.getElem?_eq_some_iff.mp there).1
    simp [resetSite, lt]
  touches y := by simpa [resetSite] using Touches.set y there
  placed := .reset
  index := rfl
  name := rfl
  entity := rfl
  lastIndex := rfl
  lastRelation := rfl
  retired := rfl

theorem created (fresh : (m.place i b).Fresh uid) :
    PropertyFound m i p none b none b.entity.properties.length
      { id := ⟨IdPair.next b.entity.lastProperty, uid⟩, name := p.name, kind := p.kind }
      { b with entity := b.entity.addProperty p.name p.kind uid } where
  there := by simp [Entity.addProperty]
  touches y := by simpa [Entity.addProperty] using Touches.append _ y
  placed := .created fresh
  index := rfl
  name := rfl
  entity := rfl
  lastIndex := rfl
  lastRelation := rfl
  retired := by simp [resetUids]

end PropertyFound

section Steps

variable {m : Model} {i j : Nat} {b : Site} {s t : Store} {planned : Entity} {p : Property}
variable {isNew quiet : Bool} {notices : List Notice}

theorem resetProperty_place (h : i < m.entities.length) {q : Property}
    (hq : b.entity.properties[j]? = some q) (new : UInt64) :
    resetProperty i j new (m.place i b) = m.place i (resetSite b j q new) := by
  simp only [resetProperty, Model.propertyAt_place h, hq]
  rw [Model.modifyProperty_place h hq, Model.modifyEntity_place h]
  by_cases last : b.entity.lastProperty = some q.id
  · simp [Site.withProperties, resetSite, last, Model.place]
  · simp [Site.withProperties, resetSite, last, Model.place]

theorem locateProperty_eq_ok {uid : UInt64} (at_site : s.model = m.place i b)
    (h : i < m.entities.length) :
    locateProperty i uid s = .ok j t ↔ b.entity.findPropertyByUid? uid = some j ∧ s = t := by
  simp only [locateProperty, Revision.bind_eq_ok, Revision.entityAt_eq_ok, at_site,
    Model.place_entity h]
  cases hf : b.entity.findPropertyByUid? uid <;> simp [hf]

/-- The index of a property is settled where the property stands. -/
theorem of_settleIndex (at_site : s.model = m.place i b) (h : i < m.entities.length) {q : Property}
    (hq : b.entity.properties[j]? = some q)
    (run : settleIndex planned i j quiet p q s = .ok notices t) :
    ∃ index last, IndexSettled (m.place i b).Fresh q.index p.index b.lastIndex index last ∧
      t.model = m.place i
        { b.withProperties (b.entity.properties.set j { q with index }) with
          lastIndex := last
          retired := { b.retired with
            indexes := b.retired.indexes ++ droppedUids p.index (some q) } } ∧
      notices = indexNotices planned.name quiet p q.index := by
  cases stored : q.index with
  | none =>
      cases wanted : p.index with
      | none =>
          simp only [settleIndex, stored, wanted, Revision.pure_eq_ok] at run
          obtain ⟨rfl, rfl⟩ := run
          refine ⟨none, b.lastIndex, .absent, ?_, by simp [indexNotices, wanted]⟩
          have same : { q with index := none } = q := by rw [← stored]
          rw [at_site, same]
          simp [droppedUids, Property.indexUid?, stored, Site.withProperties, set_eq_self hq]
      | some w =>
          simp only [settleIndex, stored, wanted, Revision.bind_eq_ok, Revision.update_eq_ok,
            Revision.pure_eq_ok] at run
          obtain ⟨index, r, created, -, r', rfl, rfl, rfl⟩ := run
          obtain ⟨uid, assigned, unknown, rfl, after⟩ := Revision.of_createIndex created
          rw [at_site] at after unknown created
          let taken : Site := { b with lastIndex := some ⟨IdPair.next b.lastIndex, uid⟩ }
          have moved : r.model = m.place i taken := after
          refine ⟨some ⟨IdPair.next b.lastIndex, uid⟩, some ⟨IdPair.next b.lastIndex, uid⟩,
            .created (.of_unmentioned assigned unknown), ?_, by simp [indexNotices, wanted]⟩
          change r.model.modifyProperty i j _ = _
          rw [moved, Model.modifyProperty_place (b := taken) h hq, at_site]
          simp [droppedUids, Site.withProperties, taken]
  | some index =>
      cases wanted : p.index with
      | none =>
          simp only [settleIndex, stored, wanted, Revision.bind_eq_ok, Revision.update_eq_ok,
            Revision.pure_eq_ok] at run
          obtain ⟨-, r, rfl, rfl, rfl⟩ := run
          refine ⟨none, b.lastIndex, .dropped, ?_, by simp [indexNotices, wanted]⟩
          change s.model.dropIndex i j = _
          rw [at_site, Model.dropIndex_place h hq]
          rfl
      | some w =>
          simp only [settleIndex, stored, wanted, Revision.pure_eq_ok] at run
          obtain ⟨rfl, rfl⟩ := run
          refine ⟨some index, b.lastIndex, .kept, ?_, by simp [indexNotices, wanted]⟩
          have same : { q with index := some index } = q := by rw [← stored]
          rw [at_site, same]
          simp [droppedUids, Site.withProperties, set_eq_self hq]

/-- Settling a property leaves it as planned, with the identifier that is stored. -/
theorem of_settleProperty (at_site : s.model = m.place i b) (h : i < m.entities.length)
    {q : Property} (hq : b.entity.properties[j]? = some q)
    (run : settleProperty planned i j quiet p s = .ok notices t) :
    ∃ made last, made = { p with id := q.id, index := made.index, uidRequested := false } ∧
      IndexSettled (m.place i b).Fresh q.index p.index b.lastIndex made.index last ∧
      t.model = m.place i
        { b.withProperties (b.entity.properties.set j made) with
          lastIndex := last
          retired := { b.retired with
            indexes := b.retired.indexes ++ droppedUids p.index (some q) } } ∧
      t.model.propertyAt? i j = some made ∧
      notices = indexNotices planned.name quiet p q.index ++
        renameNotices planned.name q.name p.name := by
  simp only [settleProperty, Revision.bind_eq_ok, Revision.propertyAt_eq_ok,
    Revision.update_eq_ok, Revision.pure_eq_ok] at run
  obtain ⟨stored, r, ⟨found, rfl⟩, told, r', settled, -, r'', rfl, rfl, rfl⟩ := run
  rw [at_site, Model.propertyAt_place h, hq] at found
  obtain rfl := Option.some.inj found
  obtain ⟨index, last, how, after, rfl⟩ := of_settleIndex at_site h hq settled
  have lt := (List.getElem?_eq_some_iff.mp hq).1
  have there : (b.entity.properties.set j { q with index })[j]? = some { q with index } := by
    simp [lt]
  have done : r'.model.modifyProperty i j (adoptProperty p) = m.place i
      { b.withProperties
          (b.entity.properties.set j { p with id := q.id, index, uidRequested := false }) with
        lastIndex := last
        retired := { b.retired with
          indexes := b.retired.indexes ++ droppedUids p.index (some q) } } := by
    rw [after, Model.modifyProperty_place h (by exact there)]
    simp [Site.withProperties, adoptProperty]
  refine ⟨{ p with id := q.id, index, uidRequested := false }, last, rfl, how, done, ?_, rfl⟩
  change (r'.model.modifyProperty i j (adoptProperty p)).propertyAt? i j = _
  rw [done, Model.propertyAt_place h]
  simp [Site.withProperties, lt]

/-- Placing a property finds, resets or creates it at the site. -/
theorem of_placeProperty {matched : Option PropertyMatch} (at_site : s.model = m.place i b)
    (h : i < m.entities.length)
    (run : placeProperty planned i isNew p matched s = .ok (j, quiet, notices) t) :
    ∃ found q b', PropertyFound m i p matched b found j q b' ∧ t.model = m.place i b' ∧
      quiet = (isNew || matched.isNone) ∧
      notices = placementNotices planned.name isNew p matched := by
  cases matched with
  | none =>
      simp only [placeProperty, Revision.bind_eq_ok, Revision.pure_eq_ok, Prod.mk.injEq] at run
      obtain ⟨_, r, created, ⟨rfl, rfl, rfl⟩, rfl⟩ := run
      obtain ⟨e, uid, at_i, assigned, unknown, rfl, after⟩ := Revision.of_createProperty created
      rw [at_site, Model.place_entity h] at at_i
      obtain rfl := Option.some.inj at_i
      rw [at_site, Model.addProperty_place h] at after
      rw [at_site] at unknown
      exact ⟨none, _, _, .created (.of_unmentioned assigned unknown), after, by simp, rfl⟩
  | some matched =>
      cases matched with
      | existing uid =>
          simp only [placeProperty, Revision.bind_eq_ok, Revision.within_eq_ok,
            locateProperty_eq_ok at_site h, Revision.pure_eq_ok, Prod.mk.injEq] at run
          obtain ⟨_, r, ⟨located, rfl⟩, ⟨rfl, rfl, rfl⟩, rfl⟩ := run
          obtain ⟨q, there, rfl⟩ := of_findIdx? located
          exact ⟨some q, q, b, .existing there, at_site, by simp, rfl⟩
      | reset old new =>
          simp only [placeProperty, Revision.bind_eq_ok, Revision.within_eq_ok,
            locateProperty_eq_ok at_site h, Revision.update_eq_ok, Revision.pure_eq_ok,
            Prod.mk.injEq] at run
          obtain ⟨j, r, ⟨located, rfl⟩, -, r', rfl, ⟨rfl, rfl, rfl⟩, rfl⟩ := run
          obtain ⟨q, there, rfl⟩ := of_findIdx? located
          have after : resetProperty i j new s.model = m.place i (resetSite b j q new) := by
            rw [at_site, resetProperty_place h there]
          exact ⟨some q, _, _, .reset there new, after, by simp, rfl⟩

/-- Merging a property is a step at the site. -/
theorem of_mergeProperty {matched : Option PropertyMatch} {uid : UInt64}
    (at_site : s.model = m.place i b) (h : i < m.entities.length)
    (run : mergeProperty planned i isNew p matched s = .ok (uid, notices) t) :
    ∃ r b', PropertyStep m i planned.name isNew b (p, matched) r b' ∧ t.model = m.place i b' ∧
      uid = r.made.id.uid ∧ notices = r.notices := by
  simp only [mergeProperty, Revision.bind_eq_ok, Revision.within_eq_ok,
    Revision.propertyAt_eq_ok, Revision.pure_eq_ok, Prod.exists, Prod.mk.injEq] at run
  obtain ⟨j, quiet, placed, s', place, settled, t', settle, stored, _, ⟨there, rfl⟩, ⟨rfl, rfl⟩,
    rfl⟩ := run
  obtain ⟨found, q, b₁, how, at_site', rfl, rfl⟩ := of_placeProperty at_site h place
  obtain ⟨made, last, made_eq, indexed, at_site'', done, rfl⟩ :=
    of_settleProperty at_site' h how.there settle
  obtain rfl := Option.some.inj (there.symm.trans done)
  have retains := Model.retains_place h how.retains
  have apart : q.index = none → ∀ index, stored.index = some index → index.uid ≠ q.id.uid := by
    intro unstored index there
    rw [unstored, there] at indexed
    exact indexed.ne_of_created (Model.mem_census_place_of_property h how.there)
  rw [how.index, how.lastIndex] at indexed
  refine ⟨⟨found, stored, _⟩, _, ?_, at_site'', rfl, rfl⟩
  have id : stored.id = q.id := by rw [made_eq]
  have uid : q.indexUid? = found.bind Property.indexUid? := by
    rw [Property.indexUid?, how.index]
    cases found <;> rfl
  exact {
    touches := how.touches stored
    made := by rw [id]; exact made_eq
    placed := by rw [id]; exact how.placed
    indexed := indexed.mono fun _ fresh => retains.fresh fresh
    apart := by rw [id, ← how.index]; exact apart
    entity := by
      simp only [Site.withProperties]
      rw [how.entity]
    lastRelation := how.lastRelation
    retired := by
      simp only [how.retired, droppedUids, Option.bind_some, uid]
    notices := by
      rw [how.index, how.name]
      rfl }

/-- The first property is merged, and then the others are merged. -/
theorem mergeEachProperty_cons_eq_ok {x : Property × Option PropertyMatch}
    {xs : List (Property × Option PropertyMatch)} {uids : List UInt64} :
    mergeEachProperty planned i isNew (x :: xs) s = .ok (uids, notices) t ↔
      ∃ uid told s' uids' others, mergeProperty planned i isNew x.1 x.2 s = .ok (uid, told) s' ∧
        mergeEachProperty planned i isNew xs s' = .ok (uids', others) t ∧
        uids = uid :: uids' ∧ notices = told ++ others := by
  simp only [mergeEachProperty, Revision.bind_eq_ok, Revision.pure_eq_ok, Prod.exists,
    Prod.mk.injEq]
  constructor
  · rintro ⟨uid, told, s', first, uids', others, _, rest, ⟨rfl, rfl⟩, rfl⟩
    exact ⟨uid, told, s', uids', others, first, rest, rfl, rfl⟩
  · rintro ⟨uid, told, s', uids', others, first, rest, rfl, rfl⟩
    exact ⟨uid, told, s', first, uids', others, t, rest, ⟨rfl, rfl⟩, rfl⟩

/-- Merging properties one after the other goes through them at the site. -/
theorem of_mergeEachProperty {xs : List (Property × Option PropertyMatch)} {uids : List UInt64}
    (at_site : s.model = m.place i b) (h : i < m.entities.length)
    (run : mergeEachProperty planned i isNew xs s = .ok (uids, notices) t) :
    ∃ rs b', Traversal (PropertyStep m i planned.name isNew) b xs rs b' ∧
      t.model = m.place i b' ∧ uids = rs.map (·.made.id.uid) ∧
      notices = rs.flatMap (·.notices) := by
  induction xs generalizing s b uids notices with
  | nil =>
      simp only [mergeEachProperty, Revision.pure_eq_ok, Prod.mk.injEq] at run
      obtain ⟨⟨rfl, rfl⟩, rfl⟩ := run
      exact ⟨[], b, .nil, at_site, rfl, rfl⟩
  | cons x xs ih =>
      obtain ⟨uid, told, s', uids', others, first, rest, rfl, rfl⟩ :=
        mergeEachProperty_cons_eq_ok.mp run
      obtain ⟨y, b₁, step, at_site', rfl, rfl⟩ := of_mergeProperty at_site h first
      obtain ⟨ys, b', steps, at_site'', rfl, rfl⟩ := ih at_site' rest
      exact ⟨y :: ys, b', .cons step steps, at_site'', rfl, rfl⟩

end Steps

end SchemaLedger.Merge
