import SchemaLedger.Proofs.Merge.Outcome

/-!
# Which identifiers merging gives

An element of a plan takes over the identifier of the stored element with the uid that the schema
gives, or else of the one with the same name; only where neither exists does it get an identifier of
its own, which has never been in use. This is what users rely on when they rename, move and remove
elements, so it is stated here for every element of a plan by its position.
-/

namespace SchemaLedger

open Text

/-- The entity that is stored under the identifier, or one without contents if there is none. -/
def Model.storedOrBlank (S : Model) (id : IdPair) : Entity :=
  (S.entities.find? (·.id = id)).getD { id }

namespace Merge

/-- The identifier `got` of an element for which the schema gives the uid `given`, or zero. The
stored elements it may be are `stored`, the one with its name is `named`, and `last` is the last
identifier of their scope. -/
structure Inherits {β : Type} (S : Model) (id : β → IdPair) (stored : List β) (named : Option β)
    (last : Option IdPair) (given : UInt64) (got : IdPair) : Prop where
  byUid : given ≠ 0 → ∃ x ∈ stored, (id x).uid = given ∧ got = id x
  byName : given = 0 → ∀ x, named = some x → got = id x
  created : given = 0 → named = none → IdPair.lastId last < got.id ∧ ¬ S.Mentions got.uid

/-- The identifier `got` of a planned property in a stored entity. -/
structure InheritsProperty (S : Model) (owner : Entity) (p : Property) (got : IdPair) : Prop where
  byUid : p.id.uid ≠ 0 → ∀ s ∈ owner.properties, s.id.uid = p.id.uid → got = s.id
  /-- A uid that is not among the stored ones replaces that of the property with the name. -/
  reset : p.id.uid ≠ 0 → (∀ s ∈ owner.properties, s.id.uid ≠ p.id.uid) →
    ∃ s, owner.property? p.name = some s ∧ got = ⟨s.id.id, p.id.uid⟩
  byName : p.id.uid = 0 → ∀ s, owner.property? p.name = some s → got = s.id
  created : p.id.uid = 0 → owner.property? p.name = none →
    IdPair.lastId owner.lastProperty < got.id ∧ ¬ S.Mentions got.uid

/-- The identifier `got` of an index, where the matched property has the index `stored`, if any, and
the plan wants an index if `wanted` is there. -/
structure InheritsIndex (S : Model) (stored wanted got : Option IdPair) : Prop where
  isSome_eq : got.isSome = wanted.isSome
  kept : ∀ index, stored = some index → wanted.isSome → got = some index
  created : stored = none → ∀ index, got = some index →
    IdPair.lastId S.lastIndex < index.id ∧ ¬ S.Mentions index.uid

/-- The merged entity `y` has the identifier that the planned entity `e` is to have, and so has
everything in it, position by position. A property that was matched has the local id of the stored
property that it was matched with. -/
structure InheritsEntity (S : Model) (e y : Entity) : Prop where
  entity : Inherits S (·.id) S.entities (S.entity? e.name) S.lastEntity e.id.uid y.id
  properties : List.Forall₂ (fun p q => InheritsProperty S (S.storedOrBlank y.id) p q.id ∧
    InheritsIndex S
      (((S.storedOrBlank y.id).properties.find? (·.id.id = q.id.id)).bind (·.index))
      p.index q.index) e.properties y.properties
  relations : List.Forall₂ (fun r z => Inherits S (·.id) (S.storedOrBlank y.id).relations
    ((S.storedOrBlank y.id).relation? r.name) S.lastRelation r.id.uid z.id) e.relations y.relations

section Origins

variable {S : Model} {owner : Entity} {p q : Property}

theorem Origin.inherits {β : Type} {id : β → IdPair} {stored : List β} {named found : Option β}
    {given : UInt64} {asked : Bool} {last : Option IdPair} {got : IdPair}
    (h : Origin id stored named given asked last S.Fresh found got) (consistent : S.IsConsistent) :
    Inherits S id stored named last given got := by
  cases h with
  | byUid is_given there uid =>
      exact ⟨fun _ => ⟨_, there, uid, rfl⟩, fun zero => absurd zero is_given,
        fun zero => absurd zero is_given⟩
  | byName zero _ is_named =>
      constructor
      · intro given
        exact absurd zero given
      · intro _ x hx
        obtain rfl := Option.some.inj (is_named.symm.trans hx)
        rfl
      · intro _ unnamed
        simp [is_named] at unnamed
  | created zero _ unnamed above fresh =>
      constructor
      · intro given
        exact absurd zero given
      · intro _ x hx
        simp [unnamed] at hx
      · intro _ _
        exact ⟨above, consistent.not_mentions_of_fresh fresh⟩

theorem PropertyOrigin.inherits {found : Option Property} {id : IdPair}
    (h : PropertyOrigin S owner p found id) (consistent : S.IsConsistent)
    (distinct : (owner.properties.map (·.id.uid)).Nodup) : InheritsProperty S owner p id := by
  cases h with
  | byUid given there uid =>
      refine ⟨?_, ?_, fun zero => absurd zero given, fun zero => absurd zero given⟩
      · intro _ s hs same
        rw [List.inj_on_of_nodup_map distinct there hs (uid.trans same.symm)]
      · intro _ unlisted_uid
        exact absurd uid (unlisted_uid _ there)
  | @reset q given unlisted named _ =>
      refine ⟨?_, ?_, fun zero => absurd zero given, fun zero => absurd zero given⟩
      · intro _ s hs same
        exact absurd (List.mem_map.mpr ⟨s, hs, same⟩) unlisted
      · intro _ _
        exact ⟨q, named, rfl⟩
  | byName zero _ named =>
      refine ⟨fun given => absurd zero given, fun given => absurd zero given, ?_, ?_⟩
      · intro _ s hs
        obtain rfl := Option.some.inj (named.symm.trans hs)
        rfl
      · intro _ unnamed
        simp [named] at unnamed
  | created zero _ unnamed above fresh =>
      refine ⟨fun given => absurd zero given, fun given => absurd zero given, ?_, ?_⟩
      · intro _ s hs
        simp [unnamed] at hs
      · intro _ _
        exact ⟨above, consistent.not_mentions_of_fresh fresh⟩

/-- What was matched is what is stored with the local id of the result, if new local ids lie above
the stored ones. -/
theorem find?_localId {β : Type} {key : β → IdPair} {stored : List β} {found : Option β}
    {last : Option IdPair} {id : IdPair} (distinct : (stored.map fun s => (key s).id).Nodup)
    (below : ∀ s ∈ stored, (key s).id ≤ IdPair.lastId last)
    (kept : ∀ x, found = some x → x ∈ stored ∧ (key x).id = id.id)
    (created : found = none → IdPair.lastId last < id.id) :
    stored.find? (fun s => (key s).id = id.id) = found := by
  cases is_found : found with
  | none =>
      apply List.find?_eq_none.mpr
      intro s hs same
      have same : (key s).id = id.id := by simpa using same
      exact absurd (UInt32.lt_of_lt_of_le (created is_found) (same ▸ below s hs))
        (UInt32.lt_irrefl _)
  | some x =>
      obtain ⟨there, same⟩ := kept x is_found
      apply find?_eq_some_of_only there (by simpa using same)
      intro y hy same'
      exact List.inj_on_of_nodup_map distinct hy there ((of_decide_eq_true same').trans same.symm)

/-- The stored property that was matched is the one with the local id of the result. -/
theorem PropertyOrigin.found_eq {found : Option Property} {id : IdPair}
    (h : PropertyOrigin S owner p found id) (distinct : (owner.properties.map (·.id.id)).Nodup)
    (below : ∀ s ∈ owner.properties, s.id.id ≤ IdPair.lastId owner.lastProperty) :
    owner.properties.find? (·.id.id = id.id) = found :=
  find?_localId distinct below h.local_id.1 h.local_id.2

/-- The stored element that was matched is the one with the local id of the result. -/
theorem Origin.found_eq {β : Type} {key : β → IdPair} {stored : List β} {named found : Option β}
    {given : UInt64} {asked : Bool} {last : Option IdPair} {Fresh : UInt64 → Prop} {id : IdPair}
    (h : Origin key stored named given asked last Fresh found id)
    (listed : ∀ x, named = some x → x ∈ stored) (distinct : (stored.map fun s => (key s).id).Nodup)
    (below : ∀ s ∈ stored, (key s).id ≤ IdPair.lastId last) :
    stored.find? (fun s => (key s).id = id.id) = found := by
  apply find?_localId distinct below
  · intro x is_found
    obtain ⟨there, same⟩ := h.mem listed is_found
    exact ⟨there, congrArg IdPair.id same⟩
  · rintro rfl
    cases h with
    | created _ _ _ above _ => exact above

theorem IndexOrigin.inherits {stored wanted got : Option IdPair}
    (h : IndexOrigin S stored wanted got) (consistent : S.IsConsistent) :
    InheritsIndex S stored wanted got := by
  cases h with
  | kept => exact ⟨rfl, fun _ same _ => same, nofun⟩
  | dropped => exact ⟨rfl, nofun, nofun⟩
  | created above fresh =>
      refine ⟨rfl, nofun, ?_⟩
      intro _ index same
      obtain rfl := Option.some.inj same
      exact ⟨above, consistent.not_mentions_of_fresh fresh⟩
  | absent => exact ⟨rfl, nofun, nofun⟩

end Origins

section Entities

variable {S : Model} {targets : Targets} {ids : List IdPair} {e : Entity} {o : Settled Entity}

/-- The entity that was matched is stored under the identifier of the result, and if none was
matched, then nothing is. -/
theorem EntityOrigin.storedOrBlank_eq {found : Option Entity} {id : IdPair}
    (h : EntityOrigin S e found id) (consistent : S.IsConsistent) :
    S.storedOrBlank id = found.getD { id } := by
  have only {x : Entity} (there : x ∈ S.entities) : S.storedOrBlank x.id = x := by
    have located : S.entities.find? (·.id = x.id) = some x := by
      apply find?_eq_some_of_only there (by simp)
      intro y hy same
      exact List.inj_on_of_nodup_map consistent.distinctUids hy there
        (congrArg IdPair.uid (of_decide_eq_true same))
    simp [Model.storedOrBlank, located]
  cases h with
  | byUid _ there _ => exact only there
  | byName _ _ named => exact only (entity?_eq_some named).1
  | created _ _ _ _ fresh =>
      have unused : S.entities.find? (·.id = id) = none := by
        apply List.find?_eq_none.mpr
        intro x hx same
        apply fresh.2
        obtain rfl : x.id = id := by simpa using same
        exact Model.mem_census_of_entity hx x.uid_mem_ownUids
      simp [Model.storedOrBlank, unused]

theorem EntityOutcome.inherits (h : EntityOutcome S targets ids e o) (consistent : S.IsConsistent) :
    InheritsEntity S e o.made := by
  have owner := EntityOrigin.storedOrBlank_eq h.origin consistent
  have contents := h.contents
  -- nothing is compared with the name of the owner
  have same : (S.storedOrBlank o.made.id).properties =
      (o.found.getD { id := o.made.id, name := e.name }).properties ∧
      (S.storedOrBlank o.made.id).relations =
        (o.found.getD { id := o.made.id, name := e.name }).relations ∧
      (S.storedOrBlank o.made.id).lastProperty =
        (o.found.getD { id := o.made.id, name := e.name }).lastProperty := by
    rw [owner]
    cases o.found <;> exact ⟨rfl, rfl, rfl⟩
  have distinct : ((S.storedOrBlank o.made.id).properties.map (·.id.uid)).Nodup ∧
      ((S.storedOrBlank o.made.id).properties.map (·.id.id)).Nodup ∧
      ∀ s ∈ (S.storedOrBlank o.made.id).properties,
        s.id.id ≤ IdPair.lastId (S.storedOrBlank o.made.id).lastProperty := by
    rw [owner]
    cases found : o.found with
    | none => simp
    | some x =>
        have there := (h.origin.mem (fun _ named => (entity?_eq_some named).1) found).1
        have covered := consistent.propertyIds there
        exact ⟨consistent.distinctPropertyUids there,
          by simpa [Function.comp_def] using covered.distinct,
          fun s hs => covered.below _ (List.mem_map_of_mem hs)⟩
  obtain ⟨ps, each, properties, -⟩ := contents.properties
  obtain ⟨rs, each', relations⟩ := contents.relations
  refine ⟨h.origin.inherits consistent, ?_, ?_⟩
  · rw [properties]
    apply List.forall₂_map_right_iff.mpr
    apply each.imp
    intro p r outcome
    have outcome := outcome.congr same.1.symm same.2.2.symm
    refine ⟨outcome.origin.inherits consistent distinct.1, ?_⟩
    rw [outcome.origin.found_eq distinct.2.1 distinct.2.2]
    exact outcome.index.inherits consistent
  · rw [relations]
    apply List.forall₂_map_right_iff.mpr
    apply each'.imp
    intro r x outcome
    exact (outcome.congr same.2.1.symm).origin.inherits consistent

/-- If drafts are merged into a consistent model and the result is consistent, then every entity,
property, index and relation of the result has the identifier that it is to have. -/
theorem inherits_of_merge {kinds : List PropertyKind} {drafts : List EntityDraft}
    {plan : List Entity} {notices : List Notice} {store store' : Store}
    (planned : Plan.ofDrafts kinds drafts = .ok plan) (stored : store.model.IsConsistent)
    (run : store.merge plan = .ok (notices, store')) (merged : store'.model.IsConsistent) :
    List.Forall₂ (InheritsEntity store.model) plan store'.model.entities := by
  obtain ⟨-, os, made, -, outcomes⟩ :=
    outcome_of_merge run (Plan.properties_ne_nil planned) stored merged
  rw [made]
  apply List.forall₂_map_right_iff.mpr
  apply outcomes.imp
  intro e o outcome
  exact outcome.inherits stored

theorem inherits_of_merge_oneEntity :
    ∃ plan notices store', Plan.ofDrafts [] [.onlyId "Note", .onlyId "TASK"] = .ok plan ∧
      (oneEntity "Task").IsConsistent ∧
      Store.merge plan ⟨oneEntity "Task", .counting⟩ = .ok (notices, store') ∧
      store'.model.IsConsistent ∧
      List.Forall₂ (InheritsEntity (oneEntity "Task")) plan store'.model.entities := by
  have stored : (oneEntity "Task").IsConsistent := by decide
  obtain ⟨plan, notices, store', planned, run, merged⟩ := exists_plan_of_merge []
    [.onlyId "Note", .onlyId "TASK"] ⟨oneEntity "Task", .counting⟩ (by decide)
  exact ⟨plan, notices, store', planned, stored, run, merged,
    inherits_of_merge planned stored run merged⟩

end Entities

end Merge

end SchemaLedger
