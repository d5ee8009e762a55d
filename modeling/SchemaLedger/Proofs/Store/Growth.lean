import Mathlib.Data.List.Basic
import SchemaLedger.Proofs.Store.Failure

/-!
# Where the uids of a model come from

A revision does not invent uids: what a model mentions afterwards was mentioned before, was given to
the revision, or is one of the candidates that the revision has taken from the source.
`Revision.Draws` says so of a revision, whether it succeeds or fails. It is proved for revisions by
their parts, since it is kept by doing one thing after the other.
-/

namespace SchemaLedger

/-! ### Sources -/

namespace UidSource

/-- The second source is the first one after some more candidates have been taken. -/
structure LeadsTo (source later : UidSource) : Prop where
  candidate : later.candidate = source.candidate
  taken : source.taken ≤ later.taken

/-- The candidate is among those that have been taken from the first source to the second one. -/
def Yields (source later : UidSource) (uid : UInt64) : Prop :=
  ∃ k, k < later.taken ∧ source.taken ≤ k ∧ source.candidate k = uid

instance (source later : UidSource) (uid : UInt64) : Decidable (source.Yields later uid) :=
  inferInstanceAs (Decidable (∃ k, k < later.taken ∧ source.taken ≤ k ∧ source.candidate k = uid))

variable {accepts : UInt64 → Bool} {attempts : Nat} {source later last : UidSource} {uid : UInt64}

theorem LeadsTo.refl (source : UidSource) : source.LeadsTo source := ⟨rfl, Nat.le_refl _⟩

theorem LeadsTo.trans (h : source.LeadsTo later) (h' : later.LeadsTo last) :
    source.LeadsTo last :=
  ⟨h'.candidate.trans h.candidate, Nat.le_trans h.taken h'.taken⟩

theorem leadsTo_advance (source : UidSource) : source.LeadsTo source.advance :=
  ⟨rfl, Nat.le_succ _⟩

theorem yields_advance (source : UidSource) : source.Yields source.advance source.peek :=
  ⟨source.taken, Nat.lt_succ_self _, Nat.le_refl _, rfl⟩

/-- Nothing is taken on the way from a source to itself. -/
theorem not_yields_self : ¬ source.Yields source uid :=
  fun ⟨_, lt, le, _⟩ => absurd lt (Nat.not_lt.mpr le)

theorem Yields.extend (h : source.Yields later uid) (moved : later.LeadsTo last) :
    source.Yields last uid := by
  obtain ⟨k, lt, le, same⟩ := h
  exact ⟨k, Nat.lt_of_lt_of_le lt moved.taken, le, same⟩

theorem Yields.of_later (moved : source.LeadsTo later) (h : later.Yields last uid) :
    source.Yields last uid := by
  obtain ⟨k, lt, le, same⟩ := h
  exact ⟨k, lt, Nat.le_trans moved.taken le, by rw [← moved.candidate, same]⟩

/-- A search takes candidates from the source and gives one of them, if any. -/
theorem leadsTo_search :
    source.LeadsTo (source.search accepts attempts).2 ∧
      ∀ uid, (source.search accepts attempts).1 = some uid →
        source.Yields (source.search accepts attempts).2 uid := by
  induction attempts generalizing source with
  | zero => exact ⟨.refl _, nofun⟩
  | succ attempts ih =>
      unfold search
      split
      · refine ⟨leadsTo_advance source, fun uid found => ?_⟩
        obtain rfl := Option.some.inj found
        exact yields_advance source
      · exact ⟨(leadsTo_advance source).trans ih.1,
          fun uid found => (ih.2 uid found).of_later (leadsTo_advance source)⟩

end UidSource

/-! ### What a model mentions -/

/-- What is among the uids of an entity, with its last property identifier. -/
theorem Entity.mem_uids {e : Entity} {uid : UInt64} :
    uid ∈ e.uids ↔ uid = e.id.uid ∨ e.lastProperty.map (·.uid) = some uid ∨
      (∃ p ∈ e.properties, uid ∈ p.uids) ∨ ∃ r ∈ e.relations, r.id.uid = uid := by
  simp [uids]

namespace Retired

variable {r : Retired} {uid : UInt64}

theorem of_mem_uids_addIndex {index : Option UInt64} (h : uid ∈ (r.addIndex index).uids) :
    uid ∈ r.uids ∨ index = some uid := by
  simp only [uids, addIndex, List.mem_append, Option.mem_toList] at h ⊢
  tauto

theorem of_mem_uids_addProperties {properties : List Property}
    (h : uid ∈ (r.addProperties properties).uids) :
    uid ∈ r.uids ∨ ∃ p ∈ properties, uid ∈ p.uids := by
  have index {p : Property} (there : p.indexUid? = some uid) : uid ∈ p.uids := by
    obtain ⟨there, -⟩ := Option.filter_eq_some_iff.mp there
    exact List.mem_cons_of_mem _ (Option.mem_toList.mpr there)
  simp only [uids, addProperties, List.mem_append, List.mem_filterMap, List.mem_map] at h ⊢
  rcases h with ((h | h | ⟨p, hp, there⟩) | h | ⟨p, hp, rfl⟩) | h
  · exact .inl (.inl (.inl (.inl h)))
  · exact .inl (.inl (.inl (.inr h)))
  · exact .inr ⟨p, hp, index there⟩
  · exact .inl (.inl (.inr h))
  · exact .inr ⟨p, hp, List.mem_cons_self⟩
  · exact .inl (.inr h)

theorem of_mem_uids_addRelations {relations : List Relation}
    (h : uid ∈ (r.addRelations relations).uids) :
    uid ∈ r.uids ∨ ∃ q ∈ relations, q.id.uid = uid := by
  simp only [uids, addRelations, List.mem_append, List.mem_map] at h ⊢
  tauto

theorem of_mem_uids_addEntities {entities : List Entity} (h : uid ∈ (r.addEntities entities).uids) :
    uid ∈ r.uids ∨ ∃ e ∈ entities, uid ∈ e.uids := by
  have split : uid ∈ ((r.addProperties (entities.flatMap (·.properties))).addRelations
      (entities.flatMap (·.relations))).uids ∨ ∃ e ∈ entities, e.id.uid = uid := by
    simp only [uids, addEntities, List.mem_append, List.mem_map] at h ⊢
    tauto
  rcases split with h | ⟨e, he, rfl⟩
  · rcases of_mem_uids_addRelations h with h | ⟨q, hq, same⟩
    · refine (of_mem_uids_addProperties h).imp_right ?_
      rintro ⟨p, hp, hu⟩
      obtain ⟨e, he, hp⟩ := List.mem_flatMap.mp hp
      exact ⟨e, he, Entity.mem_uids.mpr (.inr (.inr (.inl ⟨p, hp, hu⟩)))⟩
    · obtain ⟨e, he, hq⟩ := List.mem_flatMap.mp hq
      exact .inr ⟨e, he, Entity.mem_uids.mpr (.inr (.inr (.inr ⟨q, hq, same⟩)))⟩
  · exact .inr ⟨e, he, Entity.mem_uids.mpr (.inl rfl)⟩

end Retired

/-- What a change of one element leaves the same stays the same along the list. -/
theorem map_modify_of_same {α β : Type} {f : α → α} (of : α → β) (same : ∀ x, of (f x) = of x)
    (j : Nat) (xs : List α) : (xs.modify j f).map of = xs.map of := by
  apply List.ext_getElem (by simp)
  intro k _ _
  simp only [List.getElem_map, List.getElem_modify]
  split
  · rw [same]
  · rfl

namespace Model

variable {m : Model} {given : List UInt64} {uid : UInt64} {i j : Nat}

theorem mentions_iff : m.Mentions uid ↔
    uid ∈ m.lastUids ∨ uid ∈ m.retired.uids ∨ ∃ e ∈ m.entities, uid ∈ e.uids := by
  simp [Mentions, uids]

theorem mentions_of_entity {e : Entity} (he : e ∈ m.entities) (hu : uid ∈ e.uids) :
    m.Mentions uid :=
  mentions_iff.mpr (.inr (.inr ⟨e, he, hu⟩))

theorem mentions_of_retired (hu : uid ∈ m.retired.uids) : m.Mentions uid :=
  mentions_iff.mpr (.inr (.inl hu))

theorem mentions_of_last (hu : uid ∈ m.lastUids) : m.Mentions uid := mentions_iff.mpr (.inl hu)

/-- The second model only mentions what the first one mentions or what is given, and it has the same
notes. -/
structure Adds (given : List UInt64) (m m' : Model) : Prop where
  mentions : ∀ uid, m'.Mentions uid → m.Mentions uid ∨ uid ∈ given
  notes : m'.notes = m.notes

theorem Adds.refl (m : Model) : Adds given m m := ⟨fun _ => .inl, rfl⟩

theorem Adds.trans {m' m'' : Model} (h : Adds given m m') (h' : Adds given m' m'') :
    Adds given m m'' := by
  refine ⟨fun uid mentioned => ?_, h'.notes.trans h.notes⟩
  rcases h'.mentions uid mentioned with mentioned | known
  · exact h.mentions uid mentioned
  · exact .inr known

theorem adds_of {m' : Model} (notes : m'.notes = m.notes)
    (last : ∀ uid ∈ m'.lastUids, m.Mentions uid ∨ uid ∈ given)
    (retired : ∀ uid ∈ m'.retired.uids, m.Mentions uid ∨ uid ∈ given)
    (entities : ∀ e ∈ m'.entities, ∀ uid ∈ e.uids, m.Mentions uid ∨ uid ∈ given) :
    Adds given m m' := by
  refine ⟨fun uid mentioned => ?_, notes⟩
  rcases mentions_iff.mp mentioned with h | h | ⟨e, he, h⟩
  · exact last uid h
  · exact retired uid h
  · exact entities e he uid h

/-- An entity that is changed only mentions what is given besides. -/
theorem adds_modifyEntity {f : Entity → Entity}
    (own : ∀ e, m.entities[i]? = some e → ∀ uid ∈ (f e).uids, m.Mentions uid ∨ uid ∈ given) :
    Adds given m (m.modifyEntity i f) := by
  refine adds_of rfl (fun _ hu => .inl (mentions_of_last hu))
    (fun _ hu => .inl (mentions_of_retired hu)) ?_
  intro e he uid hu
  obtain ⟨k, lt, rfl⟩ := List.getElem_of_mem he
  have lt' : k < m.entities.length := by simpa [modifyEntity] using lt
  have at_k : m.entities[k]? = some m.entities[k] := List.getElem?_eq_getElem lt'
  simp only [modifyEntity, List.getElem_modify] at hu
  split at hu
  · next same => exact own _ (same ▸ at_k) uid hu
  · exact .inl (mentions_of_entity (List.getElem_mem lt') hu)

/-- Retired uids may be added if they are mentioned or given. -/
theorem Adds.withRetired {m' : Model} {r : Retired} (h : Adds given m m')
    (known : ∀ uid ∈ r.uids, m.Mentions uid ∨ uid ∈ given) :
    Adds given m { m' with retired := r } :=
  adds_of h.notes (fun uid hu => h.mentions uid (mentions_of_last hu)) known
    fun _ he uid hu => h.mentions uid (mentions_of_entity he hu)

theorem adds_keepEntities (m : Model) (keep : Entity → Bool) :
    Adds given m (m.keepEntities keep) := by
  refine adds_of rfl (fun _ hu => .inl (mentions_of_last hu)) ?_ ?_
  · intro uid hu
    rcases Retired.of_mem_uids_addEntities hu with hu | ⟨e, he, hu⟩
    · exact .inl (mentions_of_retired hu)
    · exact .inl (mentions_of_entity (List.mem_of_mem_filter he) hu)
  · intro e he uid hu
    exact .inl (mentions_of_entity (List.mem_of_mem_filter he) hu)

theorem adds_addEntity (m : Model) (name : String) (uid : UInt64) :
    Adds [uid] m (m.addEntity name uid) := by
  refine adds_of rfl ?_ (fun _ hu => .inl (mentions_of_retired hu)) ?_
  · intro u hu
    simp only [lastUids, addEntity, List.mem_filterMap, List.mem_cons, List.not_mem_nil,
      or_false] at hu
    obtain ⟨last, rfl | rfl | rfl, hu⟩ := hu
    · exact .inr (by simpa [eq_comm] using hu)
    · exact .inl (mentions_of_last (List.mem_filterMap.mpr ⟨_, by simp, hu⟩))
    · exact .inl (mentions_of_last (List.mem_filterMap.mpr ⟨_, by simp, hu⟩))
  · intro e he u hu
    rcases List.mem_append.mp he with he | he
    · exact .inl (mentions_of_entity he hu)
    · obtain rfl := List.mem_singleton.mp he
      exact .inr (by simpa [Entity.uids] using hu)

theorem adds_addProperty (m : Model) (i : Nat) (name : String) (kind : PropertyKind)
    (uid : UInt64) : Adds [uid] m (m.modifyEntity i (·.addProperty name kind uid)) := by
  refine adds_modifyEntity fun e at_i u hu => ?_
  have own {u : UInt64} (hu : u ∈ e.uids) : m.Mentions u :=
    mentions_of_entity (List.mem_of_getElem? at_i) hu
  simp only [Entity.mem_uids, Entity.addProperty, List.mem_append, List.mem_singleton] at hu
  rcases hu with hu | hu | ⟨p, hp | rfl, hu⟩ | hu
  · exact .inl (own (Entity.mem_uids.mpr (.inl hu)))
  · exact .inr (by simpa [eq_comm] using hu)
  · exact .inl (own (Entity.mem_uids.mpr (.inr (.inr (.inl ⟨p, hp, hu⟩)))))
  · exact .inr (by simpa [Property.uids] using hu)
  · exact .inl (own (Entity.mem_uids.mpr (.inr (.inr (.inr hu)))))

theorem adds_addRelation (m : Model) (i : Nat) (name : String) (uid : UInt64) :
    Adds [uid] m (m.addRelation i name uid) := by
  have changed : Adds [uid] m (m.modifyEntity i fun e => { e with
      relations := e.relations ++ [{ id := ⟨IdPair.next m.lastRelation, uid⟩, name }] }) := by
    refine adds_modifyEntity fun e at_i u hu => ?_
    have own {u : UInt64} (hu : u ∈ e.uids) : m.Mentions u :=
      mentions_of_entity (List.mem_of_getElem? at_i) hu
    simp only [Entity.mem_uids, List.mem_append, List.mem_singleton] at hu
    rcases hu with hu | hu | hu | ⟨r, hr | rfl, hu⟩
    · exact .inl (own (Entity.mem_uids.mpr (.inl hu)))
    · exact .inl (own (Entity.mem_uids.mpr (.inr (.inl hu))))
    · exact .inl (own (Entity.mem_uids.mpr (.inr (.inr (.inl hu)))))
    · exact .inl (own (Entity.mem_uids.mpr (.inr (.inr (.inr ⟨r, hr, hu⟩)))))
    · exact .inr (by simpa [eq_comm] using hu)
  refine adds_of rfl ?_ (fun _ hu => .inl (mentions_of_retired hu))
    fun e he u hu => changed.mentions u (mentions_of_entity he hu)
  intro u hu
  simp only [lastUids, addRelation, List.mem_filterMap, List.mem_cons, List.not_mem_nil,
    or_false] at hu
  obtain ⟨last, rfl | rfl | rfl, hu⟩ := hu
  · exact .inl (mentions_of_last (List.mem_filterMap.mpr ⟨_, by simp [modifyEntity], hu⟩))
  · exact .inl (mentions_of_last (List.mem_filterMap.mpr ⟨_, by simp [modifyEntity], hu⟩))
  · exact .inr (by simpa [eq_comm] using hu)

theorem adds_addIndex (m : Model) (uid : UInt64) : Adds [uid] m (m.addIndex uid).2 := by
  refine adds_of rfl ?_ (fun _ hu => .inl (mentions_of_retired hu))
    fun _ he _ hu => .inl (mentions_of_entity he hu)
  intro u hu
  simp only [lastUids, addIndex, List.mem_filterMap, List.mem_cons, List.not_mem_nil,
    or_false] at hu
  obtain ⟨last, rfl | rfl | rfl, hu⟩ := hu
  · exact .inl (mentions_of_last (List.mem_filterMap.mpr ⟨_, by simp, hu⟩))
  · exact .inr (by simpa [eq_comm] using hu)
  · exact .inl (mentions_of_last (List.mem_filterMap.mpr ⟨_, by simp, hu⟩))

theorem adds_keepProperties (m : Model) (i : Nat) (keep : Property → Bool) :
    Adds given m (m.keepProperties i keep) := by
  unfold keepProperties
  split
  · next e at_i =>
      have own {u : UInt64} (hu : u ∈ e.uids) : m.Mentions u :=
        mentions_of_entity (List.mem_of_getElem? at_i) hu
      refine (adds_modifyEntity ?_).withRetired ?_
      · intro e' at_i' u hu
        obtain rfl := Option.some.inj (at_i.symm.trans at_i')
        refine .inl (own ?_)
        rw [Entity.mem_uids] at hu ⊢
        refine hu.imp_right (Or.imp_right (Or.imp_left ?_))
        rintro ⟨p, hp, hu⟩
        exact ⟨p, List.mem_of_mem_filter hp, hu⟩
      · intro u hu
        rcases Retired.of_mem_uids_addProperties hu with hu | ⟨p, hp, hu⟩
        · exact .inl (mentions_of_retired hu)
        · exact .inl (own (Entity.mem_uids.mpr
            (.inr (.inr (.inl ⟨p, List.mem_of_mem_filter hp, hu⟩)))))
  · exact .refl m

theorem adds_keepRelations (m : Model) (i : Nat) (keep : Relation → Bool) :
    Adds given m (m.keepRelations i keep) := by
  unfold keepRelations
  split
  · next e at_i =>
      have own {u : UInt64} (hu : u ∈ e.uids) : m.Mentions u :=
        mentions_of_entity (List.mem_of_getElem? at_i) hu
      refine (adds_modifyEntity ?_).withRetired ?_
      · intro e' at_i' u hu
        obtain rfl := Option.some.inj (at_i.symm.trans at_i')
        refine .inl (own ?_)
        rw [Entity.mem_uids] at hu ⊢
        refine hu.imp_right (Or.imp_right (Or.imp_right ?_))
        rintro ⟨r, hr, hu⟩
        exact ⟨r, List.mem_of_mem_filter hr, hu⟩
      · intro u hu
        rcases Retired.of_mem_uids_addRelations hu with hu | ⟨r, hr, hu⟩
        · exact .inl (mentions_of_retired hu)
        · exact .inl (own (Entity.mem_uids.mpr
            (.inr (.inr (.inr ⟨r, List.mem_of_mem_filter hr, hu⟩)))))
  · exact .refl m

/-- A property that is changed only mentions what is given besides. -/
theorem adds_modifyProperty {f : Property → Property}
    (own : ∀ p, m.propertyAt? i j = some p → ∀ uid ∈ (f p).uids, uid ∈ p.uids ∨ uid ∈ given) :
    Adds given m (m.modifyProperty i j f) := by
  refine adds_modifyEntity fun e at_i u hu => ?_
  have mentioned {u : UInt64} (hu : u ∈ e.uids) : m.Mentions u :=
    mentions_of_entity (List.mem_of_getElem? at_i) hu
  rw [Entity.mem_uids] at hu
  rcases hu with hu | hu | ⟨q, hq, hu⟩ | hu
  · exact .inl (mentioned (Entity.mem_uids.mpr (.inl hu)))
  · exact .inl (mentioned (Entity.mem_uids.mpr (.inr (.inl hu))))
  · obtain ⟨k, lt, rfl⟩ := List.getElem_of_mem hq
    have lt' : k < e.properties.length := by simpa using lt
    have at_k : e.properties[k]? = some e.properties[k] := List.getElem?_eq_getElem lt'
    have listed {u : UInt64} (hu : u ∈ e.properties[k].uids) : m.Mentions u :=
      mentioned (Entity.mem_uids.mpr (.inr (.inr (.inl ⟨_, List.getElem_mem lt', hu⟩))))
    simp only [List.getElem_modify] at hu
    split at hu
    · next same =>
        subst same
        exact (own _ (by simp [propertyAt?, at_i, at_k]) u hu).imp_left listed
    · exact .inl (listed hu)
  · exact .inl (mentioned (Entity.mem_uids.mpr (.inr (.inr (.inr hu)))))

/-- A relation that is changed keeps its identifier. -/
theorem adds_modifyRelation {f : Relation → Relation} (same : ∀ r, (f r).id = r.id) :
    Adds given m (m.modifyRelation i j f) := by
  refine adds_modifyEntity fun e at_i u hu =>
    .inl (mentions_of_entity (List.mem_of_getElem? at_i) ?_)
  have ids := map_modify_of_same (fun r : Relation => r.id.uid) (fun r => by rw [same r]) j
    e.relations
  simpa only [Entity.uids, ids] using hu

theorem adds_dropIndex (m : Model) (i j : Nat) : Adds given m (m.dropIndex i j) := by
  refine (adds_modifyProperty ?_).withRetired ?_
  · intro p _ u hu
    exact .inl (by
      simp only [Property.uids, Option.map_none, Option.toList_none, List.mem_singleton] at hu
      simp [Property.uids, hu])
  · intro u hu
    rcases Retired.of_mem_uids_addIndex hu with hu | hu
    · exact .inl (mentions_of_retired hu)
    · obtain ⟨p, at_j, dropped⟩ := Option.bind_eq_some_iff.mp hu
      obtain ⟨e, at_i, at_j⟩ := Option.bind_eq_some_iff.mp at_j
      obtain ⟨there, -⟩ := Option.filter_eq_some_iff.mp dropped
      have listed : u ∈ p.uids := List.mem_cons_of_mem _ (Option.mem_toList.mpr there)
      exact .inl (mentions_of_entity (List.mem_of_getElem? at_i) (Entity.mem_uids.mpr
        (.inr (.inr (.inl ⟨p, List.mem_of_getElem? at_j, listed⟩)))))

end Model

/-! ### Revisions -/

/-- On the way from one store to another, the source has moved on, and what the model mentions was
mentioned before, given, or taken from the source on the way. The notes stay. -/
structure Store.GrowsTo (given : List UInt64) (s t : Store) : Prop where
  uids : s.uids.LeadsTo t.uids
  mentions : ∀ uid, t.model.Mentions uid →
    s.model.Mentions uid ∨ uid ∈ given ∨ s.uids.Yields t.uids uid
  notes : t.model.notes = s.model.notes

namespace Store.GrowsTo

variable {given given' : List UInt64} {s t u : Store} {uid : UInt64}

theorem refl (s : Store) : s.GrowsTo given s := ⟨.refl _, fun _ => .inl, rfl⟩

theorem trans (h : s.GrowsTo given t) (h' : t.GrowsTo given u) : s.GrowsTo given u := by
  refine ⟨h.uids.trans h'.uids, fun uid mentioned => ?_, h'.notes.trans h.notes⟩
  rcases h'.mentions uid mentioned with mentioned | known | taken
  · exact (h.mentions uid mentioned).imp_right (Or.imp_right (·.extend h'.uids))
  · exact .inr (.inl known)
  · exact .inr (.inr (taken.of_later h.uids))

theorem mono (h : s.GrowsTo given t) (more : given ⊆ given') : s.GrowsTo given' t :=
  ⟨h.uids, fun uid mentioned => (h.mentions uid mentioned).imp_right (Or.imp_left (more ·)),
    h.notes⟩

theorem trans_append (h : s.GrowsTo given t) (h' : t.GrowsTo given' u) :
    s.GrowsTo (given ++ given') u :=
  (h.mono (List.subset_append_left _ _)).trans (h'.mono (List.subset_append_right _ _))

/-- What the first part accounts for may be given to the second part. -/
theorem trans_given (h : s.GrowsTo given t)
    (known : s.model.Mentions uid ∨ uid ∈ given ∨ s.uids.Yields t.uids uid)
    (h' : t.GrowsTo (uid :: given) u) : s.GrowsTo given u := by
  refine ⟨h.uids.trans h'.uids, fun v mentioned => ?_, h'.notes.trans h.notes⟩
  have early {v : UInt64} (known : s.model.Mentions v ∨ v ∈ given ∨ s.uids.Yields t.uids v) :
      s.model.Mentions v ∨ v ∈ given ∨ s.uids.Yields u.uids v :=
    known.imp_right (Or.imp_right (·.extend h'.uids))
  rcases h'.mentions v mentioned with mentioned | listed | taken
  · exact early (h.mentions v mentioned)
  · rcases List.mem_cons.mp listed with rfl | listed
    · exact early known
    · exact .inr (.inl listed)
  · exact .inr (.inr (taken.of_later h.uids))

/-- A uid that is nowhere yet, not given and not taken on the way, stays nowhere. -/
theorem not_mentions (h : s.GrowsTo given t) (unmentioned : ¬ s.model.Mentions uid)
    (other : uid ∉ given) (left : ¬ s.uids.Yields t.uids uid) : ¬ t.model.Mentions uid := by
  intro mentioned
  rcases h.mentions uid mentioned with mentioned | known | taken
  · exact unmentioned mentioned
  · exact other known
  · exact left taken

end Store.GrowsTo

theorem Model.Adds.growsTo {given : List UInt64} {m m' : Model} (h : Adds given m m')
    (uids : UidSource) : Store.GrowsTo given ⟨m, uids⟩ ⟨m', uids⟩ :=
  ⟨.refl _, fun uid mentioned => (h.mentions uid mentioned).imp_right .inl, h.notes⟩

/-- Whether the revision succeeds or fails, the store has grown by the given uids and by candidates
that were taken from its source. -/
structure Revision.Draws {α : Type} (given : List UInt64) (x : Revision α) : Prop where
  of_ok : ∀ {s t : Store} {a : α}, x s = .ok a t → s.GrowsTo given t
  of_error : ∀ {s t : Store} {e : ModelError}, x s = .error e t → s.GrowsTo given t

namespace Revision

variable {α β : Type} {given given' : List UInt64}

theorem Draws.mono {x : Revision α} (h : Draws given x) (more : given ⊆ given') :
    Draws given' x :=
  ⟨fun run => (h.of_ok run).mono more, fun run => (h.of_error run).mono more⟩

theorem Draws.bind {x : Revision α} {f : α → Revision β} (first : Draws given x)
    (second : ∀ s a t, x s = .ok a t → Draws given (f a)) : Draws given (x >>= f) := by
  constructor
  · intro s u b run
    obtain ⟨a, t, run, run'⟩ := bind_eq_ok.mp run
    exact (first.of_ok run).trans ((second s a t run).of_ok run')
  · intro s u e run
    rcases bind_eq_error.mp run with failed | ⟨a, t, run, failed⟩
    · exact first.of_error failed
    · exact (first.of_ok run).trans ((second s a t run).of_error failed)

theorem Draws.within {place : Place} {x : Revision α} (h : Draws given x) :
    Draws given (within place x) := by
  refine ⟨fun run => h.of_ok (within_eq_ok.mp run), fun run => ?_⟩
  obtain ⟨e, failed, -⟩ := within_eq_error.mp run
  exact h.of_error failed

theorem draws_pure (a : α) : Draws given (pure a) := by
  constructor
  · intro s t b run
    obtain ⟨-, rfl⟩ := pure_eq_ok.mp run
    exact .refl s
  · exact fun run => (pure_ne_error.mp run).elim

theorem draws_throw (e : ModelError) : Draws given (throw e : Revision α) := by
  constructor
  · exact fun run => (throw_ne_ok.mp run).elim
  · intro s t e' run
    obtain ⟨-, rfl⟩ := throw_eq_error.mp run
    exact .refl s

theorem draws_get : Draws given get := by
  constructor
  · intro s t a run
    obtain ⟨-, rfl⟩ := get_eq_ok.mp run
    exact .refl s
  · exact fun run => (get_ne_error.mp run).elim

theorem draws_model : Draws given model := draws_get.bind fun _ _ _ _ => draws_pure _

theorem draws_ofExcept (x : Except ModelError α) : Draws given (ofExcept x) := by
  cases x with
  | ok a => exact draws_pure a
  | error e => exact draws_throw e

theorem draws_entityAt (i : Nat) : Draws given (entityAt i) :=
  draws_model.bind fun _ m _ _ => by
    cases m.entities[i]? with
    | none => exact draws_throw _
    | some e => exact draws_pure e

theorem draws_propertyAt (i j : Nat) : Draws given (propertyAt i j) :=
  (draws_entityAt i).bind fun _ e _ _ => by
    cases e.properties[j]? with
    | none => exact draws_throw _
    | some p => exact draws_pure p

theorem draws_relationAt (i j : Nat) : Draws given (relationAt i j) :=
  (draws_entityAt i).bind fun _ e _ _ => by
    cases e.relations[j]? with
    | none => exact draws_throw _
    | some r => exact draws_pure r

theorem draws_update {f : Model → Model} (adds : ∀ m, Model.Adds given m (f m)) :
    Draws given (update f) := by
  constructor
  · intro s t a run
    obtain rfl := update_eq_ok.mp run
    exact (adds s.model).growsTo s.uids
  · exact fun run => (update_ne_error.mp run).elim

theorem draws_freshUid : Draws given freshUid := by
  have grows {s t : Store} {drawn : Option UInt64} (same : s.model = t.model)
      (search : s.model.freshUid? s.uids = (drawn, t.uids)) : s.GrowsTo given t := by
    have moved : s.uids.LeadsTo (s.model.freshUid? s.uids).2 := UidSource.leadsTo_search.1
    rw [search] at moved
    exact ⟨moved, fun uid mentioned => .inl (same ▸ mentioned), by rw [same]⟩
  constructor
  · intro s t uid drawn
    obtain ⟨search, same⟩ := freshUid_eq_ok.mp drawn
    exact grows same search
  · intro s t e failed
    obtain ⟨-, search, same⟩ := freshUid_eq_error.mp failed
    exact grows same search

/-- A uid that is drawn is among the candidates that are taken for it. -/
theorem yields_of_freshUid {s t : Store} {uid : UInt64} (drawn : freshUid s = .ok uid t) :
    s.uids.Yields t.uids uid := by
  have found : ∀ uid, (s.model.freshUid? s.uids).1 = some uid →
      s.uids.Yields (s.model.freshUid? s.uids).2 uid := UidSource.leadsTo_search.2
  rw [(freshUid_eq_ok.mp drawn).1] at found
  exact found uid rfl

/-- What is done with the value of a revision may mention a uid that is accounted for. -/
theorem Draws.bind_given {x : Revision α} {f : α → Revision β} (uidOf : α → UInt64)
    (first : Draws given x)
    (known : ∀ {s a t}, x s = .ok a t → s.model.Mentions (uidOf a) ∨ uidOf a ∈ given ∨
      s.uids.Yields t.uids (uidOf a))
    (second : ∀ a, Draws (uidOf a :: given) (f a)) : Draws given (x >>= f) := by
  constructor
  · intro s u b run
    obtain ⟨a, t, run, run'⟩ := bind_eq_ok.mp run
    exact (first.of_ok run).trans_given (known run) ((second a).of_ok run')
  · intro s u e run
    rcases bind_eq_error.mp run with failed | ⟨a, t, run, failed⟩
    · exact first.of_error failed
    · exact (first.of_ok run).trans_given (known run) ((second a).of_error failed)

/-- What is done with a fresh uid may mention it. -/
theorem draws_freshUid_bind {f : UInt64 → Revision β} (h : ∀ uid, Draws (uid :: given) (f uid)) :
    Draws given (freshUid >>= f) :=
  draws_freshUid.bind_given id (fun drawn => .inr (.inr (yields_of_freshUid drawn))) h

theorem draws_createEntity (name : String) : Draws given (createEntity name) :=
  draws_freshUid_bind fun uid => draws_model.bind fun _ _ _ _ =>
    (draws_update fun m => m.adds_addEntity name uid).mono (by simp) |>.bind fun _ _ _ _ =>
      draws_pure _

theorem draws_createProperty (i : Nat) (name : String) (kind : PropertyKind) :
    Draws given (createProperty i name kind) :=
  (draws_entityAt i).bind fun _ _ _ _ => draws_freshUid_bind fun uid =>
    (draws_update fun m => m.adds_addProperty i name kind uid).mono (by simp) |>.bind
      fun _ _ _ _ => draws_pure _

theorem draws_createRelation (i : Nat) (name : String) : Draws given (createRelation i name) :=
  (draws_entityAt i).bind fun _ _ _ _ => draws_freshUid_bind fun uid =>
    (draws_update fun m => m.adds_addRelation i name uid).mono (by simp) |>.bind
      fun _ _ _ _ => draws_pure _

theorem draws_createIndex : Draws given createIndex := by
  refine draws_freshUid_bind fun uid => ⟨?_, ?_⟩
  · intro s t index run
    simp only [bind_eq_ok, model_eq_ok, update_eq_ok, pure_eq_ok] at run
    obtain ⟨_, _, ⟨rfl, rfl⟩, -, _, rfl, -, rfl⟩ := run
    exact ((s.model.adds_addIndex uid).growsTo s.uids).mono (by simp)
  · intro s t e run
    simp only [bind_eq_error, model_ne_error, update_ne_error, pure_ne_error, and_false,
      exists_false, or_false] at run

/-- The uid of a new index is among the candidates that are taken for it. -/
theorem yields_of_createIndex {s t : Store} {index : IdPair}
    (created : createIndex s = .ok index t) : s.uids.Yields t.uids index.uid := by
  simp only [createIndex, bind_eq_ok, model_eq_ok, update_eq_ok, pure_eq_ok] at created
  obtain ⟨uid, r, drawn, _, _, ⟨rfl, rfl⟩, -, _, rfl, rfl, rfl⟩ := created
  exact (yields_of_freshUid drawn : s.uids.Yields r.uids uid)

/-- What is done with a new index may mention its uid. -/
theorem draws_createIndex_bind {f : IdPair → Revision β}
    (h : ∀ index, Draws (index.uid :: given) (f index)) : Draws given (createIndex >>= f) :=
  draws_createIndex.bind_given (·.uid)
    (fun created => .inr (.inr (yields_of_createIndex created))) h

end Revision

end SchemaLedger
