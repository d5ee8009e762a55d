import SchemaLedger.Proofs.Store.Copies

/-!
# Which candidate is drawn

A model holds uids at a dozen places, which are listed here one by one. A candidate is free if it is
not zero and stands at none of them. Drawing a uid takes candidates from the source up to the first
free one, and gives up after a thousand; the model stays as it is either way.
-/

namespace SchemaLedger

/-! ### Places of uids -/

/-- The uid stands in the model: it belongs to an element, is retired, or is part of a last
identifier. -/
inductive Model.Occurs (m : Model) (uid : UInt64) : Prop
  | entity {e : Entity} (he : e ∈ m.entities) (same : e.id.uid = uid)
  | property {e : Entity} {p : Property} (he : e ∈ m.entities) (hp : p ∈ e.properties)
      (same : p.id.uid = uid)
  | index {e : Entity} {p : Property} {id : IdPair} (he : e ∈ m.entities) (hp : p ∈ e.properties)
      (there : p.index = some id) (same : id.uid = uid)
  | relation {e : Entity} {r : Relation} (he : e ∈ m.entities) (hr : r ∈ e.relations)
      (same : r.id.uid = uid)
  | lastProperty {e : Entity} {last : IdPair} (he : e ∈ m.entities)
      (there : e.lastProperty = some last) (same : last.uid = uid)
  | lastEntity {last : IdPair} (there : m.lastEntity = some last) (same : last.uid = uid)
  | lastIndex {last : IdPair} (there : m.lastIndex = some last) (same : last.uid = uid)
  | lastRelation {last : IdPair} (there : m.lastRelation = some last) (same : last.uid = uid)
  | retiredEntity (retired : uid ∈ m.retired.entities)
  | retiredIndex (retired : uid ∈ m.retired.indexes)
  | retiredProperty (retired : uid ∈ m.retired.properties)
  | retiredRelation (retired : uid ∈ m.retired.relations)

/-- The uid can be given to a new element. -/
def Model.IsFree (m : Model) (uid : UInt64) : Prop := uid ≠ 0 ∧ ¬ m.Occurs uid

variable {m : Model} {uid : UInt64}

theorem Property.mem_uids {p : Property} :
    uid ∈ p.uids ↔ p.id.uid = uid ∨ ∃ id, p.index = some id ∧ id.uid = uid := by
  simp [uids, eq_comm]

theorem Retired.mem_uids {r : Retired} :
    uid ∈ r.uids ↔ uid ∈ r.entities ∨ uid ∈ r.indexes ∨ uid ∈ r.properties ∨ uid ∈ r.relations := by
  simp [uids]

theorem Model.mem_lastUids :
    uid ∈ m.lastUids ↔ (∃ last, m.lastEntity = some last ∧ last.uid = uid) ∨
      (∃ last, m.lastIndex = some last ∧ last.uid = uid) ∨
      ∃ last, m.lastRelation = some last ∧ last.uid = uid := by
  simp only [lastUids, List.mem_filterMap, List.mem_cons, List.not_mem_nil, or_false, exists_eq_or_imp,
    exists_eq_left, Option.map_eq_some_iff]

/-- No place is forgotten when the uids of a model are listed, and none is added. -/
theorem Model.mentions_iff_occurs : m.Mentions uid ↔ m.Occurs uid := by
  constructor
  · intro mentioned
    obtain last | retired | ⟨e, he, inside⟩ := mentions_iff.mp mentioned
    · obtain ⟨id, there, same⟩ | ⟨id, there, same⟩ | ⟨id, there, same⟩ := mem_lastUids.mp last
      · exact .lastEntity there same
      · exact .lastIndex there same
      · exact .lastRelation there same
    · obtain retired | retired | retired | retired := Retired.mem_uids.mp retired
      · exact .retiredEntity retired
      · exact .retiredIndex retired
      · exact .retiredProperty retired
      · exact .retiredRelation retired
    · obtain same | last | ⟨p, hp, inside⟩ | ⟨r, hr, same⟩ := Entity.mem_uids.mp inside
      · exact .entity he same.symm
      · obtain ⟨id, there, same⟩ := Option.map_eq_some_iff.mp last
        exact .lastProperty he there same
      · obtain same | ⟨id, there, same⟩ := Property.mem_uids.mp inside
        · exact .property he hp same
        · exact .index he hp there same
      · exact .relation he hr same
  · have of_property {e : Entity} {p : Property} (hp : p ∈ e.properties) (hu : uid ∈ p.uids) :
        uid ∈ e.uids :=
      Entity.mem_uids.mpr (.inr (.inr (.inl ⟨p, hp, hu⟩)))
    intro occurs
    cases occurs with
    | entity he same => exact mentions_of_entity he (Entity.mem_uids.mpr (.inl same.symm))
    | property he hp same =>
        exact mentions_of_entity he (of_property hp (Property.mem_uids.mpr (.inl same)))
    | index he hp there same =>
        exact mentions_of_entity he (of_property hp (Property.mem_uids.mpr (.inr ⟨_, there, same⟩)))
    | relation he hr same =>
        exact mentions_of_entity he (Entity.mem_uids.mpr (.inr (.inr (.inr ⟨_, hr, same⟩))))
    | lastProperty he there same =>
        have last := (congrArg (Option.map (·.uid)) there).trans (congrArg some same)
        exact mentions_of_entity he (Entity.mem_uids.mpr (.inr (.inl last)))
    | lastEntity there same => exact mentions_of_last (mem_lastUids.mpr (.inl ⟨_, there, same⟩))
    | lastIndex there same =>
        exact mentions_of_last (mem_lastUids.mpr (.inr (.inl ⟨_, there, same⟩)))
    | lastRelation there same =>
        exact mentions_of_last (mem_lastUids.mpr (.inr (.inr ⟨_, there, same⟩)))
    | retiredEntity retired => exact mentions_of_retired (Retired.mem_uids.mpr (.inl retired))
    | retiredIndex retired => exact mentions_of_retired (Retired.mem_uids.mpr (.inr (.inl retired)))
    | retiredProperty retired =>
        exact mentions_of_retired (Retired.mem_uids.mpr (.inr (.inr (.inl retired))))
    | retiredRelation retired =>
        exact mentions_of_retired (Retired.mem_uids.mpr (.inr (.inr (.inr retired))))

/-! ### Searching -/

namespace UidSource

variable {source : UidSource}

/-- The candidate that comes after `k` others. -/
def offer (source : UidSource) (k : Nat) : UInt64 := source.candidate (source.taken + k)

theorem offer_advance (k : Nat) : source.advance.offer k = source.offer (k + 1) := by
  simp [offer, advance, Nat.add_assoc, Nat.add_comm 1 k]

/-- The candidate that comes after `k` others is the first one with the property. -/
structure IsFirst (source : UidSource) (accepted : UInt64 → Prop) (k : Nat) : Prop where
  accepts : accepted (source.offer k)
  refuses : ∀ j, j < k → ¬ accepted (source.offer j)

theorem IsFirst.of_advance {accepted : UInt64 → Prop} {k : Nat}
    (h : source.advance.IsFirst accepted k) (refused : ¬ accepted source.peek) :
    source.IsFirst accepted (k + 1) := by
  constructor
  · rw [← offer_advance]
    exact h.accepts
  · intro j lt
    cases j with
    | zero => exact refused
    | succ j =>
        rw [← offer_advance]
        exact h.refuses j (Nat.lt_of_succ_lt_succ lt)

/-- A search gives the first candidate that is accepted and has taken it and those before it, or it
has taken as many candidates as it has attempts and none of them is accepted. -/
theorem search_cases (accepts : UInt64 → Bool) (attempts : Nat) (source : UidSource) :
    (∃ k, k < attempts ∧ source.IsFirst (accepts ·) k ∧
        source.search accepts attempts = (some (source.offer k), source.skip (k + 1))) ∨
      (∀ k, k < attempts → ¬ accepts (source.offer k)) ∧
        source.search accepts attempts = (none, source.skip attempts) := by
  induction attempts generalizing source with
  | zero => exact .inr ⟨nofun, rfl⟩
  | succ attempts ih =>
      rw [search]
      by_cases accepted : accepts source.peek
      · rw [if_pos accepted]
        exact .inl ⟨0, Nat.succ_pos attempts, ⟨accepted, nofun⟩, rfl⟩
      · rw [if_neg accepted]
        obtain ⟨k, lt, first, found⟩ | ⟨refused, found⟩ := ih source.advance
        · refine .inl ⟨k + 1, Nat.succ_lt_succ lt, first.of_advance accepted, ?_⟩
          rw [found, offer_advance, advance_skip]
        · refine .inr ⟨?_, by rw [found, advance_skip]⟩
          intro k lt
          cases k with
          | zero => exact accepted
          | succ k =>
              rw [← offer_advance]
              exact refused k (Nat.lt_of_succ_lt_succ lt)

end UidSource

namespace Revision

-- powers of naturals are those of the core library, whatever instances are in scope
attribute [local instance (high)] instPowNat

theorem accepts_iff : decide (uid ≠ 0 ∧ ¬ m.Mentions uid) = true ↔ m.IsFree uid := by
  rw [decide_eq_true_iff, Model.mentions_iff_occurs, Model.IsFree]

/-- Drawing a uid gives the first free candidate if it is among the next thousand, and takes it and
the candidates before it from the source. Otherwise it fails and has taken a thousand candidates.
The model stays the same, and a seeded source only gives uids of 63 bits. -/
theorem freshUid_draws_first (s : Store) :
    ((∃ k, k < 1000 ∧ s.uids.IsFirst s.model.IsFree k ∧
        freshUid s = .ok (s.uids.offer k) { s with uids := s.uids.skip (k + 1) }) ∨
      (∀ k, k < 1000 → ¬ s.model.IsFree (s.uids.offer k)) ∧
        freshUid s = .error (.uidsExhausted 1000) { s with uids := s.uids.skip 1000 }) ∧
    ∀ seed n, s.uids = (UidSource.ofSeed seed).skip n →
      ∀ uid t, freshUid s = .ok uid t → uid.toNat < 2 ^ (63 : Nat) := by
  have cases_of_search := s.uids.search_cases (fun uid => uid ≠ 0 ∧ ¬ s.model.Mentions uid) 1000
  simp only [accepts_iff] at cases_of_search
  have draws : (∃ k, k < 1000 ∧ s.uids.IsFirst s.model.IsFree k ∧
        freshUid s = .ok (s.uids.offer k) { s with uids := s.uids.skip (k + 1) }) ∨
      (∀ k, k < 1000 → ¬ s.model.IsFree (s.uids.offer k)) ∧
        freshUid s = .error (.uidsExhausted 1000) { s with uids := s.uids.skip 1000 } := by
    refine cases_of_search.imp ?_ ?_
    · rintro ⟨k, lt, first, found⟩
      refine ⟨k, lt, first, ?_⟩
      rw [freshUid, Model.freshUid?, uidAttempts, found]
    · rintro ⟨refused, found⟩
      refine ⟨refused, ?_⟩
      rw [freshUid, Model.freshUid?, uidAttempts, found]
  refine ⟨draws, fun seed n seeded uid t drawn => ?_⟩
  obtain ⟨k, -, -, run⟩ | ⟨-, run⟩ := draws
  · obtain ⟨rfl, -⟩ := (EStateM.Result.ok.injEq ..).mp (run.symm.trans drawn)
    rw [seeded]
    exact UidSource.candidate_ofSeed_lt seed _
  · cases run.symm.trans drawn

/-- The first candidate of this source is retired already. -/
def firstIsRetired : Store where
  model := { Model.empty with retired := { properties := [6743331035646670783] } }
  uids := .ofSeed 0

theorem freshUid_draws_first_firstIsRetired :
    firstIsRetired.uids = (UidSource.ofSeed 0).skip 0 ∧
      freshUid firstIsRetired =
        .ok 7133911035984196797 { firstIsRetired with uids := firstIsRetired.uids.skip 2 } ∧
      (7133911035984196797 : UInt64).toNat < 2 ^ (63 : Nat) := by
  have refused : ¬ firstIsRetired.model.IsFree (firstIsRetired.uids.offer 0) := by
    rw [← accepts_iff]
    decide +kernel
  have free : firstIsRetired.model.IsFree (firstIsRetired.uids.offer 1) := by
    rw [← accepts_iff]
    decide +kernel
  have second : firstIsRetired.uids.offer 1 = 7133911035984196797 := by decide +kernel
  obtain ⟨draws, small⟩ := freshUid_draws_first firstIsRetired
  have drawn : freshUid firstIsRetired =
      .ok 7133911035984196797 { firstIsRetired with uids := firstIsRetired.uids.skip 2 } := by
    obtain ⟨k, -, first, run⟩ | ⟨all_refused, -⟩ := draws
    · match k, first, run with
      | 0, first, _ => exact absurd first.accepts refused
      | 1, _, run => rw [run, second]
      | k + 2, first, _ => exact absurd free (first.refuses 1 (by omega))
    · exact absurd free (all_refused 1 (by decide))
  exact ⟨rfl, drawn, small 0 0 rfl _ _ drawn⟩

end Revision

end SchemaLedger
