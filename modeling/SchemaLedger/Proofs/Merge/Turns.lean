import SchemaLedger.Proofs.Merge.Draws
import SchemaLedger.Proofs.Merge.Faults

/-!
# When merging comes to a property

The schema may give a property a uid, and merging looks at it twice: when the properties of the
entity are matched, and when the property is reset to it. Each time is a turn of the uid. All that
matters of the store at a turn is how far its source has come, since the candidates before it are
those that elements may have got already.

The turns are listed by running the merge itself from turn to turn. Where it fails, they end.
-/

namespace SchemaLedger.Merge

/-- A uid that the schema gives to a property, with the source at the time when merging looks at
it. -/
structure Turn where
  uid : UInt64
  source : UidSource

/-- The uids have their turn in the store. -/
def turnsAt (s : Store) (uids : List UInt64) : List Turn := uids.map (⟨·, s.uids⟩)

theorem mem_turnsAt {s : Store} {uids : List UInt64} {turn : Turn} :
    turn ∈ turnsAt s uids ↔ turn.uid ∈ uids ∧ turn.source = s.uids := by
  obtain ⟨uid, source⟩ := turn
  simp [turnsAt, eq_comm]

/-- The turns of resets while properties are merged one after the other. -/
def resetTurns (planned : Entity) (i : Nat) (isNew : Bool) :
    List (Property × Option PropertyMatch) → Store → List Turn
  | [], _ => []
  | (p, found) :: rest, s =>
    turnsAt s (newUids found) ++
      match mergeProperty planned i isNew p found s with
      | .ok _ t => resetTurns planned i isNew rest t
      | .error _ _ => []

/-- The store without the properties of the entity that nobody claims. -/
def keptPropertiesStore (i : Nat) (found : List (Option PropertyMatch)) (s : Store) : Store :=
  { s with model :=
      s.model.keepProperties i (·.id.uid ∈ claimed PropertyMatch.storedUid found) }

/-- The turns while the properties of an entity are merged. -/
def propertyTurns (planned : Entity) (i : Nat) (isNew : Bool) (s : Store) : List Turn :=
  turnsAt s (givenUids planned) ++
    match s.model.entities[i]? with
    | none => []
    | some owner =>
      match matchProperties s planned owner with
      | .error _ => []
      | .ok found =>
        resetTurns planned i isNew (planned.properties.zip found) (keptPropertiesStore i found s)

/-- The turns while entities are merged one after the other. -/
def entityTurns (targets : Targets) : List (Entity × UInt64 × Bool) → Store → List Turn
  | [], _ => []
  | (planned, uid, isNew) :: rest, s =>
    match s.model.findByUid? uid with
    | none => []
    | some i =>
      propertyTurns planned i isNew (adoptedStore planned i s) ++
        match mergeEntity planned i isNew targets s with
        | .ok _ t => entityTurns targets rest t
        | .error _ _ => []

/-- The turns while a plan is merged. -/
def turns (plan : List Entity) (store : Store) : List Turn :=
  match matchEntities store.model plan with
  | .error _ => []
  | .ok found =>
    match settleEntities (plan.zip found) (keptStore found store) with
    | .error _ _ => []
    | .ok (settled, _) s =>
      entityTurns (targetsOf plan (settled.map Prod.fst)) (plan.zip settled) s

/-- No uid has been taken from the source when it has its turn. -/
def AreInTime (source : UidSource) (turns : List Turn) : Prop :=
  ∀ turn ∈ turns, ¬ source.Yields turn.source turn.uid

instance (source : UidSource) (turns : List Turn) : Decidable (AreInTime source turns) :=
  inferInstanceAs (Decidable (∀ turn ∈ turns, ¬ source.Yields turn.source turn.uid))

theorem areInTime_append {source : UidSource} {turns turns' : List Turn} :
    AreInTime source (turns ++ turns') ↔ AreInTime source turns ∧ AreInTime source turns' :=
  List.forall_mem_append

/-- Merging the plan does not draw a uid that the schema gives to a property before it has its
turn. -/
def DrawsNoneEarly (plan : List Entity) (store : Store) : Prop :=
  AreInTime store.uids (turns plan store)

instance (plan : List Entity) (store : Store) : Decidable (DrawsNoneEarly plan store) :=
  inferInstanceAs (Decidable (AreInTime store.uids (turns plan store)))

variable {planned owner : Entity} {i : Nat} {isNew : Bool} {targets : Targets} {s t : Store}
variable {plan : List Entity} {notices : List Notice} {turn : Turn}

/-! ### Turns of a run -/

theorem resetTurns_cons {a : Property × Option PropertyMatch} {uid : UInt64}
    {xs : List (Property × Option PropertyMatch)}
    (run : mergeProperty planned i isNew a.1 a.2 s = .ok (uid, notices) t) :
    resetTurns planned i isNew (a :: xs) s =
      turnsAt s (newUids a.2) ++ resetTurns planned i isNew xs t := by
  rw [resetTurns, run]

theorem propertyTurns_of_matched {found : List (Option PropertyMatch)}
    (at_i : s.model.entities[i]? = some owner)
    (match_ok : matchProperties s planned owner = .ok found) :
    propertyTurns planned i isNew s = turnsAt s (givenUids planned) ++
      resetTurns planned i isNew (planned.properties.zip found)
        (keptPropertiesStore i found s) := by
  rw [propertyTurns, at_i]
  simp only [match_ok]

theorem entityTurns_cons {a : Entity × UInt64 × Bool} {xs : List (Entity × UInt64 × Bool)}
    (located : s.model.findByUid? a.2.1 = some i)
    (run : mergeEntity a.1 i a.2.2 targets s = .ok notices t) :
    entityTurns targets (a :: xs) s =
      propertyTurns a.1 i a.2.2 (adoptedStore a.1 i s) ++ entityTurns targets xs t := by
  obtain ⟨planned, uid, isNew⟩ := a
  simp only [entityTurns, located, run]

/-- The turns of later entities come after those of the entities before them. -/
theorem entityTurns_append {xs ys : List (Entity × UInt64 × Bool)}
    (run : mergeEachEntity targets xs s = .ok notices t) :
    entityTurns targets (xs ++ ys) s = entityTurns targets xs s ++ entityTurns targets ys t := by
  induction xs generalizing s notices with
  | nil =>
      simp only [mergeEachEntity, Revision.pure_eq_ok] at run
      obtain ⟨-, rfl⟩ := run
      rfl
  | cons a xs ih =>
      obtain ⟨i, _, r, _, located, first, rest, -⟩ := mergeEachEntity_cons_eq_ok.mp run
      rw [List.cons_append, entityTurns_cons located first, entityTurns_cons located first,
        ih rest, List.append_assoc]

/-- When an entity is reached, all uids of its properties have their turn. -/
theorem mem_entityTurns_of_given {a : Entity × UInt64 × Bool}
    {xs : List (Entity × UInt64 × Bool)} (located : s.model.findByUid? a.2.1 = some i)
    {uid : UInt64} (given : uid ∈ givenUids a.1) :
    ⟨uid, s.uids⟩ ∈ entityTurns targets (a :: xs) s := by
  obtain ⟨planned, stored, isNew⟩ := a
  have listed : (⟨uid, s.uids⟩ : Turn) ∈ turnsAt (adoptedStore planned i s) (givenUids planned) :=
    mem_turnsAt.mpr ⟨given, rfl⟩
  simp only [entityTurns, located, propertyTurns, List.mem_append]
  exact .inl (.inl listed)

theorem turns_of_settled {found : List (Option UInt64)} {settled : List (UInt64 × Bool)}
    (match_ok : matchEntities s.model plan = .ok found)
    (settle : settleEntities (plan.zip found) (keptStore found s) = .ok (settled, notices) t) :
    turns plan s =
      entityTurns (targetsOf plan (settled.map Prod.fst)) (plan.zip settled) t := by
  rw [turns, match_ok]
  simp only [settle]

/-! ### Whose turns they are -/

theorem mem_newUids_of_resetTurns {xs : List (Property × Option PropertyMatch)}
    (h : turn ∈ resetTurns planned i isNew xs s) : turn.uid ∈ xs.flatMap (newUids ·.2) := by
  induction xs generalizing s with
  | nil => cases h
  | cons a xs ih =>
      rw [List.flatMap_cons, List.mem_append]
      rcases List.mem_append.mp h with now | later
      · exact .inl (mem_turnsAt.mp now).1
      · split at later
        · exact .inr (ih later)
        · cases later

theorem mem_givenUids_of_propertyTurns (h : turn ∈ propertyTurns planned i isNew s) :
    turn.uid ∈ givenUids planned := by
  rcases List.mem_append.mp h with now | later
  · exact (mem_turnsAt.mp now).1
  · split at later
    · cases later
    · split at later
      · cases later
      · next match_ok =>
          obtain ⟨matched, -⟩ := matchProperties_eq_ok.mp match_ok
          exact (newUids_sublist matched).subset (mem_newUids_of_resetTurns later)

theorem mem_givenUids_of_entityTurns {xs : List (Entity × UInt64 × Bool)}
    (h : turn ∈ entityTurns targets xs s) : turn.uid ∈ xs.flatMap (givenUids ·.1) := by
  induction xs generalizing s with
  | nil => cases h
  | cons a xs ih =>
      obtain ⟨planned, uid, isNew⟩ := a
      rw [List.flatMap_cons, List.mem_append]
      unfold entityTurns at h
      split at h
      · cases h
      · rcases List.mem_append.mp h with now | later
        · exact .inl (mem_givenUids_of_propertyTurns now)
        · split at later
          · exact .inr (ih later)
          · cases later

/-- Only uids that the schema gives have turns. -/
theorem mem_givenUids_of_turns (h : turn ∈ turns plan s) : turn.uid ∈ plan.flatMap givenUids := by
  unfold turns at h
  split at h
  · cases h
  · split at h
    · cases h
    · obtain ⟨a, ha, given⟩ := List.mem_flatMap.mp (mem_givenUids_of_entityTurns h)
      exact List.mem_flatMap.mpr ⟨a.1, (List.of_mem_zip ha).1, given⟩

/-- If the schema gives no uids to properties, then there is none to be drawn early. -/
theorem drawsNoneEarly_of_nothing_given (nothing : plan.flatMap givenUids = []) :
    DrawsNoneEarly plan s := by
  intro turn h
  have given := mem_givenUids_of_turns h
  rw [nothing] at given
  cases given

end SchemaLedger.Merge
