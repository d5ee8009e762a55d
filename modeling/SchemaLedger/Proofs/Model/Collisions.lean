import SchemaLedger.Proofs.Model.Acyclic

/-!
# When a check reports a collision

Only one of the checks of a model reports that a uid is used twice, and it reports this of no model
in which the uids in use and the retired ones are distinct.
-/

namespace SchemaLedger

/-- The error says that a uid is used twice. -/
def ModelError.IsCollision : ModelError → Prop
  | within _ source => source.IsCollision
  | uidCollision _ _ => True
  | _ => False

theorem ModelError.isCollision_iff {e : ModelError} :
    e.IsCollision ↔ ∃ uid clash, e.root = .uidCollision uid clash := by
  induction e with
  | within _ _ ih => exact ih
  | uidCollision uid clash => exact ⟨fun _ => ⟨uid, clash, rfl⟩, fun _ => trivial⟩
  | _ => simp [IsCollision, root]

/-! ### Checks that report no collision -/

/-- If the check fails, then not because of a collision. -/
def Check.NeverCollides (c : Check) : Prop := ∀ e, c = .error e → ¬ e.IsCollision

namespace Check

variable {α : Type} {a b : Check}

theorem neverCollides_ok : NeverCollides (.ok ()) := nofun

theorem neverCollides_error {e : ModelError} (other : ¬ e.IsCollision) :
    NeverCollides (.error e) := by
  rintro _ ⟨⟩
  exact other

theorem neverCollides_require {p : Prop} [Decidable p] {e : ModelError}
    (other : ¬ e.IsCollision) : NeverCollides (require p e) := by
  unfold require
  split
  · exact neverCollides_ok
  · exact neverCollides_error other

theorem NeverCollides.bind (ha : NeverCollides a) (hb : NeverCollides b) :
    NeverCollides (a >>= fun _ => b) := by
  intro e h
  rcases except_bind_eq_error.mp h with h | ⟨_, -, h⟩
  · exact ha e h
  · exact hb e h

theorem NeverCollides.wrap (place : Place) (ha : NeverCollides a) :
    NeverCollides (place.wrap a) := by
  cases a with
  | ok => exact neverCollides_ok
  | error e => exact neverCollides_error (ha e rfl)

theorem neverCollides_all {check : α → Check} {xs : List α} (h : ∀ x, NeverCollides (check x)) :
    NeverCollides (all check xs) := by
  induction xs with
  | nil => exact neverCollides_ok
  | cons x xs ih => exact (h x).bind ih

theorem neverCollides_eachAfter {check : List α → α → Check} {before xs : List α}
    (h : ∀ before x, NeverCollides (check before x)) :
    NeverCollides (eachAfter check before xs) := by
  induction xs generalizing before with
  | nil => exact neverCollides_ok
  | cons x xs ih => exact (h before x).bind ih

end Check

theorem IdPair.neverCollides_check (p : IdPair) : p.check.NeverCollides := by
  unfold check
  split
  · exact Check.neverCollides_error not_false
  · exact Check.neverCollides_ok

theorem IdPair.neverCollides_checkField (field : String) (p : IdPair) :
    (p.checkField field).NeverCollides := by
  unfold checkField
  split
  · exact Check.neverCollides_error not_false
  · exact Check.neverCollides_ok

theorem Property.neverCollides_check (p : Property) : p.check.NeverCollides := by
  refine p.id.neverCollides_check.bind <| (Check.neverCollides_all ?_).bind <|
    .bind ?_ <| .bind ?_ ?_
  · exact IdPair.neverCollides_checkField _
  all_goals exact Check.neverCollides_require not_false

theorem Relation.neverCollides_check (r : Relation) : r.check.NeverCollides := by
  refine r.id.neverCollides_check.bind <| .bind ?_ ?_
  · exact Check.neverCollides_require not_false
  · split
    · exact IdPair.neverCollides_checkField _ _
    · exact Check.neverCollides_error not_false

namespace Entity

variable {e : Entity}

theorem neverCollides_checkProperty (last : IdPair) (before : List Property) (p : Property) :
    (checkProperty last before p).NeverCollides := by
  refine (p.neverCollides_check.wrap _).bind <| .bind ?_ <| .bind ?_ <|
    Check.neverCollides_all fun q => .bind ?_ ?_
  all_goals exact Check.neverCollides_require not_false

theorem neverCollides_checkIdCount : e.checkIdCount.NeverCollides := by
  unfold checkIdCount
  split
  · exact Check.neverCollides_error not_false
  · exact Check.neverCollides_ok
  · exact Check.neverCollides_error not_false

theorem neverCollides_checkRelation (before : List Relation) (r : Relation) :
    (checkRelation before r).NeverCollides :=
  (r.neverCollides_check.wrap _).bind (Check.neverCollides_require not_false)

theorem neverCollides_check : e.check.NeverCollides := by
  refine e.id.neverCollides_check.bind <| .bind ?_ ?_
  · exact Check.neverCollides_require not_false
  · split
    · exact Check.neverCollides_require not_false
    · next last _ =>
        exact (last.neverCollides_checkField _).bind <|
          (Check.neverCollides_eachAfter (neverCollides_checkProperty last)).bind <|
            neverCollides_checkIdCount.bind <|
              Check.neverCollides_eachAfter neverCollides_checkRelation

end Entity

namespace Model

variable {m : Model}

theorem neverCollides_checkVersion : m.checkVersion.NeverCollides := by
  refine .bind ?_ ?_
  all_goals exact Check.neverCollides_require not_false

theorem neverCollides_checkEntity (before : List Entity) (e : Entity) :
    (m.checkEntity before e).NeverCollides := by
  refine (e.neverCollides_check.wrap _).bind <| (Check.neverCollides_all fun f => ?_).bind <|
    (Check.neverCollides_all fun last => ?_).wrap _
  · refine .bind ?_ ?_
    all_goals exact Check.neverCollides_require not_false
  · exact Check.neverCollides_require not_false

theorem neverCollides_checkScoped (scope : Scope) (last : IdPair)
    (before : List (String × IdPair)) (x : String × IdPair) :
    (checkScoped scope last before x).NeverCollides := by
  refine .bind ?_ <| .bind ?_ ?_
  · exact Check.neverCollides_require not_false
  · exact Check.neverCollides_require not_false
  · split
    · exact Check.neverCollides_error not_false
    · exact Check.neverCollides_ok

theorem neverCollides_checkLast {scope : Scope} {last : Option IdPair}
    {live : List (String × IdPair)} {retired : List UInt64} :
    (checkLast scope last live retired).NeverCollides := by
  unfold checkLast
  split
  · exact Check.neverCollides_ok
  · exact Check.neverCollides_error not_false
  · next last =>
      exact (last.neverCollides_checkField _).bind <|
        (Check.neverCollides_eachAfter (neverCollides_checkScoped scope last)).bind <|
          Check.neverCollides_require not_false

theorem neverCollides_checkTargets (e : Entity) : (m.checkTargets e).NeverCollides := by
  refine (Check.neverCollides_all fun r => ?_).bind <| Check.neverCollides_all fun p => ?_
  · refine (Check.neverCollides_all fun target => ?_).wrap _
    exact Check.neverCollides_require not_false
  · refine Check.NeverCollides.wrap _ ?_
    exact Check.neverCollides_require not_false

theorem neverCollides_checkCycles : m.checkCycles.NeverCollides := by
  intro e h
  obtain ⟨⟨names, last, rfl⟩, -⟩ := of_checkCycles_eq_error h
  exact not_false

/-- A check does not report a collision if no uid occurs twice among those in use and those
retired. -/
theorem neverCollides_check (distinct : m.census.Nodup) : m.check.NeverCollides := by
  unfold check
  rw [checkUids_eq_ok.mpr distinct]
  exact neverCollides_checkVersion.bind <|
    (Check.neverCollides_eachAfter neverCollides_checkEntity).bind <|
    neverCollides_checkLast.bind <| neverCollides_checkLast.bind <| neverCollides_checkLast.bind <|
    (Check.neverCollides_all neverCollides_checkTargets).bind <|
    Check.neverCollides_ok.bind neverCollides_checkCycles

end Model

end SchemaLedger
