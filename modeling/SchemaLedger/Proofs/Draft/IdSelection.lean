import SchemaLedger.Proofs.Draft.Plan

/-!
# Exactly one ID or no change

Selecting the ID of an entity in place either changes nothing but this one property, which becomes a
signed long, or fails and changes nothing at all. Which of the two happens, and which error wins, can
be told by counting: the properties that are marked, and those that are named `id` and of a kind that
may be an ID.
-/

namespace SchemaLedger.Entity

open Text

variable {kinds : List PropertyKind} {e e' : Entity} {j : Nat} {p : Property}

/-! ### In place -/

/-- The result of a function of the entity. -/
def looked {α : Type} (f : Entity → Except ModelError α) : EStateM ModelError Entity α := fun e =>
  match f e with
  | .ok x => .ok x e
  | .error cause => .error cause e

/-- Changes the property at the given position. -/
def changeProperty (j : Nat) (f : Property → Property) : EStateM ModelError Entity Unit :=
  modify fun e => { e with properties := e.properties.modify j f }

theorem changeProperty_eq (j : Nat) (f : Property → Property) (e : Entity) :
    changeProperty j f e = .ok () { e with properties := e.properties.modify j f } := rfl

/-- Selects the ID of an entity and changes it step by step. What was changed before an error
stays. -/
def finalize (kinds : List PropertyKind) : EStateM ModelError Entity Unit := do
  let j ← looked (selectId kinds)
  looked checkNames
  looked (checkIdKind kinds · j)
  changeProperty j (·.addFlags .objectId)
  changeProperty j fun p => { p with flags := p.flags.without .unsigned }
  changeProperty j fun p => { p with kind := .long }

/-- Selecting the ID in place gives the entity with its ID selected, or an error with the entity as it
was. -/
theorem finalize_eq (kinds : List PropertyKind) (e : Entity) :
    finalize kinds e =
      match e.withId kinds with
      | .ok e' => .ok () e'
      | .error cause => .error cause e := by
  unfold finalize withId looked
  cases selected : e.selectId kinds with
  | error cause => simp [bind, EStateM.bind, Except.bind, selected]
  | ok j =>
      cases names : e.checkNames with
      | error cause => simp [bind, EStateM.bind, Except.bind, selected, names]
      | ok _ =>
          cases allowed : e.checkIdKind kinds j with
          | error cause => simp [bind, EStateM.bind, Except.bind, selected, names, allowed]
          | ok _ =>
              simp only [bind, EStateM.bind, Except.bind, selected, names, allowed,
                changeProperty_eq, List.modify_modify_eq]
              rfl

theorem finalize_eq_ok_iff : finalize kinds e = .ok () e' ↔ e.withId kinds = .ok e' := by
  rw [finalize_eq]
  cases e.withId kinds <;> simp

theorem finalize_eq_error_iff {cause : ModelError} :
    finalize kinds e = .error cause e' ↔ e.withId kinds = .error cause ∧ e' = e := by
  rw [finalize_eq]
  cases e.withId kinds <;> simp [eq_comm]

/-! ### Counting decides -/

/-- The number of properties marked as the ID. -/
def markedCount (e : Entity) : Nat := e.properties.countP fun p => p.IsId

/-- The number of properties that are named `id` and of a kind that may be an ID. -/
def namedCount (kinds : List PropertyKind) (e : Entity) : Nat :=
  e.properties.countP fun p => SameName p.name "id" ∧ p.HasIdKind kinds

theorem length_positionsOf (f : Property → Bool) :
    (e.positionsOf f).length = e.properties.countP f := by
  rw [positionsOf, List.length_map, ← List.countP_eq_length_filter]
  have same := List.countP_map (p := f) (f := Prod.fst) (l := e.properties.zipIdx)
  simpa [Function.comp_def] using same.symm

/-- What comes of selecting an ID. -/
inductive Selects (kinds : List PropertyKind) (e : Entity) : Except ModelError Nat → Prop
  | marked {j : Nat} {p : Property} (one : e.markedCount = 1) (there : e.properties[j]? = some p)
      (isId : p.IsId) : Selects kinds e (.ok j)
  | twoMarked {first second : String} (two : 2 ≤ e.markedCount) :
      Selects kinds e (.error (.invalidModel (.twoMarkedIds first second)))
  | named {j : Nat} {p : Property} (unmarked : e.markedCount = 0) (one : e.namedCount kinds = 1)
      (there : e.properties[j]? = some p) (same : SameName p.name "id")
      (allowed : p.HasIdKind kinds) : Selects kinds e (.ok j)
  | ambiguous {first second : String} (unmarked : e.markedCount = 0)
      (two : 2 ≤ e.namedCount kinds) : Selects kinds e (.error (.ambiguousId first second))
  | nothing (unmarked : e.markedCount = 0) (unnamed : e.namedCount kinds = 0) :
      Selects kinds e (.error .noId)

theorem selects_selectId (kinds : List PropertyKind) (e : Entity) :
    Selects kinds e (e.selectId kinds) := by
  have count : e.markedCount = (e.positionsOf fun p => p.IsId).length :=
    (length_positionsOf _).symm
  have count_named : e.namedCount kinds =
      (e.positionsOf fun p => SameName p.name "id" ∧ p.HasIdKind kinds).length :=
    (length_positionsOf _).symm
  unfold selectId
  split
  · next j only =>
      rw [only] at count
      obtain ⟨p, there, isId⟩ := mem_positionsOf.mp (only ▸ List.mem_singleton_self j)
      exact .marked count there (by simpa using isId)
  · next i j rest several =>
      rw [several] at count
      exact .twoMarked (by simp [count])
  · next unmarked =>
      rw [unmarked] at count
      split
      · next j only =>
          rw [only] at count_named
          obtain ⟨p, there, fits⟩ := mem_positionsOf.mp (only ▸ List.mem_singleton_self j)
          obtain ⟨same, allowed⟩ := of_decide_eq_true fits
          exact .named count count_named there same allowed
      · next i j rest several =>
          rw [several] at count_named
          exact .ambiguous count (by simp [count_named])
      · next unnamed =>
          rw [unnamed] at count_named
          exact .nothing count count_named

/-! ### What is checked -/

/-- No two properties and no two relations have the same name. -/
def HasDistinctNames (e : Entity) : Prop :=
  (e.properties.map fun p => foldCase p.name).Nodup ∧
    (e.relations.map fun r => foldCase r.name).Nodup

theorem checkNames_eq_ok_iff : e.checkNames = .ok () ↔ e.HasDistinctNames := by
  constructor
  · exact of_checkNames
  · rintro ⟨properties, relations⟩
    rw [checkNames, Check.bind_eq_ok]
    constructor
    · exact Check.eachAfter_of_pairwise (List.pairwise_map.mp properties) fun _ _ _ different =>
        Check.require_eq_ok.mpr different
    · exact Check.eachAfter_of_pairwise (List.pairwise_map.mp relations) fun _ _ _ different =>
        Check.require_eq_ok.mpr different

theorem checkIdKind_eq_ok_iff (there : e.properties[j]? = some p) :
    e.checkIdKind kinds j = .ok () ↔ p.HasIdKind kinds := by
  rw [checkIdKind, there, Option.toList_some, Check.all_eq_ok]
  simp [Place.wrap_eq_ok]

theorem withId_eq_ok_iff :
    e.withId kinds = .ok e' ↔
      ∃ j, e.selectId kinds = .ok j ∧ e.HasDistinctNames ∧ e.checkIdKind kinds j = .ok () ∧
        { e with properties := e.properties.modify j asId } = e' := by
  simp only [withId, except_bind_eq_ok, except_pure_eq_ok, ← checkNames_eq_ok_iff]
  constructor
  · rintro ⟨j, selected, _, names, _, allowed, same⟩
    exact ⟨j, selected, names, allowed, same⟩
  · rintro ⟨j, selected, names, allowed, same⟩
    exact ⟨j, selected, (), names, (), allowed, same⟩

/-- Exactly one property can be the ID: the only one that is marked, provided that its kind is
allowed, or the only one that is named `id` and of an allowed kind if none is marked. -/
def HasOneCandidate (kinds : List PropertyKind) (e : Entity) : Prop :=
  e.markedCount = 1 ∧ (∀ p ∈ e.properties, p.IsId → p.HasIdKind kinds) ∨
    e.markedCount = 0 ∧ e.namedCount kinds = 1

/-- An ID is selected if and only if names are distinct and one property can be the ID. -/
theorem exists_withId_iff :
    (∃ e', e.withId kinds = .ok e') ↔ e.HasDistinctNames ∧ e.HasOneCandidate kinds := by
  have selection := selects_selectId kinds e
  constructor
  · rintro ⟨e', run⟩
    obtain ⟨j, selected, names, allowed, -⟩ := withId_eq_ok_iff.mp run
    refine ⟨names, ?_⟩
    obtain ⟨-, only⟩ := of_selectId selected
    rw [selected] at selection
    cases selection with
    | marked one there isId =>
        refine .inl ⟨one, fun q hq marked => ?_⟩
        obtain ⟨k, at_k⟩ := List.mem_iff_getElem?.mp hq
        rw [only k q at_k marked] at at_k
        exact (checkIdKind_eq_ok_iff at_k).mp allowed
    | named unmarked one _ _ _ => exact .inr ⟨unmarked, one⟩
  · rintro ⟨names, candidate⟩
    have passes {j : Nat} {p : Property} (selected : e.selectId kinds = .ok j)
        (there : e.properties[j]? = some p) (allowed : p.HasIdKind kinds) :
        ∃ e', e.withId kinds = .ok e' :=
      ⟨_, withId_eq_ok_iff.mpr ⟨j, selected, names, (checkIdKind_eq_ok_iff there).mpr allowed, rfl⟩⟩
    generalize selected : e.selectId kinds = result at selection
    cases selection with
    | marked one there isId =>
        obtain ⟨-, allowed⟩ | ⟨unmarked, -⟩ := candidate
        · exact passes selected there (allowed _ (List.mem_of_getElem? there) isId)
        · omega
    | twoMarked two =>
        obtain ⟨one, -⟩ | ⟨unmarked, -⟩ := candidate
        · omega
        · omega
    | named _ _ there _ allowed => exact passes selected there allowed
    | ambiguous unmarked two =>
        obtain ⟨one, -⟩ | ⟨-, one⟩ := candidate
        · omega
        · omega
    | nothing unmarked unnamed =>
        obtain ⟨one, -⟩ | ⟨-, one⟩ := candidate
        · omega
        · omega

/-! ### What becomes of the ID -/

/-- The property becomes an ID: it has the flag of an ID and is a signed long, and nothing else about
it is changed. -/
structure BecomesId (p p' : Property) : Prop where
  isId : p'.IsId
  signed : ¬ p'.flags.Contains .unsigned
  otherFlags : ∀ flag : Flags, flag.IsSingle → flag ≠ .objectId → flag ≠ .unsigned →
    (p'.flags.Contains flag ↔ p.flags.Contains flag)
  others : p' = { p with flags := p'.flags, kind := .long }

theorem becomesId_asId (p : Property) : BecomesId p (asId p) where
  isId := Flags.contains_objectId p.flags
  signed := Flags.not_contains_unsigned _
  otherFlags := by
    intro flag single not_id not_unsigned
    have outside_id : ¬ Flags.objectId.Contains flag := fun contains =>
      not_id (Flags.eq_of_contains (by decide) single contains).symm
    have outside_unsigned : ¬ Flags.unsigned.Contains flag := fun contains =>
      not_unsigned (Flags.eq_of_contains (by decide) single contains).symm
    rw [asId, Flags.contains_without_iff single, Flags.contains_union_iff single]
    simp [outside_id, outside_unsigned]
  others := rfl

/-- The property is the one that is to be the ID: it is marked, or it is named `id` and none is
marked. -/
def IsChosen (e : Entity) (p : Property) : Prop :=
  p.IsId ∨ e.markedCount = 0 ∧ SameName p.name "id"

/-- The entity with its ID selected: the chosen property has become the ID in its place, everything
else is as it was, and there is no second ID. -/
structure IsFinalized (kinds : List PropertyKind) (e e' : Entity) : Prop where
  changed : ∃ before p p' after, e.properties = before ++ p :: after ∧ e.IsChosen p ∧
    p.HasIdKind kinds ∧ BecomesId p p' ∧ e' = { e with properties := before ++ p' :: after }
  oneId : e'.markedCount = 1

theorem isFinalized_of_withId (h : e.withId kinds = .ok e') : IsFinalized kinds e e' := by
  refine ⟨?_, countP_isId_of_withId h⟩
  obtain ⟨j, before, p, after, selected, position, split, -, rfl⟩ := exists_split_of_withId h
  have there : e.properties[j]? = some p := by
    rw [split, ← position]
    simp
  obtain ⟨_, selected', -, allowed, -⟩ := withId_eq_ok_iff.mp h
  obtain rfl := Except.ok.inj (selected.symm.trans selected')
  have selection := selects_selectId kinds e
  rw [selected] at selection
  refine ⟨before, p, asId p, after, split, ?_, (checkIdKind_eq_ok_iff there).mp allowed,
    becomesId_asId p, rfl⟩
  cases selection with
  | marked _ there' isId =>
      obtain rfl := Option.some.inj (there.symm.trans there')
      exact .inl isId
  | named unmarked _ there' same _ =>
      obtain rfl := Option.some.inj (there.symm.trans there')
      exact .inr ⟨unmarked, same⟩

/-! ### Which error wins -/

theorem checkNames_eq_error {cause : ModelError} (h : e.checkNames = .error cause) :
    ∃ sort name, cause = .duplicateName sort name := by
  obtain failed | ⟨_, -, failed⟩ := except_bind_eq_error.mp h
  · obtain ⟨_, p, -, failed⟩ := Check.exists_of_eachAfter_eq_error failed
    exact ⟨.property, p.name, (Check.require_eq_error.mp failed).2.symm⟩
  · obtain ⟨_, r, -, failed⟩ := Check.exists_of_eachAfter_eq_error failed
    exact ⟨.relation, r.name, (Check.require_eq_error.mp failed).2.symm⟩

theorem checkIdKind_eq_error {cause : ModelError} (h : e.checkIdKind kinds j = .error cause) :
    ∃ place source, cause = .within place source := by
  obtain ⟨p, -, failed⟩ := Check.exists_of_all_eq_error h
  unfold Place.wrap at failed
  split at failed
  · cases failed
  · exact ⟨_, _, (Except.error.inj failed).symm⟩

/-- What goes wrong is that no ID is selected, or another check fails after that. -/
theorem withId_eq_error {cause : ModelError} (h : e.withId kinds = .error cause) :
    e.selectId kinds = .error cause ∨ (∃ sort name, cause = .duplicateName sort name) ∨
      ∃ place source, cause = .within place source := by
  simp only [withId, except_bind_eq_error, except_pure_ne_error, and_false, exists_false,
    or_false] at h
  obtain unselected | ⟨j, -, names | ⟨_, -, refused⟩⟩ := h
  · exact .inl unselected
  · exact .inr (.inl (checkNames_eq_error names))
  · exact .inr (.inr (checkIdKind_eq_error refused))

theorem withId_eq_error_of_selectId {cause : ModelError}
    (unselected : e.selectId kinds = .error cause) : e.withId kinds = .error cause := by
  rw [withId, unselected]
  rfl

theorem exists_ambiguousId_iff :
    (∃ first second, e.withId kinds = .error (.ambiguousId first second)) ↔
      e.markedCount = 0 ∧ 2 ≤ e.namedCount kinds := by
  have selection := selects_selectId kinds e
  constructor
  · rintro ⟨first, second, failed⟩
    obtain unselected | ⟨_, _, other⟩ | ⟨_, _, other⟩ := withId_eq_error failed
    · rw [unselected] at selection
      cases selection with
      | ambiguous unmarked two => exact ⟨unmarked, two⟩
    · cases other
    · cases other
  · rintro ⟨unmarked, two⟩
    generalize unselected : e.selectId kinds = result at selection
    cases selection with
    | ambiguous => exact ⟨_, _, withId_eq_error_of_selectId unselected⟩
    | marked one => omega
    | twoMarked marked => omega
    | named _ one => omega
    | nothing _ unnamed => omega

theorem noId_iff :
    e.withId kinds = .error .noId ↔ e.markedCount = 0 ∧ e.namedCount kinds = 0 := by
  have selection := selects_selectId kinds e
  constructor
  · intro failed
    obtain unselected | ⟨_, _, other⟩ | ⟨_, _, other⟩ := withId_eq_error failed
    · rw [unselected] at selection
      cases selection with
      | nothing unmarked unnamed => exact ⟨unmarked, unnamed⟩
    · cases other
    · cases other
  · rintro ⟨unmarked, unnamed⟩
    generalize unselected : e.selectId kinds = result at selection
    cases selection with
    | nothing => exact withId_eq_error_of_selectId unselected
    | marked one => omega
    | twoMarked marked => omega
    | named _ one => omega
    | ambiguous _ two => omega

/-- An ID is selected if and only if names are distinct and exactly one property can be the ID. This
property becomes the ID and nothing else is changed; if it fails, nothing is changed at all. The
error is an ambiguous ID if and only if none is marked and several have the name, and a missing one if
and only if none is marked and none has the name. -/
theorem finalize_selects_or_keeps (kinds : List PropertyKind) (e : Entity) :
    ((∃ e', finalize kinds e = .ok () e') ↔ e.HasDistinctNames ∧ e.HasOneCandidate kinds) ∧
    (∀ e', finalize kinds e = .ok () e' → IsFinalized kinds e e') ∧
    (∀ cause e', finalize kinds e = .error cause e' → e' = e) ∧
    ((∃ first second e', finalize kinds e = .error (.ambiguousId first second) e') ↔
      e.markedCount = 0 ∧ 2 ≤ e.namedCount kinds) ∧
    ((∃ e', finalize kinds e = .error .noId e') ↔
      e.markedCount = 0 ∧ e.namedCount kinds = 0) := by
  simp only [finalize_eq_ok_iff, finalize_eq_error_iff, exists_eq_right]
  exact ⟨exists_withId_iff, fun e' => isFinalized_of_withId, fun cause e' failed => failed.2,
    exists_ambiguousId_iff, noId_iff⟩

/-- An unsigned text that is named `ID` but not marked. -/
def unsignedId : Entity where
  id := .unassigned
  name := "Task"
  properties := [
    { id := .unassigned, name := "text", kind := .string, flags := .indexed },
    { id := .unassigned, name := "ID", kind := .string, flags := .unsigned ∪ .selfAssigned }]

theorem finalize_selects_or_keeps_unsignedId :
    ∃ e', finalize [.long, .string] unsignedId = .ok () e' ∧
      IsFinalized [.long, .string] unsignedId e' ∧
      finalize [] unsignedId = .error .noId unsignedId := by
  have candidate : unsignedId.HasDistinctNames ∧
      unsignedId.HasOneCandidate [.long, .string] := by
    unfold HasDistinctNames HasOneCandidate
    decide
  obtain ⟨selects, finalized, -, -, -⟩ := finalize_selects_or_keeps [.long, .string] unsignedId
  obtain ⟨e', run⟩ := selects.mpr candidate
  obtain ⟨-, -, keeps, -, missing⟩ := finalize_selects_or_keeps [] unsignedId
  obtain ⟨left, failed⟩ := missing.mpr (by decide)
  exact ⟨e', run, finalized e' run, keeps _ _ failed ▸ failed⟩

end SchemaLedger.Entity
