import SchemaLedger.Draft.Plan
import SchemaLedger.Proofs.Error.Chains
import SchemaLedger.Proofs.Tag.KeyMap

/-!
# What is left out

An element with `-` or `transient` as its only annotation is left out. A schema without such elements
gives the same plan or fails in the same way, with one exception: the kind of a field is looked at
before its annotations are, so a field of a kind that there is not is refused even if it is to be
left out. An entity that is to be left out may hold such fields.
-/

namespace SchemaLedger

open Text

/-! ### Elements that are left out -/

/-- The only annotation is `-` or `transient`, and it has no value. -/
def Annotations.IsOmission (set : Annotations) : Prop :=
  set.size = 1 ∧ ∀ e ∈ set.entries, (e.1 = "-" ∨ e.1 = "transient") ∧ e.2.text = ""

instance (set : Annotations) : Decidable set.IsOmission :=
  inferInstanceAs (Decidable (_ ∧ ∀ e ∈ set.entries, _))

theorem Annotations.isSkipped_eq_ok_true_iff {set : Annotations} (sort : ElementSort) :
    set.isSkipped sort = .ok true ↔ set.IsOmission := by
  -- a set of one annotation has no other name
  have alone {name : String} {e : String × Annotation} (only : set.entries = [e])
      (there : set.contains name = true) : e.1 = name ∧ set.get? name = some e.2 := by
    obtain ⟨a, got⟩ := Option.isSome_iff_exists.mp there
    have held := KeyMap.get?_eq_some_iff.mp got
    rw [only, List.mem_singleton] at held
    exact held ▸ ⟨rfl, got⟩
  unfold isSkipped
  constructor
  · intro h
    split at h
    · next name found =>
        split at h
        · cases h
        · next fits =>
            simp only [ne_eq, not_or, Decidable.not_not] at fits
            obtain ⟨e, only⟩ := List.length_eq_one_iff.mp fits.1
            have there : set.contains name = true := List.find?_some found
            have named := List.mem_of_find?_eq_some found
            obtain ⟨rfl, got⟩ := alone only there
            refine ⟨fits.1, fun e' he' => ?_⟩
            rw [only, List.mem_singleton] at he'
            subst he'
            exact ⟨by simpa using named, by simpa [got] using fits.2⟩
    · cases h
  · rintro ⟨one, each⟩
    obtain ⟨e, only⟩ := List.length_eq_one_iff.mp one
    obtain ⟨named, empty⟩ := each e (by simp [only])
    split
    · next name found =>
        have there : set.contains name = true := List.find?_some found
        obtain ⟨rfl, got⟩ := alone only there
        rw [got, if_neg]
        simp [one, empty]
    · next none_found =>
        have absent := List.find?_eq_none.mp none_found e.1 (by simpa using named)
        have held : set.get? e.1 = some e.2 := KeyMap.get?_eq_some_iff.mpr (by simp [only])
        exact absurd (by rw [KeyMap.contains, held]; rfl) absent

/-- Applying annotations gives nothing only at the very beginning. -/
theorem Annotations.skip_eq_ok_none_iff {α : Type} {set : Annotations} {sort : ElementSort}
    {rest : Except ModelError (Option α)} (kept : rest ≠ .ok none) :
    (set.isSkipped sort >>= fun skipped => if skipped then pure none else rest) = .ok none ↔
      set.IsOmission := by
  rw [← isSkipped_eq_ok_true_iff sort, except_bind_eq_ok]
  constructor
  · rintro ⟨skipped, asked, h⟩
    cases skipped with
    | true => exact asked
    | false => exact absurd h kept
  · intro asked
    exact ⟨true, asked, rfl⟩

theorem Property.annotate_eq_ok_none_iff {set : Annotations} {p : Property} :
    p.annotate set = .ok none ↔ set.IsOmission := by
  apply Annotations.skip_eq_ok_none_iff
  simp only [ne_eq, except_bind_eq_ok, except_pure_eq_ok, reduceCtorEq, and_false, exists_false,
    not_false_eq_true]

theorem Entity.annotate_eq_ok_none_iff {set : Annotations} {e : Entity} :
    e.annotate set = .ok none ↔ set.IsOmission := by
  apply Annotations.skip_eq_ok_none_iff
  simp only [ne_eq, except_bind_eq_ok, except_pure_eq_ok, reduceCtorEq, and_false, exists_false,
    not_false_eq_true]

/-- A field has a kind unless it is declared with one that there is not. -/
theorem FieldDraft.kind_cases (field : FieldDraft) :
    (∃ kind, field.kind = .ok kind) ∨ ∃ gap, field.kind = .error (.unsupportedKind gap) := by
  unfold kind
  split
  · split
    all_goals first | exact .inl ⟨_, rfl⟩ | exact .inr ⟨_, rfl⟩
  · split
    · exact .inr ⟨_, rfl⟩
    · exact .inl ⟨_, rfl⟩

/-- The draft without the fields that are to be left out. -/
def EntityDraft.pruned (draft : EntityDraft) : EntityDraft :=
  { draft with fields := draft.fields.filter fun field => ¬ field.annotations.IsOmission }

namespace Plan

variable {kinds : List PropertyKind} {field : FieldDraft} {fields : List FieldDraft}
variable {draft : EntityDraft} {drafts : List EntityDraft} {before : List Entity} {x : Entity}
variable {e : ModelError} {gap : KindGap}

/-! ### Fields -/

theorem ofField_eq_ok_iff {p : Option Property} :
    ofField field = .ok p ↔ ∃ kind, field.kind = .ok kind ∧
      (Property.planned field kind).annotate field.annotations = .ok p := by
  simp only [ofField, Place.wrap_eq_ok, except_bind_eq_ok]

theorem ofField_eq_ok_none_iff :
    ofField field = .ok none ↔ (∃ kind, field.kind = .ok kind) ∧ field.annotations.IsOmission := by
  simp only [ofField_eq_ok_iff, Property.annotate_eq_ok_none_iff]
  exact ⟨fun ⟨kind, is, omitted⟩ => ⟨⟨kind, is⟩, omitted⟩,
    fun ⟨⟨kind, is⟩, omitted⟩ => ⟨kind, is, omitted⟩⟩

theorem ofField_of_no_kind (h : field.kind = .error (.unsupportedKind gap)) :
    ofField field = .error (.within (.property field.name) (.unsupportedKind gap)) := by
  rw [ofField, h]
  rfl

theorem ofFields_cons_none (h : ofField field = .ok none) :
    ofFields (field :: fields) = ofFields fields := by
  rw [ofFields, h]
  cases ofFields fields <;> rfl

theorem ofFields_cons_error (h : ofField field = .error e) :
    ofFields (field :: fields) = .error e := by
  rw [ofFields, h]
  rfl

/-- The error is that one of the fields is of a kind that there is not, although it is to be left
out. -/
def IsGapOf (fields : List FieldDraft) (e : ModelError) : Prop :=
  ∃ field ∈ fields, field.annotations.IsOmission ∧ ∃ gap,
    field.kind = .error (.unsupportedKind gap) ∧
      e = .within (.property field.name) (.unsupportedKind gap)

theorem IsGapOf.cons (h : IsGapOf fields e) : IsGapOf (field :: fields) e := by
  obtain ⟨other, there, is_gap⟩ := h
  exact ⟨other, List.mem_cons_of_mem _ there, is_gap⟩

theorem ofFields_filter (fields : List FieldDraft) :
    ofFields fields = ofFields (fields.filter fun field => ¬ field.annotations.IsOmission) ∨
      ∃ e, IsGapOf fields e ∧ ofFields fields = .error e := by
  induction fields with
  | nil => exact .inl rfl
  | cons field fields ih =>
      by_cases omitted : field.annotations.IsOmission
      · rw [List.filter_cons_of_neg (by simpa using omitted)]
        rcases field.kind_cases with some_kind | ⟨gap, no_kind⟩
        · rw [ofFields_cons_none (ofField_eq_ok_none_iff.mpr ⟨some_kind, omitted⟩)]
          exact ih.imp_right fun ⟨e, is_gap, failed⟩ => ⟨e, is_gap.cons, failed⟩
        · exact .inr ⟨_, ⟨field, List.mem_cons_self, omitted, gap, no_kind, rfl⟩,
            ofFields_cons_error (ofField_of_no_kind no_kind)⟩
      · rw [List.filter_cons_of_pos (by simpa using omitted), ofFields, ofFields]
        -- an error of this field comes before any error of the others
        cases ofField field with
        | error e => exact .inl rfl
        | ok p =>
            refine ih.imp (fun same => by rw [same]) ?_
            rintro ⟨e, is_gap, failed⟩
            exact ⟨e, is_gap.cons, by rw [failed]; rfl⟩

/-! ### Drafts -/

/-- An entity that is not left out has gone through its annotations, then its fields, and has an ID
then. -/
theorem steps_of_ofDraft (h : ofDraft kinds draft = .ok (some x)) :
    ∃ (e : Entity) (properties : List Property),
      Entity.annotate draft.annotations
        { id := .unassigned, name := draft.name, comments := draft.comments } = .ok (some e) ∧
      ofFields draft.fields = .ok properties ∧ { e with properties }.withId kinds = .ok x := by
  simp only [ofDraft, except_bind_eq_ok] at h
  obtain ⟨annotated, declared, h⟩ := h
  cases annotated with
  | none => simp at h
  | some e =>
      simp only [except_bind_eq_ok, except_pure_eq_ok, Option.some.injEq] at h
      obtain ⟨properties, made, x, selected, rfl⟩ := h
      exact ⟨e, properties, declared, made, selected⟩

theorem ofDraft_eq_ok_none_iff : ofDraft kinds draft = .ok none ↔ draft.annotations.IsOmission := by
  rw [← Entity.annotate_eq_ok_none_iff
    (e := { id := .unassigned, name := draft.name, comments := draft.comments })]
  constructor
  · intro h
    simp only [ofDraft, except_bind_eq_ok] at h
    obtain ⟨made, annotated, h⟩ := h
    cases made with
    | none => exact annotated
    | some x => simp only [except_bind_eq_ok, except_pure_eq_ok, reduceCtorEq, and_false,
        exists_false] at h
  · intro annotated
    rw [ofDraft, annotated]
    rfl

theorem ofDraft_pruned (kinds : List PropertyKind) (draft : EntityDraft) :
    ofDraft kinds draft = ofDraft kinds draft.pruned ∨
      ∃ e, IsGapOf draft.fields e ∧ ofDraft kinds draft = .error e := by
  unfold ofDraft
  simp only [EntityDraft.pruned]
  cases Entity.annotate draft.annotations
      { id := .unassigned, name := draft.name, comments := draft.comments } with
  | error e => exact .inl rfl
  | ok annotated =>
      cases annotated with
      | none => exact .inl rfl
      | some x =>
          refine (ofFields_filter draft.fields).imp (fun same => by rw [same]) ?_
          rintro ⟨e, is_gap, failed⟩
          exact ⟨e, is_gap, by rw [failed]; rfl⟩

theorem addDrafts_cons_none (h : ofDraft kinds draft = .ok none) :
    addDrafts kinds before (draft :: drafts) = addDrafts kinds before drafts := by
  rw [addDrafts, h]
  rfl

theorem addDrafts_cons_some (h : ofDraft kinds draft = .ok (some x))
    (unused : ¬ ∃ f ∈ before, SameName f.name x.name) :
    addDrafts kinds before (draft :: drafts) = addDrafts kinds (before ++ [x]) drafts := by
  rw [addDrafts, h]
  exact if_neg unused

theorem addDrafts_cons_used (h : ofDraft kinds draft = .ok (some x))
    (used : ∃ f ∈ before, SameName f.name x.name) :
    addDrafts kinds before (draft :: drafts) = .error (.duplicateName .entity x.name) := by
  rw [addDrafts, h]
  exact if_pos used

theorem addDrafts_cons_error (h : ofDraft kinds draft = .error e) :
    addDrafts kinds before (draft :: drafts) = .error (.within (.entity draft.name) e) := by
  rw [addDrafts, h]
  rfl

/-- The drafts without the entities and fields that are to be left out. -/
def pruned (drafts : List EntityDraft) : List EntityDraft :=
  (drafts.filter fun draft => ¬ draft.annotations.IsOmission).map EntityDraft.pruned

/-- The error is that a field in one of the drafts is of a kind that there is not, although the
field, but not the entity, is to be left out. -/
def IsGapIn (drafts : List EntityDraft) (e : ModelError) : Prop :=
  ∃ draft ∈ drafts, ¬ draft.annotations.IsOmission ∧ ∃ cause,
    IsGapOf draft.fields cause ∧ e = .within (.entity draft.name) cause

theorem IsGapIn.cons (h : IsGapIn drafts e) : IsGapIn (draft :: drafts) e := by
  obtain ⟨other, there, is_gap⟩ := h
  exact ⟨other, List.mem_cons_of_mem _ there, is_gap⟩

theorem addDrafts_pruned (before : List Entity) (drafts : List EntityDraft) :
    addDrafts kinds before drafts = addDrafts kinds before (pruned drafts) ∨
      ∃ e, IsGapIn drafts e ∧ addDrafts kinds before drafts = .error e := by
  induction drafts generalizing before with
  | nil => exact .inl rfl
  | cons draft drafts ih =>
      have later (before : List Entity) :
          addDrafts kinds before drafts = addDrafts kinds before (pruned drafts) ∨
            ∃ e, IsGapIn (draft :: drafts) e ∧ addDrafts kinds before drafts = .error e :=
        (ih before).imp_right fun ⟨e, is_gap, failed⟩ => ⟨e, is_gap.cons, failed⟩
      by_cases omitted : draft.annotations.IsOmission
      · rw [addDrafts_cons_none (ofDraft_eq_ok_none_iff.mpr omitted), pruned,
          List.filter_cons_of_neg (by simpa using omitted)]
        exact later before
      · rw [pruned, List.filter_cons_of_pos (by simpa using omitted), List.map_cons, ← pruned]
        rcases ofDraft_pruned kinds draft with same | ⟨e, is_gap, failed⟩
        · cases made : ofDraft kinds draft with
          | error e =>
              rw [addDrafts_cons_error made, addDrafts_cons_error (same ▸ made)]
              exact .inl rfl
          | ok x =>
              cases x with
              | none => exact absurd (ofDraft_eq_ok_none_iff.mp made) omitted
              | some x =>
                  by_cases used : ∃ f ∈ before, SameName f.name x.name
                  · rw [addDrafts_cons_used made used, addDrafts_cons_used (same ▸ made) used]
                    exact .inl rfl
                  · rw [addDrafts_cons_some made used, addDrafts_cons_some (same ▸ made) used]
                    exact later _
        · exact .inr ⟨_, ⟨draft, List.mem_cons_self, omitted, e, is_gap, rfl⟩,
            addDrafts_cons_error failed⟩

/-- Without the elements that are to be left out, drafts give the same plan or fail with the same
error, unless the error is that one of these fields is of a kind that there is not. -/
theorem ofDrafts_pruned (kinds : List PropertyKind) (drafts : List EntityDraft) :
    ofDrafts kinds drafts = ofDrafts kinds (pruned drafts) ∨
      ∃ e, IsGapIn drafts e ∧ ofDrafts kinds drafts = .error e :=
  addDrafts_pruned [] drafts

/-- A field that is a vector of integers and is to be left out. -/
def omittedVector : EntityDraft where
  name := "A"
  fields := [{ name := "id", base := .long },
    { name := "bad", base := .int, isVector := true, element := some .int
      annotations := KeyMap.empty.insert "-" .flag }]

/-- The field makes its entity fail although it is to be left out, and without it there is a
plan. -/
theorem ofDrafts_ne_pruned_omittedVector :
    ofDrafts [.long, .string] [omittedVector] =
        .error (.within (.entity "A") (.within (.property "bad")
          (.unsupportedKind (.vectorOf .int)))) ∧
      ofDrafts [.long, .string] (pruned [omittedVector]) =
        .ok [{ id := .unassigned, name := "A", properties := [
          { id := .unassigned, name := "id", kind := .long, flags := .objectId }] }] := by
  constructor <;> decide +kernel

end Plan

end SchemaLedger
