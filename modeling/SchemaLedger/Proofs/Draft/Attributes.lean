import SchemaLedger.Proofs.Draft.Declaration

/-!
# Attributes that belong together

Some attributes of a property only make sense together: an index and the flags that say how it is
built, a relation and its target, a vector index and an array of floats. Each annotation looks at
the kind as it is at that moment, and changes some of the attributes. They fit together at every
moment, with one exception: the number of dimensions of a vector index comes last.
-/

namespace SchemaLedger

/-- The flags say how an index is built. -/
def Flags.BuildsIndex (flags : Flags) : Prop :=
  flags.Contains .indexed ∨ flags.Contains .hashIndexed ∨ flags.Contains .hash64Indexed

instance (flags : Flags) : Decidable flags.BuildsIndex :=
  inferInstanceAs (Decidable (_ ∨ _ ∨ _))

namespace Flags

variable {a b : Flags}

/-- The flags that concern the index. -/
def indexFlags : List Flags := [indexed, hashIndexed, hash64Indexed, unique]

theorem buildsIndex_congr (same : ∀ flag ∈ indexFlags, a.Contains flag ↔ b.Contains flag) :
    a.BuildsIndex ↔ b.BuildsIndex :=
  or_congr (same _ (by decide)) (or_congr (same _ (by decide)) (same _ (by decide)))

theorem BuildsIndex.union_right (h : b.BuildsIndex) (a : Flags) : (a ∪ b).BuildsIndex := by
  rcases h with h | h | h
  · exact .inl ((contains_union_iff (by decide)).mpr (.inr h))
  · exact .inr (.inl ((contains_union_iff (by decide)).mpr (.inr h)))
  · exact .inr (.inr ((contains_union_iff (by decide)).mpr (.inr h)))

end Flags

namespace Property

/-- There is an index if and only if the flags say how it is built, and unique values have one. -/
structure IsIndexed (p : Property) : Prop where
  flags : p.index.isSome ↔ p.flags.BuildsIndex
  unique : p.flags.Contains .unique → p.index.isSome

/-- Relations have a target and nothing else has, a vector index is one of arrays of floats, and
what goes with the ID is a date. -/
structure FitsKind (p : Property) : Prop where
  relation : p.kind = .relation ↔ p.target ≠ ""
  toOne : p.target ≠ "" → p.flags.Contains .indexed ∧ p.flags.Contains .skipZero
  vector : p.vectorIndex.isSome → p.kind = .floatVector ∧ p.flags.Contains .indexed
  companion : p.flags.Contains .idCompanion → p.kind = .date ∨ p.kind = .dateNano

/-- The index, the kind and the flags of the property fit together. -/
structure IsFitting (p : Property) : Prop extends p.IsIndexed, p.FitsKind

/-- Moreover, a vector index knows its number of dimensions. -/
structure IsCoherent (p : Property) : Prop extends p.IsFitting where
  dimensions : ∀ v, p.vectorIndex = some v → v.dimensions ≠ none

variable {p q : Property} {set : Annotations} {flags : Flags}

/-- No other attributes are looked at, and it does not matter which index there is. -/
theorem IsFitting.of_same (h : p.IsFitting) (index : q.index.isSome = p.index.isSome)
    (kind : q.kind = p.kind) (flags : q.flags = p.flags) (target : q.target = p.target)
    (vector : q.vectorIndex = p.vectorIndex) : q.IsFitting := by
  refine ⟨⟨?_, ?_⟩, ⟨?_, ?_, ?_, ?_⟩⟩
  · rw [index, flags]
    exact h.flags
  · rw [index, flags]
    exact h.unique
  · rw [kind, target]
    exact h.relation
  · rw [target, flags]
    exact h.toOne
  · rw [vector, kind, flags]
    exact h.vector
  · rw [flags, kind]
    exact h.companion

/-! ### Flags -/

theorem IsIndexed.of_same_flags (h : p.IsIndexed) (index : q.index = p.index)
    (same : ∀ flag ∈ Flags.indexFlags, q.flags.Contains flag ↔ p.flags.Contains flag) :
    q.IsIndexed where
  flags := by rw [index, Flags.buildsIndex_congr same, h.flags]
  unique there := by
    rw [index]
    exact h.unique ((same .unique (by decide)).mp there)

theorem contains_addFlags (p : Property) (flags : Flags) {flag : Flags} (single : flag.IsSingle) :
    (p.addFlags flags).flags.Contains flag ↔ p.flags.Contains flag ∨ flags.Contains flag :=
  Flags.contains_union_iff single

theorem IsIndexed.addFlags (h : p.IsIndexed)
    (free : ∀ flag ∈ Flags.indexFlags, ¬ flags.Contains flag) : (p.addFlags flags).IsIndexed := by
  have single : ∀ flag ∈ Flags.indexFlags, flag.IsSingle := by decide
  refine h.of_same_flags rfl fun flag hflag => ?_
  rw [contains_addFlags p flags (single flag hflag)]
  exact or_iff_left (free flag hflag)

/-- More flags do no harm, except that only a date may go with the ID. -/
theorem FitsKind.addFlags (h : p.FitsKind)
    (allowed : flags.Contains .idCompanion → p.kind = .date ∨ p.kind = .dateNano) :
    (p.addFlags flags).FitsKind where
  relation := h.relation
  toOne related := by
    rw [contains_addFlags _ _ (by decide), contains_addFlags _ _ (by decide)]
    exact ⟨.inl (h.toOne related).1, .inl (h.toOne related).2⟩
  vector there := by
    rw [contains_addFlags _ _ (by decide)]
    exact ⟨(h.vector there).1, .inl (h.vector there).2⟩
  companion there := by
    rw [contains_addFlags _ _ (by decide)] at there
    exact there.elim h.companion allowed

theorem FitsKind.addFlags_of_free (h : p.FitsKind) (free : ¬ flags.Contains .idCompanion) :
    (p.addFlags flags).FitsKind :=
  h.addFlags fun there => absurd there free

theorem IsFitting.addFlags_of_free (h : p.IsFitting)
    (free : ∀ flag ∈ .idCompanion :: Flags.indexFlags, ¬ flags.Contains flag) :
    (p.addFlags flags).IsFitting := by
  obtain ⟨alone, free⟩ := List.forall_mem_cons.mp free
  exact ⟨h.toIsIndexed.addFlags free, h.toFitsKind.addFlags_of_free alone⟩

/-! ### Requests for an index -/

theorem requestIndex_eq (p : Property) :
    p.requestIndex = { p with index := some (p.index.getD .unassigned) } := by
  unfold requestIndex
  split
  · next there => rw [there, Option.getD_some, ← there]
  · next there => rw [there, Option.getD_none]

/-- Whatever the index was, it fits its flags after a request. -/
theorem isIndexed_requestIndex (h : p.flags.BuildsIndex) : p.requestIndex.IsIndexed := by
  rw [requestIndex_eq]
  exact ⟨iff_of_true rfl h, fun _ => rfl⟩

theorem FitsKind.requestIndex (h : p.FitsKind) : p.requestIndex.FitsKind := by
  rw [requestIndex_eq]
  exact ⟨h.relation, h.toOne, h.vector, h.companion⟩

/-! ### Annotations -/

theorem isFitting_of_markId (h : p.markId set = .ok q) (fits : p.IsFitting) : q.IsFitting := by
  rcases eq_of_markId h with rfl | rfl | rfl
  · exact fits
  · exact fits.addFlags_of_free (by decide)
  · exact (fits.addFlags_of_free (by decide)).addFlags_of_free (by decide)

/-- A long or a string is no relation, has no vector index, and does not go with the ID. -/
theorem FitsKind.of_idKind (h : p.FitsKind) (idKind : p.kind = .long ∨ p.kind = .string) :
    p.target = "" ∧ p.vectorIndex = none ∧ ¬ p.flags.Contains .idCompanion := by
  refine ⟨?_, ?_, ?_⟩
  · by_contra related
    rw [h.relation.mpr related] at idKind
    simp at idKind
  · by_contra there
    rw [(h.vector (Option.isSome_iff_ne_none.mpr there)).1] at idKind
    simp at idKind
  · intro there
    rcases h.companion there with date | date
    all_goals simp [date] at idKind

theorem isFitting_of_markDate (h : p.markDate set = .ok q) (fits : p.IsFitting) :
    q.IsFitting := by
  rcases eq_of_markDate h with rfl | ⟨long, kind, date, rfl⟩
  · exact fits
  · obtain ⟨untargeted, plain, -⟩ := fits.of_idKind (.inl long)
    have unrelated : kind ≠ .relation := by rcases date with rfl | rfl <;> decide
    refine ⟨⟨fits.flags, fits.unique⟩, ⟨?_, fits.toOne, ?_, fun _ => date⟩⟩
    · exact iff_of_false unrelated (not_not.mpr untargeted)
    · intro there
      simp [plain] at there

theorem isFitting_of_markCompanion (h : p.markCompanion set = .ok q) (fits : p.IsFitting) :
    q.IsFitting := by
  rcases eq_of_markCompanion h with rfl | ⟨date, rfl⟩
  · exact fits
  · exact ⟨fits.toIsIndexed.addFlags (by decide), fits.toFitsKind.addFlags fun _ => date⟩

theorem isFitting_of_requestIndexKind {kind : String} (h : p.requestIndexKind kind = .ok q)
    (fits : p.FitsKind) : q.IsFitting := by
  rcases eq_of_requestIndexKind h with ⟨flag, builds, rfl⟩ | ⟨vector, rfl⟩
  · have flag_builds : flag.BuildsIndex ∧ ¬ flag.Contains .idCompanion := by
      rcases builds with rfl | rfl | rfl <;> decide
    exact ⟨isIndexed_requestIndex (flag_builds.1.union_right _),
      (fits.addFlags_of_free flag_builds.2).requestIndex⟩
  · have builds : Flags.indexed.BuildsIndex := by decide
    refine ⟨isIndexed_requestIndex (builds.union_right _), FitsKind.requestIndex ?_⟩
    have more : (p.addFlags .indexed).FitsKind := fits.addFlags_of_free (by decide)
    refine ⟨more.relation, more.toOne, fun _ => ⟨vector, ?_⟩, more.companion⟩
    exact (Flags.contains_union_iff (by decide)).mpr (.inr (by decide))

theorem isFitting_of_markIndex (h : p.markIndex set = .ok q) (fits : p.IsFitting) :
    q.IsFitting := by
  rcases eq_of_markIndex h with rfl | ⟨p', name, rfl | rfl, asked⟩
  · exact fits
  · exact isFitting_of_requestIndexKind asked fits.toFitsKind
  · -- unique values have no index yet, but the request for it comes next
    exact isFitting_of_requestIndexKind asked (fits.toFitsKind.addFlags_of_free (by decide))

theorem isFitting_of_markToOne (h : p.markToOne set = .ok q) (fits : p.IsFitting) :
    q.IsFitting := by
  rcases eq_of_markToOne h with rfl | ⟨long, target, named, rfl⟩
  · exact fits
  · obtain ⟨-, plain, alone⟩ := fits.of_idKind (.inl long)
    have builds : (Flags.indexed ∪ .skipZero).BuildsIndex := by decide
    refine ⟨isIndexed_requestIndex (builds.union_right _), FitsKind.requestIndex ?_⟩
    refine ⟨iff_of_true rfl named, fun _ => ⟨?_, ?_⟩, ?_, ?_⟩
    · exact (Flags.contains_union_iff (by decide)).mpr (.inr (by decide))
    · exact (Flags.contains_union_iff (by decide)).mpr (.inr (by decide))
    · intro there
      simp [Property.addFlags, plain] at there
    · intro there
      rcases (Flags.contains_union_iff (by decide)).mp there with there | there
      · exact absurd there alone
      · exact absurd there (by decide)

theorem isCoherent_of_markVectorIndex (h : p.markVectorIndex set = .ok q) (fits : p.IsFitting) :
    q.IsCoherent := by
  obtain ⟨same, sized⟩ := eq_of_markVectorIndex h
  have there (some_there : q.vectorIndex.isSome) : p.vectorIndex.isSome := by
    obtain ⟨v, hv⟩ := Option.isSome_iff_exists.mp some_there
    exact (sized v hv).1
  have dimensions (v : VectorIndex) (hv : q.vectorIndex = some v) := (sized v hv).2
  rw [same]
  exact {
    toIsIndexed := ⟨fits.flags, fits.unique⟩
    toFitsKind := ⟨fits.relation, fits.toOne, fun hv => fits.vector (there hv), fits.companion⟩
    dimensions }

/-- Annotations make a coherent property of one whose attributes fit together. -/
theorem isCoherent_of_annotate (h : p.annotate set = .ok (some q)) (fits : p.IsFitting) :
    q.IsCoherent := by
  obtain ⟨p₁, p₂, p₃, p₄, p₅, p₆, p₇, id, named, dated, companion, indexed, marked, related,
    vector⟩ := steps_of_annotate h
  have fits₁ := isFitting_of_markId id fits
  have fits₂ : p₂.IsFitting := by
    rw [eq_of_markName named]
    exact fits₁.of_same rfl rfl rfl rfl rfl
  have fits₃ := isFitting_of_markDate dated fits₂
  have fits₄ := isFitting_of_markCompanion companion fits₃
  have fits₅ := isFitting_of_markIndex indexed fits₄
  have fits₆ : p₆.IsFitting := by
    rw [(eq_of_markUid marked).1]
    exact fits₅.of_same rfl rfl rfl rfl rfl
  have fits₇ := isFitting_of_markToOne related fits₆
  apply isCoherent_of_markVectorIndex vector
  rw [eq_markOptional]
  exact fits₇.of_same rfl rfl rfl rfl rfl

theorem isFitting_planned (field : FieldDraft) {kind : PropertyKind} (ordinary : kind ≠ .relation) :
    (planned field kind).IsFitting := by
  have plain : IsFitting { id := .unassigned, name := field.name, kind } := by
    have unflagged : ¬ Flags.none.BuildsIndex ∧ ¬ Flags.none.Contains .unique ∧
      ¬ Flags.none.Contains .idCompanion := by decide
    refine ⟨⟨iff_of_false Bool.false_ne_true unflagged.1, ?_⟩, ⟨?_, ?_, ?_, ?_⟩⟩
    · exact fun there => absurd there unflagged.2.1
    · exact iff_of_false ordinary (not_not.mpr rfl)
    · exact fun related => absurd rfl related
    · exact fun there => absurd there Bool.false_ne_true
    · exact fun there => absurd there unflagged.2.2
  unfold planned
  dsimp only
  split
  · exact plain.addFlags_of_free (by decide)
  · exact plain

end Property

/-! ### The ID -/

/-- A long or a string stays coherent when it becomes the ID. -/
theorem Property.IsCoherent.asId {p : Property} (h : p.IsCoherent)
    (kind : p.kind = .long ∨ p.kind = .string) : (Entity.asId p).IsCoherent := by
  obtain ⟨untargeted, plain, alone⟩ := h.of_idKind kind
  have single : ∀ flag ∈ Flags.indexFlags, flag.IsSingle ∧ ¬ Flags.objectId.Contains flag ∧
    ¬ Flags.unsigned.Contains flag := by decide
  have index : (Entity.asId p).IsIndexed := by
    refine h.toIsIndexed.of_same_flags rfl fun flag hflag => ?_
    obtain ⟨single, not_id, not_unsigned⟩ := single flag hflag
    rw [Entity.asId, Flags.contains_without_iff single, Flags.contains_union_iff single]
    simp [not_id, not_unsigned]
  have ordinary : PropertyKind.long ≠ .relation := by decide
  refine ⟨⟨index, ⟨iff_of_false ordinary (not_not.mpr untargeted), ?_, ?_, ?_⟩⟩, h.dimensions⟩
  · exact fun related => absurd untargeted related
  · intro there
    simp [Entity.asId, plain] at there
  · intro there
    have there := ((Flags.contains_without_iff (by decide)).mp there).1
    rcases (Flags.contains_union_iff (by decide)).mp there with there | there
    · exact absurd there alone
    · exact absurd there (by decide)

/-! ### Plans -/

/-- No field is declared as a relation; an annotation makes one of a long. -/
theorem FieldDraft.kind_ne_relation {field : FieldDraft} {kind : PropertyKind}
    (h : field.kind = .ok kind) : kind ≠ .relation := by
  rintro rfl
  unfold FieldDraft.kind at h
  split at h
  · split at h
    all_goals cases h
  · split at h
    · cases h
    · next ordinary => exact ordinary (Except.ok.inj h)

namespace Entity

variable {kinds : List PropertyKind} {e e' : Entity}

/-- The ID that is selected was a long or a string, if no other kinds are allowed. -/
theorem isCoherent_of_withId (h : e.withId kinds = .ok e')
    (plain : ∀ kind ∈ kinds, kind = .long ∨ kind = .string)
    (coherent : ∀ p ∈ e.properties, p.IsCoherent) : ∀ p ∈ e'.properties, p.IsCoherent := by
  simp only [withId, except_bind_eq_ok, except_pure_eq_ok] at h
  obtain ⟨j, -, _, -, _, allowed, rfl⟩ := h
  have id_kind (p : Property) (at_j : e.properties[j]? = some p) :
      p.kind = .long ∨ p.kind = .string := by
    have allowed := Check.all_eq_ok.mp allowed p (Option.mem_toList.mpr at_j)
    have allowed := Check.require_eq_ok.mp (Place.wrap_eq_ok.mp allowed)
    unfold Property.HasIdKind at allowed
    split at allowed
    · exact .inl allowed
    · exact plain p.kind allowed
  intro p hp
  obtain ⟨k, at_k⟩ := List.mem_iff_getElem?.mp hp
  rw [List.getElem?_modify] at at_k
  obtain ⟨q, there, rfl⟩ := Option.map_eq_some_iff.mp at_k
  have before := coherent q (List.mem_of_getElem? there)
  split
  · next here =>
      rw [← here] at there
      exact before.asId (id_kind q there)
  · exact before

end Entity

namespace Plan

variable {kinds : List PropertyKind} {drafts : List EntityDraft} {plan : List Entity}

theorem isCoherent_of_ofField {field : FieldDraft} {p : Property}
    (h : ofField field = .ok (some p)) : p.IsCoherent := by
  obtain ⟨kind, of_kind, annotated⟩ := ofField_eq_ok_iff.mp h
  have fits := Property.isFitting_planned field (FieldDraft.kind_ne_relation of_kind)
  exact Property.isCoherent_of_annotate annotated fits

theorem isCoherent_of_ofDraft {draft : EntityDraft} {e : Entity}
    (h : ofDraft kinds draft = .ok (some e))
    (plain : ∀ kind ∈ kinds, kind = .long ∨ kind = .string) :
    ∀ p ∈ e.properties, p.IsCoherent := by
  obtain ⟨x, properties, -, made, selected⟩ := steps_of_ofDraft h
  refine Entity.isCoherent_of_withId selected plain fun p hp => ?_
  obtain ⟨field, -, of_field⟩ := exists_of_forall₂ (forall₂_of_ofFields made) hp
  exact isCoherent_of_ofField of_field

/-- The attributes of every property of a plan belong together. -/
theorem isCoherent (h : ofDrafts kinds drafts = .ok plan)
    (plain : ∀ kind ∈ kinds, kind = .long ∨ kind = .string) :
    ∀ e ∈ plan, ∀ p ∈ e.properties, p.IsCoherent := by
  intro e he
  obtain ⟨added, rfl, each⟩ := forall₂_of_addDrafts h
  obtain ⟨draft, -, made⟩ := exists_of_forall₂ each he
  exact isCoherent_of_ofDraft made plain

theorem hasOpenIndex (h : ofDrafts kinds drafts = .ok plan) :
    ∀ e ∈ plan, ∀ p ∈ e.properties, p.HasOpenIndex := by
  intro e he p hp
  obtain ⟨draft, -, declared⟩ := exists_of_forall₂ (declares h) he
  obtain ⟨field, -, declared⟩ := exists_of_forall₂ declared.properties hp
  exact declared.index

end Plan

end SchemaLedger
