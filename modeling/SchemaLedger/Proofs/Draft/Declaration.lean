import SchemaLedger.Proofs.Draft.Omission
import SchemaLedger.Proofs.Draft.Plan

/-!
# What drafts declare

A plan has an entity for each draft that is not left out, and the entity has a property for each
field that is not left out and a relation for each group that declares one, all of them in the order
of the schema. Nothing has an identifier yet, apart from the uids that the schema gives.

The other way round, a plan is made whenever each draft is all right by itself and the names that
come out are distinct.
-/

namespace SchemaLedger

open Text

/-- An index of the property is not there yet, but asked for. -/
def Property.HasOpenIndex (p : Property) : Prop := ∀ id, p.index = some id → id = .unassigned

/-- What a field declares of its property: the name and the uid, and at most that it wants an
index. -/
structure FieldDraft.Declares (field : FieldDraft) (p : Property) : Prop where
  name : p.name = field.annotations.nameOr field.name
  uid : FollowsUid field.annotations.uidText? p.id p.uidRequested
  index : p.HasOpenIndex

/-- What a draft declares of its entity. -/
structure EntityDraft.Declares (draft : EntityDraft) (e : Entity) : Prop where
  name : e.name = draft.annotations.nameOr draft.name
  comments : e.comments = draft.comments
  uid : FollowsUid draft.annotations.uidText? e.id e.uidRequested
  properties : List.Forall₂ FieldDraft.Declares
    (draft.fields.filter fun field => ¬ field.annotations.IsOmission) e.properties
  relations : List.Forall₂ Annotation.DeclaresRelation
    (draft.annotations.relations.map Prod.snd) e.relations

/-! ### Properties -/

namespace Property

variable {p q : Property} {set : Annotations}

/-- The change leaves the name, the uid and the request for it alone, and asks for an index at
most. -/
structure Keeps (p q : Property) : Prop where
  name : q.name = p.name
  id : q.id = p.id
  uidRequested : q.uidRequested = p.uidRequested
  index : q.index = p.index ∨ q.index = some .unassigned

theorem Keeps.refl (p : Property) : p.Keeps p := ⟨rfl, rfl, rfl, .inl rfl⟩

theorem Keeps.trans {r : Property} (h : p.Keeps q) (h' : q.Keeps r) : p.Keeps r where
  name := h'.name.trans h.name
  id := h'.id.trans h.id
  uidRequested := h'.uidRequested.trans h.uidRequested
  index := by
    rcases h'.index with same | asked
    · rw [same]
      exact h.index
    · exact .inr asked

theorem Keeps.hasOpenIndex (h : p.Keeps q) (before : p.HasOpenIndex) : q.HasOpenIndex := by
  intro id there
  rcases h.index with same | asked
  · exact before id (same.symm.trans there)
  · exact (Option.some.inj (asked.symm.trans there)).symm

theorem keeps_addFlags (p : Property) (flags : Flags) : p.Keeps (p.addFlags flags) :=
  ⟨rfl, rfl, rfl, .inl rfl⟩

theorem keeps_requestIndex (p : Property) : p.Keeps p.requestIndex := by
  unfold requestIndex
  split
  · exact .refl p
  · exact ⟨rfl, rfl, rfl, .inr rfl⟩

theorem keeps_of_markId (h : p.markId set = .ok q) : p.Keeps q := by
  rcases eq_of_markId h with rfl | rfl | rfl
  · exact .refl q
  · exact p.keeps_addFlags _
  · exact (p.keeps_addFlags _).trans (keeps_addFlags _ _)

theorem keeps_of_markDate (h : p.markDate set = .ok q) : p.Keeps q := by
  rcases eq_of_markDate h with rfl | ⟨-, kind, -, rfl⟩
  · exact .refl q
  · exact ⟨rfl, rfl, rfl, .inl rfl⟩

theorem keeps_of_markCompanion (h : p.markCompanion set = .ok q) : p.Keeps q := by
  rcases eq_of_markCompanion h with rfl | ⟨-, rfl⟩
  · exact .refl q
  · exact p.keeps_addFlags _

theorem keeps_of_markIndex (h : p.markIndex set = .ok q) : p.Keeps q := by
  rcases eq_of_markIndex h with rfl | ⟨p', kind, start, asked⟩
  · exact .refl q
  · have before : p.Keeps p' := by
      rcases start with rfl | rfl
      · exact .refl p'
      · exact p.keeps_addFlags _
    refine before.trans ?_
    rcases eq_of_requestIndexKind asked with ⟨flag, -, rfl⟩ | ⟨-, rfl⟩
    · exact (p'.keeps_addFlags flag).trans (keeps_requestIndex _)
    · have asked := keeps_requestIndex ({ p' with vectorIndex := some {} }.addFlags .indexed)
      exact ⟨asked.name, asked.id, asked.uidRequested, asked.index⟩

theorem keeps_of_markToOne (h : p.markToOne set = .ok q) : p.Keeps q := by
  rcases eq_of_markToOne h with rfl | ⟨-, target, -, rfl⟩
  · exact .refl q
  · have asked := keeps_requestIndex
      ({ p with kind := .relation, target }.addFlags (.indexed ∪ .skipZero))
    exact ⟨asked.name, asked.id, asked.uidRequested, asked.index⟩

theorem keeps_markOptional (set : Annotations) (p : Property) : p.Keeps (p.markOptional set) := by
  rw [eq_markOptional]
  exact ⟨rfl, rfl, rfl, .inl rfl⟩

theorem keeps_of_markVectorIndex (h : p.markVectorIndex set = .ok q) : p.Keeps q := by
  rw [(eq_of_markVectorIndex h).1]
  exact ⟨rfl, rfl, rfl, .inl rfl⟩

/-- Only two annotations of a property concern its name and its uid. -/
theorem of_annotate (h : p.annotate set = .ok (some q)) (unassigned : p.id = .unassigned)
    (quiet : p.uidRequested = false) (unindexed : p.index = none) :
    q.name = set.nameOr p.name ∧ FollowsUid set.uidText? q.id q.uidRequested ∧
      q.HasOpenIndex := by
  obtain ⟨p₁, p₂, p₃, p₄, p₅, p₆, p₇, id, named, dated, companion, indexed, marked, related,
    vector⟩ := steps_of_annotate h
  have start := keeps_of_markId id
  have naming := eq_of_markName named
  have middle : p₂.Keeps p₅ := (keeps_of_markDate dated).trans <|
    (keeps_of_markCompanion companion).trans (keeps_of_markIndex indexed)
  obtain ⟨same, uid⟩ := eq_of_markUid marked
  have rest : p₆.Keeps q := (keeps_of_markToOne related).trans <|
    (keeps_markOptional set p₇).trans (keeps_of_markVectorIndex vector)
  refine ⟨?_, ?_, ?_⟩
  · calc q.name = p₆.name := rest.name
      _ = p₅.name := by rw [same]
      _ = p₂.name := middle.name
      _ = set.nameOr p₁.name := by rw [naming]
      _ = set.nameOr p.name := by rw [start.name]
  · rw [rest.id, rest.uidRequested]
    apply uid
    · rw [middle.id, naming, start.id, unassigned]
    · rw [middle.uidRequested, naming, start.uidRequested, quiet]
  · have before : p₁.HasOpenIndex := start.hasOpenIndex (by simp [HasOpenIndex, unindexed])
    have between : p₅.HasOpenIndex := middle.hasOpenIndex (by rw [naming]; exact before)
    exact rest.hasOpenIndex (by rw [same]; exact between)

end Property

/-! ### Lists -/

/-- A change of one element that no related element notices. -/
theorem forall₂_modify {α β : Type} {R : α → β → Prop} {as : List α} {bs : List β} {f : β → β}
    (h : List.Forall₂ R as bs) (unnoticed : ∀ a b, R a b → R a (f b)) (j : Nat) :
    List.Forall₂ R as (bs.modify j f) := by
  induction h generalizing j with
  | nil => simp
  | cons first rest ih =>
      cases j with
      | zero => exact .cons (unnoticed _ _ first) rest
      | succ j => exact .cons first (ih j)

namespace Plan

variable {kinds : List PropertyKind} {plan before : List Entity} {draft : EntityDraft}
variable {drafts : List EntityDraft} {fields : List FieldDraft} {properties : List Property}
variable {field : FieldDraft} {p : Property} {e : Entity}

theorem forall₂_of_ofFields (h : ofFields fields = .ok properties) :
    List.Forall₂ (fun field p => ofField field = .ok (some p))
      (fields.filter fun field => ¬ field.annotations.IsOmission) properties := by
  induction fields generalizing properties with
  | nil =>
      obtain rfl : [] = properties := Except.ok.inj h
      exact .nil
  | cons field fields ih =>
      simp only [ofFields, except_bind_eq_ok, except_pure_eq_ok] at h
      obtain ⟨made, of_field, others, of_rest, rfl⟩ := h
      cases made with
      | none =>
          have omitted := (ofField_eq_ok_none_iff.mp of_field).2
          rw [List.filter_cons_of_neg (by simpa using omitted)]
          exact ih of_rest
      | some p =>
          have kept : ¬ field.annotations.IsOmission := by
            intro omitted
            obtain ⟨kind, -, annotated⟩ := ofField_eq_ok_iff.mp of_field
            rw [Property.annotate_eq_ok_none_iff.mpr omitted] at annotated
            cases annotated
          rw [List.filter_cons_of_pos (by simpa using kept)]
          exact .cons of_field (ih of_rest)

theorem declares_of_ofField (h : ofField field = .ok (some p)) : field.Declares p := by
  obtain ⟨kind, -, annotated⟩ := ofField_eq_ok_iff.mp h
  have start : (Property.planned field kind).name = field.name ∧
      (Property.planned field kind).id = .unassigned ∧
      (Property.planned field kind).uidRequested = false ∧
      (Property.planned field kind).index = none := by
    unfold Property.planned
    split <;> exact ⟨rfl, rfl, rfl, rfl⟩
  obtain ⟨name, unassigned, quiet, unindexed⟩ := start
  obtain ⟨named, uid, index⟩ := Property.of_annotate annotated unassigned quiet unindexed
  exact ⟨name ▸ named, uid, index⟩

theorem declares_of_ofDraft (h : ofDraft kinds draft = .ok (some e)) : draft.Declares e := by
  obtain ⟨x, properties, declared, made, selected⟩ := steps_of_ofDraft h
  simp only [Entity.withId, except_bind_eq_ok, except_pure_eq_ok] at selected
  obtain ⟨j, -, -, -, -, -, rfl⟩ := selected
  have marked := Entity.isMarked_of_annotate declared
  obtain ⟨relations, added, declares⟩ := marked.relations
  have fields := (forall₂_of_ofFields made).imp fun _ _ of_field => declares_of_ofField of_field
  have asId (field : FieldDraft) (p : Property) (h : field.Declares p) :
      field.Declares (Entity.asId p) := ⟨h.name, h.uid, h.index⟩
  exact {
    name := marked.name
    comments := marked.comments
    uid := marked.uid rfl rfl
    properties := forall₂_modify fields asId j
    relations := by rwa [added, List.nil_append] }

/-- The entities that are added are those of the drafts that are not left out, in their order. -/
theorem forall₂_of_addDrafts (h : addDrafts kinds before drafts = .ok plan) :
    ∃ added, plan = before ++ added ∧
      List.Forall₂ (fun draft e => ofDraft kinds draft = .ok (some e))
        (drafts.filter fun draft => ¬ draft.annotations.IsOmission) added := by
  induction drafts generalizing before with
  | nil =>
      obtain rfl : before = plan := by simpa [addDrafts] using h
      exact ⟨[], (List.append_nil _).symm, .nil⟩
  | cons draft drafts ih =>
      cases made : ofDraft kinds draft with
      | error e => cases (addDrafts_cons_error made).symm.trans h
      | ok x =>
          cases x with
          | none =>
              rw [addDrafts_cons_none made] at h
              have omitted := ofDraft_eq_ok_none_iff.mp made
              rw [List.filter_cons_of_neg (by simpa using omitted)]
              exact ih h
          | some x =>
              have kept : ¬ draft.annotations.IsOmission := by
                intro omitted
                cases made.symm.trans (ofDraft_eq_ok_none_iff.mpr omitted)
              rw [List.filter_cons_of_pos (by simpa using kept)]
              by_cases used : ∃ f ∈ before, SameName f.name x.name
              · cases (addDrafts_cons_used made used).symm.trans h
              · rw [addDrafts_cons_some made used] at h
                obtain ⟨added, rfl, each⟩ := ih h
                exact ⟨x :: added, List.append_assoc _ _ _, .cons made each⟩

theorem declares (h : ofDrafts kinds drafts = .ok plan) :
    List.Forall₂ EntityDraft.Declares
      (drafts.filter fun draft => ¬ draft.annotations.IsOmission) plan := by
  obtain ⟨added, rfl, each⟩ := forall₂_of_addDrafts h
  exact each.imp fun _ _ made => declares_of_ofDraft made

/-! ### Drafts that are all right by themselves -/

theorem ofDraft_of_singleton (h : ofDrafts kinds [draft] = .ok plan) :
    ofDraft kinds draft = .ok none ∧ plan = [] ∨
      ∃ e, ofDraft kinds draft = .ok (some e) ∧ plan = [e] := by
  cases made : ofDraft kinds draft with
  | error e => cases (addDrafts_cons_error made).symm.trans h
  | ok x =>
      cases x with
      | none =>
          rw [ofDrafts, addDrafts_cons_none made] at h
          exact .inl ⟨rfl, (Except.ok.inj h).symm⟩
      | some e =>
          rw [ofDrafts, addDrafts_cons_some made (by simp)] at h
          exact .inr ⟨e, rfl, (Except.ok.inj h).symm⟩

theorem addDrafts_of_each (before : List Entity) {plans : List (List Entity)}
    (each : List.Forall₂ (fun draft plan => ofDrafts kinds [draft] = .ok plan) drafts plans)
    (distinct : ((before ++ plans.flatten).map fun e => foldCase e.name).Nodup) :
    addDrafts kinds before drafts = .ok (before ++ plans.flatten) := by
  induction each generalizing before with
  | nil =>
      rw [List.flatten_nil, List.append_nil]
      rfl
  | cons first _ ih =>
      rcases ofDraft_of_singleton first with ⟨made, rfl⟩ | ⟨e, made, rfl⟩
      · rw [addDrafts_cons_none made]
        exact ih before distinct
      · rw [List.flatten_cons, List.singleton_append] at distinct ⊢
        have unused : ¬ ∃ f ∈ before, SameName f.name e.name := by
          rintro ⟨f, hf, same⟩
          rw [List.map_append, List.map_cons] at distinct
          exact (List.nodup_append.mp distinct).2.2 _ (List.mem_map_of_mem hf) _
            List.mem_cons_self same
        rw [List.append_cons] at distinct ⊢
        rw [addDrafts_cons_some made unused]
        exact ih _ distinct

/-- If drafts give a plan, then it is what they declare, with the elements that are not left out and
no others. Its entities have distinct names, and each of them has distinct names in it and one ID.
Drafts that give plans by themselves give these plans together, if no two of their entities have the
same name. -/
theorem ofDrafts_declares (kinds : List PropertyKind) (drafts : List EntityDraft) :
    (∀ plan, ofDrafts kinds drafts = .ok plan →
      List.Forall₂ EntityDraft.Declares
          (drafts.filter fun draft => ¬ draft.annotations.IsOmission) plan ∧
        (plan.map fun e => foldCase e.name).Nodup ∧ ∀ e ∈ plan, e.IsPlanned) ∧
      ∀ plans, List.Forall₂ (fun draft plan => ofDrafts kinds [draft] = .ok plan) drafts plans →
        (plans.flatten.map fun e => foldCase e.name).Nodup →
        ofDrafts kinds drafts = .ok plans.flatten := by
  constructor
  · intro plan built
    exact ⟨declares built, distinctNames built, isPlanned built⟩
  · intro plans each distinct
    exact addDrafts_of_each [] each distinct

/-- Two entities and one that is left out, although its name is that of the first. -/
def renamedDrafts : List EntityDraft :=
  [{ name := "Task"
     annotations := .ofList [("name", .value "tasks"), ("uid", .value "+7"),
       (Annotations.relationKey 0 "tags", .group "relation"
         (.ofList [("name", .value "tags"), ("to", .value "Tag"), ("uid", .flag)]))]
     fields := [{ name := "key", base := .string, annotations := .ofList [("id", .flag)] },
       { name := "text", base := .string, annotations := .ofList [("unique", .flag)] },
       { name := "TEXT", base := .int, annotations := .ofList [("-", .flag)] }] },
    { name := "TASKS", annotations := .ofList [("transient", .flag)] },
    .onlyId "Tag"]

/-- The plan of the first of these drafts. -/
def renamedTask : Entity where
  id := ⟨0, 7⟩
  name := "tasks"
  properties := [{ id := .unassigned, name := "key", kind := .long, flags := .objectId },
    { id := .unassigned, name := "text", kind := .string, flags := .unique ∪ .hashIndexed
      index := some .unassigned }]
  relations := [{ id := .unassigned, name := "tags", target := "Tag", uidRequested := true }]

/-- The plan of the last of these drafts. -/
def onlyTag : Entity where
  id := .unassigned
  name := "Tag"
  properties := [{ id := .unassigned, name := "id", kind := .long, flags := .objectId }]

theorem ofDrafts_declares_renamedDrafts :
    List.Forall₂ (fun draft plan => ofDrafts [.long, .string] [draft] = .ok plan) renamedDrafts
        [[renamedTask], [], [onlyTag]] ∧
      ([renamedTask, onlyTag].map fun e => foldCase e.name).Nodup ∧
      ofDrafts [.long, .string] renamedDrafts = .ok [renamedTask, onlyTag] ∧
      List.Forall₂ EntityDraft.Declares
        (renamedDrafts.filter fun draft => ¬ draft.annotations.IsOmission)
        [renamedTask, onlyTag] ∧
      ∀ e ∈ [renamedTask, onlyTag], e.IsPlanned := by
  have first : ofDrafts [.long, .string] (renamedDrafts.take 1) = .ok [renamedTask] := by
    decide +kernel
  have each : List.Forall₂ (fun draft plan => ofDrafts [.long, .string] [draft] = .ok plan)
      renamedDrafts [[renamedTask], [], [onlyTag]] :=
    .cons first (.cons (by decide +kernel) (.cons (by decide +kernel) .nil))
  obtain ⟨sound, complete⟩ := ofDrafts_declares [.long, .string] renamedDrafts
  have built := complete [[renamedTask], [], [onlyTag]] each (by decide +kernel)
  obtain ⟨declared, distinct, planned⟩ := sound _ built
  exact ⟨each, distinct, built, declared, planned⟩

end Plan

end SchemaLedger
