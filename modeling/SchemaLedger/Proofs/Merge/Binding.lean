import SchemaLedger.Model.View
import SchemaLedger.Proofs.Merge.Cycles

/-!
# Targets are those that the schema means

A plan names the targets of its relations and to-one properties, and names of planned entities are
distinct. In the merged model each of them leads to the entity that stands where the plan has the
only entity of that name, whatever the stored entities were called; and that is the entity that is
found when the target is asked for.
-/

namespace SchemaLedger

open Text

namespace Merge

/-- Exactly one planned entity has the name, and the merged entity stands in its place. -/
def StandsFor (plan : List Entity) (M : Model) (name : String) (w : Entity) : Prop :=
  ∃ (k : Nat) (f : Entity), plan[k]? = some f ∧ M.entities[k]? = some w ∧ SameName f.name name ∧
    ∀ (l : Nat) (g : Entity), plan[l]? = some g → SameName g.name name → l = k

/-- The merged relation is bound to the entity that the planned one names. -/
structure BindsRelation (plan : List Entity) (M : Model) (planned merged : Relation) : Prop where
  target : merged.target = planned.target
  bound : ∃ w, StandsFor plan M planned.target w ∧ merged.targetId = some w.id ∧
    M.relationTarget? merged = some w

/-- The merged property is bound to the entity that the planned one names, if it names one. -/
structure BindsProperty (plan : List Entity) (M : Model) (planned merged : Property) : Prop where
  target : merged.target = planned.target
  bound : planned.IsToOne →
    ∃ w, StandsFor plan M planned.target w ∧ M.propertyTarget? merged = some w
  silent : ¬ planned.IsToOne → M.propertyTarget? merged = none

/-- The relations and properties of the merged entity are bound as the planned entity says, each in
its place. -/
structure BindsEntity (plan : List Entity) (M : Model) (planned merged : Entity) : Prop where
  relations : List.Forall₂ (BindsRelation plan M) planned.relations merged.relations
  properties : List.Forall₂ (BindsProperty plan M) planned.properties merged.properties

/-- Lists that a function maps to the same are related element by element. -/
theorem forall₂_of_map_eq {α β : Type} {f : α → β} {xs ys : List α} (h : xs.map f = ys.map f) :
    List.Forall₂ (fun x y => f x = f y) xs ys := by
  have same : List.Forall₂ (· = ·) (xs.map f) (ys.map f) := by rw [h, List.forall₂_eq_eq_eq]
  exact List.forall₂_map_right_iff.mp (List.forall₂_map_left_iff.mp same)

namespace Realizes

variable {plan : List Entity} {M : Model}

/-- An entity of the merged model is the only one that stands for its name. -/
theorem standsFor (h : Realizes plan M) (consistent : M.IsConsistent) {w : Entity}
    (hw : w ∈ M.entities) {name : String} (named : SameName w.name name) :
    StandsFor plan M name w := by
  obtain ⟨k, lt, rfl⟩ := List.getElem_of_mem hw
  have lengths := h.reads.length_eq
  have same (l : Nat) (planned : l < plan.length) (lt : l < M.entities.length) :
      M.entities[l].name = plan[l].name :=
    Entity.name_eq_of_bare_eq (h.reads.get planned lt)
  have planned : k < plan.length := lengths ▸ lt
  refine ⟨k, _, List.getElem?_eq_getElem planned, List.getElem?_eq_getElem lt,
    by rwa [← same k planned lt], ?_⟩
  intro l g at_l named'
  obtain ⟨lt', rfl⟩ := List.getElem?_eq_some_iff.mp at_l
  -- the entities at both positions have the same name, and names are distinct
  have equal : M.entities[l] = M.entities[k] :=
    consistent.eq_of_sameName (List.getElem_mem _) hw
      ((same l lt' (lengths ▸ lt') ▸ named').trans named.symm)
  exact (List.Nodup.getElem_inj_iff consistent.distinctUids.of_map).mp equal

theorem bindsRelation (h : Realizes plan M) (consistent : M.IsConsistent) {y : Entity}
    (hy : y ∈ M.entities) {r z : Relation} (hz : z ∈ y.relations) (same : z.bare = r.bare) :
    BindsRelation plan M r z := by
  obtain ⟨-, target⟩ := Relation.of_bare_eq same
  obtain ⟨w, hw, bound, -⟩ := h.targets y hy z hz
  have named := h.sameName_of_target consistent.distinctUids hy hw hz bound
  refine ⟨target, w, h.standsFor consistent hw (target ▸ named), bound, ?_⟩
  rw [Model.relationTarget?, bound, Option.bind_some]
  exact find?_eq_some_of_only hw (by simp) fun e he there =>
    consistent.eq_of_id_eq he hw (of_decide_eq_true there)

theorem bindsProperty (h : Realizes plan M) (consistent : M.IsConsistent) {y : Entity}
    (hy : y ∈ M.entities) {p q : Property} (hq : q ∈ y.properties) (same : q.bare = p.bare) :
    BindsProperty plan M p q := by
  obtain ⟨-, -, -, target, -⟩ := Property.of_bare_eq same
  refine ⟨target, fun toOne => ?_, fun other => ?_⟩
  · have toOne' : q.IsToOne := by rwa [Property.IsToOne, target]
    obtain ⟨w, hw, named⟩ := consistent.propertyTarget hy hq toOne'
    refine ⟨w, h.standsFor consistent hw (target ▸ named), ?_⟩
    rw [Model.propertyTarget?, if_pos toOne']
    exact find?_eq_some_of_only hw (by simpa using named) fun e he there =>
      consistent.eq_of_sameName he hw ((of_decide_eq_true there).trans named.symm)
  · rw [Model.propertyTarget?, if_neg (by rwa [Property.IsToOne, target])]

theorem bindsEntity (h : Realizes plan M) (consistent : M.IsConsistent) {e y : Entity}
    (hy : y ∈ M.entities) (same : y.bare = e.bare) : BindsEntity plan M e y := by
  have relations : y.relations.map Relation.bare = e.relations.map Relation.bare :=
    congrArg (·.relations) same
  have properties : y.properties.map Property.bare = e.properties.map Property.bare :=
    congrArg (·.properties) same
  constructor
  · exact (forall₂_and_mem (forall₂_of_map_eq relations.symm)).imp fun r z ⟨same, hz⟩ =>
      h.bindsRelation consistent hy hz same.symm
  · exact (forall₂_and_mem (forall₂_of_map_eq properties.symm)).imp fun p q ⟨same, hq⟩ =>
      h.bindsProperty consistent hy hq same.symm

end Realizes

section Runs

variable {kinds : List PropertyKind} {drafts : List EntityDraft} {plan : List Entity}

/-- Whatever is renamed, created or removed, after a merge into a consistent model that gives a
consistent one every relation and every to-one property is bound to the entity that the schema
names, and finds it when it is asked for. -/
theorem targets_bind_of_merge {store store' : Store} {notices : List Notice}
    (planned : Plan.ofDrafts kinds drafts = .ok plan) (stored : store.model.IsConsistent)
    (run : store.merge plan = .ok (notices, store')) (merged : store'.model.IsConsistent) :
    List.Forall₂ (BindsEntity plan store'.model) plan store'.model.entities := by
  have realizes : Realizes plan store'.model := realizes_of_merge planned stored run merged
  exact (forall₂_and_mem realizes.reads).imp fun e y ⟨same, hy⟩ =>
    realizes.bindsEntity merged hy same

/-- A model with two entities, `Task` and `Note`. -/
def taskAndNote : Model :=
  let id (uid : UInt64) : Property :=
    { id := ⟨1, uid⟩, name := "id", kind := .long, flags := .objectId }
  { Model.empty with
    entities := [
      { id := ⟨1, 1⟩, lastProperty := some ⟨1, 2⟩, name := "Task", properties := [id 2] },
      { id := ⟨2, 3⟩, lastProperty := some ⟨1, 4⟩, name := "Note", properties := [id 4] }]
    lastEntity := some ⟨2, 3⟩ }

/-- A schema in which the two entities swap their names, and a new one in front points at both. -/
def swappedNames : List EntityDraft :=
  let relation (name target : String) : Annotation :=
    .group "relation" ((KeyMap.empty.insert "name" (.value name)).insert "to" (.value target))
  let entity (name uid : String) : EntityDraft :=
    { name, annotations := KeyMap.empty.insert "uid" (.value uid)
      fields := [{ name := "id", base := .long }] }
  [{ name := "List"
     annotations := (KeyMap.empty.insert (Annotations.relationKey 0 "notes")
      (relation "notes" "NOTE")).insert (Annotations.relationKey 1 "tasks")
      (relation "tasks" "task")
     fields := [
      { name := "id", base := .long },
      { name := "first", base := .long
        annotations := KeyMap.empty.insert "link" (.value "TASK") }] },
    entity "Task" "3", entity "Note" "1"]

/-- Targets are found by their new names, although both entities still have their old ones when the
relations are merged. -/
theorem targets_bind_of_merge_swapped :
    ∃ (plan : List Entity) (notices : List Notice) (store' : Store),
      Plan.ofDrafts [] swappedNames = .ok plan ∧ taskAndNote.IsConsistent ∧
      Store.merge plan ⟨taskAndNote, .counting⟩ = .ok (notices, store') ∧
      store'.model.IsConsistent ∧
      (store'.model.entities.flatMap Entity.relations).map Relation.targetId =
        [some ⟨1, 1⟩, some ⟨2, 3⟩] ∧
      List.Forall₂ (BindsEntity plan store'.model) plan store'.model.entities := by
  obtain ⟨plan, notices, store', planned, run, merged⟩ := exists_plan_of_merge [] swappedNames
    ⟨taskAndNote, .counting⟩ (by decide +kernel)
  have targets : (do
      let plan ← Plan.ofDrafts [] swappedNames
      let merged ← Store.merge plan ⟨taskAndNote, .counting⟩
      return (merged.2.model.entities.flatMap Entity.relations).map Relation.targetId) =
      .ok [some ⟨1, 1⟩, some ⟨2, 3⟩] := by
    decide +kernel
  have stored : taskAndNote.IsConsistent := by decide
  refine ⟨plan, notices, store', planned, stored, run, merged, ?_,
    targets_bind_of_merge planned stored run merged⟩
  simpa [planned, run, bind, Except.bind, pure, Except.pure] using targets

end Runs

end Merge

end SchemaLedger
