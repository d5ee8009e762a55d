import SchemaLedger.Proofs.Draft.Attributes
import SchemaLedger.Proofs.Merge.Contents

/-!
# Attributes after a merge

A merge decides for every property whether an index is kept, dropped or allocated, and takes the
flags from the plan. The attributes still belong together, and the index is a real one.
-/

namespace SchemaLedger

/-- Being coherent does not depend on identifiers. -/
theorem Property.IsCoherent.of_bare_eq {p q : Property} (h : p.IsCoherent) (same : q.bare = p.bare) :
    q.IsCoherent := by
  have index : q.index.isSome = p.index.isSome := by
    simpa [bare] using congrArg (fun x => x.index.isSome) same
  obtain ⟨-, kind, flags, target, vector⟩ := Property.of_bare_eq same
  refine ⟨h.toIsFitting.of_same index kind flags target vector, ?_⟩
  rw [vector]
  exact h.dimensions

namespace Merge

variable {S : Model} {targets : Targets} {ids : List IdPair}

theorem EntityOutcome.isCoherent {e : Entity} {o : Settled Entity}
    (h : EntityOutcome S targets ids e o) (coherent : ∀ p ∈ e.properties, p.IsCoherent) :
    ∀ q ∈ o.made.properties, q.IsCoherent := by
  obtain ⟨ps, each, properties, -⟩ := h.contents.properties
  intro q hq
  rw [properties] at hq
  obtain ⟨settled, hsettled, rfl⟩ := List.mem_map.mp hq
  obtain ⟨p, hp, outcome⟩ := exists_of_forall₂ each hsettled
  exact (coherent p hp).of_bare_eq outcome.bare_eq

/-- In a plan from drafts for which the ID is a long or a string, the attributes of every property
belong together, with requests in the place of indexes. They do so after a merge into a consistent
model with a consistent result, and then every index is a real one. -/
theorem isCoherent_of_merge {kinds : List PropertyKind} {drafts : List EntityDraft}
    {plan : List Entity} (plain : ∀ kind ∈ kinds, kind = .long ∨ kind = .string)
    (planned : Plan.ofDrafts kinds drafts = .ok plan) :
    (∀ e ∈ plan, ∀ p ∈ e.properties, p.IsCoherent ∧ p.HasOpenIndex) ∧
      ∀ (store : Store) notices store', store.model.IsConsistent →
        store.merge plan = .ok (notices, store') → store'.model.IsConsistent →
        ∀ y ∈ store'.model.entities, ∀ q ∈ y.properties,
          q.IsCoherent ∧ ∀ id, q.index = some id → id.id ≠ 0 ∧ id.uid ≠ 0 := by
  have coherent := Plan.isCoherent planned plain
  constructor
  · intro e he p hp
    exact ⟨coherent e he p hp, Plan.hasOpenIndex planned e he p hp⟩
  · intro store notices store' stored run merged y hy q hq
    obtain ⟨-, os, made, -, outcomes⟩ :=
      outcome_of_merge run (Plan.properties_ne_nil planned) stored merged
    have sound := (merged.isChecked hy).properties q hq
    rw [made] at hy
    obtain ⟨o, ho, rfl⟩ := List.mem_map.mp hy
    obtain ⟨e, he, outcome⟩ := exists_of_forall₂ outcomes ho
    exact ⟨outcome.isCoherent (coherent e he) q hq, sound.index⟩

/-- An entity with properties of every sort: a string as the ID, unique values, a relation, a vector
index and a date that goes with the ID. -/
def manySorts : List EntityDraft :=
  [{ name := "Task"
     fields := [
      { name := "ID", base := .string
        annotations := .ofList [("id", .flag), ("index", .value "hash64")] },
      { name := "text", base := .string, annotations := .ofList [("unique", .flag)] },
      { name := "author", base := .long, annotations := .ofList [("relation", .value "Author")] },
      { name := "shape", base := .float, isVector := true, element := some .float
        annotations := .ofList [("index", .value "hnsw"), ("hnsw-dimensions", .value "3")] },
      { name := "time", base := .long
        annotations := .ofList [("date", .flag), ("id-companion", .flag)] }] },
    .onlyId "Author"]

theorem isCoherent_of_merge_manySorts :
    ∃ plan notices store',
      (∀ kind ∈ [PropertyKind.long, .string], kind = .long ∨ kind = .string) ∧
      Plan.ofDrafts [.long, .string] manySorts = .ok plan ∧
      (∀ e ∈ plan, ∀ p ∈ e.properties, p.IsCoherent ∧ p.HasOpenIndex) ∧
      (oneEntity "Task").IsConsistent ∧
      Store.merge plan ⟨oneEntity "Task", .counting⟩ = .ok (notices, store') ∧
      store'.model.IsConsistent ∧
      ∀ y ∈ store'.model.entities, ∀ q ∈ y.properties,
        q.IsCoherent ∧ ∀ id, q.index = some id → id.id ≠ 0 ∧ id.uid ≠ 0 := by
  obtain ⟨plan, notices, store', planned, run, merged⟩ := exists_plan_of_merge [.long, .string]
    manySorts ⟨oneEntity "Task", .counting⟩ (by decide +kernel)
  have plain : ∀ kind ∈ [PropertyKind.long, .string], kind = .long ∨ kind = .string := by simp
  have stored : (oneEntity "Task").IsConsistent := by decide
  obtain ⟨coherent, after⟩ := isCoherent_of_merge plain planned
  exact ⟨plan, notices, store', plain, planned, coherent, stored, run, merged,
    after _ _ _ stored run merged⟩

end Merge

end SchemaLedger
