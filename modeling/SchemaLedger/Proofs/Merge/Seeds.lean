import Mathlib.Logic.Equiv.Basic
import SchemaLedger.Proofs.Merge.Copies

/-!
# The source only chooses the uids

Two merges of the same plan into the same model, with different sources of uids, draw different
uids. Some permutation takes those that the first one draws to those that the second one draws, as
far as both draw, and leaves everything alone that the model knows. With this permutation the first
merge has the same copy as the second one with none. So the two results differ in the choice of the
fresh uids and in nothing else.
-/

namespace SchemaLedger

/-- Two lists without duplicates can be brought in line, as far as the shorter one goes, by a
permutation that leaves the known values alone, which are in neither of them. -/
theorem exists_perm_prefix {α : Type} [DecidableEq α] {known : α → Prop} {xs ys : List α}
    (nodup : xs.Nodup) (nodup' : ys.Nodup) (unknown : ∀ x ∈ xs, ¬ known x)
    (unknown' : ∀ y ∈ ys, ¬ known y) :
    ∃ σ : Equiv.Perm α, (∀ x, known x → σ x = x) ∧ (xs.map σ <+: ys ∨ ys <+: xs.map σ) := by
  induction xs generalizing ys known with
  | nil => exact ⟨Equiv.refl α, fun _ _ => rfl, .inl List.nil_prefix⟩
  | cons x xs ih =>
      cases ys with
      | nil => exact ⟨Equiv.refl α, fun _ _ => rfl, .inr List.nil_prefix⟩
      | cons y ys =>
          obtain ⟨new, nodup⟩ := List.nodup_cons.mp nodup
          obtain ⟨new', nodup'⟩ := List.nodup_cons.mp nodup'
          have x_unknown := unknown x List.mem_cons_self
          have y_unknown := unknown' y List.mem_cons_self
          let swap := Equiv.swap x y
          -- `x` is left alone by what brings the others in line, and is swapped with `y` after that
          obtain ⟨τ, fixed, line⟩ : ∃ τ : Equiv.Perm α, (∀ z, z = x ∨ known z → τ z = z) ∧
              (xs.map τ <+: ys.map swap ∨ ys.map swap <+: xs.map τ) := by
            refine ih nodup (nodup'.map swap.injective) ?_ ?_
            · grind
            · intro z hz
              obtain ⟨w, hw, rfl⟩ := List.mem_map.mp hz
              simp only [swap, Equiv.swap_apply_def]
              grind
          have back : (ys.map swap).map swap = ys := by
            rw [List.map_map]
            exact map_eq_self fun z _ => by simp [swap]
          have image : (x :: xs).map (τ.trans swap) = y :: (xs.map τ).map swap := by
            simp [swap, fixed x (.inl rfl)]
          refine ⟨τ.trans swap, fun z z_known => ?_, ?_⟩
          · rw [Equiv.trans_apply, fixed z (.inr z_known)]
            exact Equiv.swap_apply_of_ne_of_ne (fun same => x_unknown (same ▸ z_known))
              fun same => y_unknown (same ▸ z_known)
          · rw [image, List.cons_prefix_cons, List.cons_prefix_cons]
            refine line.imp (fun line => ⟨rfl, ?_⟩) fun line => ⟨rfl, ?_⟩
            · exact back ▸ line.map swap
            · exact back ▸ line.map swap

namespace Merge

open Revision

/-! ### Results -/

/-- The second merge fails as the first one does, except for the uid that it suggests, or it gives
the same notices and the same model, with the same uids retired, except for the uids that the
permutation changes. -/
inductive RenamesTo (σ : Equiv.Perm UInt64) :
    Except ModelError (List Notice × Store) → Except ModelError (List Notice × Store) → Prop
  | ok {notices : List Notice} {s t : Store} (model : t.model = s.model.rename σ)
      (retired : t.model.retired = s.model.retired) :
      RenamesTo σ (.ok (notices, s)) (.ok (notices, t))
  | error {e e' : ModelError} (suggests : e' = e.renameSuggestion σ) :
      RenamesTo σ (.error e) (.error e')

/-- What is renamed to the same as the other, which is not renamed at all, is renamed to the
other. -/
theorem RenamesTo.of_common {σ : Equiv.Perm UInt64}
    {x y z : Except ModelError (List Notice × Store)} (h : RenamesTo σ x z)
    (h' : RenamesTo (Equiv.refl UInt64) y z) : RenamesTo σ x y := by
  cases h with
  | ok model retired =>
      cases h' with
      | ok model' retired' =>
          rw [Model.rename_refl] at model'
          exact .ok (model'.symm.trans model) (retired'.symm.trans retired)
  | error suggests =>
      cases h' with
      | error suggests' =>
          rw [ModelError.renameSuggestion_refl] at suggests'
          exact .error (suggests'.symm.trans suggests)

section Seeds

variable {S : Model} {plan : List Entity} {A B : UidSource} {σ : Equiv.Perm UInt64}

/-- What is retired in the end was known in the beginning. -/
theorem retired_rename_of_merge {notices : List Notice} {store store' : Store}
    (consistent : store.model.IsConsistent) (run : store.merge plan = .ok (notices, store'))
    (kept : store.model.IsKeptBy σ) :
    store'.model.retired.rename σ = store'.model.retired := by
  obtain ⟨found, settled, rs, phases⟩ := of_merge run
  obtain ⟨gone, new, turnover, removed, -⟩ := phases.leadTo consistent.distinctUids
    (distinctUids_of_isConsistent consistent)
    fun e he p hp index there => (((consistent.isChecked he).properties p hp).index index there).2
  refine Retired.rename_eq_self _ fun uid hu => ?_
  obtain ⟨sort, hu⟩ := Retired.exists_mem_uidsOf hu
  have listed : uid ∈ store.model.retired.uidsOf sort ++ (gone sort).map (·.uid) :=
    turnover.retired sort ▸ hu
  have in_use : uid ∈ store.model.books.uids := by
    refine Books.mem_uids.mpr ⟨sort, ?_⟩
    rcases List.mem_append.mp listed with was_retired | is_gone
    · exact .inr was_retired
    · exact .inl (List.map_subset _ (removed sort) is_gone)
  exact kept uid (.inr (Model.mentions_of_mem_census (store.model.census_perm.mem_iff.mpr in_use)))

/-- A merge draws some uids that the model does not know. If a source offers these uids, renamed,
then merging with this source copies the merge. -/
theorem exists_drawn (consistent : S.IsConsistent)
    (given : ∀ e ∈ plan, ∀ p ∈ e.properties, S.Knows p.id.uid)
    (supplied : ∀ e, Store.merge plan ⟨S, A⟩ = .error e → e.root ≠ .uidsExhausted uidAttempts) :
    ∃ drawn : List UInt64, drawn.Nodup ∧ (∀ uid ∈ drawn, ¬ S.Knows uid) ∧
      ∀ σ source, S.IsKeptBy σ → source.StartsWith (drawn.map σ) →
        RenamesTo σ (Store.merge plan ⟨S, A⟩) (Store.merge plan ⟨S, source⟩) := by
  have copies : Copies S same (mergePlan plan) (fun _ => mergePlan plan) ⟨S, A⟩ :=
    copies_mergePlan (s := ⟨S, A⟩) consistent given
  have copy {drawn : List UInt64} {σ : Equiv.Perm UInt64} {source : UidSource}
      (kept : S.IsKeptBy σ) (starts : source.StartsWith (drawn.map σ)) :
      Store.IsCopy S σ drawn ⟨S, A⟩ ⟨S, source⟩ :=
    ⟨kept, (rename_eq_self_of_isConsistent consistent kept).symm, starts⟩
  have unknown (uid : UInt64) (fresh : S.Fresh uid) : ¬ S.Knows uid := by
    rintro (zero | known)
    · exact fresh.1 zero
    · exact consistent.not_mentions_of_fresh fresh known
  unfold Copies at copies
  cases run : mergePlan plan ⟨S, A⟩ with
  | ok notices t =>
      have merged : Store.merge plan ⟨S, A⟩ = .ok (notices, t) := by rw [Store.merge, run]
      rw [run] at copies
      cases copies with
      | ok drawn distinct fresh _ _ again =>
          refine ⟨drawn, distinct, fun uid hu => unknown uid (fresh uid hu),
            fun σ source kept starts => ?_⟩
          have copied := again σ ⟨S, source⟩ (copy kept starts)
          rw [merged, Store.merge, copied]
          exact .ok rfl (retired_rename_of_merge consistent merged kept)
  | error e t =>
      have merged : Store.merge plan ⟨S, A⟩ = .error e := by rw [Store.merge, run]
      rw [run] at copies
      cases copies with
      | exhausted root => exact absurd root (supplied e merged)
      | failed drawn distinct fresh again =>
          refine ⟨drawn, distinct, fun uid hu => unknown uid (fresh uid hu),
            fun σ source kept starts => ?_⟩
          obtain ⟨t', failed⟩ := again σ ⟨S, source⟩ (copy kept starts)
          rw [merged, Store.merge, failed]
          exact .error rfl

/-- With which source a plan is merged only matters for the uids that are chosen. Unless one of the
sources is used up, both merges fail with the same error, or both give the same notices and models
that a renaming of the fresh uids takes to each other. -/
theorem source_only_chooses_uids (consistent : S.IsConsistent)
    (given : ∀ e ∈ plan, ∀ p ∈ e.properties, p.id.uid = 0 ∨
      ∃ x ∈ S.entities, ∃ q ∈ x.properties, q.id.uid = p.id.uid)
    (supplied : ∀ e, Store.merge plan ⟨S, A⟩ = .error e → e.root ≠ .uidsExhausted uidAttempts)
    (supplied' : ∀ e, Store.merge plan ⟨S, B⟩ = .error e → e.root ≠ .uidsExhausted uidAttempts) :
    ∃ σ : Equiv.Perm UInt64, S.IsKeptBy σ ∧
      RenamesTo σ (Store.merge plan ⟨S, A⟩) (Store.merge plan ⟨S, B⟩) := by
  have known (e : Entity) (he : e ∈ plan) (p : Property) (hp : p ∈ e.properties) :
      S.Knows p.id.uid := by
    refine (given e he p hp).imp_right ?_
    rintro ⟨x, hx, q, hq, same⟩
    rw [← same]
    exact Model.mentions_of_entity hx
      (Entity.mem_uids.mpr (.inr (.inr (.inl ⟨q, hq, List.mem_cons_self⟩))))
  obtain ⟨us, nodup, unknown, copied⟩ := exists_drawn consistent known supplied
  obtain ⟨vs, nodup', unknown', copied'⟩ := exists_drawn consistent known supplied'
  obtain ⟨σ, kept, line⟩ := exists_perm_prefix nodup nodup' unknown unknown'
  -- both merges have the same copy, with a source that offers what either draws
  obtain ⟨offered, first, second⟩ : ∃ offered, us.map σ <+: offered ∧ vs <+: offered :=
    line.elim (fun line => ⟨vs, line, List.prefix_rfl⟩) fun line => ⟨_, List.prefix_rfl, line⟩
  have starts := UidSource.startsWith_offering offered
  have copy := copied σ _ kept (starts.of_prefix first)
  have copy' := copied' (Equiv.refl UInt64) _ (fun _ _ => rfl)
    (starts.of_prefix (by simpa using second))
  exact ⟨σ, kept, copy.of_common copy'⟩

/-- The entity that is created gets another uid with another seed. -/
theorem source_only_chooses_uids_noteAdded :
    ∃ (plan : List Entity) (notices notices' : List Notice) (s t : Store),
      Plan.ofDrafts [] [.onlyId "Note", .onlyId "TASK"] = .ok plan ∧
      (oneEntity "Task").IsConsistent ∧
      Store.merge plan ⟨oneEntity "Task", .ofSeed 1⟩ = .ok (notices, s) ∧
      Store.merge plan ⟨oneEntity "Task", .ofSeed 2⟩ = .ok (notices', t) ∧
      s.model.entities.map (·.id.uid) = [8985821666682080304, 1] ∧
      t.model.entities.map (·.id.uid) = [2742346756940652303, 1] ∧
      ∃ σ : Equiv.Perm UInt64, (oneEntity "Task").IsKeptBy σ ∧
        RenamesTo σ (.ok (notices, s)) (.ok (notices', t)) := by
  have runs : (do
      let plan ← Plan.ofDrafts [] [.onlyId "Note", .onlyId "TASK"]
      let first ← Store.merge plan ⟨oneEntity "Task", .ofSeed 1⟩
      let second ← Store.merge plan ⟨oneEntity "Task", .ofSeed 2⟩
      return (decide (∀ e ∈ plan, ∀ p ∈ e.properties, p.id.uid = 0),
        first.2.model.entities.map fun e : Entity => e.id.uid,
        second.2.model.entities.map fun e : Entity => e.id.uid)) =
      .ok (true, [8985821666682080304, 1], [2742346756940652303, 1]) := by
    decide +kernel
  simp only [except_bind_eq_ok, Prod.exists, pure, Except.pure, Except.ok.injEq, Prod.mk.injEq,
    decide_eq_true_eq] at runs
  obtain ⟨plan, planned, notices, s, run, notices', t, run', none_given, first, second⟩ := runs
  have stored : (oneEntity "Task").IsConsistent := by decide
  refine ⟨plan, notices, notices', s, t, planned, stored, run, run', first, second, ?_⟩
  rw [← run, ← run']
  exact source_only_chooses_uids stored (fun e he p hp => .inl (none_given e he p hp))
    (by simp [run]) (by simp [run'])

end Seeds

end Merge

end SchemaLedger
