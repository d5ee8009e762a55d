import Mathlib.Data.List.Forall2
import Mathlib.Data.List.Pairwise
import SchemaLedger.Error.Check

/-!
# Chains of results

A chain of computations that may fail gives a result if each of them does. Checks of a list against
the elements before them relate these elements pairwise.
-/

namespace SchemaLedger

/-- Two computations in a row succeed if the first does and the second does with its result. -/
theorem except_bind_eq_ok {ε α β : Type} {x : Except ε α} {f : α → Except ε β} {b : β} :
    (x >>= f) = .ok b ↔ ∃ a, x = .ok a ∧ f a = .ok b := by
  cases x with
  | ok a => simp [bind, Except.bind]
  | error e => simp [bind, Except.bind]

/-- Two computations in a row fail if the first does, or the second does with its result. -/
theorem except_bind_eq_error {ε α β : Type} {x : Except ε α} {f : α → Except ε β} {e : ε} :
    (x >>= f) = .error e ↔ x = .error e ∨ ∃ a, x = .ok a ∧ f a = .error e := by
  cases x with
  | ok a => simp [bind, Except.bind]
  | error e => simp [bind, Except.bind]

@[simp] theorem except_pure_ne_error {ε α : Type} {a : α} {e : ε} :
    (pure a : Except ε α) = .error e ↔ False := by
  simp [pure, Except.pure]

@[simp] theorem except_pure_eq_ok {ε α : Type} {a b : α} :
    (pure a : Except ε α) = .ok b ↔ a = b := by
  simp [pure, Except.pure]

/-- What a computation gives for a list, it gives for its elements, in order. -/
theorem forall₂_of_mapM {ε α β : Type} {f : α → Except ε β} {xs : List α} {ys : List β}
    (h : xs.mapM f = .ok ys) : List.Forall₂ (fun x y => f x = .ok y) xs ys := by
  induction xs generalizing ys with
  | nil =>
      obtain rfl : [] = ys := by simpa using h
      exact .nil
  | cons x xs ih =>
      simp only [List.mapM_cons, except_bind_eq_ok, except_pure_eq_ok] at h
      obtain ⟨y, first, ys, rest, rfl⟩ := h
      exact .cons first (ih rest)

/-- In related lists, an element of the second stands for one of the first. -/
theorem exists_of_forall₂ {α β : Type} {R : α → β → Prop} {as : List α} {bs : List β}
    (h : List.Forall₂ R as bs) {b : β} (hb : b ∈ bs) : ∃ a ∈ as, R a b := by
  induction h with
  | nil => simp at hb
  | cons first _ ih =>
      rcases List.mem_cons.mp hb with rfl | hb
      · exact ⟨_, List.mem_cons_self, first⟩
      · obtain ⟨a, ha, related⟩ := ih hb
        exact ⟨a, List.mem_cons_of_mem _ ha, related⟩

namespace Check

variable {α β : Type} {check : List α → α → Check} {before xs : List α}

theorem require_congr {p q : Prop} [Decidable p] [Decidable q] (same : p ↔ q) (e : ModelError) :
    require p e = require q e := by
  unfold require
  simp only [same]

theorem all_map (check : α → Check) (f : β → α) (xs : List β) :
    all check (xs.map f) = all (fun x => check (f x)) xs := by
  induction xs with
  | nil => rfl
  | cons x xs ih => simp only [List.map_cons, all, ih]

/-- Elements of which only a part is looked at can be checked by this part. -/
theorem eachAfter_map {check' : List β → β → Check} {f : β → α}
    (same : ∀ before x, check (before.map f) (f x) = check' before x) (before xs : List β) :
    eachAfter check (before.map f) (xs.map f) = eachAfter check' before xs := by
  induction xs generalizing before with
  | nil => rfl
  | cons x xs ih =>
      have next := ih (before ++ [x])
      rw [List.map_append, List.map_singleton] at next
      rw [List.map_cons, eachAfter, eachAfter, same, next]

/-- If an element passes only if it stands in a relation to those before it, the elements stand in
this relation pairwise. -/
theorem pairwise_of_eachAfter {R : α → α → Prop} (h : eachAfter check before xs = .ok ())
    (related : ∀ before, ∀ x ∈ xs, check before x = .ok () → ∀ y ∈ before, R y x) :
    xs.Pairwise R := by
  induction xs generalizing before with
  | nil => exact .nil
  | cons x xs ih =>
      have rest := h
      rw [eachAfter, bind_eq_ok] at rest
      have later : xs.Pairwise R := by
        apply ih rest.2
        intro before y hy
        exact related before y (List.mem_cons_of_mem _ hy)
      refine .cons ?_ later
      intro y hy
      obtain ⟨front, back, rfl⟩ := List.append_of_mem hy
      exact related _ y (by simp) (eachAfter_eq_ok.mp h (x :: front) y back rfl) x (by simp)

/-- If the elements stand in a relation pairwise and this is all that an element needs to pass, then
all of them pass. -/
theorem eachAfter_of_pairwise {R : α → α → Prop} (pairwise : xs.Pairwise R)
    (passes : ∀ before, ∀ x ∈ xs, (∀ y ∈ before, R y x) → check before x = .ok ()) :
    eachAfter check [] xs = .ok () := by
  refine eachAfter_eq_ok.mpr fun front x rest split => ?_
  subst split
  refine passes _ x (by simp) fun y hy => ?_
  rw [List.nil_append] at hy
  exact (List.pairwise_append.mp pairwise).2.2 y hy x List.mem_cons_self

/-- Every element passes, whatever stands before it. -/
theorem forall_of_eachAfter (h : eachAfter check before xs = .ok ()) :
    ∀ x ∈ xs, ∃ before, check before x = .ok () := by
  intro x hx
  obtain ⟨front, back, rfl⟩ := List.append_of_mem hx
  exact ⟨_, eachAfter_eq_ok.mp h front x back rfl⟩

theorem require_eq_error {p : Prop} [Decidable p] {e cause : ModelError} :
    require p e = .error cause ↔ ¬ p ∧ e = cause := by
  unfold require
  split <;> simp_all

/-- If a list fails, one of its elements does. -/
theorem exists_of_all_eq_error {check : α → Check} {e : ModelError} (h : all check xs = .error e) :
    ∃ x ∈ xs, check x = .error e := by
  induction xs with
  | nil => cases h
  | cons x xs ih =>
      obtain failed | ⟨_, -, failed⟩ := except_bind_eq_error.mp h
      · exact ⟨x, List.mem_cons_self, failed⟩
      · obtain ⟨y, hy, failed⟩ := ih failed
        exact ⟨y, List.mem_cons_of_mem _ hy, failed⟩

/-- If a list fails, one of its elements does after some others. -/
theorem exists_of_eachAfter_eq_error {e : ModelError} (h : eachAfter check before xs = .error e) :
    ∃ before, ∃ x ∈ xs, check before x = .error e := by
  induction xs generalizing before with
  | nil => cases h
  | cons x xs ih =>
      obtain failed | ⟨_, -, failed⟩ := except_bind_eq_error.mp h
      · exact ⟨before, x, List.mem_cons_self, failed⟩
      · obtain ⟨front, y, hy, failed⟩ := ih failed
        exact ⟨front, y, List.mem_cons_of_mem _ hy, failed⟩

end Check

end SchemaLedger
