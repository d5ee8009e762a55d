import SchemaLedger.Error.Basic

/-!
# Checks

A check gives nothing or an error. Checks are put together in the order in which their errors are
reported, and a chain of checks passes exactly if each of them does.
-/

namespace SchemaLedger

/-- A check that passes or fails with an error. -/
abbrev Check := Except ModelError Unit

namespace Check

variable {α : Type}

/-- Passes if the condition holds. -/
def require (p : Prop) [Decidable p] (e : ModelError) : Check :=
  if p then .ok () else .error e

/-- Checks every element, in order. -/
def all (check : α → Check) : List α → Check
  | [] => .ok ()
  | x :: rest => do
    check x
    all check rest

/-- Checks every element against the list of the elements before it. -/
def eachAfter (check : List α → α → Check) (before : List α) : List α → Check
  | [] => .ok ()
  | x :: rest => do
    check before x
    eachAfter check (before ++ [x]) rest

@[simp] theorem require_eq_ok {p : Prop} [Decidable p] {e : ModelError} {u : Unit} :
    require p e = .ok u ↔ p := by
  unfold require
  split <;> simp_all

/-- A chain of two checks passes if both do. -/
theorem bind_eq_ok {a b : Check} : (a >>= fun _ => b) = .ok () ↔ a = .ok () ∧ b = .ok () := by
  cases a with
  | ok u => simp [bind, Except.bind]
  | error e => simp [bind, Except.bind]

theorem all_eq_ok {check : α → Check} {xs : List α} :
    all check xs = .ok () ↔ ∀ x ∈ xs, check x = .ok () := by
  induction xs with
  | nil => simp [all]
  | cons x rest ih => simp [all, bind_eq_ok, ih]

/-- Every element passes against the elements before it. -/
theorem eachAfter_eq_ok {check : List α → α → Check} {before xs : List α} :
    eachAfter check before xs = .ok () ↔
      ∀ front x rest, xs = front ++ x :: rest → check (before ++ front) x = .ok () := by
  induction xs generalizing before with
  | nil => simp [eachAfter]
  | cons x rest ih =>
    rw [eachAfter, bind_eq_ok, ih]
    constructor
    · rintro ⟨hx, hrest⟩ front y back h
      cases front with
      | nil =>
        obtain ⟨rfl, rfl⟩ := List.cons.inj h
        simpa using hx
      | cons z front =>
        obtain ⟨rfl, rfl⟩ := List.cons.inj h
        simpa using hrest front y back rfl
    · intro h
      exact ⟨by simpa using h [] x rest rfl, fun front y back hy => by
        simpa using h (x :: front) y back (by simp [hy])⟩

end Check

/-- Fails if the pair is not assigned. -/
def IdPair.check (p : IdPair) : Check :=
  match p.fault? with
  | some fault => .error (.malformedId p.text fault)
  | none => .ok ()

/-- Fails if the pair in the given field is not assigned. -/
def IdPair.checkField (field : String) (p : IdPair) : Check :=
  match p.fault? with
  | some fault => .error (.invalidModel (.badPair field ⟨p, fault⟩))
  | none => .ok ()

theorem IdPair.check_eq_ok {p : IdPair} : p.check = .ok () ↔ p.id ≠ 0 ∧ p.uid ≠ 0 := by
  rw [← fault?_eq_none_iff]
  unfold check
  split <;> simp_all

theorem IdPair.checkField_eq_ok {field : String} {p : IdPair} :
    p.checkField field = .ok () ↔ p.id ≠ 0 ∧ p.uid ≠ 0 := by
  rw [← fault?_eq_none_iff]
  unfold checkField
  split <;> simp_all

end SchemaLedger
