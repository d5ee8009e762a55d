import SchemaLedger.Model.Flags
import Mathlib.Data.List.Nodup

/-!
# Single flags

Most flags are one bit. Whether such a flag is set can be read off from how a set of flags was put
together.
-/

namespace SchemaLedger.Flags

variable {a b flag : Flags}

/-- The flag is one bit. -/
def IsSingle (flag : Flags) : Prop :=
  ∃ k ∈ List.range 32, flag.bits.toBitVec = BitVec.twoPow 32 k

instance (flag : Flags) : Decidable flag.IsSingle :=
  inferInstanceAs (Decidable (∃ k ∈ List.range 32, _))

/-- A flag of one bit is set if that bit is. -/
theorem contains_iff_getLsbD {k : Nat} (small : k < 32)
    (bit : flag.bits.toBitVec = BitVec.twoPow 32 k) :
    a.Contains flag ↔ a.bits.toBitVec.getLsbD k = true := by
  rw [Contains, ← UInt32.toBitVec_inj, UInt32.toBitVec_and, bit, BitVec.and_twoPow]
  split
  · next set => simp [set]
  · next unset =>
      have zero : 0#32 ≠ BitVec.twoPow 32 k := by
        intro same
        have := congrArg (BitVec.getLsbD · k) same
        simp [small] at this
      simp [unset, zero]

theorem contains_union_iff (single : flag.IsSingle) :
    (a ∪ b).Contains flag ↔ a.Contains flag ∨ b.Contains flag := by
  obtain ⟨k, small, bit⟩ := single
  have small := List.mem_range.mp small
  simp only [contains_iff_getLsbD small bit]
  change (a.bits ||| b.bits).toBitVec.getLsbD k = true ↔ _
  simp

theorem contains_without_iff (single : flag.IsSingle) :
    (a.without b).Contains flag ↔ a.Contains flag ∧ ¬ b.Contains flag := by
  obtain ⟨k, small, bit⟩ := single
  have small := List.mem_range.mp small
  simp only [contains_iff_getLsbD small bit]
  change (a.bits &&& ~~~b.bits).toBitVec.getLsbD k = true ↔ _
  simp [small]

/-- A flag of one bit contains no other one. -/
theorem eq_of_contains (single : a.IsSingle) (single' : b.IsSingle) (contains : a.Contains b) :
    a = b := by
  obtain ⟨j, -, bit⟩ := single
  obtain ⟨k, small, bit'⟩ := single'
  have set := (contains_iff_getLsbD (List.mem_range.mp small) bit').mp contains
  rw [bit, BitVec.getLsbD_twoPow, Bool.and_eq_true, decide_eq_true_eq, decide_eq_true_eq] at set
  have same : a.bits = b.bits := UInt32.toBitVec_inj.mp (by rw [bit, bit', set.2])
  cases a
  cases b
  exact congrArg Flags.mk same

end SchemaLedger.Flags
