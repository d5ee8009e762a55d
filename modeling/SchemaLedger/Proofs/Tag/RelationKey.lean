import Mathlib.Data.String.Basic
import SchemaLedger.Proofs.Numeral.Digits
import SchemaLedger.Tag.Basic

/-!
# Keys that count

The key of a relation with details holds a number with leading zeros. Different numbers give
different keys. As long as the number has no more digits than its field, the keys are in the order
of the numbers, whatever the names behind them are.
-/

namespace SchemaLedger

namespace Numeral

variable {a b s t : List Char} {n n' : Nat} {c d : Char}

/-- The digits have this value. -/
def valueOf (digits : List Char) : Nat := Nat.ofDigitChars 10 digits 0

theorem valueOf_cons : valueOf (c :: s) = 10 ^ s.length * (c.toNat - '0'.toNat) + valueOf s := by
  rw [valueOf, Nat.ofDigitChars_cons, Nat.ofDigitChars_eq_ofDigitChars_zero, Nat.mul_zero,
    Nat.zero_add, valueOf]

theorem digit_lt_ten (h : c.isDigit) : c.toNat - '0'.toNat < 10 := by
  have bounds : 48 ≤ c.toNat ∧ c.toNat ≤ 57 := Char.isDigit_iff_toNat.mp h
  have zero : '0'.toNat = 48 := rfl
  omega

theorem valueOf_lt (digits : ∀ c ∈ s, c.isDigit) : valueOf s < 10 ^ s.length := by
  induction s with
  | nil => decide
  | cons c s ih =>
      obtain ⟨first, digits⟩ := List.forall_mem_cons.mp digits
      have rest := ih digits
      have small := Nat.mul_le_mul_left (10 ^ s.length) (Nat.le_of_lt_succ (digit_lt_ten first))
      rw [valueOf_cons, List.length_cons, Nat.pow_succ]
      omega

/-- Numbers with as many digits are ordered as the texts that start with their digits. -/
theorem append_lt_append_of_valueOf_lt (left : ∀ c ∈ a, c.isDigit) (right : ∀ c ∈ b, c.isDigit)
    (same : a.length = b.length) (less : valueOf a < valueOf b) : a ++ s < b ++ t := by
  induction a generalizing b with
  | nil =>
      obtain rfl := List.length_eq_zero_iff.mp same.symm
      exact absurd less (Nat.lt_irrefl _)
  | cons c a ih =>
      obtain ⟨d, b, rfl⟩ := List.exists_cons_of_length_eq_add_one same.symm
      obtain ⟨first, others⟩ := List.forall_mem_cons.mp left
      obtain ⟨first', others'⟩ := List.forall_mem_cons.mp right
      have lengths : a.length = b.length := Nat.succ.inj same
      rw [valueOf_cons, valueOf_cons, lengths] at less
      rw [List.cons_append, List.cons_append, List.cons_lt_cons_iff]
      have bound := valueOf_lt others'
      have lower : 48 ≤ c.toNat ∧ c.toNat ≤ 57 := Char.isDigit_iff_toNat.mp first
      have lower' : 48 ≤ d.toNat ∧ d.toNat ≤ 57 := Char.isDigit_iff_toNat.mp first'
      have zero : '0'.toNat = 48 := rfl
      rcases Nat.lt_trichotomy c.toNat d.toNat with before | equal | behind
      · exact .inl before
      · obtain rfl := Char.toNat_inj.mp equal
        exact .inr ⟨rfl, ih others others' lengths (by omega)⟩
      · -- a greater first digit outweighs all the digits behind the other one
        have more : d.toNat - '0'.toNat + 1 ≤ c.toNat - '0'.toNat := by omega
        have := Nat.mul_le_mul_left (10 ^ b.length) more
        rw [Nat.mul_add] at this
        omega

/-- Decimal digits, with leading zeros if there are fewer than ten. -/
def paddedDigits (n : Nat) : List Char :=
  List.replicate (10 - (Nat.toDigits 10 n).length) '0' ++ Nat.toDigits 10 n

theorem isDigit_of_mem_paddedDigits (h : c ∈ paddedDigits n) : c.isDigit := by
  rcases List.mem_append.mp h with h | h
  · obtain rfl := (List.mem_replicate.mp h).2
    decide
  · exact isDigit_of_mem h

theorem valueOf_paddedDigits (n : Nat) : valueOf (paddedDigits n) = n := by
  have zeros (k : Nat) : valueOf (List.replicate k '0' ++ Nat.toDigits 10 n) = n := by
    induction k with
    | zero => exact Nat.ofDigitChars_ten_toDigits
    | succ k ih => rw [List.replicate_succ, List.cons_append, valueOf_cons, ih]; simp
  exact zeros _

theorem length_paddedDigits (h : n < 10 ^ 10) : (paddedDigits n).length = 10 := by
  have := (Nat.length_toDigits_le_iff (by decide : 1 < 10) (by decide : 0 < 10)).mpr h
  rw [paddedDigits, List.length_append, List.length_replicate]
  omega

end Numeral

namespace Annotations

open Numeral

variable {count count' : Nat} {name name' : String}

theorem toList_relationKey (count : Nat) (name : String) :
    (relationKey count name).toList =
      relationKeyStart ++ (paddedDigits count ++ '-' :: name.toList) := by
  simp only [relationKey, String.toList_ofList, paddedDigits, List.append_assoc]

theorem isRelationKey_relationKey (count : Nat) (name : String) :
    IsRelationKey (relationKey count name) := by
  simp [IsRelationKey, toList_relationKey]

/-- The key determines the number in it. -/
theorem relationKey_inj (h : relationKey count name = relationKey count' name') :
    count = count' := by
  have texts := congrArg String.toList h
  rw [toList_relationKey, toList_relationKey, List.append_cancel_left_eq] at texts
  have digits (n : Nat) (rest : List Char) :
      (paddedDigits n ++ '-' :: rest).takeWhile Char.isDigit = paddedDigits n := by
    rw [List.takeWhile_append_of_pos fun c hc => isDigit_of_mem_paddedDigits hc]
    simp
  rw [← valueOf_paddedDigits count, ← digits count, texts, digits, valueOf_paddedDigits]

/-- The keys are in the order of the numbers in them. -/
theorem relationKey_lt (less : count < count') (fits : count' < 10 ^ 10) :
    relationKey count name < relationKey count' name' := by
  rw [String.lt_iff_toList_lt, toList_relationKey, toList_relationKey]
  refine List.append_left_lt (append_lt_append_of_valueOf_lt
    (fun c hc => isDigit_of_mem_paddedDigits hc) (fun c hc => isDigit_of_mem_paddedDigits hc) ?_ ?_)
  · rw [length_paddedDigits (less.trans fits), length_paddedDigits fits]
  · rwa [valueOf_paddedDigits, valueOf_paddedDigits]

end Annotations

end SchemaLedger
