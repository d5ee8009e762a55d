import SchemaLedger.Ident.Pair

/-!
# Reading digits back

The decimal digits of a number read back as the number, provided that it fits. Identifier pairs are
two such numbers with a colon between them, so they read back too.
-/

namespace SchemaLedger

namespace Numeral

/-- Further digits never make a number smaller. -/
theorem le_ofDigitChars (ds : List Char) (value : Nat) : value ≤ Nat.ofDigitChars 10 ds value := by
  rw [Nat.ofDigitChars_eq_ofDigitChars_zero]
  have := Nat.le_mul_of_pos_left value (Nat.pow_pos (n := ds.length) (by decide : 0 < 10))
  omega

theorem isDigit_of_mem {n : Nat} {c : Char} (h : c ∈ Nat.toDigits 10 n) : c.isDigit :=
  Nat.isDigit_of_mem_toDigits (by decide) (by decide) h

theorem toDigits_eq_cons (n : Nat) : ∃ c ds, Nat.toDigits 10 n = c :: ds ∧ c.isDigit := by
  cases written : Nat.toDigits 10 n with
  | nil => exact absurd written Nat.toDigits_ne_nil
  | cons c ds => exact ⟨c, ds, rfl, isDigit_of_mem (written ▸ List.mem_cons_self)⟩

/-- Only zero starts with a zero. -/
theorem eq_zero_of_toDigits {n : Nat} {rest : List Char} (h : Nat.toDigits 10 n = '0' :: rest) :
    n = 0 := by
  induction n using Nat.strongRecOn generalizing rest with
  | ind n ih =>
      rw [Nat.toDigits_eq_if (by decide)] at h
      split at h
      · next small =>
          have zero : Nat.digitChar n = '0' := (List.cons.inj h).1
          have value := Nat.toNat_digitChar_sub_48_of_lt_ten small
          rw [zero] at value
          exact value.symm
      · next large =>
          obtain ⟨c, front, written, -⟩ := toDigits_eq_cons (n / 10)
          rw [written] at h
          obtain rfl := (List.cons.inj h).1
          have := ih (n / 10) (by omega) written
          omega

theorem readDigits_eq_ok {bound value : Nat} {ds : List Char} (digits : ∀ c ∈ ds, c.isDigit)
    (fits : Nat.ofDigitChars 10 ds value < bound) :
    readDigits bound value ds = .ok (Nat.ofDigitChars 10 ds value) := by
  induction ds generalizing value with
  | nil => rfl
  | cons c ds ih =>
      have isDigit := digits c List.mem_cons_self
      rw [Nat.ofDigitChars_cons] at fits ⊢
      have small := Nat.lt_of_le_of_lt (le_ofDigitChars ds _) fits
      rw [readDigits, digit?, if_pos isDigit]
      simp only [if_pos small]
      exact ih (fun d hd => digits d (List.mem_cons_of_mem _ hd)) fits

/-- The digits of a number read back. -/
theorem readBelow_toDigits {bound n : Nat} (fits : n < bound) :
    readBelow bound (Nat.toDigits 10 n) = .ok n := by
  have digits : ∀ c ∈ Nat.toDigits 10 n, c.isDigit := fun c hc => isDigit_of_mem hc
  have value : Nat.ofDigitChars 10 (Nat.toDigits 10 n) 0 = n := Nat.ofDigitChars_ten_toDigits
  have run : readDigits bound 0 (Nat.toDigits 10 n) = .ok n := by
    rw [readDigits_eq_ok digits (lt_of_eq_of_lt value fits), value]
  obtain ⟨c, rest, written, isDigit⟩ := toDigits_eq_cons n
  rw [written] at run ⊢
  have unsigned : c ≠ '+' := by
    rintro rfl
    exact absurd isDigit (by decide)
  rw [readBelow]
  · exact run
  · exact List.cons_ne_nil _ _
  · intro same
    exact unsigned (List.cons.inj same).1
  · intro _ same
    exact unsigned (List.cons.inj same).1

theorem readUInt32_toDigits (n : UInt32) : readUInt32 (Nat.toDigits 10 n.toNat) = .ok n := by
  rw [readUInt32, readBelow_toDigits n.toNat_lt_size]
  simp [Except.map]

theorem readUInt64_toDigits (n : UInt64) : readUInt64 (Nat.toDigits 10 n.toNat) = .ok n := by
  rw [readUInt64, readBelow_toDigits n.toNat_lt_size]
  simp [Except.map]

end Numeral

namespace IdPair

open Numeral Text

/-- The written form of a pair reads back. -/
theorem readLax_chars (p : IdPair) : readLax p.chars = .ok p := by
  have no_colon (n : Nat) : ':' ∉ Nat.toDigits 10 n := by
    intro h
    exact absurd (isDigit_of_mem h) (by decide)
  have parts : fields ':' p.chars =
      [Nat.toDigits 10 p.id.toNat, Nat.toDigits 10 p.uid.toNat] := by
    rw [chars, fields_append_cons (no_colon _), fields_of_notMem (no_colon _)]
  rw [readLax, if_neg (by simp [chars]), parts]
  simp [readPart, readUInt32_toDigits, readUInt64_toDigits, bind, Except.bind, pure, Except.pure]

/-- A pair that may be unset reads back, unless it is set to zeros. -/
theorem readOptional_optionalText {p : Option IdPair}
    (assigned : ∀ q, p = some q → ¬ q.IsUnassigned) :
    readOptional (optionalText p).toList = .ok p := by
  cases p with
  | none => rfl
  | some p =>
      rw [optionalText, text, String.toList_ofList, readOptional, if_neg (by simp [chars]),
        readLax_chars]
      simp [assigned p rfl]

end IdPair

end SchemaLedger
