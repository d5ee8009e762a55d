import SchemaLedger.Proofs.Error.Chains
import SchemaLedger.Proofs.Numeral.Grammar

/-!
# Which texts are identifier pairs

A text is read as a pair if and only if it is two numbers in decimal digits with a colon between
them. What is written for a pair reads back, so different pairs are written differently, and a pair
that may be unset reads back unless it is set to zeros.
-/

namespace SchemaLedger.IdPair

open Numeral Text

-- powers of naturals are those of the core library, whatever instances are in scope
attribute [local instance (high)] instPowNat

variable {s : List Char} {p : IdPair} {m n : Nat}

/-- The text is two numbers in decimal digits with a colon between them. -/
def Spells (s : List Char) (m n : Nat) : Prop :=
  ∃ id uid, s = id ++ ':' :: uid ∧ IsDecimal id m ∧ IsDecimal uid n

theorem not_mem_of_isDecimal (h : IsDecimal s n) : ':' ∉ s := by
  obtain ⟨digits, spelled, -, areDigits, -⟩ := h
  have no_digit : ':' ∉ digits := by
    intro there
    exact absurd (areDigits ':' there) (by decide)
  obtain rfl | rfl := spelled
  · exact no_digit
  · simpa using no_digit

/-- A text has one field if there is no separator in it. -/
theorem fields_eq_singleton_iff {separator : Char} {a : List Char} :
    fields separator s = [a] ↔ s = a ∧ separator ∉ s := by
  constructor
  · intro cut
    have none_there : separator ∉ s := by
      have count := length_fields separator s
      rw [cut, List.length_singleton] at count
      exact List.count_eq_zero.mp (by omega)
    rw [fields_of_notMem none_there] at cut
    exact ⟨(List.cons.inj cut).1, none_there⟩
  · rintro ⟨rfl, none_there⟩
    exact fields_of_notMem none_there

/-- A text has two fields if there is one separator in it. -/
theorem fields_eq_pair_iff {separator : Char} {a b : List Char} :
    fields separator s = [a, b] ↔ s = a ++ separator :: b ∧ separator ∉ a ∧ separator ∉ b := by
  constructor
  · intro cut
    have there : separator ∈ s := by
      apply Decidable.byContradiction
      intro none_there
      rw [fields_of_notMem none_there] at cut
      cases (List.cons.inj cut).2
    obtain ⟨front, back, rfl, first⟩ := List.eq_append_cons_of_mem there
    rw [fields_append_cons first] at cut
    obtain ⟨rfl, rest⟩ := List.cons.inj cut
    obtain ⟨rfl, none_left⟩ := fields_eq_singleton_iff.mp rest
    exact ⟨rfl, first, none_left⟩
  · rintro ⟨rfl, first, second⟩
    rw [fields_append_cons first, fields_of_notMem second]

theorem readPart_eq_ok {α : Type} {read : List Char → Except UnsignedError α} {x : α} :
    readPart read s = .ok x ↔ read s = .ok x := by
  unfold readPart
  cases read s <;> simp

/-- A text is read as a pair if and only if it spells it. -/
theorem readLax_eq_ok_iff : readLax s = .ok p ↔ Spells s p.id.toNat p.uid.toNat := by
  constructor
  · intro read
    rw [readLax] at read
    split at read
    · cases read
    · split at read
      · next id uid cut =>
          simp only [except_bind_eq_ok, except_pure_eq_ok, readPart_eq_ok] at read
          obtain ⟨i, id_read, u, uid_read, rfl⟩ := read
          obtain ⟨rfl, -, -⟩ := fields_eq_pair_iff.mp cut
          exact ⟨id, uid, rfl, readUInt32_eq_ok_iff.mp id_read, readUInt64_eq_ok_iff.mp uid_read⟩
      · cases read
  · rintro ⟨id, uid, rfl, id_spelled, uid_spelled⟩
    have cut : fields ':' (id ++ ':' :: uid) = [id, uid] :=
      fields_eq_pair_iff.mpr
        ⟨rfl, not_mem_of_isDecimal id_spelled, not_mem_of_isDecimal uid_spelled⟩
    rw [readLax, if_neg (by simp), cut]
    simp only [except_bind_eq_ok, except_pure_eq_ok, readPart_eq_ok]
    exact ⟨p.id, readUInt32_eq_ok_iff.mpr id_spelled, p.uid, readUInt64_eq_ok_iff.mpr uid_spelled,
      rfl⟩

/-- A text is read as an assigned pair if it is read as a pair without zeros. -/
theorem read_eq_ok_iff : read s = .ok p ↔ readLax s = .ok p ∧ p.id ≠ 0 ∧ p.uid ≠ 0 := by
  simp only [read, except_bind_eq_ok, ← fault?_eq_none_iff]
  constructor
  · rintro ⟨q, lax, strict⟩
    split at strict
    · cases strict
    · next faultless =>
        obtain rfl := Except.ok.inj strict
        exact ⟨lax, faultless⟩
  · rintro ⟨lax, faultless⟩
    refine ⟨p, lax, ?_⟩
    rw [faultless]
    rfl

/-- Some pair is read if and only if two numbers are spelled that fit. -/
theorem exists_readLax_eq_ok_iff :
    (∃ p, readLax s = .ok p) ↔ ∃ m n, m < 2 ^ (32 : Nat) ∧ n < 2 ^ (64 : Nat) ∧ Spells s m n := by
  simp only [readLax_eq_ok_iff]
  constructor
  · rintro ⟨p, spelled⟩
    exact ⟨_, _, p.id.toNat_lt_size, p.uid.toNat_lt_size, spelled⟩
  · rintro ⟨m, n, id_fits, uid_fits, spelled⟩
    refine ⟨⟨m.toUInt32, n.toUInt64⟩, ?_⟩
    rwa [show m.toUInt32.toNat = m from UInt32.toNat_ofNat_of_lt' id_fits,
      show n.toUInt64.toNat = n from UInt64.toNat_ofNat_of_lt' uid_fits]

theorem readLax_text (p : IdPair) : readLax p.text.toList = .ok p := by
  rw [text, String.toList_ofList, readLax_chars]

/-- Different pairs are written differently. -/
theorem text_injective : Function.Injective text := by
  intro p q same
  have read := readLax_text p
  rw [same, readLax_text q] at read
  exact (Except.ok.inj read).symm

/-- A text is read as a pair if and only if it is two unsigned decimal numbers of 32 and 64 bits with
a colon between them, and strictly read if moreover neither is zero. The written form of a pair reads
back as this pair and as no other, and the written form of a pair that may be unset reads back unless
it is set to zeros. -/
theorem grammar_and_roundTrip :
    (∀ text : String,
      ((∃ p, readLax text.toList = .ok p) ↔
        ∃ m n, m < 2 ^ (32 : Nat) ∧ n < 2 ^ (64 : Nat) ∧ Spells text.toList m n) ∧
      ∀ p, (readLax text.toList = .ok p ↔ Spells text.toList p.id.toNat p.uid.toNat) ∧
        (read text.toList = .ok p ↔ readLax text.toList = .ok p ∧ p.id ≠ 0 ∧ p.uid ≠ 0)) ∧
    (∀ p : IdPair, readLax p.text.toList = .ok p) ∧ Function.Injective text ∧
    ∀ p : Option IdPair, p ≠ some ⟨0, 0⟩ → readOptional (optionalText p).toList = .ok p := by
  refine ⟨fun text => ⟨exists_readLax_eq_ok_iff, fun p => ⟨readLax_eq_ok_iff, read_eq_ok_iff⟩⟩,
    readLax_text, text_injective, fun p assigned => ?_⟩
  apply readOptional_optionalText
  rintro q rfl ⟨id_zero, uid_zero⟩
  apply assigned
  rw [← id_zero, ← uid_zero]

/-- A signed id with leading zeros, and the largest uid. -/
theorem grammar_and_roundTrip_largest :
    readLax "+007:18446744073709551615".toList = .ok ⟨7, 18446744073709551615⟩ ∧
      (some ⟨7, 18446744073709551615⟩ : Option IdPair) ≠ some ⟨0, 0⟩ ∧
      readOptional (optionalText (some ⟨7, 18446744073709551615⟩)).toList =
        .ok (some ⟨7, 18446744073709551615⟩) := by
  obtain ⟨grammar, -, -, optional⟩ := grammar_and_roundTrip
  refine ⟨((grammar _).2 ⟨7, 18446744073709551615⟩).1.mpr ?_, by decide, optional _ (by decide)⟩
  have signed : Numeral.IsDecimal "+007".toList 7 :=
    ⟨"007".toList, .inr rfl, by decide, List.all_eq_true.mp (by decide), by decide⟩
  have largest : Numeral.IsDecimal "18446744073709551615".toList 18446744073709551615 :=
    ⟨_, .inl rfl, by decide, List.all_eq_true.mp (by decide), by decide⟩
  exact ⟨_, _, rfl, signed, largest⟩

end SchemaLedger.IdPair
