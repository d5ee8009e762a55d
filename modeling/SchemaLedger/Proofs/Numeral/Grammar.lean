import SchemaLedger.Proofs.Numeral.Digits

/-!
# Which texts are unsigned numbers

A text is read as an unsigned number if and only if it is one or more ASCII digits, with at most a
plus sign in front, and the number that they mean fits. Leading zeros change nothing.
-/

namespace SchemaLedger.Numeral

variable {bound value n : Nat} {s ds : List Char}

/-- The text is the number in decimal digits. -/
def IsDecimal (s : List Char) (n : Nat) : Prop :=
  ∃ digits, (s = digits ∨ s = '+' :: digits) ∧ digits ≠ [] ∧ (∀ c ∈ digits, c.isDigit) ∧
    Nat.ofDigitChars 10 digits 0 = n

theorem not_isDigit_plus : ¬ ('+').isDigit := by decide

/-- Digits are read if and only if they are digits and their number fits. -/
theorem readDigits_eq_ok_iff (fits : value < bound) :
    readDigits bound value ds = .ok n ↔
      (∀ c ∈ ds, c.isDigit) ∧ Nat.ofDigitChars 10 ds value = n ∧ n < bound := by
  constructor
  · intro read
    induction ds generalizing value with
    | nil =>
        obtain rfl := Except.ok.inj read
        exact ⟨nofun, Nat.ofDigitChars_nil, fits⟩
    | cons c ds ih =>
        rw [readDigits, digit?] at read
        by_cases isDigit : c.isDigit
        · rw [if_pos isDigit] at read
          simp only at read
          split at read
          · next small =>
              obtain ⟨others, same, below⟩ := ih small read
              refine ⟨List.forall_mem_cons.mpr ⟨isDigit, others⟩, ?_, below⟩
              rw [Nat.ofDigitChars_cons, same]
          · cases read
        · rw [if_neg isDigit] at read
          cases read
  · rintro ⟨digits, rfl, below⟩
    exact readDigits_eq_ok digits below

/-- A plus sign in front of digits is passed over. -/
theorem readBelow_plus (some_left : ds ≠ []) :
    readBelow bound ('+' :: ds) = readDigits bound 0 ds := by
  rw [readBelow]
  exact some_left

/-- Without a sign, the digits start at once. -/
theorem readBelow_of_unsigned {c : Char} (unsigned : c ≠ '+') :
    readBelow bound (c :: ds) = readDigits bound 0 (c :: ds) := by
  rw [readBelow]
  · exact List.cons_ne_nil _ _
  · intro same
    exact unsigned (List.cons.inj same).1
  · intro _ same
    exact unsigned (List.cons.inj same).1

/-- A text is read as a number below the bound if and only if it is that number in decimal
digits. -/
theorem readBelow_eq_ok_iff (positive : 0 < bound) :
    readBelow bound s = .ok n ↔ IsDecimal s n ∧ n < bound := by
  constructor
  · intro read
    cases s with
    | nil => cases read
    | cons c ds =>
        by_cases signed : c = '+'
        · subst signed
          cases ds with
          | nil => cases read
          | cons d ds =>
              rw [readBelow_plus (List.cons_ne_nil d ds), readDigits_eq_ok_iff positive] at read
              obtain ⟨digits, same, below⟩ := read
              exact ⟨⟨d :: ds, .inr rfl, List.cons_ne_nil d ds, digits, same⟩, below⟩
        · rw [readBelow_of_unsigned signed, readDigits_eq_ok_iff positive] at read
          obtain ⟨digits, same, below⟩ := read
          exact ⟨⟨c :: ds, .inl rfl, List.cons_ne_nil c ds, digits, same⟩, below⟩
  · rintro ⟨⟨digits, spelled, some_left, areDigits, same⟩, below⟩
    have read := (readDigits_eq_ok_iff positive).mpr ⟨areDigits, same, below⟩
    obtain rfl | rfl := spelled
    · cases s with
      | nil => exact absurd rfl some_left
      | cons c ds =>
          have unsigned : c ≠ '+' := by
            rintro rfl
            exact not_isDigit_plus (areDigits '+' List.mem_cons_self)
          rw [readBelow_of_unsigned unsigned, read]
    · rw [readBelow_plus some_left, read]

/-- What holds of numbers below the bound holds of machine words that stand for them. -/
theorem map_readBelow_eq_ok_iff {α : Type} {ofNat : Nat → α} {toNat : α → Nat} {x : α}
    (small : ∀ x, toNat x < bound) (left : ∀ x, ofNat (toNat x) = x)
    (right : ∀ m, m < bound → toNat (ofNat m) = m) :
    (readBelow bound s).map ofNat = .ok x ↔ IsDecimal s (toNat x) := by
  have positive : 0 < bound := Nat.zero_lt_of_lt (small x)
  constructor
  · intro read
    cases below : readBelow bound s with
    | error e =>
        rw [below] at read
        cases read
    | ok m =>
        rw [below] at read
        obtain rfl := Except.ok.inj read
        obtain ⟨isDecimal, fits⟩ := (readBelow_eq_ok_iff positive).mp below
        rwa [right m fits]
  · intro isDecimal
    have read := (readBelow_eq_ok_iff positive).mpr ⟨isDecimal, small x⟩
    rw [read, Except.map, left]

theorem readUInt32_eq_ok_iff {n : UInt32} : readUInt32 s = .ok n ↔ IsDecimal s n.toNat :=
  map_readBelow_eq_ok_iff UInt32.toNat_lt_size (fun n => UInt32.ofNat_toNat (x := n))
    fun _ fits => UInt32.toNat_ofNat_of_lt' fits

theorem readUInt64_eq_ok_iff {n : UInt64} : readUInt64 s = .ok n ↔ IsDecimal s n.toNat :=
  map_readBelow_eq_ok_iff UInt64.toNat_lt_size (fun n => UInt64.ofNat_toNat (x := n))
    fun _ fits => UInt64.toNat_ofNat_of_lt' fits

end SchemaLedger.Numeral
