import Mathlib.Data.Option.Basic
import SchemaLedger.Json.Printer
import SchemaLedger.Json.Reader
import SchemaLedger.Proofs.Numeral.Digits

/-!
# Reading back what was written

A value of strings, natural numbers, arrays and objects is read back from its text, whatever the
layout. Reading a value stops where its text ends, so the statements are about texts that go on in
some way; only a number has to be told that no further digit follows.
-/

namespace SchemaLedger.Json

open Numeral

/-! ### Strings -/

/-- What is read for the written form of a character. -/
def partOf (c : Char) : StringPart :=
  if c.toNat < 0x20 ∧ c ≠ '\x08' ∧ c ≠ '\t' ∧ c ≠ '\n' ∧ c ≠ '\x0c' ∧ c ≠ '\r' then .unit c.toNat
  else .char c

theorem hexUnit?_control : ∀ n < 0x20,
    hexUnit? '0' '0' (Nat.digitChar (n / 16)) (Nat.digitChar (n % 16)) = some n := by
  decide

/-- The written form of a character is read as one part. -/
theorem readParts_escape (c : Char) (s : List Char) :
    readParts (escape c ++ s) = (readParts s).map fun r => (partOf c :: r.1, r.2) := by
  have letter {d : Char} (known : unescape? d = some c) (other : d ≠ 'u') :
      readParts ('\\' :: d :: s) = (readParts s).map fun r => (.char c :: r.1, r.2) := by
    rw [readParts]
    · simp [known]
      cases readParts s <;> rfl
    · simp [other]
  by_cases short : c ∈ ['"', '\\', '\x08', '\t', '\n', '\x0c', '\r']
  · simp only [List.mem_cons, List.not_mem_nil, or_false] at short
    rcases short with rfl | rfl | rfl | rfl | rfl | rfl | rfl <;> exact letter rfl (by decide)
  · simp only [List.mem_cons, List.not_mem_nil, or_false, not_or] at short
    obtain ⟨quote, slash, others⟩ := short
    by_cases control : c.toNat < 0x20
    · have written : escape c =
          ['\\', 'u', '0', '0', Nat.digitChar (c.toNat / 16), Nat.digitChar (c.toNat % 16)] := by
        simp [escape, quote, slash, others, control]
      have part : partOf c = .unit c.toNat := by simp [partOf, control, others]
      rw [written, part]
      simp only [List.cons_append, List.nil_append, readParts, hexUnit?_control _ control]
      cases readParts s <;> rfl
    · have written : escape c = [c] := by simp [escape, quote, slash, others, control]
      have part : partOf c = .char c := by simp [partOf, control]
      rw [written, part, List.singleton_append, readParts]
      · have allowed : (guard (0x20 ≤ c.toNat) : Option Unit) = some () :=
          if_pos (Nat.not_lt.mp control)
        rw [allowed]
        cases readParts s <;> rfl
      · exact quote
      · intro _ _ _ _ _ same
        exact absurd same slash
      · intro _ _ same
        exact absurd same slash

theorem readParts_flatMap_escape (s rest : List Char) :
    readParts (s.flatMap escape ++ '"' :: rest) = some (s.map partOf, rest) := by
  induction s with
  | nil => simp [readParts]
  | cons c s ih =>
      rw [List.flatMap_cons, List.append_assoc, readParts_escape, ih]
      rfl

/-- A unit that is no half of a surrogate pair stands for itself. -/
theorem joinParts_unit {n : Nat} (small : n < 0xD800) (parts : List StringPart) :
    joinParts (.unit n :: parts) = (joinParts parts).map (Char.ofNat n :: ·) := by
  have low : ¬ 0xD800 ≤ n := by omega
  have high : ¬ 0xDC00 ≤ n := by omega
  cases parts with
  | nil => simp [joinParts, low]
  | cons part parts => cases part <;> simp [joinParts, low, high]

theorem joinParts_map_partOf (s : List Char) : joinParts (s.map partOf) = some s := by
  induction s with
  | nil => rfl
  | cons c s ih =>
      rw [List.map_cons, partOf]
      split
      · next control =>
          rw [joinParts_unit (by omega), ih, Option.map_some, Char.ofNat_toNat]
      · rw [joinParts, ih, Option.map_some]

/-- A string is read back, whatever comes behind it. -/
theorem readString_escape (s : String) (rest : List Char) :
    readString (s.toList.flatMap escape ++ '"' :: rest) = some (some s, rest) := by
  simp [readString, readParts_flatMap_escape, joinParts_map_partOf]

/-! ### Numbers -/

/-- What may stand behind a value: nothing, a blank, a comma or a closing bracket. -/
def Stops (rest : List Char) : Prop := ∀ c, rest.head? = some c → c ∈ [' ', '\n', ',', ']', '}']

theorem takeUp_eq {value : Nat} {ds : List Char}
    (fits : Nat.ofDigitChars 10 ds value < UInt64.size) :
    takeUp value ds = (Nat.ofDigitChars 10 ds value, 0) := by
  induction ds generalizing value with
  | nil => rfl
  | cons c ds ih =>
      rw [Nat.ofDigitChars_cons] at fits ⊢
      have small := Nat.lt_of_le_of_lt (le_ofDigitChars ds _) fits
      rw [takeUp]
      simp only [if_pos small]
      exact ih fits

theorem numberOf_toDigits (n : UInt64) :
    numberOf false (Nat.toDigits 10 n.toNat) [] none = number (.natural n) := by
  have value : Nat.ofDigitChars 10 (Nat.toDigits 10 n.toNat) 0 = n.toNat :=
    Nat.ofDigitChars_ten_toDigits
  have taken : takeUp 0 (Nat.toDigits 10 n.toNat) = (n.toNat, 0) := by
    rw [takeUp_eq (lt_of_eq_of_lt value n.toNat_lt_size), value]
  simp [numberOf, taken]

theorem Stops.ends {rest : List Char} (h : Stops rest) {c : Char}
    (there : rest.head? = some c) : c.isDigit = false ∧ c ≠ '.' ∧ c ≠ 'e' ∧ c ≠ 'E' := by
  have listed := h c there
  simp only [List.mem_cons, List.not_mem_nil, or_false] at listed
  rcases listed with rfl | rfl | rfl | rfl | rfl <;> decide

theorem readWhole_toDigits {n : Nat} {rest : List Char} (stops : Stops rest) :
    readWhole (Nat.toDigits 10 n ++ rest) = some (Nat.toDigits 10 n, rest) := by
  have digits : ∀ c ∈ Nat.toDigits 10 n, c.isDigit = true := fun c hc => isDigit_of_mem hc
  have behind : rest.takeWhile Char.isDigit = [] ∧ rest.dropWhile Char.isDigit = rest := by
    cases rest with
    | nil => simp
    | cons c rest => simp [stops.ends rfl]
  have one : readDigits1 (Nat.toDigits 10 n ++ rest) = some (Nat.toDigits 10 n, rest) := by
    rw [readDigits1, List.takeWhile_append_of_pos digits, List.dropWhile_append_of_pos digits,
      behind.1, behind.2, List.append_nil, if_neg (by simp [Nat.toDigits_ne_nil])]
  rw [readWhole, one]
  simp only [Option.bind_eq_bind, Option.bind_some]
  split
  · next written =>
      obtain rfl := eq_zero_of_toDigits written
      simp at written
  · rfl

/-- A natural number is read back where no further digit follows. -/
theorem readNumber_toDigits (n : UInt64) {rest : List Char} (stops : Stops rest) :
    readNumber (Nat.toDigits 10 n.toNat ++ rest) = some (number (.natural n), rest) := by
  have unsigned : ∀ rest', Nat.toDigits 10 n.toNat ++ rest ≠ '-' :: rest' := by
    intro rest' same
    obtain ⟨c, ds, written, isDigit⟩ := toDigits_eq_cons n.toNat
    rw [written, List.cons_append] at same
    rw [(List.cons.inj same).1] at isDigit
    exact absurd isDigit (by decide)
  have places : readPlaces rest = some ([], rest) := by
    cases rest with
    | nil => rfl
    | cons c rest =>
        rw [readPlaces]
        intro _ same
        exact (stops.ends rfl).2.1 (List.cons.inj same).1
  have exponent : readExponent rest = some (none, rest) := by
    cases rest with
    | nil => rfl
    | cons c rest =>
        have ends := stops.ends (c := c) rfl
        simp [readExponent, ends.2.2]
  rw [readNumber]
  · simp [readUnsigned, readWhole_toDigits stops, places, exponent, numberOf_toDigits]
  · exact unsigned

/-! ### Values -/

/-- The value is made of strings, natural numbers, arrays and objects. -/
inductive IsPlain : Json → Prop
  | string (s : String) : IsPlain (string s)
  | natural (n : UInt64) : IsPlain (number (.natural n))
  | array {items : List Json} : (∀ v ∈ items, IsPlain v) → IsPlain (array items)
  | object {members : List (String × Json)} : (∀ a ∈ members, IsPlain a.2) →
      IsPlain (object members)

@[simp] theorem skipSpace_lineBreak (layout : Layout) (level : Nat) (s : List Char) :
    skipSpace (layout.lineBreak level ++ s) = skipSpace s := by
  cases layout with
  | compact => rfl
  | indented =>
      rw [Layout.lineBreak, List.cons_append, skipSpace, List.dropWhile_cons_of_pos (by decide)]
      exact List.dropWhile_append_of_pos fun c hc => by rw [List.eq_of_mem_replicate hc]; decide

theorem skipSpace_skipSpace (s : List Char) : skipSpace (skipSpace s) = skipSpace s := by
  induction s with
  | nil => rfl
  | cons c s ih =>
      by_cases space : isSpace c
      · have passed : skipSpace (c :: s) = skipSpace s := List.dropWhile_cons_of_pos space
        rw [passed, ih]
      · simp [skipSpace, space]

theorem skipSpace_cons {c : Char} (s : List Char) (h : isSpace c = false) :
    skipSpace (c :: s) = c :: s :=
  List.dropWhile_cons_of_neg (by simp [h])

theorem isSpace_eq_false {c : Char} (h : c.isDigit) : isSpace c = false := by
  simp only [isSpace, Bool.or_eq_false_iff, decide_eq_false_iff_not]
  refine ⟨⟨⟨?_, ?_⟩, ?_⟩, ?_⟩ <;> (rintro rfl; exact absurd h (by decide))

/-! Blanks in front do not matter. -/

theorem readValue_skipSpace (fuel : Nat) (s : List Char) :
    readValue fuel (skipSpace s) = readValue fuel s := by
  cases fuel with
  | zero => simp [readValue]
  | succ fuel => rw [readValue, readValue, skipSpace_skipSpace]

theorem readItems_skipSpace (fuel : Nat) (s : List Char) :
    readItems fuel (skipSpace s) = readItems fuel s := by
  cases fuel with
  | zero => simp [readItems]
  | succ fuel => rw [readItems, readItems, readValue_skipSpace]

theorem readMembers_skipSpace (fuel : Nat) (s : List Char) :
    readMembers fuel (skipSpace s) = readMembers fuel s := by
  cases fuel with
  | zero => simp [readMembers]
  | succ fuel => rw [readMembers, readMembers, skipSpace_skipSpace]

section Values

variable {layout : Layout} {level fuel : Nat} {v : Json} {rest : List Char}

/-- The text of a value starts with something that is neither a blank nor a closing bracket. -/
theorem IsPlain.print_eq_cons (h : IsPlain v) (layout : Layout) (level : Nat) :
    ∃ c s, print layout level v = c :: s ∧ isSpace c = false ∧ c ≠ ']' := by
  cases h with
  | string s => exact ⟨_, _, rfl, by decide, by decide⟩
  | natural n =>
      obtain ⟨c, s, written, isDigit⟩ := toDigits_eq_cons n.toNat
      refine ⟨c, s, written, isSpace_eq_false isDigit, ?_⟩
      rintro rfl
      exact absurd isDigit (by decide)
  | @array items _ => cases items <;> exact ⟨_, _, rfl, by decide, by decide⟩
  | @object members _ => cases members <;> exact ⟨_, _, rfl, by decide, by decide⟩

theorem IsPlain.print_ne_nil (h : IsPlain v) (layout : Layout) (level : Nat) :
    print layout level v ≠ [] := by
  obtain ⟨c, s, written, -⟩ := h.print_eq_cons layout level
  simp [written]

theorem readValue_string (s : String) :
    readValue (fuel + 1) (printString s ++ rest) = some (string s, rest) := by
  have quoted : printString s ++ rest = '"' :: (s.toList.flatMap escape ++ '"' :: rest) := by
    simp [printString]
  rw [quoted, readValue, skipSpace_cons _ (by decide)]
  simp [readString_escape]

theorem readValue_natural (n : UInt64) (stops : Stops rest) :
    readValue (fuel + 1) (Nat.toDigits 10 n.toNat ++ rest) = some (number (.natural n), rest) := by
  have run := readNumber_toDigits n stops
  obtain ⟨c, s, written, isDigit⟩ := toDigits_eq_cons n.toNat
  have other (d : Char) (no_digit : d.isDigit = false) : c ≠ d := by
    rintro rfl
    simp [isDigit] at no_digit
  rw [written, List.cons_append] at run
  rw [written, List.cons_append, readValue, skipSpace_cons _ (isSpace_eq_false isDigit), ← run]
  -- every other value starts with something that is no digit
  split
  all_goals first
    | rfl
    | (next same => exact absurd (List.cons.inj same).1 (other _ rfl))

/-- The value is read back from its text in any layout, wherever the text goes on. Every character
of it allows for two levels. -/
def ReadsBack (v : Json) : Prop :=
  ∀ (layout : Layout) (level fuel : Nat) (rest : List Char),
    2 * (print layout level v).length ≤ fuel + 1 → Stops rest →
      readValue fuel (print layout level v ++ rest) = some (v, rest)

theorem stops_lineBreak (layout : Layout) (level : Nat) {c : Char} (stops : Stops (c :: rest)) :
    Stops (layout.lineBreak level ++ c :: rest) := by
  cases layout with
  | compact => exact stops
  | indented =>
      intro d there
      obtain rfl : '\n' = d := by simpa [Layout.lineBreak] using there
      decide

theorem stops_cons {c : Char} (h : c ∈ [' ', '\n', ',', ']', '}']) : Stops (c :: rest) := by
  intro d there
  obtain rfl := Option.some.inj there
  exact h

theorem readValue_lineBreak (s : List Char) :
    readValue fuel (layout.lineBreak level ++ s) = readValue fuel s := by
  rw [← readValue_skipSpace, skipSpace_lineBreak, readValue_skipSpace]

theorem ReadsBack.length_pos (h : ReadsBack v) (layout : Layout) (level : Nat) :
    0 < (print layout level v).length := by
  apply Nat.pos_of_ne_zero
  intro none_written
  have run := h layout level 0 [] (by omega) nofun
  simp [readValue] at run

theorem printItems_cons_cons (layout : Layout) (level : Nat) (v w : Json) (more : List Json) :
    printItems layout level (v :: w :: more) = layout.lineBreak level ++ print layout level v ++
      ',' :: printItems layout level (w :: more) := by
  rw [printItems]
  simp

theorem printMembers_cons_cons (layout : Layout) (level : Nat) (name : String) (v : Json)
    (b : String × Json) (more : List (String × Json)) :
    printMembers layout level ((name, v) :: b :: more) =
      layout.lineBreak level ++ printString name ++ layout.colon ++ print layout level v ++
        ',' :: printMembers layout level (b :: more) := by
  rw [printMembers]
  simp

/-- A member is read back if its value is, whether it is the last one or others follow. -/
theorem readMembers_member (name : String) {t : List Char}
    (run : readValue fuel t = some (v, rest)) :
    (∀ rest', skipSpace rest = '}' :: rest' →
      readMembers (fuel + 1) (layout.lineBreak level ++ printString name ++ layout.colon ++ t) =
        some (some [(name, v)], rest')) ∧
    (∀ rest' others rest'', skipSpace rest = ',' :: rest' →
      readMembers fuel rest' = some (some others, rest'') →
        readMembers (fuel + 1) (layout.lineBreak level ++ printString name ++ layout.colon ++ t) =
          some (some ((name, v) :: others), rest'')) := by
  have quoted : layout.lineBreak level ++ printString name ++ layout.colon ++ t =
      layout.lineBreak level ++
        '"' :: (name.toList.flatMap escape ++ '"' :: (layout.colon ++ t)) := by
    simp [printString]
  have colon : ∃ s, skipSpace (layout.colon ++ t) = ':' :: s ∧ skipSpace s = skipSpace t := by
    cases layout with
    | compact => exact ⟨t, skipSpace_cons _ (by decide), rfl⟩
    | indented => exact ⟨' ' :: t, skipSpace_cons _ (by decide), rfl⟩
  obtain ⟨s, behind, same⟩ := colon
  have run : readValue fuel s = some (v, rest) := by
    rw [← readValue_skipSpace, same, readValue_skipSpace, run]
  rw [quoted, readMembers, skipSpace_lineBreak, skipSpace_cons _ (by decide)]
  simp only [readString_escape, Option.bind_eq_bind, Option.bind_some, behind, run]
  constructor
  · intro rest' closed
    simp [closed]
  · intro rest' others rest'' comma next
    simp [comma, next]

/-- Items are read back up to the closing bracket. -/
theorem readItems_printItems (layout : Layout) (level level' : Nat) (rest : List Char)
    {more : List Json} (each : ∀ w ∈ v :: more, ReadsBack w)
    (enough : 2 * (printItems layout level (v :: more)).length ≤ fuel) :
    readItems fuel
        (printItems layout level (v :: more) ++ (layout.lineBreak level' ++ ']' :: rest)) =
      some (v :: more, rest) := by
  have first := each v List.mem_cons_self
  have written := first.length_pos layout level
  induction more generalizing v fuel with
  | nil =>
      simp only [printItems, List.length_append] at enough
      obtain ⟨fuel, rfl⟩ : ∃ f, fuel = f + 1 := ⟨fuel - 1, by omega⟩
      have run := first layout level fuel (layout.lineBreak level' ++ ']' :: rest) (by omega)
        (stops_lineBreak layout level' (stops_cons (by decide)))
      have close : skipSpace (layout.lineBreak level' ++ ']' :: rest) = ']' :: rest := by
        rw [skipSpace_lineBreak, skipSpace_cons _ (by decide)]
      rw [printItems, List.append_assoc, readItems, readValue_lineBreak, run]
      simp [close]
  | cons w more ih =>
      have next := each w (by simp)
      rw [printItems_cons_cons, List.length_append, List.length_append, List.length_cons] at enough
      obtain ⟨fuel, rfl⟩ : ∃ f, fuel = f + 1 := ⟨fuel - 1, by omega⟩
      have enough' : 2 * (printItems layout level (w :: more)).length ≤ fuel := by omega
      have others := ih (fun u hu => each u (List.mem_cons_of_mem _ hu)) enough' next
        (next.length_pos layout level)
      have run := first layout level fuel (',' :: (printItems layout level (w :: more) ++
        (layout.lineBreak level' ++ ']' :: rest))) (by omega) (stops_cons (by decide))
      have comma (s : List Char) : skipSpace (',' :: s) = ',' :: s := skipSpace_cons _ (by decide)
      rw [printItems_cons_cons, List.append_assoc, List.append_assoc, List.cons_append, readItems,
        readValue_lineBreak, run]
      simp [comma, others]

/-- Members are read back up to the closing brace. -/
theorem readMembers_printMembers (layout : Layout) (level level' : Nat) (rest : List Char)
    {a : String × Json} {more : List (String × Json)} (each : ∀ b ∈ a :: more, ReadsBack b.2)
    (enough : 2 * (printMembers layout level (a :: more)).length ≤ fuel) :
    readMembers fuel
        (printMembers layout level (a :: more) ++ (layout.lineBreak level' ++ '}' :: rest)) =
      some (some (a :: more), rest) := by
  obtain ⟨name, v⟩ := a
  have first : ReadsBack v := each (name, v) List.mem_cons_self
  have written := first.length_pos layout level
  induction more generalizing name v fuel with
  | nil =>
      simp only [printMembers, List.length_append] at enough
      obtain ⟨fuel, rfl⟩ : ∃ f, fuel = f + 1 := ⟨fuel - 1, by omega⟩
      have run := first layout level fuel (layout.lineBreak level' ++ '}' :: rest) (by omega)
        (stops_lineBreak layout level' (stops_cons (by decide)))
      have close : skipSpace (layout.lineBreak level' ++ '}' :: rest) = '}' :: rest := by
        rw [skipSpace_lineBreak, skipSpace_cons _ (by decide)]
      rw [printMembers, List.append_assoc]
      exact (readMembers_member name run).1 _ close
  | cons b more ih =>
      obtain ⟨other, w⟩ := b
      have next : ReadsBack w := each (other, w) (by simp)
      rw [printMembers_cons_cons] at enough ⊢
      simp only [List.length_append, List.length_cons] at enough
      obtain ⟨fuel, rfl⟩ : ∃ f, fuel = f + 1 := ⟨fuel - 1, by omega⟩
      have enough' : 2 * (printMembers layout level ((other, w) :: more)).length ≤ fuel := by omega
      have others := ih other w (fun c hc => each c (List.mem_cons_of_mem _ hc)) enough' next
        (next.length_pos layout level)
      have run := first layout level fuel (',' :: (printMembers layout level ((other, w) :: more) ++
        (layout.lineBreak level' ++ '}' :: rest))) (by omega) (stops_cons (by decide))
      rw [List.append_assoc, List.append_assoc, List.cons_append]
      exact (readMembers_member name run).2 _ _ _ (skipSpace_cons _ (by decide)) others

theorem readValue_array {more : List Json} (each : ∀ w ∈ v :: more, ReadsBack w) (plain : IsPlain v)
    (enough : 2 * (print layout level (array (v :: more))).length ≤ fuel + 2) :
    readValue (fuel + 1) (print layout level (array (v :: more)) ++ rest) =
      some (array (v :: more), rest) := by
  have text : print layout level (array (v :: more)) ++ rest =
      '[' :: (printItems layout (level + 1) (v :: more) ++
        (layout.lineBreak level ++ ']' :: rest)) := by
    rw [print]
    · simp
    · exact List.cons_ne_nil _ _
  have front : ∃ c s, skipSpace (printItems layout (level + 1) (v :: more) ++
      (layout.lineBreak level ++ ']' :: rest)) = c :: s ∧ c ≠ ']' := by
    obtain ⟨c, s, written, space, other⟩ := plain.print_eq_cons layout (level + 1)
    cases more with
    | nil =>
        rw [printItems, List.append_assoc, skipSpace_lineBreak, written, List.cons_append,
          skipSpace_cons _ space]
        exact ⟨c, _, rfl, other⟩
    | cons w more =>
        rw [printItems_cons_cons, List.append_assoc, List.append_assoc, skipSpace_lineBreak,
          written, List.cons_append, skipSpace_cons _ space]
        exact ⟨c, _, rfl, other⟩
  have enough' : 2 * (printItems layout (level + 1) (v :: more)).length ≤ fuel := by
    have := congrArg List.length text
    simp only [List.length_append, List.length_cons] at this
    omega
  have items := readItems_printItems layout (level + 1) level rest each enough'
  obtain ⟨c, s, skipped, other⟩ := front
  rw [text, readValue, skipSpace_cons _ (by decide)]
  simp only [skipped]
  split
  · next same => exact absurd (List.cons.inj same).1 other
  · rw [← skipped, readItems_skipSpace, items]
    rfl

theorem readValue_empty_array :
    readValue (fuel + 1) (print layout level (array []) ++ rest) = some (array [], rest) := by
  simp [print, readValue, skipSpace_cons, isSpace]

theorem readValue_empty_object :
    readValue (fuel + 1) (print layout level (object []) ++ rest) = some (object [], rest) := by
  simp [print, readValue, skipSpace_cons, isSpace]

theorem readValue_object {a : String × Json} {more : List (String × Json)}
    (each : ∀ b ∈ a :: more, ReadsBack b.2)
    (enough : 2 * (print layout level (object (a :: more))).length ≤ fuel + 2) :
    readValue (fuel + 1) (print layout level (object (a :: more)) ++ rest) =
      some (object (a :: more), rest) := by
  have text : print layout level (object (a :: more)) ++ rest =
      '{' :: (printMembers layout (level + 1) (a :: more) ++
        (layout.lineBreak level ++ '}' :: rest)) := by
    rw [print]
    · simp
    · exact List.cons_ne_nil _ _
  have front : ∃ s, skipSpace (printMembers layout (level + 1) (a :: more) ++
      (layout.lineBreak level ++ '}' :: rest)) = '"' :: s := by
    cases more with
    | nil =>
        rw [printMembers, List.append_assoc, List.append_assoc, List.append_assoc,
          skipSpace_lineBreak]
        exact ⟨_, skipSpace_cons _ (by decide)⟩
    | cons b more =>
        rw [printMembers_cons_cons, List.append_assoc, List.append_assoc, List.append_assoc,
          List.append_assoc, skipSpace_lineBreak]
        exact ⟨_, skipSpace_cons _ (by decide)⟩
  have enough' : 2 * (printMembers layout (level + 1) (a :: more)).length ≤ fuel := by
    have := congrArg List.length text
    simp only [List.length_append, List.length_cons] at this
    omega
  have members := readMembers_printMembers layout (level + 1) level rest each enough'
  obtain ⟨s, skipped⟩ := front
  rw [← readMembers_skipSpace, skipped] at members
  rw [text, readValue, skipSpace_cons _ (by decide)]
  simp [skipped, members]

/-- A text that is not empty allows for one level of reading at least. -/
theorem readsBack_of_succ (some_written : ∀ layout level, print layout level v ≠ [])
    (reads : ∀ layout level fuel rest, 2 * (print layout level v).length ≤ fuel + 2 → Stops rest →
      readValue (fuel + 1) (print layout level v ++ rest) = some (v, rest)) : ReadsBack v := by
  intro layout level fuel rest enough stops
  have written := List.length_pos_iff.mpr (some_written layout level)
  obtain ⟨fuel, rfl⟩ : ∃ f, fuel = f + 1 := ⟨fuel - 1, by omega⟩
  exact reads layout level fuel rest enough stops

/-- A plain value is read back from its text. -/
theorem IsPlain.readsBack (h : IsPlain v) : ReadsBack v := by
  induction h with
  | string s =>
      exact readsBack_of_succ (IsPlain.string s).print_ne_nil fun _ _ _ _ _ _ => readValue_string s
  | natural n =>
      exact readsBack_of_succ (IsPlain.natural n).print_ne_nil
        fun _ _ _ _ _ stops => readValue_natural n stops
  | @array items plain ih =>
      apply readsBack_of_succ (IsPlain.array plain).print_ne_nil
      intro layout level fuel rest enough _
      cases items with
      | nil => exact readValue_empty_array
      | cons w more => exact readValue_array ih (plain w List.mem_cons_self) enough
  | @object members plain ih =>
      apply readsBack_of_succ (IsPlain.object plain).print_ne_nil
      intro layout level fuel rest enough _
      cases members with
      | nil => exact readValue_empty_object
      | cons a more => exact readValue_object ih enough

end Values

/-- A document with a plain value and a line break at its end is read back. -/
theorem read_render (layout : Layout) {v : Json} (h : IsPlain v) :
    read (render layout v ++ "\n") = some v := by
  have text : (render layout v ++ "\n").toList = print layout 0 v ++ ['\n'] := by simp [render]
  have run := h.readsBack layout 0 (2 * (render layout v ++ "\n").toList.length + 2) ['\n']
    (by rw [text, List.length_append]; omega) (stops_cons (by decide))
  rw [← text] at run
  rw [read]
  simp only [run]
  rfl

end SchemaLedger.Json
