import Mathlib.Algebra.BigOperators.Group.List.Basic
import SchemaLedger.Proofs.Tag.Spelling

/-!
# Quotes in values

A value that has been read was in quotes and holds none, or it was bare and holds no separators.
The quotes in a text are those around values and those in bare values, so they are even in number
if and only if the latter are. A group only ends where the number of quotes in it is even.
-/

namespace SchemaLedger.Tag

open Text

variable {s t rest inner : List Char} {value : String} {depth stop : Nat} {q : Bool} {c : Char}
variable {token : Token} {p : String × Detail} {details details' : List (String × Detail)}

/-- A value that can have been read: it holds no quote, or it holds no separator and does not start
with a quote. -/
def IsCutValue (value : String) : Prop :=
  '"' ∉ value.toList ∨
    IsUnbroken value.toList ∧ value.toList.head? ≠ some '"'

/-- How a value was written if it has been read. -/
theorem readValue_eq_ok (h : readValue s = .ok (value, rest)) :
    (s = '"' :: (value.toList ++ '"' :: rest) ∧ '"' ∉ value.toList) ∨
      (s = value.toList ++ rest ∧ IsUnbroken value.toList ∧
        value.toList.head? ≠ some '"') := by
  unfold readValue at h
  split at h
  · next s =>
      have parts := List.takeWhile_append_dropWhile (p := (· ≠ '"')) (l := s)
      have inside : '"' ∉ s.takeWhile (· ≠ '"') := fun held => by
        simpa using List.mem_takeWhile_imp held
      have ends := List.head?_dropWhile_not (· ≠ '"') s
      split at h
      · cases h
      · next quote front =>
          cases h
          rw [front] at ends parts
          obtain rfl : quote = '"' := by simpa using ends
          exact .inl ⟨by rw [String.toList_ofList, parts], by simpa using inside⟩
      · next quote c rest front =>
          split at h
          · cases h
            rw [front] at ends parts
            obtain rfl : quote = '"' := by simpa using ends
            exact .inl ⟨by rw [String.toList_ofList, parts], by simpa using inside⟩
          · cases h
  · next bare =>
      cases h
      refine .inr ⟨?_, fun c hc => ?_, fun starts => ?_⟩
      · rw [String.toList_ofList, List.takeWhile_append_dropWhile]
      · rw [String.toList_ofList] at hc
        simpa using List.mem_takeWhile_imp hc
      · cases s with
        | nil => simp at starts
        | cons d s =>
            rw [String.toList_ofList, List.takeWhile_cons] at starts
            split at starts
            · exact bare s (by rw [Option.some.inj starts])
            · cases starts

theorem isCutValue_of_readValue (h : readValue s = .ok (value, rest)) : IsCutValue value := by
  rcases readValue_eq_ok h with ⟨_, inside⟩ | ⟨_, plain⟩
  · exact .inl inside
  · exact .inr plain

/-! ### Even numbers of quotes -/

/-- The number of quotes in the values of details. -/
def quotesIn (details : List (String × Detail)) : Nat :=
  (details.map fun p => p.2.text.toList.count '"').sum

theorem quotesIn_cons :
    quotesIn (p :: details) = p.2.text.toList.count '"' + quotesIn details := by
  simp [quotesIn]

theorem quotesIn_of_perm (h : details.Perm details') : quotesIn details = quotesIn details' :=
  (h.map _).sum_eq

/-- A group does not end in quotes. -/
theorem odd_iff_of_takeGroup (h : takeGroup depth q s = some (inner, rest)) :
    Odd (inner.count '"') ↔ q = true := by
  induction s generalizing depth q inner with
  | nil => simp [takeGroup] at h
  | cons c s ih =>
      have go {depth : Nat} {q : Bool}
          (h : (takeGroup depth q s).map (fun taken => (c :: taken.1, taken.2)) =
            some (inner, rest)) : ∃ more, inner = c :: more ∧ (Odd (more.count '"') ↔ q = true) := by
        obtain ⟨⟨more, behind⟩, taken, same⟩ := Option.map_eq_some_iff.mp h
        simp only [Prod.mk.injEq] at same
        obtain ⟨rfl, rfl⟩ := same
        exact ⟨more, rfl, ih taken⟩
      simp only [takeGroup] at h
      by_cases quote : c = '"'
      · subst quote
        obtain ⟨more, rfl, odd⟩ := go (by simpa using h)
        rw [List.count_cons_self, Nat.odd_add_one, odd]
        simp
      · have plain {depth : Nat}
            (h : (takeGroup depth q s).map (fun taken => (c :: taken.1, taken.2)) =
              some (inner, rest)) : Odd (inner.count '"') ↔ q = true := by
          obtain ⟨more, rfl, odd⟩ := go h
          rwa [List.count_cons_of_ne quote]
        rw [if_neg quote] at h
        split at h
        · exact plain h
        · next outside =>
            split at h
            · exact plain h
            · split at h
              · split at h
                · cases h
                  simpa using outside
                · exact plain h
              · exact plain h

theorem count_quote_of_gap (h : IsGap s) : s.count '"' = 0 :=
  List.count_eq_zero.mpr fun held => absurd (h _ held) (by decide)

theorem IsWord.count_quote (h : IsWord s) : s.count '"' = 0 :=
  List.count_eq_zero.mpr fun held => absurd (h.2 _ held) (by decide)

theorem even_of_readValue (h : readValue s = .ok (value, rest)) :
    Even (s.count '"' + rest.count '"' + value.toList.count '"') := by
  rcases readValue_eq_ok h with ⟨rfl, inside⟩ | ⟨rfl, -⟩
  · have none_there := List.count_eq_zero.mpr inside
    simp only [List.count_cons_self, List.count_append, none_there]
    exact ⟨rest.count '"' + 1, by omega⟩
  · rw [List.count_append]
    exact ⟨value.toList.count '"' + rest.count '"', by omega⟩

theorem count_dropWhile_isBlank (s : List Char) :
    (s.dropWhile isBlank).count '"' = s.count '"' := by
  conv_rhs => rw [← List.takeWhile_append_dropWhile (p := isBlank) (l := s), List.count_append,
    count_quote_of_gap fun c hc => isSeparator_of_isBlank (List.mem_takeWhile_imp hc),
    Nat.zero_add]

/-- The quotes of one item without details are those in its value and those around it. -/
theorem Cuts.even (h : Cuts s rest token) (plain : itemOf stop rest token = plainItem p) :
    Even (s.count '"' + rest.count '"' + p.2.text.toList.count '"') := by
  obtain ⟨name, detail⟩ := p
  cases h with
  | flag isWord parts =>
      obtain _ | value := detail
      · rw [parts, List.count_append, isWord.count_quote]
        exact ⟨rest.count '"', by simp [Detail.text]⟩
      · cases plain
  | @value word before after c value isWord blank mark parts read =>
      obtain _ | text := detail
      · cases plain
      · cases plain
        have noQuote : c ≠ '"' := by rcases mark with rfl | rfl <;> decide
        rw [parts, List.count_append, isWord.count_quote, List.count_append,
          count_quote_of_gap fun c hc => isSeparator_of_isBlank (blank c hc),
          List.count_cons_of_ne noQuote, ← count_dropWhile_isBlank, Nat.zero_add, Nat.zero_add]
        exact even_of_readValue read
  | group =>
      obtain _ | value := detail <;> cases plain

/-- The quotes of items without details are those in their values and those around them. -/
theorem even_of_itemsOf (h : itemsOf stop s = (details.map plainItem, none)) :
    Even (s.count '"' + quotesIn details) := by
  induction length : s.length using Nat.strongRecOn generalizing s details with
  | ind n ih =>
      have shorter := length_dropWhile_le isSeparator s
      have same : s.count '"' = (s.dropWhile isSeparator).count '"' := by
        conv_lhs => rw [← List.takeWhile_append_dropWhile (p := isSeparator) (l := s),
          List.count_append,
          count_quote_of_gap (s := s.takeWhile _) fun c hc => List.mem_takeWhile_imp hc,
          Nat.zero_add]
      rw [itemsOf_eq] at h
      rw [same]
      -- without a fault there is nothing left, one item at the end, or one with others behind it
      split at h
      · next front =>
          obtain rfl := List.map_eq_nil_iff.mp (Prod.mk.inj h).1.symm
          simp [front, quotesIn]
      · next first others front =>
          rw [front] at shorter ⊢
          split at h
          · nomatch (Prod.mk.inj h).2
          · next token read =>
              obtain ⟨p, _, rfl, plain, none_left⟩ := List.map_eq_cons_iff.mp (Prod.mk.inj h).1.symm
              obtain rfl := List.map_eq_nil_iff.mp none_left
              simpa [quotesIn] using (cuts_of_nextToken read).even plain.symm
          · next token c rest read =>
              split at h
              · obtain ⟨p, details, rfl, plain, more⟩ :=
                  List.map_eq_cons_iff.mp (Prod.mk.inj h).1.symm
                have front := (cuts_of_nextToken read).even plain.symm
                have behind := ih _ (by have := (nextToken_length read).1; omega)
                  (Prod.ext more.symm (Prod.mk.inj h).2) rfl
                rw [quotesIn_cons]
                have := front.add behind
                rw [Nat.even_iff] at this ⊢
                omega
              · nomatch (Prod.mk.inj h).2

/-! ### Remarks that have been read -/

/-- The values of a remark can have been read, and those of its details hold an even number of
quotes. -/
def Remark.IsCut : Remark → Prop
  | .plain _ detail => IsCutValue detail.text
  | .group _ details => (∀ p ∈ details, IsCutValue p.2.text) ∧ Even (quotesIn details)

theorem Cuts.isCutValue (h : Cuts s rest token) (plain : itemOf stop rest token = plainItem p) :
    IsCutValue p.2.text := by
  obtain ⟨name, _ | value⟩ := p
  · exact .inl (by simp [Detail.text])
  · cases h with
    | flag => cases plain
    | value _ _ _ _ read =>
        cases plain
        exact isCutValue_of_readValue read
    | group => cases plain

theorem Cuts.isCut {r : Remark} (h : Cuts s rest token) (same : itemOf stop rest token = r.toItem) :
    r.IsCut := by
  cases r with
  | plain name detail => exact h.isCutValue same
  | group name details =>
      cases h with
      | flag => cases same
      | value => cases same
      | @group _ _ _ inner _ _ _ _ taken =>
          simp only [itemOf, Remark.toItem, Item.group.injEq] at same
          obtain ⟨-, inside, faultless⟩ := same
          have cut : itemsOf (stop - byteLength rest - 1) inner = (details.map plainItem, none) :=
            Prod.ext inside faultless
          have values := forall_mem_itemsOf (stop - byteLength rest - 1) inner
            (P := fun item => ∀ p, item = plainItem p → IsCutValue p.2.text)
            fun s token rest read p => (cuts_of_nextToken read).isCutValue
          rw [cut] at values
          have outside : ¬ Odd (inner.count '"') := fun odd =>
            absurd ((odd_iff_of_takeGroup taken).mp odd) (by decide)
          exact ⟨fun p hp => values _ (List.mem_map_of_mem hp) p rfl,
            (Nat.even_add.mp (even_of_itemsOf cut)).mp (Nat.not_odd_iff_even.mp outside)⟩

/-- Reading gives such remarks. -/
theorem isCut_of_itemsOf {remarks : List Remark} {fault : Option PlacedFault}
    (h : itemsOf stop s = (remarks.map Remark.toItem, fault)) : ∀ r ∈ remarks, r.IsCut := by
  have all := forall_mem_itemsOf stop s
    (P := fun item => ∀ r : Remark, item = r.toItem → r.IsCut)
    fun s token rest read r => (cuts_of_nextToken read).isCut
  rw [h] at all
  exact fun r hr => all _ (List.mem_map_of_mem hr) r rfl

end SchemaLedger.Tag
