import SchemaLedger.Tag.Token

/-!
# Looking into a text by its bytes

A text can be read without taking it apart: what is held is the number of a byte, and a part of the
text is what lies between two bytes. Such a part exists only if both bytes are starts of characters,
or the end. Each way to look at the text gives nothing otherwise.

Where a part of the text that goes to its end starts, all of this agrees with looking at the list of
its characters. No other byte shows anything.
-/

namespace SchemaLedger.Tag

open Text

-- the empty sum is the literal zero, whatever instances are in scope
attribute [local instance (high)] Zero.ofOfNat0

variable {text inner : String} {s t before after : List Char} {c : Char} {p : Char → Bool}

/-! ### The looks -/

/-- What lies between two bytes of a text. There is nothing if the second is before the first, or if
one of them is behind the end or inside a character. -/
def cut (text : String) (start stop : Nat) : Option String :=
  if h : start ≤ stop ∧ String.Pos.Raw.IsValid text ⟨start⟩ ∧ String.Pos.Raw.IsValid text ⟨stop⟩ then
    some (String.extract (⟨⟨start⟩, h.2.1⟩ : text.Pos) ⟨⟨stop⟩, h.2.2⟩)
  else none

/-- The character at a byte, unless the text ends there. -/
def peek (text : String) (pos : Nat) : Option (Option Char) := do
  let rest ← cut text pos text.utf8ByteSize
  return rest.toList.head?

/-- The character at a byte, and the byte behind it. -/
def bump (text : String) (pos : Nat) : Option (Option Char × Nat) := do
  match ← peek text pos with
  | some c => return (some c, pos + c.utf8Size)
  | none => return (none, pos)

/-- The difference of two numbers. There is none below zero. -/
def minus (n k : Nat) : Option Nat := if k ≤ n then some (n - k) else none

/-! ### Bytes -/

@[simp]
theorem byteLength_nil : byteLength [] = 0 := rfl

@[simp]
theorem byteLength_cons (c : Char) (s : List Char) :
    byteLength (c :: s) = c.utf8Size + byteLength s := by
  simp [byteLength]

@[simp]
theorem byteLength_append (s t : List Char) : byteLength (s ++ t) = byteLength s + byteLength t := by
  simp [byteLength]

theorem byteLength_le_of_suffix (h : t <:+ s) : byteLength t ≤ byteLength s := by
  obtain ⟨before, rfl⟩ := h
  rw [byteLength_append]
  exact Nat.le_add_left ..

theorem byteLength_eq (s : List Char) : byteLength s = (String.ofList s).utf8ByteSize := by
  induction s with
  | nil => rfl
  | cons c s ih =>
      have one : String.ofList [c] = String.singleton c := String.singleton_eq_ofList.symm
      rw [byteLength_cons, ih, ← List.singleton_append, String.ofList_append,
        String.utf8ByteSize_append, one, String.utf8ByteSize_singleton]

theorem utf8ByteSize_eq (text : String) : text.utf8ByteSize = byteLength text.toList := by
  rw [byteLength_eq, String.ofList_toList]

/-- The byte of a text at which its last part starts. -/
def startOf (text : String) (t : List Char) : Nat := byteLength text.toList - byteLength t

theorem startOf_eq (h : text.toList = before ++ t) : startOf text t = byteLength before := by
  rw [startOf, h, byteLength_append]
  omega

theorem startOf_self (text : String) : startOf text text.toList = 0 := Nat.sub_self _

theorem startOf_nil (text : String) : startOf text [] = text.utf8ByteSize :=
  (utf8ByteSize_eq text).symm

/-- A last part with something in front of it starts before it. -/
theorem startOf_append (h : s ++ t <:+ text.toList) :
    startOf text t = startOf text (s ++ t) + byteLength s := by
  obtain ⟨before, whole⟩ := h
  rw [startOf_eq whole.symm, startOf_eq ((List.append_assoc ..).trans whole).symm,
    byteLength_append]

theorem startOf_le (text : String) (t : List Char) : startOf text t ≤ text.utf8ByteSize := by
  rw [utf8ByteSize_eq]
  exact Nat.sub_le ..

theorem startOf_cons (h : c :: t <:+ text.toList) :
    startOf text t = startOf text (c :: t) + c.utf8Size :=
  startOf_append (s := [c]) h

/-- What starts later is shorter. -/
theorem startOf_mono (h : s <:+ text.toList) (later : t <:+ s) :
    startOf text s ≤ startOf text t := by
  obtain ⟨before, rfl⟩ := later
  rw [startOf_append h]
  exact Nat.le_add_right ..

theorem startOf_lt (h : s <:+ text.toList) (later : t <:+ s) (shorter : t.length < s.length) :
    startOf text s < startOf text t := by
  obtain ⟨before, rfl⟩ := later
  rw [startOf_append h]
  cases before with
  | nil => exact absurd shorter (Nat.lt_irrefl _)
  | cons c before =>
      have moves := c.utf8Size_pos
      rw [byteLength_cons]
      omega

theorem isValid_startOf (h : t <:+ text.toList) :
    String.Pos.Raw.IsValid text ⟨startOf text t⟩ := by
  obtain ⟨before, whole⟩ := h
  refine String.Pos.Raw.isValid_iff_exists_append.mpr ⟨String.ofList before, String.ofList t, ?_, ?_⟩
  · rw [← String.ofList_append, whole, String.ofList_toList]
  · rw [startOf_eq whole.symm, byteLength_eq]
    rfl

theorem exists_startOf_of_isValid {pos : Nat} (h : String.Pos.Raw.IsValid text ⟨pos⟩) :
    ∃ t, t <:+ text.toList ∧ pos = startOf text t := by
  obtain ⟨before, t, rfl, same⟩ := String.Pos.Raw.isValid_iff_exists_append.mp h
  have whole : (before ++ t).toList = before.toList ++ t.toList := String.toList_append
  refine ⟨t.toList, ⟨before.toList, whole.symm⟩, ?_⟩
  rw [startOf_eq whole, ← utf8ByteSize_eq]
  exact congrArg String.Pos.Raw.byteIdx same

/-! ### What there is to see -/

/-- A part that exists holds the bytes in between. -/
theorem cut_eq_some {start stop : Nat} {part : String} (ordered : start ≤ stop)
    (front : String.Pos.Raw.IsValid text ⟨start⟩) (back : String.Pos.Raw.IsValid text ⟨stop⟩)
    (bytes : text.toByteArray.extract start stop = part.toByteArray) :
    cut text start stop = some part := by
  rw [cut, dif_pos ⟨ordered, front, back⟩]
  exact congrArg some (String.toByteArray_inj.mp bytes)

/-- Between the starts of two last parts lies what the first has in front of the second. -/
theorem cut_startOf (h : s ++ t <:+ text.toList) :
    cut text (startOf text (s ++ t)) (startOf text t) = some (String.ofList s) := by
  have shorter : t <:+ text.toList := (List.suffix_append s t).trans h
  refine cut_eq_some (startOf_append h ▸ Nat.le_add_right ..) (isValid_startOf h)
    (isValid_startOf shorter) ?_
  obtain ⟨before, whole⟩ := h
  have bytes : text.toByteArray = (String.ofList before).toByteArray ++
      ((String.ofList s).toByteArray ++ (String.ofList t).toByteArray) := by
    rw [← String.toByteArray_append, ← String.toByteArray_append, ← String.ofList_append,
      ← String.ofList_append, whole, String.ofList_toList]
  have start := startOf_eq whole.symm
  have stop := startOf_eq ((List.append_assoc ..).trans whole).symm
  rw [byteLength_eq, ← String.size_toByteArray, ← Nat.add_zero (ByteArray.size _)] at start
  rw [byteLength_append, byteLength_eq, byteLength_eq, ← String.size_toByteArray,
    ← String.size_toByteArray] at stop
  rw [bytes, start, stop, ByteArray.extract_append_size_add, ByteArray.extract_append_eq_left rfl]

theorem peek_startOf (h : t <:+ text.toList) : peek text (startOf text t) = some t.head? := by
  have all : cut text (startOf text t) text.utf8ByteSize = some (String.ofList t) := by
    rw [← startOf_nil]
    simpa using cut_startOf (s := t) (t := []) (by simpa using h)
  rw [peek, all]
  simp

/-- Characters stand only where a last part of the text starts. -/
theorem exists_of_peek {pos : Nat} {front : Option Char} (h : peek text pos = some front) :
    ∃ t, t <:+ text.toList ∧ pos = startOf text t ∧ front = t.head? := by
  have valid : String.Pos.Raw.IsValid text ⟨pos⟩ := by
    rw [peek, cut] at h
    split at h
    · next inside => exact inside.2.1
    · cases h
  obtain ⟨t, last, rfl⟩ := exists_startOf_of_isValid valid
  rw [peek_startOf last] at h
  exact ⟨t, last, rfl, (Option.some.inj h).symm⟩

/-- A character ends before or where the text does. -/
theorem le_of_peek {pos : Nat} (h : peek text pos = some (some c)) :
    pos + c.utf8Size ≤ text.utf8ByteSize := by
  obtain ⟨t, last, rfl, front⟩ := exists_of_peek h
  obtain ⟨t, rfl⟩ := List.head?_eq_some_iff.mp front.symm
  rw [← startOf_cons last]
  exact startOf_le text t

theorem lt_of_bump {pos next : Nat} (h : bump text pos = some (some c, next)) :
    pos < next ∧ next ≤ text.utf8ByteSize := by
  obtain ⟨front, seen, found⟩ := Option.bind_eq_some_iff.mp h
  cases front with
  | none => cases found
  | some d =>
      cases found
      have moves := c.utf8Size_pos
      exact ⟨by omega, le_of_peek seen⟩

theorem bump_startOf (h : c :: t <:+ text.toList) :
    bump text (startOf text (c :: t)) = some (some c, startOf text t) := by
  simp [bump, peek_startOf h, startOf_cons h]

theorem bump_startOf_nil : bump text (startOf text []) = some (none, startOf text []) := by
  simp [bump, peek_startOf (List.nil_suffix (l := text.toList))]

/-! ### Runs -/

/-- The first byte from here on with a character that is not of this sort. -/
def skipWhile (p : Char → Bool) (text : String) (pos : Nat) : Option Nat :=
  match _seen : peek text pos with
  | some (some c) => if p c then skipWhile p text (pos + c.utf8Size) else some pos
  | some none => some pos
  | none => none
termination_by text.utf8ByteSize - pos
decreasing_by
  have inside := le_of_peek _seen
  have moves := c.utf8Size_pos
  omega

/-- The characters of this sort from here on, and the byte behind them. -/
def takeRun (p : Char → Bool) (text : String) (start : Nat) : Option (String × Nat) := do
  let stop ← skipWhile p text start
  let run ← cut text start stop
  return (run, stop)

theorem skipWhile_startOf (h : t <:+ text.toList) :
    skipWhile p text (startOf text t) = some (startOf text (t.dropWhile p)) := by
  induction t with
  | nil =>
      rw [skipWhile, peek_startOf h]
      rfl
  | cons c t ih =>
      rw [skipWhile, peek_startOf h, List.dropWhile_cons]
      by_cases more : p c
      · simp [more, ← startOf_cons h, ih ((List.suffix_cons c t).trans h)]
      · simp [more]

theorem le_of_skipWhile {pos next : Nat} (h : skipWhile p text pos = some next) : pos ≤ next := by
  cases seen : peek text pos with
  | none =>
      rw [skipWhile, seen] at h
      cases h
  | some front =>
      obtain ⟨t, last, rfl, -⟩ := exists_of_peek seen
      rw [skipWhile_startOf last] at h
      obtain rfl := Option.some.inj h
      exact startOf_mono last (List.dropWhile_suffix p)

theorem takeRun_startOf (h : t <:+ text.toList) :
    takeRun p text (startOf text t) =
      some (String.ofList (t.takeWhile p), startOf text (t.dropWhile p)) := by
  have parts := List.takeWhile_append_dropWhile (p := p) (l := t)
  have whole : t.takeWhile p ++ t.dropWhile p <:+ text.toList := by rwa [parts]
  have run := cut_startOf whole
  rw [parts] at run
  simp [takeRun, skipWhile_startOf h, run]

end SchemaLedger.Tag
