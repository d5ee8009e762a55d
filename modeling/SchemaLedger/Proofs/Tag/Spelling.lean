import Mathlib.Algebra.Ring.Parity
import SchemaLedger.Proofs.Tag.Items

/-!
# How annotations can be spelled

The same annotations can be written in many ways: names in any case, commas and white space around
the items, an equals sign or a colon before a value, and quotes around it or not. The grammar below
says which texts spell which remarks. Cutting such a text into items gives these remarks, because an
item ends exactly where its spelling ends: white space behind a name is only passed over if
something follows that belongs to the name, and brackets in quotes do not count.
-/

namespace SchemaLedger.Tag

open Text

/-- What one item says: a name with or without a value, or a name with details. -/
inductive Remark where
  | plain (name : String) (detail : Detail)
  | group (name : String) (details : List (String × Detail))
deriving Repr

/-- The name of a remark. -/
def Remark.name : Remark → String
  | plain name _ => name
  | group name _ => name

/-! ### The grammar -/

/-- The word is the name, in any case of its ASCII letters. -/
def SpellsName (name : String) (word : List Char) : Prop := foldCase (String.ofList word) = name

instance (name : String) (word : List Char) : Decidable (SpellsName name word) :=
  inferInstanceAs (Decidable (foldCase (String.ofList word) = name))

/-- A value can be put in quotes unless it holds a quote. It can be bare unless it is empty, holds a
separator or starts with a quote; in a group it must hold no quote and no bracket either. -/
inductive SpellsValue (inGroup : Bool) (value : String) : List Char → Prop
  | quoted : '"' ∉ value.toList → SpellsValue inGroup value ('"' :: (value.toList ++ ['"']))
  | bare : value.toList ≠ [] → IsUnbroken value.toList →
      value.toList.head? ≠ some '"' →
      (inGroup = true → HasNoMark value.toList) →
      SpellsValue inGroup value value.toList

/-- A name stands alone, or it has a value behind `=` or `:` with white space around it. -/
inductive SpellsPlain (inGroup : Bool) : String × Detail → List Char → Prop
  | flag {name : String} {word : List Char} : SpellsName name word →
      SpellsPlain inGroup (name, .flag) word
  | value {name value : String} {word before after text : List Char} {mark : Char} :
      SpellsName name word → IsBlankRun before → mark = '=' ∨ mark = ':' → IsBlankRun after →
      SpellsValue inGroup value text →
      SpellsPlain inGroup (name, .value value) (word ++ (before ++ mark :: (after ++ text)))

/-- Every part is spelled, with commas and white space around the parts and at least one of them
between two parts. -/
inductive SpellsEach {α : Type} (Spells : α → List Char → Prop) : List α → List Char → Prop
  | nil {gap : List Char} : IsGap gap → SpellsEach Spells [] gap
  | cons {x : α} {xs : List α} {gap text rest : List Char} : IsGap gap → Spells x text →
      IsApart rest → SpellsEach Spells xs rest → SpellsEach Spells (x :: xs) (gap ++ (text ++ rest))

/-- A remark without details is spelled as such, and one with details as its name with the details
in brackets behind it, whose text `Inner` describes. -/
inductive SpellsRemark (Inner : List (String × Detail) → List Char → Prop) :
    Remark → List Char → Prop
  | plain {name : String} {detail : Detail} {text : List Char} :
      SpellsPlain false (name, detail) text → SpellsRemark Inner (.plain name detail) text
  | group {name : String} {details : List (String × Detail)} {word before inner : List Char} :
      SpellsName name word → IsBlankRun before → Inner details inner →
      SpellsRemark Inner (.group name details) (word ++ (before ++ '(' :: (inner ++ [')'])))

/-- The text spells the remarks. -/
def Spells (remarks : List Remark) (text : List Char) : Prop :=
  SpellsEach (SpellsRemark (SpellsEach (SpellsPlain true))) remarks text

/-! ### Names -/

/-- A character of the names of annotations. -/
def IsNameLetter (c : Char) : Prop := c.isLower = true ∨ c = '-'

instance (c : Char) : Decidable (IsNameLetter c) :=
  inferInstanceAs (Decidable (c.isLower = true ∨ c = '-'))

/-- The name is written with small letters and hyphens. -/
def IsTagName (name : String) : Prop := name.toList ≠ [] ∧ ∀ c ∈ name.toList, IsNameLetter c

instance (name : String) : Decidable (IsTagName name) :=
  @instDecidableAnd _ _ _ (List.decidableBAll IsNameLetter name.toList)

theorem IsNameLetter.small {c : Char} (h : IsNameLetter c) : c.toNat < 0x80 := by
  rcases h with lower | rfl
  · have bounds := Bool.and_eq_true_iff.mp lower
    have le := UInt32.le_iff_toNat_le.mp (of_decide_eq_true bounds.2)
    exact Nat.lt_of_le_of_lt le (by decide)
  · decide

theorem IsNameLetter.toLower_eq {c : Char} (h : IsNameLetter c) : c.toLower = c := by
  have all : ∀ n < 0x80, IsNameLetter (Char.ofNat n) → (Char.ofNat n).toLower = Char.ofNat n := by
    decide
  have this := all c.toNat h.small
  rw [Char.ofNat_toNat] at this
  exact this h

/-- What becomes a character of a name in lower case is an ASCII character that can be read in
one. -/
theorem IsNameLetter.of_toLower {c : Char} (h : IsNameLetter c.toLower) :
    c.toNat < 0x80 ∧ endsName c = false := by
  have all : ∀ n < 0x80, IsNameLetter (Char.ofNat n).toLower → endsName (Char.ofNat n) = false := by
    decide
  by_cases small : c.toNat < 0x80
  · refine ⟨small, ?_⟩
    have this := all c.toNat small
    rw [Char.ofNat_toNat] at this
    exact this h
  · have above : ¬ c.val ≤ 'Z'.val := fun le =>
      small (Nat.lt_of_le_of_lt (UInt32.le_iff_toNat_le.mp le) (by decide))
    have same : c.toLower = c := dif_neg fun le => absurd le.2 above
    exact absurd (same ▸ h).small small

/-- A name spells itself. -/
theorem spellsName_self {name : String} (h : IsTagName name) : SpellsName name name.toList := by
  have same : ∀ c ∈ name.toList, c.toLower = c := fun c hc => (h.2 c hc).toLower_eq
  rw [SpellsName, String.ofList_toList, foldCase, List.map_congr_left same, List.map_id',
    String.ofList_toList]

/-- What spells the name of an annotation is a word, and this name is its lower case. -/
theorem SpellsName.read {name : String} {word : List Char} (h : SpellsName name word)
    (tag : IsTagName name) : IsWord word ∧ lowercase (String.ofList word) = name := by
  have letters : name.toList = word.map Char.toLower := by
    rw [← h, foldCase, String.toList_ofList, String.toList_ofList]
  have each : ∀ c ∈ word, c.toNat < 0x80 ∧ endsName c = false := fun c hc =>
    (tag.2 _ (letters ▸ List.mem_map_of_mem hc)).of_toLower
  refine ⟨⟨?_, fun c hc => (each c hc).2⟩, ?_⟩
  · rintro rfl
    exact tag.1 letters
  · rw [lowercase_of_ascii fun c hc => (each c (by simpa using hc)).1]
    exact h

/-! ### Values -/

section Values

variable {inGroup : Bool} {value : String} {text rest : List Char}

theorem SpellsValue.read (h : SpellsValue inGroup value text) (apart : IsApart rest) :
    readValue (text ++ rest) = .ok (value, rest) := by
  cases h with
  | quoted inside =>
      obtain ⟨front, back⟩ : (value.toList ++ '"' :: rest).takeWhile (· ≠ '"') = value.toList ∧
          (value.toList ++ '"' :: rest).dropWhile (· ≠ '"') = '"' :: rest :=
        span_of_run (fun c hc => by simpa using fun same : c = '"' => inside (same ▸ hc)) (by simp)
      simp only [List.cons_append, List.append_assoc, List.nil_append, readValue, front, back,
        String.ofList_toList]
      cases rest with
      | nil => rfl
      | cons c rest => simp [apart c rfl]
  | bare some_there plain unquoted =>
      obtain ⟨front, back⟩ : (value.toList ++ rest).takeWhile (!isSeparator ·) = value.toList ∧
          (value.toList ++ rest).dropWhile (!isSeparator ·) = rest :=
        span_of_run (fun c hc => by simp [plain c hc]) fun c hc => by simp [apart c hc]
      rw [readValue, front, back, String.ofList_toList]
      intro s same
      obtain ⟨c, cs, written⟩ := List.exists_cons_of_ne_nil some_there
      rw [written] at same unquoted
      exact unquoted (congrArg some (List.cons.inj same).1)

/-- A value does not start with white space. -/
theorem SpellsValue.visible (h : SpellsValue inGroup value text) :
    ∃ c more, text = c :: more ∧ isBlank c = false := by
  cases h with
  | quoted _ => exact ⟨_, _, rfl, by decide⟩
  | bare some_there plain _ =>
      obtain ⟨c, more, written⟩ := List.exists_cons_of_ne_nil some_there
      refine ⟨c, more, written, ?_⟩
      have apart := plain c (written ▸ List.mem_cons_self)
      simp only [isSeparator, Bool.or_eq_false_iff] at apart
      exact apart.2

end Values

/-! ### Reading item after item -/

/-- The item that a name with or without a value is. -/
def plainItem : String × Detail → Item
  | (name, .flag) => .flag name
  | (name, .value text) => .value name text

/-- The item that a remark is. -/
def Remark.toItem : Remark → Item
  | .plain name detail => plainItem (name, detail)
  | .group name details => .group name (details.map plainItem) none

/-- The text starts with a character of a name. -/
def StartsWord (text : List Char) : Prop := ∃ c more, text = c :: more ∧ endsName c = false

/-- The text is read as this item wherever it stands. -/
def IsReadAs (item : Item) (text : List Char) : Prop :=
  StartsWord text ∧ ∀ stop rest, IsApart rest → IsAlone rest →
    ∃ token, nextToken (text ++ rest) = .ok (token, rest) ∧ itemOf stop rest token = item

section Items

variable {α : Type} {Spells : α → List Char → Prop} {x : α} {xs : List α}
variable {word gap text rest : List Char}

theorem IsWord.startsWord (h : IsWord word) (text : List Char) : StartsWord (word ++ text) := by
  obtain ⟨c, more, rfl⟩ := List.exists_cons_of_ne_nil h.1
  exact ⟨c, more ++ text, rfl, h.2 c List.mem_cons_self⟩

theorem StartsWord.append (h : StartsWord text) (rest : List Char) : StartsWord (text ++ rest) := by
  obtain ⟨c, more, rfl, visible⟩ := h
  exact ⟨c, more ++ rest, rfl, visible⟩

theorem isAlone_of_gap (gap : IsGap text) (behind : rest = [] ∨ StartsWord rest) :
    IsAlone (text ++ rest) := by
  have other {c : Char} (h : c ∈ ['=', ':', '(']) : isSeparator c = false ∧ endsName c := by
    simp only [List.mem_cons, List.not_mem_nil, or_false] at h
    rcases h with rfl | rfl | rfl <;> decide
  intro c hc held
  -- the white space ends at a comma in the gap, at the next name or with the text
  induction text with
  | nil =>
      rcases behind with rfl | ⟨d, more, rfl, visible⟩
      · simp at hc
      · have : isBlank d = false := by
          simp only [endsName, isSeparator, Bool.or_eq_false_iff] at visible
          exact visible.1.1.1.1.1.2
        simp only [List.nil_append, List.dropWhile_cons, this] at hc
        obtain rfl := Option.some.inj hc
        exact absurd (other held).2 (by simp [visible])
  | cons d text ih =>
      by_cases blank : isBlank d
      · rw [List.cons_append, List.dropWhile_cons_of_pos blank] at hc
        exact ih (fun c hc => gap c (List.mem_cons_of_mem _ hc)) hc
      · rw [List.cons_append, List.dropWhile_cons_of_neg blank] at hc
        obtain rfl := Option.some.inj hc
        exact absurd (gap d List.mem_cons_self) (by simp [(other held).1])

theorem SpellsEach.isAlone (h : SpellsEach Spells xs text)
    (starts : ∀ x ∈ xs, ∀ text, Spells x text → StartsWord text) : IsAlone text := by
  cases h with
  | nil gap => simpa using isAlone_of_gap gap (.inl rfl)
  | cons gap spelled _ _ =>
      exact isAlone_of_gap gap (.inr ((starts _ List.mem_cons_self _ spelled).append _))

/-- If each part is read as its item, the whole text is read as these items. -/
theorem SpellsEach.items (h : SpellsEach Spells xs text) {item : α → Item}
    (reads : ∀ x ∈ xs, ∀ text, Spells x text → IsReadAs (item x) text) (stop : Nat) :
    itemsOf stop text = (xs.map item, none) := by
  induction h with
  | nil gap => exact itemsOf_of_gap gap
  | @cons x xs gap text rest isGap spelled apart spelledRest ih =>
      have readsRest : ∀ x ∈ xs, ∀ text, Spells x text → IsReadAs (item x) text := fun x hx =>
        reads x (List.mem_cons_of_mem _ hx)
      obtain ⟨starts, reads⟩ := reads x List.mem_cons_self text spelled
      -- a name is not continued by the next part, because that starts with a name of its own
      have alone := spelledRest.isAlone fun x hx text h => (readsRest x hx text h).1
      obtain ⟨token, read, same⟩ := reads stop rest apart alone
      have front : (gap ++ (text ++ rest)).dropWhile isSeparator = text ++ rest := by
        obtain ⟨c, more, rfl, visible⟩ := starts
        refine (span_of_run isGap fun d hd => ?_).2
        obtain rfl := Option.some.inj hd
        exact fun h => by simp [endsName_of_isSeparator h] at visible
      rw [itemsOf_cons front read apart, same, ih readsRest]
      rfl

end Items

/-! ### Brackets that belong together -/

/-- Looking for the end of a group goes on behind the piece, in quotes or not as `after` says. -/
def Passes (before : Bool) (piece : List Char) (after : Bool) : Prop :=
  ∀ depth tail, takeGroup depth before (piece ++ tail) =
    (takeGroup depth after tail).map fun (inner, behind) => (piece ++ inner, behind)

/-- A bracket behind the text closes the group in which it stands. -/
def Encloses (inner : List Char) : Prop :=
  ∀ rest, takeGroup 0 false (inner ++ ')' :: rest) = some (inner, rest)

section Passes

variable {q q' q'' : Bool} {s t : List Char} {c : Char}

theorem Passes.nil (q : Bool) : Passes q [] q := fun depth tail => by simp

theorem Passes.append (h : Passes q s q') (h' : Passes q' t q'') : Passes q (s ++ t) q'' := by
  intro depth tail
  rw [List.append_assoc, h, h', Option.map_map]
  simp [Function.comp_def]

theorem Passes.encloses (h : Passes false s false) : Encloses s := by
  intro rest
  rw [h]
  simp [takeGroup]

theorem passes_quote (q : Bool) : Passes q ['"'] (!q) := fun depth tail => by simp [takeGroup]

theorem passes_of_ne (hc : c ≠ '"') (h : q = true ∨ c ∉ ['(', ')']) : Passes q [c] q := by
  intro depth tail
  rcases h with rfl | h
  · simp [takeGroup, hc]
  · simp only [List.mem_cons, List.not_mem_nil, or_false, not_or] at h
    simp [takeGroup, hc, h]

/-- In quotes, only a quote counts. -/
theorem passes_of_quoted (h : '"' ∉ s) : Passes true s true := by
  induction s with
  | nil => exact .nil _
  | cons c s ih =>
      have one : Passes true [c] true := passes_of_ne (fun same => h (by simp [same])) (.inl rfl)
      exact one.append (ih fun held => h (List.mem_cons_of_mem _ held))

/-- Without brackets, only the number of quotes counts. -/
theorem passes_of_noBracket (h : HasNoBracket s) (q : Bool) :
    Passes q s (q ^^ decide (Odd (s.count '"'))) := by
  induction s generalizing q with
  | nil => simpa using Passes.nil q
  | cons c s ih =>
      have rest := ih fun c hc => h c (List.mem_cons_of_mem _ hc)
      by_cases same : c = '"'
      · subst same
        have turns : decide (Odd (('"' :: s).count '"')) = !decide (Odd (s.count '"')) := by
          rw [← decide_not, decide_eq_decide, List.count_cons_self, Nat.odd_add_one]
        rw [turns, Bool.xor_not, ← Bool.not_xor]
        exact (passes_quote q).append (rest (!q))
      · have one := passes_of_ne (q := q) same (.inr (h c List.mem_cons_self))
        simpa [List.count_cons, same] using one.append (rest q)

/-- A text without quotes and brackets is passed. -/
theorem passes_of_plain (h : HasNoMark s) : Passes q s q := by
  have none_there : s.count '"' = 0 :=
    List.count_eq_zero.mpr fun held => h _ held (by simp)
  simpa [none_there] using
    passes_of_noBracket (s := s) (fun c hc held => h c hc (List.mem_cons_of_mem _ held)) q

end Passes

/-! ### What is spelled is read -/

section Grammar

variable {inGroup : Bool} {p : String × Detail} {details : List (String × Detail)}
variable {remark : Remark} {Inner : List (String × Detail) → List Char → Prop}
variable {text word gap value : List Char} {c : Char} {detail : String}

theorem not_mem_of_endsName (h : endsName c = false) : c ∉ ['"', '(', ')'] := by
  simp only [List.mem_cons, List.not_mem_nil, or_false]
  rintro (rfl | rfl | rfl) <;> simp [endsName] at h

theorem not_mem_of_isSeparator (h : isSeparator c) : c ∉ ['"', '(', ')'] := by
  simp only [List.mem_cons, List.not_mem_nil, or_false]
  rintro (rfl | rfl | rfl) <;> revert h <;> decide

theorem passes_of_isBlankRun (h : IsBlankRun gap) : Passes false gap false :=
  passes_of_plain fun c hc => not_mem_of_isSeparator (isSeparator_of_isBlank (h c hc))

theorem IsWord.passes (h : IsWord word) {q : Bool} : Passes q word q :=
  passes_of_plain fun c hc => not_mem_of_endsName (h.2 c hc)

theorem SpellsValue.passes (h : SpellsValue true detail value) : Passes false value false := by
  cases h with
  | quoted inside =>
      exact (passes_quote false).append ((passes_of_quoted inside).append (passes_quote true))
  | bare _ _ _ plain => exact passes_of_plain (plain rfl)

theorem SpellsPlain.isReadAs (h : SpellsPlain inGroup p text) (tag : IsTagName p.1) :
    IsReadAs (plainItem p) text := by
  cases h with
  | flag spells =>
      obtain ⟨isWord, rfl⟩ := spells.read tag
      exact ⟨by simpa using isWord.startsWord [], fun stop rest apart alone =>
        ⟨_, nextToken_flag isWord apart alone, rfl⟩⟩
  | value spells before mark after spellsValue =>
      obtain ⟨isWord, rfl⟩ := spells.read tag
      refine ⟨isWord.startsWord _, fun stop rest apart alone => ⟨.value _ _, ?_, rfl⟩⟩
      obtain ⟨c, more, rfl, visible⟩ := spellsValue.visible
      simp only [List.append_assoc, List.cons_append]
      refine nextToken_value isWord before mark ?_
      rw [dropWhile_blank after visible]
      exact spellsValue.read apart

theorem SpellsPlain.passes (h : SpellsPlain true p text) (tag : IsTagName p.1) :
    Passes false text false := by
  cases h with
  | flag spells => exact (spells.read tag).1.passes
  | @value _ _ _ _ _ _ c spells before mark after spellsValue =>
      have marks : Passes false [c] false :=
        passes_of_ne (by rcases mark with rfl | rfl <;> decide)
          (.inr (by rcases mark with rfl | rfl <;> decide))
      exact (spells.read tag).1.passes.append ((passes_of_isBlankRun before).append
        (marks.append ((passes_of_isBlankRun after).append spellsValue.passes)))

/-- What spells details can stand between brackets. -/
theorem SpellsEach.passes (h : SpellsEach (SpellsPlain true) details text)
    (tags : ∀ p ∈ details, IsTagName p.1) : Passes false text false := by
  induction h with
  | nil gap => exact passes_of_plain fun c hc => not_mem_of_isSeparator (gap c hc)
  | cons gap spelled _ _ ih =>
      exact (passes_of_plain fun c hc => not_mem_of_isSeparator (gap c hc)).append
        ((spelled.passes (tags _ List.mem_cons_self)).append
          (ih fun p hp => tags p (List.mem_cons_of_mem _ hp)))

theorem SpellsEach.items_details (h : SpellsEach (SpellsPlain inGroup) details text)
    (tags : ∀ p ∈ details, IsTagName p.1) (stop : Nat) :
    itemsOf stop text = (details.map plainItem, none) :=
  h.items (fun p hp _ spelled => spelled.isReadAs (tags p hp)) stop

/-- The text in the brackets of a group gives its details, and the group ends behind it. -/
def IsReadInGroup (details : List (String × Detail)) (inner : List Char) : Prop :=
  Encloses inner ∧ ∀ stop, itemsOf stop inner = (details.map plainItem, none)

theorem SpellsRemark.isReadAs (h : SpellsRemark Inner remark text) (tag : IsTagName remark.name)
    (inGroups : ∀ name details inner, remark = .group name details → Inner details inner →
      (Annotations.detailNames.lookup name).isSome ∧ IsReadInGroup details inner) :
    IsReadAs remark.toItem text := by
  cases h with
  | plain spelled => exact spelled.isReadAs tag
  | @group _ _ word _ inner spells before inside =>
      obtain ⟨takes, encloses, items⟩ := inGroups _ _ _ rfl inside
      obtain ⟨isWord, rfl⟩ := spells.read tag
      refine ⟨isWord.startsWord _, fun stop rest apart alone =>
        ⟨.group (lowercase (String.ofList word)) inner, ?_, ?_⟩⟩
      · simp only [List.append_assoc, List.cons_append, List.nil_append]
        exact nextToken_group isWord before takes (encloses rest)
      · simp only [itemOf, items, Remark.toItem]

end Grammar

/-! ### Commas -/

section Commas

variable {α β : Type} {Spells : α → List Char → Prop} {f : β → α} {print : β → String}

theorem SpellsEach.separator_cons {xs : List α} {s : List Char} {c : Char}
    (h : SpellsEach Spells xs s) (separator : isSeparator c) : SpellsEach Spells xs (c :: s) := by
  cases h with
  | nil gap => exact .nil (List.forall_mem_cons.mpr ⟨separator, gap⟩)
  | @cons _ _ gap _ _ isGap spelled apart rest =>
      have longer : IsGap (c :: gap) := List.forall_mem_cons.mpr ⟨separator, isGap⟩
      exact .cons longer spelled apart rest

/-- Texts with commas between them spell what they spell one by one. -/
theorem spellsEach_intercalate {xs : List β} (h : ∀ x ∈ xs, Spells (f x) (print x).toList) :
    SpellsEach Spells (xs.map f) (",".intercalate (xs.map print)).toList := by
  rw [String.toList_intercalate, List.map_map]
  induction xs with
  | nil => exact .nil isGap_nil
  | cons x xs ih =>
      obtain ⟨first, others⟩ := List.forall_mem_cons.mp h
      cases xs with
      | nil => simpa using SpellsEach.cons isGap_nil first isApart_nil (.nil isGap_nil)
      | cons y xs =>
          have comma : isSeparator ',' := by decide
          have rest := SpellsEach.separator_cons (ih others) comma
          simpa using SpellsEach.cons isGap_nil first (isApart_cons comma _) rest

end Commas

end SchemaLedger.Tag
