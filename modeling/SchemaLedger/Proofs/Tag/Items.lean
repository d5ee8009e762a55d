import Mathlib.Data.List.TakeWhile
import SchemaLedger.Tag.Token
import SchemaLedger.Text.Case

/-!
# Cutting off one item

What stands at the front of a text is an item, provided that a separator or the end comes behind it.
So the items of a text are the first one and those of the text behind it. A name is read in any case
of its letters, and a group is what lies between brackets that belong together.
-/

namespace SchemaLedger.Tag

open Text

variable {stop : Nat} {s t rest word before after behind inner : List Char} {token : Token}
variable {name value : String} {c : Char}

/-! ### Runs of characters

The instances say how to decide: a bounded quantifier over characters could also be read as one over
all characters. -/

/-- Nothing but white space. -/
def IsBlankRun (s : List Char) : Prop := ∀ c ∈ s, isBlank c

/-- Nothing but commas and white space. -/
def IsGap (s : List Char) : Prop := ∀ c ∈ s, isSeparator c

/-- Neither commas nor white space. -/
def IsUnbroken (s : List Char) : Prop := ∀ c ∈ s, isSeparator c = false

/-- No brackets. -/
def HasNoBracket (s : List Char) : Prop := ∀ c ∈ s, c ∉ ['(', ')']

/-- Neither quotes nor brackets. -/
def HasNoMark (s : List Char) : Prop := ∀ c ∈ s, c ∉ ['"', '(', ')']

instance (s : List Char) : Decidable (IsBlankRun s) := List.decidableBAll (isBlank · = true) s

instance (s : List Char) : Decidable (IsGap s) := List.decidableBAll (isSeparator · = true) s

instance (s : List Char) : Decidable (IsUnbroken s) := List.decidableBAll (isSeparator · = false) s

instance (s : List Char) : Decidable (HasNoBracket s) := List.decidableBAll (· ∉ ['(', ')']) s

instance (s : List Char) : Decidable (HasNoMark s) := List.decidableBAll (· ∉ ['"', '(', ')']) s

theorem isBlankRun_nil : IsBlankRun [] := nofun

theorem isGap_nil : IsGap [] := nofun

/-! ### One item after the other -/

/-- Nothing follows, or a separator does. -/
def IsApart (rest : List Char) : Prop := ∀ c, rest.head? = some c → isSeparator c

theorem isApart_nil : IsApart [] := nofun

theorem isApart_cons (h : isSeparator c) (rest : List Char) : IsApart (c :: rest) :=
  fun _ same => Option.some.inj same ▸ h

/-- The item of a token with the text `rest` behind it. -/
def itemOf (stop : Nat) (rest : List Char) : Token → Item
  | .flag name => .flag name
  | .value name text => .value name text
  | .group name inner =>
    let (items, fault) := itemsOf (stop - byteLength rest - 1) inner
    .group name items fault

theorem itemsOf_eq (stop : Nat) (s : List Char) :
    itemsOf stop s =
      match s.dropWhile isSeparator with
      | [] => ([], none)
      | first :: others =>
        match nextToken (first :: others) with
        | .error (cause, place) => ([], some (cause, stop - byteLength place))
        | .ok (token, []) => ([itemOf stop [] token], none)
        | .ok (token, c :: rest) =>
          if isSeparator c then
            (itemOf stop (c :: rest) token :: (itemsOf stop (c :: rest)).1,
              (itemsOf stop (c :: rest)).2)
          else
            ([itemOf stop (c :: rest) token], some (.unexpected c, stop - byteLength (c :: rest))) := by
  rw [itemsOf]
  split
  · next none_left => simp [none_left]
  · next first others front =>
      simp only [front]
      split
      · next failed => simp [failed]
      · next token rest read =>
          simp only [read]
          cases token <;> cases rest <;> simp [itemOf]

theorem itemsOf_of_gap (gap : IsGap s) : itemsOf stop s = ([], none) := by
  rw [itemsOf_eq, List.dropWhile_eq_nil_iff.mpr gap]

/-- The first item is the one at the front, and the others are those behind it. -/
theorem itemsOf_cons (front : s.dropWhile isSeparator = t) (read : nextToken t = .ok (token, rest))
    (apart : IsApart rest) :
    itemsOf stop s =
      (itemOf stop rest token :: (itemsOf stop rest).1, (itemsOf stop rest).2) := by
  rw [itemsOf_eq, front]
  cases t with
  | nil => simp [nextToken] at read
  | cons first others =>
      simp only [read]
      cases rest with
      | nil => simp [itemsOf_of_gap isGap_nil]
      | cons c rest => simp [apart c rfl]

/-- What holds of the item of every token holds of every item of a text. -/
theorem forall_mem_itemsOf (stop : Nat) (s : List Char) {P : Item → Prop}
    (each : ∀ s token rest, nextToken s = .ok (token, rest) → P (itemOf stop rest token)) :
    ∀ item ∈ (itemsOf stop s).1, P item := by
  induction h : s.length using Nat.strongRecOn generalizing s with
  | ind n ih =>
      rw [itemsOf_eq]
      have shorter := length_dropWhile_le isSeparator s
      split
      · simp
      · next first others front =>
          rw [front] at shorter
          split
          · simp
          · next token read => simpa using each _ _ _ read
          · next token c rest read =>
              have := (nextToken_length read).1
              split
              · exact List.forall_mem_cons.mpr ⟨each _ _ _ read, ih (c :: rest).length (by omega) _ rfl⟩
              · simpa using each _ _ _ read

/-! ### Words -/

/-- What can be a name. -/
def IsWord (word : List Char) : Prop := word ≠ [] ∧ ∀ c ∈ word, endsName c = false

/-- A run is cut off where it ends. -/
theorem span_of_run {p : Char → Bool} (run : ∀ c ∈ s, p c) (ends : ∀ c, rest.head? = some c → ¬ p c) :
    (s ++ rest).takeWhile p = s ∧ (s ++ rest).dropWhile p = rest := by
  rw [List.takeWhile_append_of_pos run, List.dropWhile_append_of_pos run]
  cases rest with
  | nil => simp
  | cons c rest => simp [ends c rfl]

theorem endsName_of_isSeparator (h : isSeparator c) : endsName c := by
  simp [endsName, h]

theorem isSeparator_of_isBlank (h : isBlank c) : isSeparator c := by
  simp [isSeparator, h]

/-- The word at the front of a text ends where a character cannot be part of it. -/
theorem span_of_isWord (isWord : IsWord word) (ends : ∀ c, rest.head? = some c → endsName c) :
    (word ++ rest).takeWhile (!endsName ·) = word ∧
      (word ++ rest).dropWhile (!endsName ·) = rest :=
  span_of_run (fun c hc => by simp [isWord.2 c hc]) fun c hc => by simp [ends c hc]

/-- Nothing follows that would belong to a name in front of it. -/
def IsAlone (rest : List Char) : Prop :=
  ∀ c, (rest.dropWhile isBlank).head? = some c → c ∉ ['=', ':', '(']

/-- A word with nothing that belongs to it behind it is an item. -/
theorem nextToken_flag (isWord : IsWord word) (apart : IsApart rest) (alone : IsAlone rest) :
    nextToken (word ++ rest) = .ok (.flag (lowercase (String.ofList word)), rest) := by
  obtain ⟨front, back⟩ := span_of_isWord isWord fun c hc => endsName_of_isSeparator (apart c hc)
  simp only [nextToken, front, back, if_neg isWord.1]
  cases next : rest.dropWhile isBlank with
  | nil => rfl
  | cons c behind =>
      have other := alone c (by rw [next]; rfl)
      simp only [List.mem_cons, List.not_mem_nil, or_false, not_or] at other
      simp [other]

theorem blank_ends (blank : IsBlankRun before) (h : endsName c) (rest : List Char) :
    ∀ d, (before ++ c :: rest).head? = some d → endsName d := by
  intro d hd
  cases before with
  | nil => exact Option.some.inj hd ▸ h
  | cons b before =>
      obtain rfl := Option.some.inj hd
      exact endsName_of_isSeparator (isSeparator_of_isBlank (blank b List.mem_cons_self))

theorem dropWhile_blank {c : Char} (blank : IsBlankRun before) (h : isBlank c = false) :
    (before ++ c :: rest).dropWhile isBlank = c :: rest :=
  (span_of_run blank fun d hd => by simp [← Option.some.inj hd, h]).2

/-- A word with an equals sign or a colon and a value behind it is an item. -/
theorem nextToken_value (isWord : IsWord word) (blank : IsBlankRun before)
    (mark : c = '=' ∨ c = ':') (read : readValue (s.dropWhile isBlank) = .ok (value, rest)) :
    nextToken (word ++ (before ++ c :: s)) =
      .ok (.value (lowercase (String.ofList word)) value, rest) := by
  have ends : endsName c := by rcases mark with rfl | rfl <;> decide
  have visible : isBlank c = false := by rcases mark with rfl | rfl <;> decide
  obtain ⟨front, back⟩ := span_of_isWord isWord (blank_ends blank ends s)
  simp only [nextToken, front, back, if_neg isWord.1, dropWhile_blank blank visible]
  rcases mark with rfl | rfl <;> simp [read]

/-- A word that takes details with brackets behind it is an item. -/
theorem nextToken_group (isWord : IsWord word) (blank : IsBlankRun before)
    (takes : (Annotations.detailNames.lookup (lowercase (String.ofList word))).isSome)
    (taken : takeGroup 0 false s = some (inner, rest)) :
    nextToken (word ++ (before ++ '(' :: s)) =
      .ok (.group (lowercase (String.ofList word)) inner, rest) := by
  have ends : endsName '(' := by decide
  obtain ⟨front, back⟩ := span_of_isWord isWord (blank_ends blank ends s)
  have known : (Annotations.detailNames.lookup (lowercase (String.ofList word))).isNone = false :=
    Option.isNone_eq_false_iff.mpr takes
  have visible : isBlank '(' = false := by decide
  simp only [nextToken, front, back, if_neg isWord.1, dropWhile_blank blank visible]
  simp [known, taken]

/-- How the text of an item looks, with the text `rest` behind it. -/
inductive Cuts (s rest : List Char) : Token → Prop
  | flag {word : List Char} : IsWord word → s = word ++ rest →
      Cuts s rest (.flag (lowercase (String.ofList word)))
  | value {word before after : List Char} {c : Char} {value : String} : IsWord word →
      IsBlankRun before → c = '=' ∨ c = ':' → s = word ++ (before ++ c :: after) →
      readValue (after.dropWhile isBlank) = .ok (value, rest) →
      Cuts s rest (.value (lowercase (String.ofList word)) value)
  | group {word before after inner : List Char} : IsWord word → IsBlankRun before →
      (Annotations.detailNames.lookup (lowercase (String.ofList word))).isSome →
      s = word ++ (before ++ '(' :: after) → takeGroup 0 false after = some (inner, rest) →
      Cuts s rest (.group (lowercase (String.ofList word)) inner)

theorem cuts_of_nextToken (h : nextToken s = .ok (token, rest)) : Cuts s rest token := by
  have parts := List.takeWhile_append_dropWhile (p := (!endsName ·)) (l := s)
  have inside : ∀ c ∈ s.takeWhile (!endsName ·), endsName c = false := fun c hc => by
    simpa using List.mem_takeWhile_imp hc
  simp only [nextToken] at h
  generalize s.takeWhile (!endsName ·) = word at h parts inside
  generalize s.dropWhile (!endsName ·) = behind at h parts
  split at h
  · cases h
  · next some_there =>
      have isWord : IsWord word := ⟨some_there, inside⟩
      have blank := List.takeWhile_append_dropWhile (p := isBlank) (l := behind)
      have blanks : ∀ c ∈ behind.takeWhile isBlank, isBlank c := fun c => List.mem_takeWhile_imp
      split at h
      · cases h
        exact .flag isWord parts.symm
      · next c after front =>
          rw [front] at blank
          rw [← blank] at parts
          split at h
          · next mark =>
              split at h
              · next read =>
                  cases h
                  exact .value isWord blanks (by simpa using mark) parts.symm read
              · cases h
          · split at h
            · next bracket =>
                obtain rfl := bracket
                split at h
                · cases h
                · next takes =>
                    split at h
                    · next taken =>
                        cases h
                        exact .group isWord blanks (by simpa [Option.isSome_iff_ne_none] using takes)
                          parts.symm taken
                    · cases h
            · cases h
              exact .flag isWord (parts.symm.trans (congrArg (word ++ ·) blank))

end SchemaLedger.Tag
