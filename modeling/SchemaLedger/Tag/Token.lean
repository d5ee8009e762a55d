import SchemaLedger.Error.Tag
import SchemaLedger.Tag.Basic
import SchemaLedger.Text.Blank
import SchemaLedger.Text.Lowercase

/-!
# The items of an annotation text

A text is a list of items between separators: commas and white space, as many as there are. An item
is a name, a name with a value behind `=` or `:`, or a name with a group in brackets. White space
between a name and what follows it does not count. A value in quotes may hold separators. The text
inside a group is again a list of items.

Cutting a text into items looks at one item at a time and stops at the first fault. The items before
the fault are kept, because what they say may be wrong too, and then that is reported. Where a fault
lies is counted in bytes of the whole text, however deep in groups it is.
-/

namespace SchemaLedger.Tag

open Text

-- the empty sum is the literal zero, whatever instances are in scope
attribute [local instance (high)] Zero.ofOfNat0

/-- A character between items. -/
def isSeparator (c : Char) : Bool := c = ',' || isBlank c

/-- A character that cannot be part of a name. -/
def endsName (c : Char) : Bool :=
  isSeparator c || c = '=' || c = ':' || c = '(' || c = ')' || c = '"'

/-- The number of bytes of a text. -/
def byteLength (s : List Char) : Nat := (s.map Char.utf8Size).sum

/-- What stands at the front of a text. -/
inductive Token where
  | flag (name : String)
  | value (name text : String)
  | group (name : String) (inner : List Char)

/-- A step of reading gives something with the text behind it, or a fault with the text that starts
where it lies. -/
abbrev Step (α : Type) := Except (TagFault × List Char) (α × List Char)

/-- Reads a value. -/
def readValue : List Char → Step String
  | '"' :: s =>
    let value := String.ofList (s.takeWhile (· ≠ '"'))
    match s.dropWhile (· ≠ '"') with
    | [] => .error (.unclosedQuote, [])
    | _ :: [] => .ok (value, [])
    | _ :: c :: rest =>
      if isSeparator c then .ok (value, c :: rest) else .error (.behindQuote, c :: rest)
  | s => .ok (String.ofList (s.takeWhile (!isSeparator ·)), s.dropWhile (!isSeparator ·))

/-- The text up to the bracket that closes a group, and the text behind this bracket. Brackets in
quotes do not count. -/
def takeGroup (depth : Nat) (inQuotes : Bool) : List Char → Option (List Char × List Char)
  | [] => none
  | c :: rest =>
    let go (depth : Nat) (inQuotes : Bool) :=
      (takeGroup depth inQuotes rest).map fun (inner, behind) => (c :: inner, behind)
    if c = '"' then go depth (!inQuotes)
    else if inQuotes then go depth inQuotes
    else if c = '(' then go (depth + 1) inQuotes
    else if c = ')' then
      match depth with
      | 0 => some ([], rest)
      | depth + 1 => go depth inQuotes
    else go depth inQuotes

/-- Reads the first item of a text that does not start with a separator. -/
def nextToken (s : List Char) : Step Token :=
  let word := s.takeWhile (!endsName ·)
  let rest := s.dropWhile (!endsName ·)
  let name := lowercase (String.ofList word)
  if word = [] then .error (.nameExpected (s.headD ' '), s)
  else
    match rest.dropWhile isBlank with
    | [] => .ok (.flag name, rest)
    | c :: behind =>
      if c = '=' || c = ':' then
        match readValue (behind.dropWhile isBlank) with
        | .ok (text, rest) => .ok (.value name text, rest)
        | .error e => .error e
      else if c = '(' then
        if (Annotations.detailNames.lookup name).isNone then
          .error (.detailsOn name, c :: behind)
        else
          match takeGroup 0 false behind with
          | some (inner, rest) => .ok (.group name inner, rest)
          | none => .error (.unclosedGroup, behind)
      else .ok (.flag name, rest)

/-! ### How much of the text is left -/

theorem length_dropWhile_le (p : Char → Bool) (s : List Char) :
    (s.dropWhile p).length ≤ s.length :=
  (List.dropWhile_sublist p).length_le

theorem readValue_length {s rest : List Char} {text : String}
    (h : readValue s = .ok (text, rest)) : rest.length ≤ s.length := by
  unfold readValue at h
  split at h
  · next s =>
      have shorter := length_dropWhile_le (· ≠ '"') s
      split at h
      · cases h
      · cases h
        exact Nat.zero_le _
      · next front =>
          rw [front, List.length_cons, List.length_cons] at shorter
          split at h
          · cases h
            simp only [List.length_cons]
            omega
          · cases h
  · cases h
    exact length_dropWhile_le _ _

/-- A group ends with its closing bracket. -/
theorem append_of_takeGroup {depth : Nat} {inQuotes : Bool} {s inner rest : List Char}
    (h : takeGroup depth inQuotes s = some (inner, rest)) : s = inner ++ ')' :: rest := by
  induction s generalizing depth inQuotes inner with
  | nil => cases h
  | cons c s ih =>
    have go {d : Nat} {q : Bool}
        (h : ((takeGroup d q s).map fun (inner, behind) => (c :: inner, behind)) =
          some (inner, rest)) : c :: s = inner ++ ')' :: rest := by
      obtain ⟨⟨inner', rest'⟩, taken, same⟩ := Option.map_eq_some_iff.mp h
      cases same
      rw [ih taken, List.cons_append]
    simp only [takeGroup] at h
    split at h
    · exact go h
    · split at h
      · exact go h
      · split at h
        · exact go h
        · split at h
          · next closes =>
            split at h
            · cases h
              rw [closes, List.nil_append]
            · exact go h
          · exact go h

theorem takeGroup_length {depth : Nat} {inQuotes : Bool} {s inner rest : List Char}
    (h : takeGroup depth inQuotes s = some (inner, rest)) :
    inner.length + rest.length < s.length := by
  rw [append_of_takeGroup h, List.length_append, List.length_cons]
  omega

/-- What is behind a token is shorter than the text, and so is what is inside a group. -/
theorem nextToken_length {s rest : List Char} {token : Token}
    (h : nextToken s = .ok (token, rest)) :
    rest.length < s.length ∧ ∀ name inner, token = .group name inner → inner.length < s.length := by
  simp only [nextToken] at h
  split at h
  · cases h
  · next some_word =>
      -- every token takes up its word, which is not empty
      have shorter : (s.dropWhile (!endsName ·)).length < s.length := by
        have parts := congrArg List.length
          (List.takeWhile_append_dropWhile (p := (!endsName ·)) (l := s))
        have letters := List.length_pos_iff.mpr some_word
        rw [List.length_append] at parts
        omega
      have blank := length_dropWhile_le isBlank (s.dropWhile (!endsName ·))
      split at h
      · cases h
        exact ⟨shorter, nofun⟩
      · next c behind front =>
          rw [front, List.length_cons] at blank
          split at h
          · split at h
            · next value =>
                cases h
                have left := readValue_length value
                have gap := length_dropWhile_le isBlank behind
                exact ⟨by omega, nofun⟩
            · cases h
          · split at h
            · split at h
              · cases h
              · split at h
                · next group =>
                    cases h
                    have parts := takeGroup_length group
                    refine ⟨by omega, fun name inner same => ?_⟩
                    cases same
                    omega
                · cases h
            · cases h
              exact ⟨shorter, nofun⟩

/-! ### Items -/

/-- A fault with the byte at which it lies. -/
abbrev PlacedFault := TagFault × Nat

/-- An item of a text. -/
inductive Item where
  | flag (name : String)
  | value (name text : String)
  /-- A group with its items, and the fault behind them if there is one. -/
  | group (name : String) (items : List Item) (fault : Option PlacedFault)

/-- The items of a text up to the first fault, and this fault. The text ends at the byte `stop` of
the whole text. -/
def itemsOf (stop : Nat) (s : List Char) : List Item × Option PlacedFault :=
  match hs : s.dropWhile isSeparator with
  | [] => ([], none)
  | first :: others =>
    match ht : nextToken (first :: others) with
    | .error (cause, place) => ([], some (cause, stop - byteLength place))
    | .ok (token, rest) =>
      have hlt := nextToken_length ht
      have hle := length_dropWhile_le isSeparator s
      have hrest : rest.length < s.length := by grind
      let item :=
        match hi : token with
        | .flag name => Item.flag name
        | .value name text => Item.value name text
        | .group name inner =>
          have hinner : inner.length < s.length := by grind
          let (items, fault) := itemsOf (stop - byteLength rest - 1) inner
          Item.group name items fault
      match rest with
      | [] => ([item], none)
      | c :: rest =>
        if isSeparator c then
          let (items, fault) := itemsOf stop (c :: rest)
          (item :: items, fault)
        else ([item], some (.unexpected c, stop - byteLength (c :: rest)))
termination_by s.length

end SchemaLedger.Tag
