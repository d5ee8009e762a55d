import SchemaLedger.Proofs.Error.Chains
import SchemaLedger.Proofs.Tag.Quotes
import SchemaLedger.Proofs.Tag.Slices
import SchemaLedger.Tag.Reader

/-!
# Where faults lie

A fault says what is wrong, and its position is where it is wrong: the character that the fault is
about stands there, or what was opened and is never closed ends in front of it. The items of a group
have their faults in the group, so this holds at any depth.
-/

namespace SchemaLedger.Tag

open Text

variable {text : String} {s t rest before after place inner : List Char} {token : Token}
variable {cause : TagFault} {c : Char}

/-! ### Where an item ends -/

theorem suffix_of_readValue {value : String} (h : readValue s = .ok (value, rest)) : rest <:+ s := by
  obtain ⟨rfl, -⟩ | ⟨rfl, -⟩ := readValue_eq_ok h
  · exact ⟨'"' :: (value.toList ++ ['"']), by simp⟩
  · exact List.suffix_append value.toList rest

/-- What is left behind an item is the end of the text. -/
theorem suffix_of_nextToken (h : nextToken s = .ok (token, rest)) : rest <:+ s := by
  cases cuts_of_nextToken h with
  | @flag word isWord parts =>
      rw [parts]
      exact List.suffix_append word rest
  | @value word before after c value isWord blank mark parts read =>
      have behind := (suffix_of_readValue read).trans (List.dropWhile_suffix isBlank)
      have more := behind.trans (List.suffix_append (word ++ (before ++ [c])) after)
      simpa [parts] using more
  | @group word before after inner isWord blank takes parts taken =>
      obtain rfl := append_of_takeGroup taken
      exact ⟨word ++ (before ++ '(' :: (inner ++ [')'])), by simp [parts]⟩

/-- A group lies in brackets. -/
theorem group_of_nextToken {name : String} (h : nextToken s = .ok (.group name inner, rest)) :
    ∃ front, s = front ++ '(' :: (inner ++ ')' :: rest) := by
  cases cuts_of_nextToken h with
  | @group word before after _ isWord blank takes parts taken =>
      obtain rfl := append_of_takeGroup taken
      exact ⟨word ++ before, by simp [parts]⟩

/-! ### Places -/

/-- A text that ends with a value in quotes, behind its mark. -/
def EndsWithQuoted (before : List Char) : Prop :=
  ∃ mark gap value, (mark = '=' ∨ mark = ':') ∧ IsBlankRun gap ∧ '"' ∉ value ∧
    mark :: (gap ++ '"' :: (value ++ ['"'])) <:+ before

/-- What is around the place of a fault. -/
def IsBetween (before after : List Char) : TagFault → Prop
  | .nameExpected c => after.head? = some c
  | .detailsOn _ => after.head? = some '('
  | .unexpected c => after.head? = some c
  | .unclosedQuote => ∃ value, '"' ∉ value ∧ '"' :: value <:+ before
  | .behindQuote => (∃ c, after.head? = some c ∧ isSeparator c = false) ∧ EndsWithQuoted before
  | .unclosedGroup => ['('] <:+ before

/-- A fault lies at this byte of a text. -/
def LiesAt (text : List Char) (fault : PlacedFault) : Prop :=
  ∃ before after, text = before ++ after ∧ fault.2 = byteLength before ∧
    IsBetween before after fault.1

/-- A place is the start of a character, or the end. -/
theorem LiesAt.isValid {position : Nat} (h : LiesAt text.toList (cause, position)) :
    String.Pos.Raw.IsValid text ⟨position⟩ := by
  obtain ⟨before, after, whole, same, -⟩ := h
  rw [show position = startOf text after from same.trans (startOf_eq whole).symm]
  exact isValid_startOf ⟨before, whole.symm⟩

/-- What is around a place stays there if there is more of the text. -/
theorem IsBetween.extend (h : IsBetween before after cause) (front back : List Char) :
    IsBetween (front ++ before) (after ++ back) cause := by
  have head {c : Char} (h : after.head? = some c) : (after ++ back).head? = some c := by
    rw [List.head?_append, h, Option.some_or]
  have tail {s : List Char} (h : s <:+ before) : s <:+ front ++ before :=
    h.trans (List.suffix_append front before)
  cases cause with
  | nameExpected => exact head h
  | detailsOn => exact head h
  | unexpected => exact head h
  | unclosedQuote =>
      obtain ⟨value, inside, ends⟩ := h
      exact ⟨value, inside, tail ends⟩
  | behindQuote =>
      obtain ⟨⟨c, first, unbroken⟩, mark, gap, value, isMark, blank, inside, ends⟩ := h
      exact ⟨⟨c, head first, unbroken⟩, mark, gap, value, isMark, blank, inside, tail ends⟩
  | unclosedGroup => exact tail h

/-! ### Faults of one item -/

/-- What is around the place at which reading a value stops. -/
theorem around_of_readValue {mark : Char} {gap : List Char} (isMark : mark = '=' ∨ mark = ':')
    (blank : IsBlankRun gap) (h : readValue s = .error (cause, place)) :
    ∃ used, s = used ++ place ∧ IsBetween (mark :: (gap ++ used)) place cause := by
  unfold readValue at h
  split at h
  · next s =>
      have parts := List.takeWhile_append_dropWhile (p := (· ≠ '"')) (l := s)
      have inside : '"' ∉ s.takeWhile (· ≠ '"') := fun held => by
        simpa using List.mem_takeWhile_imp held
      have ends := List.head?_dropWhile_not (· ≠ '"') s
      split at h
      · next front =>
          cases h
          rw [front, List.append_nil] at parts
          rw [parts] at inside
          exact ⟨'"' :: s, (List.append_nil _).symm, s, inside, by
            rw [← List.cons_append]; exact List.suffix_append (mark :: gap) ('"' :: s)⟩
      · cases h
      · next quote c rest front =>
          split at h
          · cases h
          · next unbroken =>
            cases h
            rw [front] at ends parts
            obtain rfl : quote = '"' := by simpa using ends
            refine ⟨'"' :: (s.takeWhile (· ≠ '"') ++ ['"']), by simpa using parts.symm, ?_, ?_⟩
            · exact ⟨c, rfl, by simpa using unbroken⟩
            · exact ⟨mark, gap, _, isMark, blank, inside, List.suffix_rfl⟩
  · cases h

/-- An item stops at a place around which stands what its fault says. -/
theorem around_of_nextToken (h : nextToken (c :: s) = .error (cause, place)) :
    ∃ used, c :: s = used ++ place ∧ IsBetween used place cause := by
  have parts := List.takeWhile_append_dropWhile (p := (!endsName ·)) (l := c :: s)
  simp only [nextToken] at h
  generalize (c :: s).takeWhile (!endsName ·) = word at h parts
  generalize (c :: s).dropWhile (!endsName ·) = behind at h parts
  split at h
  · cases h
    exact ⟨[], rfl, rfl⟩
  · have blank := List.takeWhile_append_dropWhile (p := isBlank) (l := behind)
    split at h
    · cases h
    · next d after front =>
        rw [front] at blank
        rw [← blank] at parts
        split at h
        · next mark =>
            split at h
            · cases h
            · next e failed =>
                cases h
                have apart := List.takeWhile_append_dropWhile (p := isBlank) (l := after)
                have blanks : IsBlankRun (after.takeWhile isBlank) := fun c => List.mem_takeWhile_imp
                generalize after.takeWhile isBlank = gap at apart blanks
                obtain ⟨used, rest, between⟩ :=
                  around_of_readValue (by simpa using mark) blanks failed
                rw [rest] at apart
                have more := between.extend (word ++ behind.takeWhile isBlank) []
                rw [List.append_nil] at more
                exact ⟨_, by simp [← parts, ← apart], more⟩
        · split at h
          · next bracket =>
              obtain rfl := bracket
              split at h
              · cases h
                exact ⟨word ++ behind.takeWhile isBlank, by simp [← parts], rfl⟩
              · split at h
                · cases h
                · cases h
                  exact ⟨word ++ (behind.takeWhile isBlank ++ ['(']), by simp [← parts], by
                    rw [← List.append_assoc]; exact List.suffix_append ..⟩
          · cases h

theorem suffix_of_failed (h : nextToken (c :: s) = .error (cause, place)) : place <:+ c :: s := by
  obtain ⟨used, parts, -⟩ := around_of_nextToken h
  rw [parts]
  exact List.suffix_append used place

/-! ### Faults of a text -/

/-- The faults in the groups among items. -/
def faultsIn : List Item → List PlacedFault
  | [] => []
  | .flag _ :: rest => faultsIn rest
  | .value _ _ :: rest => faultsIn rest
  | .group _ items fault :: rest => faultsIn items ++ fault.toList ++ faultsIn rest

/-- The faults of items with a fault behind them. -/
def faultsOf (found : List Item × Option PlacedFault) : List PlacedFault :=
  faultsIn found.1 ++ found.2.toList

theorem faultsIn_cons (item : Item) (items : List Item) :
    faultsIn (item :: items) = faultsIn [item] ++ faultsIn items := by
  cases item <;> simp [faultsIn]

theorem faultsIn_group (stop : Nat) (rest : List Char) (name : String) (inner : List Char) :
    faultsIn [itemOf stop rest (.group name inner)] =
      faultsOf (itemsOf (stop - byteLength rest - 1) inner) := by
  simp [itemOf, faultsIn, faultsOf]

/-- What stops at a place in a part of a text lies there in the text. -/
theorem liesAt_of_place {front : List Char} (before after : List Char)
    (parts : s = front ++ place) (between : IsBetween front place cause) :
    LiesAt (before ++ s ++ after) (cause, byteLength before + byteLength s - byteLength place) := by
  refine ⟨before ++ front, place ++ after, by simp [parts], ?_, between.extend before after⟩
  simp only [parts, byteLength_append]
  omega

/-- A group is a part of the text as well, with more in front of it and behind it. So its faults lie
in the text if those of shorter parts do. -/
theorem liesAt_of_item {front : List Char} (before after : List Char) (gap : front ++ t = s)
    (shorter : ∀ inner before after : List Char, inner.length < t.length →
      ∀ fault ∈ faultsOf (itemsOf (byteLength before + byteLength inner) inner),
        LiesAt (before ++ inner ++ after) fault)
    (read : nextToken t = .ok (token, rest)) :
    ∀ fault ∈ faultsIn [itemOf (byteLength before + byteLength s) rest token],
      LiesAt (before ++ s ++ after) fault := by
  cases token with
  | flag => simp [itemOf, faultsIn]
  | value => simp [itemOf, faultsIn]
  | group name inner =>
      obtain ⟨head, parts⟩ := group_of_nextToken read
      have faults := shorter inner (before ++ front ++ head ++ ['(']) (')' :: rest ++ after)
        ((nextToken_length read).2 name inner rfl)
      have width : ')'.utf8Size = 1 := by decide
      have stop : byteLength before + byteLength s - byteLength rest - 1 =
          byteLength (before ++ front ++ head ++ ['(']) + byteLength inner := by
        simp only [← gap, parts, byteLength_append, byteLength_cons, byteLength_nil, width]
        omega
      rw [faultsIn_group, stop]
      simpa [← gap, parts] using faults

/-- The faults of a part of a text lie where they are said to lie in the text. -/
theorem liesAt_of_itemsOf (before after s : List Char) :
    ∀ fault ∈ faultsOf (itemsOf (byteLength before + byteLength s) s),
      LiesAt (before ++ s ++ after) fault := by
  induction length : s.length using Nat.strongRecOn generalizing before s after with
  | ind n ih =>
      have gap := List.takeWhile_append_dropWhile (p := isSeparator) (l := s)
      have shorter := length_dropWhile_le isSeparator s
      rw [itemsOf_eq]
      generalize s.takeWhile isSeparator = front at gap
      generalize s.dropWhile isSeparator = t at gap shorter ⊢
      have inItem {token : Token} {rest : List Char} (read : nextToken t = .ok (token, rest)) :=
        liesAt_of_item before after gap
          (fun inner before after less => ih inner.length (by omega) before after inner rfl) read
      split
      · simp [faultsOf, faultsIn]
      · next first others =>
          split
          · next cause place failed =>
              obtain ⟨used, parts, between⟩ := around_of_nextToken failed
              have whole : s = front ++ used ++ place := by rw [← gap, parts, List.append_assoc]
              have lies := liesAt_of_place before after whole
                (by simpa using between.extend front [])
              simpa [faultsOf, faultsIn] using lies
          · next token read =>
              simpa [faultsOf] using inItem read
          · next token c rest read =>
              obtain ⟨used, parts⟩ := suffix_of_nextToken read
              have less := (nextToken_length read).1
              have whole : s = front ++ used ++ c :: rest := by
                rw [← gap, ← parts, List.append_assoc]
              intro fault held
              split at held
              · rw [faultsOf, faultsIn_cons, List.append_assoc] at held
                obtain held | held := List.mem_append.mp held
                · exact inItem read fault held
                · have stop : byteLength (before ++ front ++ used) + byteLength (c :: rest) =
                      byteLength before + byteLength s := by
                    simp only [whole, byteLength_append]
                    omega
                  have lies := ih (c :: rest).length (by omega) (before ++ front ++ used) after
                    (c :: rest) rfl fault (by rwa [stop])
                  simpa [whole] using lies
              · obtain held | held := List.mem_append.mp held
                · exact inItem read fault held
                · obtain rfl : fault = _ := by simpa using held
                  exact liesAt_of_place before after whole rfl

/-! ### Errors about faults -/

section

open Annotations

variable {allowed : List String} {name shown : String} {position : Nat}

theorem add_ne_malformed {α : Type} {key : String} {x : α} {m : KeyMap α} :
    add allowed name key x m ≠ .error (.tagMalformed cause position shown) := by
  intro h
  unfold add at h
  split at h
  · cases h
  · split at h <;> cases h

theorem checkFlags_ne_malformed {details : KeyMap Detail} :
    checkFlags details ≠ .error (.tagMalformed cause position shown) := by
  intro h
  unfold checkFlags at h
  split at h <;> cases h

theorem checkNamed_ne_malformed {details : KeyMap Detail} :
    checkNamed name details ≠ .error (.tagMalformed cause position shown) := by
  intro h
  unfold checkNamed at h
  split at h <;> cases h

theorem mem_of_checkFault {fault : Option PlacedFault}
    (h : checkFault text fault = .error (.tagMalformed cause position shown)) :
    shown = text ∧ (cause, position) ∈ fault.toList := by
  cases fault with
  | none => cases h
  | some fault =>
      cases h
      exact ⟨rfl, List.mem_singleton_self _⟩

/-- A group fails with a fault if there is one in it or behind its items. -/
theorem mem_faultsOf_of_finishGroup {fault : Option PlacedFault} {items : List Item}
    {details : Except ModelError (KeyMap Detail)}
    (h : finishGroup text name fault details = .error (.tagMalformed cause position shown))
    (inside : details = .error (.tagMalformed cause position shown) →
      shown = text ∧ (cause, position) ∈ faultsIn items) :
    shown = text ∧ (cause, position) ∈ faultsOf (items, fault) := by
  simp only [finishGroup, except_bind_eq_error, except_pure_ne_error] at h
  obtain h | ⟨_, -, h | ⟨_, -, h | ⟨_, -, h | ⟨_, -, h⟩⟩⟩⟩ := h
  · exact (inside h).imp_right (List.mem_append_left _)
  · exact (mem_of_checkFault h).imp_right (List.mem_append_right _)
  · exact absurd h checkFlags_ne_malformed
  · exact absurd h checkNamed_ne_malformed
  · cases h

theorem mem_faultsIn_of_readDetails {details : KeyMap Detail} {items : List Item}
    (h : readDetails text allowed details items = .error (.tagMalformed cause position shown)) :
    shown = text ∧ (cause, position) ∈ faultsIn items := by
  fun_induction readDetails text allowed details items with
  | case1 => cases h
  | case2 allowed details name rest ih =>
      rw [faultsIn]
      obtain h | ⟨m, -, h⟩ := except_bind_eq_error.mp h
      · exact absurd h add_ne_malformed
      · exact ih m h
  | case3 allowed details name value rest ih =>
      rw [faultsIn]
      obtain h | ⟨m, -, h⟩ := except_bind_eq_error.mp h
      · exact absurd h add_ne_malformed
      · exact ih m h
  | case4 allowed details name items fault rest ih =>
      rw [faultsIn]
      obtain h | ⟨m, -, h⟩ := except_bind_eq_error.mp h
      · exact (mem_faultsOf_of_finishGroup h ih).imp_right (List.mem_append_left _)
      · cases h

theorem mem_faultsIn_of_addItem {set : Annotations} {item : Item}
    (h : addItem text allowed set item = .error (.tagMalformed cause position shown)) :
    shown = text ∧ (cause, position) ∈ faultsIn [item] := by
  cases item with
  | flag => exact absurd h add_ne_malformed
  | value => exact absurd h add_ne_malformed
  | group name items fault =>
      rw [faultsIn]
      obtain h | ⟨details, -, h⟩ := except_bind_eq_error.mp h
      · exact (mem_faultsOf_of_finishGroup h mem_faultsIn_of_readDetails).imp_right
          (List.mem_append_left _)
      · exact absurd h add_ne_malformed

theorem mem_faultsIn_of_addItems {set : Annotations} {items : List Item}
    (h : addItems text allowed set items = .error (.tagMalformed cause position shown)) :
    shown = text ∧ (cause, position) ∈ faultsIn items := by
  induction items generalizing set with
  | nil => cases h
  | cons item items ih =>
      rw [faultsIn_cons]
      obtain h | ⟨set', -, h⟩ := except_bind_eq_error.mp h
      · exact (mem_faultsIn_of_addItem h).imp_right (List.mem_append_left _)
      · exact (ih h).imp_right (List.mem_append_right _)

/-- An error about a fault shows the whole text and the place where the fault lies. -/
theorem liesAt_of_readInto {set : Annotations}
    (h : readInto allowed text set = .error (.tagMalformed cause position shown)) :
    shown = text ∧ LiesAt text.toList (cause, position) := by
  have lies := liesAt_of_itemsOf [] [] text.toList
  simp only [byteLength_nil, Nat.zero_add, List.nil_append, List.append_nil] at lies
  obtain h | ⟨set', -, h⟩ := except_bind_eq_error.mp h
  · exact (mem_faultsIn_of_addItems h).imp_right fun held => lies _ (List.mem_append_left _ held)
  · obtain h | ⟨_, -, h⟩ := except_bind_eq_error.mp h
    · exact (mem_of_checkFault h).imp_right fun held => lies _ (List.mem_append_right _ held)
    · cases h

end

end SchemaLedger.Tag
