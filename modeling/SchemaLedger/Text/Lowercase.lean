import SchemaLedger.Text.Case
import SchemaLedger.Text.Casing

/-!
# Lower case

The full Unicode mapping to lower case. Two letters need more than a table of single characters: `İ`
becomes two characters, and `Σ` becomes `ς` at the end of a word and `σ` elsewhere.
-/

namespace SchemaLedger.Text

/-- The nearest character that is not passed over is a cased letter. -/
def reachesCased (s : List Char) : Bool :=
  match s.dropWhile isPassedOver with
  | c :: _ => isCased c
  | [] => false

/-- The lower case of one character between the text before it, nearest first, and the text after
it. A sigma is final if a letter comes before it and none after it. -/
def lowerChar (before : List Char) (c : Char) (after : List Char) : List Char :=
  if c = 'Σ' then
    if reachesCased before && !reachesCased after then ['ς'] else ['σ']
  else if c = 'İ' then ['i', '\u0307']
  else [smallLetter c]

/-- The lower case of a text that stands behind `before`, read backwards. -/
def lowerChars (before : List Char) : List Char → List Char
  | [] => []
  | c :: after => lowerChar before c after ++ lowerChars (c :: before) after

/-- A text in lower case. -/
def lowercase (s : String) : String := String.ofList (lowerChars [] s.toList)

theorem lowerChar_ne_nil (before after : List Char) (c : Char) : lowerChar before c after ≠ [] := by
  unfold lowerChar
  split
  · split <;> exact List.cons_ne_nil _ _
  · split <;> exact List.cons_ne_nil _ _

/-- Nothing disappears in lower case. -/
theorem lowercase_ne_empty {word : List Char} (h : word ≠ []) :
    lowercase (String.ofList word) ≠ "" := by
  cases word with
  | nil => exact absurd rfl h
  | cons c word =>
      intro empty
      have none_left := congrArg String.toList empty
      rw [lowercase, String.toList_ofList, String.toList_ofList, lowerChars] at none_left
      exact lowerChar_ne_nil [] word c (List.append_eq_nil_iff.mp none_left).1

theorem lowerChars_of_ascii {s : List Char} (before : List Char) (h : ∀ c ∈ s, c.toNat < 0x80) :
    lowerChars before s = s.map Char.toLower := by
  induction s generalizing before with
  | nil => rfl
  | cons c s ih =>
    have small := h c List.mem_cons_self
    have other {d : Char} (big : ¬ d.toNat < 0x80) : c ≠ d := fun same => big (same ▸ small)
    have one : lowerChar before c s = [c.toLower] := by
      simp [lowerChar, smallLetter, small, other (d := 'Σ') (by decide),
        other (d := 'İ') (by decide)]
    rw [lowerChars, one, ih _ fun d hd => h d (List.mem_cons_of_mem _ hd), List.map_cons,
      List.singleton_append]

/-- In a text of ASCII characters, only ASCII letters have a lower case. -/
theorem lowercase_of_ascii {s : String} (h : ∀ c ∈ s.toList, c.toNat < 0x80) :
    lowercase s = foldCase s := by
  rw [lowercase, lowerChars_of_ascii [] h, foldCase]

end SchemaLedger.Text
