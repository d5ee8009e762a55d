/-!
# Fields between separators

A text is cut at every separator; a text without one is a single field, and two separators in a row
have an empty field between them.
-/

namespace SchemaLedger.Text

/-- The fields between the characters equal to `separator`. There is always at least one. -/
def fields (separator : Char) : List Char → List (List Char)
  | [] => [[]]
  | c :: rest =>
    if c = separator then [] :: fields separator rest
    else match fields separator rest with
      | [] => [[c]]
      | field :: others => (c :: field) :: others

theorem fields_ne_nil (separator : Char) (s : List Char) : fields separator s ≠ [] := by
  cases s with
  | nil => simp [fields]
  | cons c rest =>
    simp only [fields]
    split
    · simp
    · split <;> simp

/-- A text without a separator is one field. -/
theorem fields_of_notMem {separator : Char} {s : List Char} (h : separator ∉ s) :
    fields separator s = [s] := by
  induction s with
  | nil => rfl
  | cons c rest ih =>
    obtain ⟨hc, hrest⟩ := not_or.mp (mt List.mem_cons.mpr h)
    simp [fields, Ne.symm hc, ih hrest]

/-- The first field ends at the first separator. -/
theorem fields_append_cons {separator : Char} {s : List Char} (h : separator ∉ s)
    (t : List Char) : fields separator (s ++ separator :: t) = s :: fields separator t := by
  induction s with
  | nil => simp [fields]
  | cons c rest ih =>
    obtain ⟨hc, hrest⟩ := not_or.mp (mt List.mem_cons.mpr h)
    simp [fields, Ne.symm hc, ih hrest]

/-- There is one field more than there are separators. -/
theorem length_fields (separator : Char) (s : List Char) :
    (fields separator s).length = s.count separator + 1 := by
  induction s with
  | nil => rfl
  | cons c rest ih =>
    by_cases hc : c = separator
    · simp [fields, hc, ih]
    · cases h : fields separator rest with
      | nil => exact absurd h (fields_ne_nil separator rest)
      | cons field others =>
        rw [h] at ih
        simpa [fields, hc, h] using ih

end SchemaLedger.Text
