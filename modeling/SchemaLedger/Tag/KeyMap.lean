/-!
# Maps in the order of their keys

A map is a list of entries with strictly ascending keys. Keys are texts, compared by code point.
-/

namespace SchemaLedger

/-- Entries with strictly ascending keys. -/
structure KeyMap (α : Type) where
  entries : List (String × α)
  ascending : entries.Pairwise fun a b => a.1 < b.1
deriving DecidableEq, Repr

namespace KeyMap

variable {α : Type}

/-- The map without entries. -/
def empty : KeyMap α := ⟨[], .nil⟩

instance : Inhabited (KeyMap α) := ⟨empty⟩

/-- Puts an entry in its place. A value under the same key is replaced. -/
def insertEntry (key : String) (x : α) : List (String × α) → List (String × α)
  | [] => [(key, x)]
  | (k, y) :: rest =>
    if key < k then (key, x) :: (k, y) :: rest
    else if key = k then (key, x) :: rest
    else (k, y) :: insertEntry key x rest

theorem mem_insertEntry {key : String} {x : α} {entries : List (String × α)} {e : String × α}
    (h : e ∈ insertEntry key x entries) : e = (key, x) ∨ e ∈ entries := by
  induction entries with
  | nil => simpa [insertEntry] using h
  | cons head rest ih =>
    obtain ⟨k, y⟩ := head
    simp only [insertEntry] at h
    split at h
    · simpa using h
    · split at h
      · rcases List.mem_cons.mp h with h | h
        · exact .inl h
        · exact .inr (List.mem_cons_of_mem _ h)
      · rcases List.mem_cons.mp h with h | h
        · exact .inr (h ▸ List.mem_cons_self ..)
        · rcases ih h with h | h
          · exact .inl h
          · exact .inr (List.mem_cons_of_mem _ h)

theorem ascending_insertEntry {key : String} {x : α} {entries : List (String × α)}
    (h : entries.Pairwise fun a b => a.1 < b.1) :
    (insertEntry key x entries).Pairwise fun a b => a.1 < b.1 := by
  induction entries with
  | nil => simp [insertEntry]
  | cons head rest ih =>
    obtain ⟨k, y⟩ := head
    obtain ⟨below, ascending⟩ := List.pairwise_cons.mp h
    simp only [insertEntry]
    split
    · next first =>
      refine List.pairwise_cons.mpr ⟨fun e he => ?_, h⟩
      obtain rfl | he := List.mem_cons.mp he
      · exact first
      · exact String.lt_trans first (below e he)
    · split
      · next same =>
        subst same
        exact List.pairwise_cons.mpr ⟨below, ascending⟩
      · next not_first other =>
        refine List.pairwise_cons.mpr ⟨fun e he => ?_, ih ascending⟩
        obtain rfl | he := mem_insertEntry he
        · exact Std.lt_of_le_of_ne (Std.not_lt.mp not_first) (Ne.symm other)
        · exact below e he

/-- The map with one more entry, or another value under its key. -/
def insert (m : KeyMap α) (key : String) (x : α) : KeyMap α :=
  ⟨insertEntry key x m.entries, ascending_insertEntry m.ascending⟩

/-- The value under a key. -/
def get? (m : KeyMap α) (key : String) : Option α := m.entries.lookup key

/-- There is a value under the key. -/
def contains (m : KeyMap α) (key : String) : Bool := (m.get? key).isSome

/-- The number of entries. -/
def size (m : KeyMap α) : Nat := m.entries.length

end KeyMap

end SchemaLedger
