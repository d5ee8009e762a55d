import Mathlib.Data.List.Nodup
import Mathlib.Data.List.Perm.Basic
import SchemaLedger.Tag.KeyMap

/-!
# What a map holds

A map is determined by its entries in any order. Entries with new keys can be added in any order,
and the map then holds them and what it held before.
-/

namespace SchemaLedger.KeyMap

variable {α : Type} {m m' : KeyMap α} {key : String} {x : α} {e : String × α}
variable {entries entries' : List (String × α)}

/-- The keys of entries. -/
def keysOf (entries : List (String × α)) : List String := entries.map Prod.fst

theorem nodup_keys (m : KeyMap α) : (keysOf m.entries).Nodup :=
  List.pairwise_map.mpr <| m.ascending.imp fun {a b} (lt : a.1 < b.1) (same : a.1 = b.1) =>
    String.lt_irrefl b.1 (same ▸ lt)

/-- The order of the entries is that of their keys. -/
theorem eq_of_perm (h : m.entries.Perm m'.entries) : m = m' := by
  have same : m.entries = m'.entries :=
    h.eq_of_pairwise (fun a b _ _ ab ba => absurd (String.lt_trans ab ba) (String.lt_irrefl _))
      m.ascending m'.ascending
  cases m
  cases m'
  cases same
  rfl

/-! ### Looking up -/

theorem eq_of_mem_of_nodup (h : (keysOf entries).Nodup) {y : α} (hx : (key, x) ∈ entries)
    (hy : (key, y) ∈ entries) : x = y := by
  induction entries with
  | nil => simp at hx
  | cons e rest ih =>
      obtain ⟨new, h⟩ := List.nodup_cons.mp h
      have other {e' : String × α} (held : e' ∈ rest) (same : e'.1 = e.1) : False :=
        new (same ▸ List.mem_map_of_mem (f := Prod.fst) held)
      rcases List.mem_cons.mp hx with rfl | later
      · rcases List.mem_cons.mp hy with same | later
        · exact (Prod.mk.inj same).2.symm
        · exact (other later rfl).elim
      · rcases List.mem_cons.mp hy with rfl | later'
        · exact (other later rfl).elim
        · exact ih h later later'

theorem mem_of_lookup (h : entries.lookup key = some x) : (key, x) ∈ entries := by
  obtain ⟨front, behind, rfl, _⟩ := List.lookup_eq_some_iff.mp h
  simp

theorem lookup_isSome_iff : (entries.lookup key).isSome ↔ key ∈ keysOf entries := by
  rw [List.lookup_isSome_iff]
  simp only [beq_iff_eq, keysOf, List.mem_map]
  exact ⟨fun ⟨p, hp, same⟩ => ⟨p, hp, same.symm⟩, fun ⟨p, hp, same⟩ => ⟨p, hp, same.symm⟩⟩

theorem lookup_eq_some_iff (h : (keysOf entries).Nodup) :
    entries.lookup key = some x ↔ (key, x) ∈ entries := by
  refine ⟨mem_of_lookup, fun held => ?_⟩
  obtain ⟨y, found⟩ := Option.isSome_iff_exists.mp
    (lookup_isSome_iff.mpr (List.mem_map_of_mem (f := Prod.fst) held))
  rw [found, eq_of_mem_of_nodup h (mem_of_lookup found) held]

theorem get?_eq_some_iff : m.get? key = some x ↔ (key, x) ∈ m.entries :=
  lookup_eq_some_iff m.nodup_keys

theorem contains_eq_false_iff : m.contains key = false ↔ key ∉ keysOf m.entries := by
  rw [← lookup_isSome_iff, contains, get?, Bool.not_eq_true]

/-! ### Adding entries -/

theorem insertEntry_perm (h : key ∉ keysOf entries) :
    (insertEntry key x entries).Perm ((key, x) :: entries) := by
  induction entries with
  | nil => exact .refl _
  | cons e rest ih =>
      have other : key ≠ e.1 := fun same => h (same ▸ List.mem_cons_self)
      simp only [insertEntry]
      split
      · exact .refl _
      · exact ((ih fun held => h (List.mem_cons_of_mem _ held)).cons e).trans (.swap _ _ _)

theorem insert_perm (h : m.contains key = false) :
    (m.insert key x).entries.Perm ((key, x) :: m.entries) :=
  insertEntry_perm (contains_eq_false_iff.mp h)

/-- Adds entries one after the other. -/
def insertAll (m : KeyMap α) (entries : List (String × α)) : KeyMap α :=
  entries.foldl (fun m e => m.insert e.1 e.2) m

/-- The map with these entries. -/
def ofList (entries : List (String × α)) : KeyMap α := empty.insertAll entries

/-- The keys are different from each other and from those in the map. -/
def IsFresh (m : KeyMap α) (entries : List (String × α)) : Prop :=
  (keysOf (m.entries ++ entries)).Nodup

theorem isFresh_empty_iff : (empty : KeyMap α).IsFresh entries ↔ (keysOf entries).Nodup := .rfl

theorem isFresh_nil (m : KeyMap α) : m.IsFresh [] := by
  rw [IsFresh, List.append_nil]
  exact m.nodup_keys

theorem isFresh_cons_iff :
    m.IsFresh (e :: entries) ↔ m.contains e.1 = false ∧ (m.insert e.1 e.2).IsFresh entries := by
  have front : (keysOf (m.entries ++ e :: entries)).Perm (keysOf (e :: (m.entries ++ entries))) :=
    List.perm_middle.map _
  have step (h : m.contains e.1 = false) :
      (keysOf ((m.insert e.1 e.2).entries ++ entries)).Perm
        (keysOf (e :: (m.entries ++ entries))) :=
    ((insert_perm h).append_right entries).map _
  constructor
  · intro fresh
    have new : m.contains e.1 = false := by
      have := (List.nodup_cons.mp (front.nodup_iff.mp fresh)).1
      rw [contains_eq_false_iff]
      exact fun held => this (by simp [keysOf] at held ⊢; exact .inl held)
    exact ⟨new, (step new).nodup_iff.mpr (front.nodup_iff.mp fresh)⟩
  · rintro ⟨new, fresh⟩
    exact front.nodup_iff.mpr ((step new).nodup_iff.mp fresh)

theorem insertAll_perm (h : m.IsFresh entries) :
    (m.insertAll entries).entries.Perm (m.entries ++ entries) := by
  induction entries generalizing m with
  | nil => simp [insertAll]
  | cons e entries ih =>
      obtain ⟨new, fresh⟩ := isFresh_cons_iff.mp h
      calc (m.insertAll (e :: entries)).entries.Perm ((m.insert e.1 e.2).entries ++ entries) :=
            ih fresh
        _ |>.Perm (e :: m.entries ++ entries) := (insert_perm new).append_right entries
        _ |>.Perm (m.entries ++ e :: entries) := List.perm_middle.symm

theorem ofList_perm (h : (keysOf entries).Nodup) : (ofList entries).entries.Perm entries :=
  insertAll_perm (isFresh_empty_iff.mpr h)

/-- A map holds the entries that have been put into it. -/
theorem get?_ofList (h : (keysOf entries).Nodup) :
    (ofList entries).get? key = entries.lookup key := by
  ext x
  rw [get?_eq_some_iff, (ofList_perm h).mem_iff, lookup_eq_some_iff h]

theorem ofList_entries (m : KeyMap α) : ofList m.entries = m :=
  eq_of_perm (ofList_perm m.nodup_keys)

theorem insertAll_append :
    m.insertAll (entries ++ entries') = (m.insertAll entries).insertAll entries' :=
  List.foldl_append

end SchemaLedger.KeyMap
