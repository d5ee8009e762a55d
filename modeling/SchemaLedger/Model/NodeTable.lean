import SchemaLedger.Model.Basic

/-!
# Tables of elements

A table keeps one value for each of some elements of a model. Elements are told apart by their sort
and uid, so a table stays right when elements change their places.
-/

namespace SchemaLedger

/-- An element of a model. -/
inductive NodeKey where
  | entity (uid : UInt64)
  | property (uid : UInt64)
  | relation (uid : UInt64)
deriving DecidableEq, Repr

/-- The key of an entity. -/
def Entity.node (e : Entity) : NodeKey := .entity e.id.uid

/-- The key of a property. -/
def Property.node (p : Property) : NodeKey := .property p.id.uid

/-- The key of a relation. -/
def Relation.node (r : Relation) : NodeKey := .relation r.id.uid

/-- Values for elements. No element has two. -/
structure NodeTable (α : Type) where
  entries : List (NodeKey × α) := []

namespace NodeTable

variable {α : Type}

/-- The value of an element. -/
def get? (t : NodeTable α) (key : NodeKey) : Option α := t.entries.lookup key

/-- The table without the element. -/
def erase (t : NodeTable α) (key : NodeKey) : NodeTable α :=
  ⟨t.entries.filter fun entry => entry.1 ≠ key⟩

/-- The table with a value for the element, in place of the one it may have had. -/
def insert (t : NodeTable α) (key : NodeKey) (x : α) : NodeTable α :=
  ⟨(t.erase key).entries ++ [(key, x)]⟩

/-- The table with the value of the element changed, if it has one. -/
def modify (t : NodeTable α) (key : NodeKey) (f : α → α) : NodeTable α :=
  ⟨t.entries.map fun entry => if entry.1 = key then (key, f entry.2) else entry⟩

/-- The number of elements with a value. -/
def size (t : NodeTable α) : Nat := t.entries.length

theorem get?_erase (t : NodeTable α) (key : NodeKey) : (t.erase key).get? key = none := by
  simp only [get?, erase, List.lookup_eq_none_iff]
  intro entry h
  have := (List.mem_filter.mp h).2
  simp only [ne_eq, decide_not, Bool.not_eq_eq_eq_not, Bool.not_true, decide_eq_false_iff_not]
    at this
  simp [Ne.symm this]

theorem get?_insert (t : NodeTable α) (key : NodeKey) (x : α) :
    (t.insert key x).get? key = some x := by
  have h := t.get?_erase key
  simp only [get?] at h
  simp [get?, insert, List.lookup_append, h]

end NodeTable

end SchemaLedger
