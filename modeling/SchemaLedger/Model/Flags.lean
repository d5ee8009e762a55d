/-!
# Flags

The flags of an element are the bits of a word of 32 bits. Which bit means what depends on the
element; a bit without a meaning is kept as it is.
-/

namespace SchemaLedger

/-- A set of flags. -/
structure Flags where
  bits : UInt32
deriving DecidableEq, Repr

namespace Flags

instance : Inhabited Flags := ⟨⟨0⟩⟩

/-- No flags. -/
def none : Flags := ⟨0⟩

/-- No flag is set. -/
def IsNone (flags : Flags) : Prop := flags.bits = 0

instance (flags : Flags) : Decidable flags.IsNone :=
  inferInstanceAs (Decidable (flags.bits = 0))

/-- The flags of either set. -/
def union (a b : Flags) : Flags := ⟨a.bits ||| b.bits⟩

instance : Union Flags := ⟨union⟩

/-- The flags of the first set that are not in the second. -/
def without (a b : Flags) : Flags := ⟨a.bits &&& ~~~b.bits⟩

/-- Every flag of `b` is set in `a`. -/
def Contains (a b : Flags) : Prop := a.bits &&& b.bits = b.bits

instance (a b : Flags) : Decidable (a.Contains b) :=
  inferInstanceAs (Decidable (a.bits &&& b.bits = b.bits))

/-! ### Flags of properties -/

/-- The property is the ID of its entity. -/
def objectId : Flags := ⟨1⟩

/-- The values are indexed. -/
def indexed : Flags := ⟨8⟩

/-- No two objects have the same value. -/
def unique : Flags := ⟨32⟩

/-- The application may assign the ID itself. -/
def selfAssigned : Flags := ⟨128⟩

/-- Zero is left out of the index. -/
def skipZero : Flags := ⟨512⟩

/-- The index holds hashes of 32 bits. -/
def hashIndexed : Flags := ⟨2048⟩

/-- The index holds hashes of 64 bits. -/
def hash64Indexed : Flags := ⟨4096⟩

/-- The values are unsigned. -/
def unsigned : Flags := ⟨8192⟩

/-- A date that goes with the ID in a time series. -/
def idCompanion : Flags := ⟨16384⟩

/-! ### Flags of entities -/

/-- Objects are synchronized. -/
def synced : Flags := ⟨2⟩

/-- Objects have the same ID on every synchronized device. -/
def sharedGlobalIds : Flags := ⟨4⟩

end Flags

end SchemaLedger
