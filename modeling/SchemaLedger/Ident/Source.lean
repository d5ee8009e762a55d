import SchemaLedger.Ident.Keystream

/-!
# Sources of uids

A source is an endless stream of candidates and the number of those already taken. A candidate may
be zero or in use; whoever takes one has to check it.
-/

namespace SchemaLedger

/-- A stream of uid candidates with a position in it. -/
structure UidSource where
  /-- The candidates in the order in which they are offered. -/
  candidate : Nat → UInt64
  /-- How many candidates have been taken. -/
  taken : Nat := 0

namespace UidSource

-- powers of naturals are those of the core library, whatever instances are in scope
attribute [local instance (high)] instPowNat

/-- The source that a seed determines. Its candidates have 63 bits, so that they survive a passage
through signed 64-bit integers. -/
def ofSeed (seed : UInt64) : UidSource :=
  let key := Keystream.Key.ofSeed seed
  { candidate := fun k => Keystream.word key k >>> 1 }

/-- The next candidate. -/
def peek (source : UidSource) : UInt64 := source.candidate source.taken

/-- The source after one more candidate has been taken. -/
def advance (source : UidSource) : UidSource := { source with taken := source.taken + 1 }

/-- Takes candidates until one is accepted, at most `attempts` of them. All candidates looked at are
taken, whether one is accepted or not. -/
def search (accepts : UInt64 → Bool) : Nat → UidSource → Option UInt64 × UidSource
  | 0, source => (none, source)
  | attempts + 1, source =>
    if accepts source.peek then (some source.peek, source.advance)
    else search accepts attempts source.advance

/-- A candidate of a seeded source has 63 bits. -/
theorem candidate_ofSeed_lt (seed : UInt64) (k : Nat) :
    ((ofSeed seed).candidate k).toNat < 2 ^ (63 : Nat) := by
  simp only [ofSeed, UInt64.toNat_shiftRight]
  have := (Keystream.word (Keystream.Key.ofSeed seed) k).toNat_lt
  simp only [Nat.shiftRight_eq_div_pow]
  have h : (1 : UInt64).toNat % 64 = 1 := by decide
  rw [h]
  omega

end UidSource

end SchemaLedger
