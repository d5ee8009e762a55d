import SchemaLedger.Numeral.Unsigned
import SchemaLedger.Text.Fields

/-!
# Identifier pairs

Every element of a model is known by a pair: a local id, unique within its scope, and a uid, unique
in the whole model and never used again. A pair is written `id:uid`. The pair `0:0` stands for an
identifier that is not assigned yet.
-/

namespace SchemaLedger

open Numeral Text

/-- A local id with a uid. -/
structure IdPair where
  id : UInt32
  uid : UInt64
deriving DecidableEq, Repr

/-- Why a text is no identifier pair. -/
inductive IdPair.Fault where
  | undefined
  | separators
  | unreadable (part : String) (cause : UnsignedError)
  | zeroId
  | zeroUid
deriving DecidableEq, Repr

/-- The text shown for each cause. -/
def IdPair.Fault.message : IdPair.Fault → String
  | .undefined => "id is undefined"
  | .separators => "expected exactly one ':' separator"
  | .unreadable part cause => s!"can't parse '{part}' as unsigned int: {cause.message}"
  | .zeroId => "id is zero"
  | .zeroUid => "uid is zero"

namespace IdPair

instance : Inhabited IdPair := ⟨⟨0, 0⟩⟩

/-- The pair of an element without an identifier. -/
def unassigned : IdPair := ⟨0, 0⟩

/-- The pair `0:0`. -/
def IsUnassigned (p : IdPair) : Prop := p.id = 0 ∧ p.uid = 0

instance (p : IdPair) : Decidable p.IsUnassigned :=
  inferInstanceAs (Decidable (p.id = 0 ∧ p.uid = 0))

/-- The characters of the written form. -/
def chars (p : IdPair) : List Char :=
  Nat.toDigits 10 p.id.toNat ++ ':' :: Nat.toDigits 10 p.uid.toNat

/-- The written form `id:uid`. -/
def text (p : IdPair) : String := String.ofList p.chars

/-- Reads one of the two numbers. -/
def readPart {α : Type} (read : List Char → Except UnsignedError α) (part : List Char) :
    Except Fault α :=
  match read part with
  | .ok n => .ok n
  | .error cause => .error (.unreadable (String.ofList part) cause)

/-- Reads a pair in which either number may be zero. -/
def readLax (s : List Char) : Except Fault IdPair :=
  if s = [] then .error .undefined
  else match fields ':' s with
    | [id, uid] => do
      let id ← readPart readUInt32 id
      let uid ← readPart readUInt64 uid
      return ⟨id, uid⟩
    | _ => .error .separators

/-- What is wrong with a pair that has to be assigned. -/
def fault? (p : IdPair) : Option Fault :=
  if p.id = 0 then some .zeroId
  else if p.uid = 0 then some .zeroUid
  else none

/-- Reads a pair of two numbers other than zero. -/
def read (s : List Char) : Except Fault IdPair := do
  let p ← readLax s
  match p.fault? with
  | some fault => .error fault
  | none => return p

theorem fault?_eq_none_iff {p : IdPair} : p.fault? = none ↔ p.id ≠ 0 ∧ p.uid ≠ 0 := by
  unfold fault?
  split
  · simp_all
  · split <;> simp_all

/-- Reads a pair that may be unset. An unset pair is written as the empty text, and `0:0` counts as
unset too. -/
def readOptional (s : List Char) : Except Fault (Option IdPair) :=
  if s = [] then .ok none
  else match readLax s with
    | .ok p => .ok (if p.IsUnassigned then none else some p)
    | .error fault => .error fault

/-- The written form of a pair that may be unset. -/
def optionalText : Option IdPair → String
  | some p => p.text
  | none => ""

/-- The local id that follows the last one assigned. Ids start at one. -/
def next (last : Option IdPair) : UInt32 :=
  match last with
  | some p => p.id + 1
  | none => 1

/-- Orders pairs by their id and then by their uid. -/
def le (p q : IdPair) : Bool := p.id < q.id || (p.id = q.id && p.uid ≤ q.uid)

end IdPair

end SchemaLedger
