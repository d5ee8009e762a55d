import SchemaLedger.Error.Basic
import SchemaLedger.Model.Store

/-!
# Matching a plan with what is stored

Planned elements are matched by uid first and by name second, and a stored element can be claimed by
one planned element only. A property with a uid that its entity does not have is a reset of the
stored property of its name, provided that the uid is new to the model. All matches of a scope are
worked out before anything in the scope changes.
-/

namespace SchemaLedger.Merge

open Text

/-- The stored uids that are claimed, with the names of the elements that claim them. -/
abbrev Claims := List (UInt64 × String)

/-- Finds the match of each element and claims the stored element of each match. -/
def claimEach {α μ : Type} (sort : ElementSort) (name : α → String) (storedUid : μ → UInt64)
    (find : α → Except ModelError (Option μ)) (claims : Claims) :
    List α → Except ModelError (List (Option μ) × Claims)
  | [] => .ok ([], claims)
  | x :: rest => do
    match ← find x with
    | none =>
      let (found, claims) ← claimEach sort name storedUid find claims rest
      return (none :: found, claims)
    | some m =>
      match claims.lookup (storedUid m) with
      | some other => .error (.ambiguousRename sort other (name x) (storedUid m))
      | none =>
        let (found, claims) ←
          claimEach sort name storedUid find ((storedUid m, name x) :: claims) rest
        return (some m :: found, claims)

/-- Finds the match of each element, in two rounds over all elements with the same claims. -/
def matchEach {α μ : Type} (sort : ElementSort) (name : α → String) (storedUid : μ → UInt64)
    (byUid byName : α → Except ModelError (Option μ)) (xs : List α) :
    Except ModelError (List (Option μ)) := do
  let (first, claims) ← claimEach sort name storedUid byUid [] xs
  let (second, _) ← claimEach sort name storedUid byName claims xs
  return List.zipWith (fun a b => a.or b) first second

/-! ### Entities -/

/-- The stored entity with the uid that the schema gives. -/
def entityByUid (stored : Model) (e : Entity) : Except ModelError (Option UInt64) :=
  if e.id.uid = 0 then .ok none
  else if (stored.findByUid? e.id.uid).isSome then .ok (some e.id.uid)
  else .error (.within (.entity e.name) (.unknownEntityUid e.id.uid))

/-- The stored entity with the same name, if the schema gives no uid. -/
def entityByName (stored : Model) (e : Entity) : Except ModelError (Option UInt64) :=
  if e.id.uid ≠ 0 then .ok none
  else
    let found := (stored.entity? e.name).map (·.id.uid)
    if e.uidRequested then .error (.uidRequested (.entity e.name found)) else .ok found

/-- The uids of the stored entities that match the planned ones. -/
def matchEntities (stored : Model) (plan : List Entity) :
    Except ModelError (List (Option UInt64)) :=
  matchEach .entity Entity.name id (entityByUid stored) (entityByName stored) plan

/-! ### Properties -/

/-- What a planned property is to the stored entity. -/
inductive PropertyMatch where
  | existing (uid : UInt64)
  /-- The property with the old uid gets the new one. -/
  | reset (old new : UInt64)
deriving DecidableEq, Repr

/-- The uid of the stored property. -/
def PropertyMatch.storedUid : PropertyMatch → UInt64
  | existing uid => uid
  | reset old _ => old

/-- The stored property with the uid that the schema gives, or the one that is reset to it. -/
def propertyByUid (stored : Model) (owner : Entity) (p : Property) :
    Except ModelError (Option PropertyMatch) :=
  if p.id.uid = 0 then .ok none
  else if (owner.findPropertyByUid? p.id.uid).isSome then .ok (some (.existing p.id.uid))
  else (Place.property p.name).wrap <|
    match owner.property? p.name with
    | none => .error (.unknownPropertyUid owner.name p.id.uid)
    | some q =>
      if stored.Mentions p.id.uid then .error (.uidCollision p.id.uid .replacement)
      else .ok (some (.reset q.id.uid p.id.uid))

/-- The answer to a request for the uid of a property: the current one and a fresh one. -/
def propertyQuestion (store : Store) (planned : Entity) (p : Property) (found : Option UInt64) :
    ModelError :=
  match found with
  | none => .uidRequested (.property planned.name p.name none)
  | some uid =>
    match (store.model.freshUid? store.uids).1 with
    | some fresh => .uidRequested (.property planned.name p.name (some (uid, fresh)))
    | none => .uidsExhausted uidAttempts

/-- The stored property with the same name, if the schema gives no uid. -/
def propertyByName (store : Store) (planned owner : Entity) (p : Property) :
    Except ModelError (Option PropertyMatch) :=
  if p.id.uid ≠ 0 then .ok none
  else
    let found := (owner.property? p.name).map (·.id.uid)
    if p.uidRequested then .error (propertyQuestion store planned p found)
    else .ok (found.map .existing)

/-- The matches of the planned entity's properties in the stored entity. -/
def matchProperties (store : Store) (planned owner : Entity) :
    Except ModelError (List (Option PropertyMatch)) :=
  matchEach .property Property.name PropertyMatch.storedUid (propertyByUid store.model owner)
    (propertyByName store planned owner) planned.properties

/-! ### Relations -/

/-- The stored relation with the uid that the schema gives. -/
def relationByUid (owner : Entity) (r : Relation) : Except ModelError (Option UInt64) :=
  if r.id.uid = 0 then .ok none
  else if (owner.findRelationByUid? r.id.uid).isSome then .ok (some r.id.uid)
  else .error (.within (.relation r.name) (.unknownRelationUid owner.name r.id.uid))

/-- The stored relation with the same name, if the schema gives no uid. -/
def relationByName (planned owner : Entity) (r : Relation) : Except ModelError (Option UInt64) :=
  if r.id.uid ≠ 0 then .ok none
  else
    let found := (owner.relation? r.name).map (·.id.uid)
    if r.uidRequested then .error (.uidRequested (.relation planned.name r.name found))
    else .ok found

/-- The matches of the planned entity's relations in the stored entity. -/
def matchRelations (planned owner : Entity) : Except ModelError (List (Option UInt64)) :=
  matchEach .relation Relation.name id (relationByUid owner) (relationByName planned owner)
    planned.relations

/-! ### Order -/

/-- Brings elements into the order of the given uids. Elements with another uid go last and stay in
their order, and so do elements with the same uid. -/
def reorder {α : Type} (uid : α → UInt64) : List UInt64 → List α → List α
  | [], xs => xs
  | u :: order, xs =>
    xs.filter (uid · = u) ++ reorder uid order (xs.filter (uid · ≠ u))

theorem mem_reorder {α : Type} {uid : α → UInt64} {order : List UInt64} {xs : List α} {x : α} :
    x ∈ reorder uid order xs ↔ x ∈ xs := by
  induction order generalizing xs with
  | nil => simp [reorder]
  | cons u order ih =>
    simp only [reorder, List.mem_append, ih, List.mem_filter, decide_eq_true_eq]
    by_cases h : uid x = u <;> simp [h]

end SchemaLedger.Merge
