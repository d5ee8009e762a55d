import Mathlib.Data.List.Forall2
import Mathlib.Data.List.Nodup
import Mathlib.Data.List.Perm.Basic
import SchemaLedger.Merge.Matching
import SchemaLedger.Proofs.Store.Evolution

/-!
# What matching finds

Matching succeeds if each planned element can be matched for itself and no stored element is claimed
twice. What the match of a single element is depends on the uid that the schema gives: with a uid it
is the stored element with this uid (a property may be reset instead), without one it is the stored
element with the same name.
-/

namespace SchemaLedger.Merge

open Text

section Claims

variable {α μ : Type} {sort : ElementSort} {name : α → String} {storedUid : μ → UInt64}
variable {find byUid byName : α → Except ModelError (Option μ)}
variable {claims claims' : Claims} {xs : List α} {found : List (Option μ)}

/-- The stored uids that matches claim. -/
def claimed (storedUid : μ → UInt64) (found : List (Option μ)) : List UInt64 :=
  found.filterMap (·.map storedUid)

variable (storedUid) in
theorem claimed_zip (h : xs.length = found.length) :
    (xs.zip found).filterMap (·.2.map storedUid) = claimed storedUid found := by
  have snd : (xs.zip found).map Prod.snd = found := List.map_snd_zip (by omega)
  rw [claimed, ← snd, List.filterMap_map, snd]
  rfl

/-- What is claimed is present if each match is. -/
theorem claimed_subset {R : α → Option μ → Prop} {present : List UInt64}
    (each : List.Forall₂ R xs found) (mem : ∀ x f, R x (some f) → storedUid f ∈ present) :
    claimed storedUid found ⊆ present := by
  induction each with
  | nil => exact List.nil_subset _
  | @cons x f _ _ first _ ih =>
      cases f with
      | none => exact ih
      | some f => exact List.cons_subset.mpr ⟨mem x f first, ih⟩

theorem lookup_claims_eq_none {uid : UInt64} :
    claims.lookup uid = none ↔ uid ∉ claims.map Prod.fst := by
  rw [List.lookup_eq_none_iff]
  constructor
  · intro h hm
    obtain ⟨c, hc, rfl⟩ := List.mem_map.mp hm
    simpa using h c hc
  · intro h c hc
    simpa using fun same => h (List.mem_map.mpr ⟨c, hc, same.symm⟩)

/-- Claims that are made one after the other are made for what was found, and for nothing twice. -/
theorem claimEach_eq_ok (h : claimEach sort name storedUid find claims xs = .ok (found, claims')) :
    List.Forall₂ (fun x f => find x = .ok f) xs found ∧
      (claims'.map Prod.fst).Perm (claimed storedUid found ++ claims.map Prod.fst) ∧
      ((claims.map Prod.fst).Nodup → (claims'.map Prod.fst).Nodup) := by
  induction xs generalizing claims found with
  | nil =>
      obtain ⟨rfl, rfl⟩ : [] = found ∧ claims = claims' := by simpa [claimEach] using h
      exact ⟨.nil, by simp [claimed], id⟩
  | cons x rest ih =>
      rw [claimEach] at h
      cases hx : find x with
      | error e => simp [hx, bind, Except.bind] at h
      | ok f =>
          cases f with
          | none =>
              cases hr : claimEach sort name storedUid find claims rest with
              | error e => simp [hx, hr, bind, Except.bind] at h
              | ok r =>
                  obtain ⟨others, last⟩ := r
                  obtain ⟨rfl, rfl⟩ : none :: others = found ∧ last = claims' := by
                    simpa [hx, hr, bind, Except.bind, pure, Except.pure] using h
                  obtain ⟨each, perm, nodup⟩ := ih hr
                  exact ⟨.cons hx each, by simpa [claimed] using perm, nodup⟩
          | some m =>
              cases hl : claims.lookup (storedUid m) with
              | some other => simp [hx, hl, bind, Except.bind] at h
              | none =>
                  cases hr : claimEach sort name storedUid find ((storedUid m, name x) :: claims)
                      rest with
                  | error e => simp [hx, hl, hr, bind, Except.bind] at h
                  | ok r =>
                      obtain ⟨others, last⟩ := r
                      obtain ⟨rfl, rfl⟩ : some m :: others = found ∧ last = claims' := by
                        simpa [hx, hl, hr, bind, Except.bind, pure, Except.pure] using h
                      obtain ⟨each, perm, nodup⟩ := ih hr
                      refine ⟨.cons hx each, ?_, ?_⟩
                      · exact perm.trans (by simp [claimed])
                      · intro start
                        exact nodup (List.nodup_cons.mpr ⟨lookup_claims_eq_none.mp hl, start⟩)

/-- What is found can be claimed if nothing of it is claimed twice or was claimed before. -/
theorem claimEach_ok (each : List.Forall₂ (fun x f => find x = .ok f) xs found)
    (distinct : (claimed storedUid found ++ claims.map Prod.fst).Nodup) :
    ∃ claims', claimEach sort name storedUid find claims xs = .ok (found, claims') ∧
      (claims'.map Prod.fst).Perm (claimed storedUid found ++ claims.map Prod.fst) := by
  induction each generalizing claims with
  | nil => exact ⟨claims, rfl, by simp [claimed]⟩
  | @cons x f xs found hx each ih =>
      cases f with
      | none =>
          obtain ⟨claims', run, perm⟩ := ih (by simpa [claimed] using distinct)
          exact ⟨claims', by simp [claimEach, hx, run, bind, Except.bind, pure, Except.pure],
            by simpa [claimed] using perm⟩
      | some m =>
          have split : claimed storedUid (some m :: found) =
              storedUid m :: claimed storedUid found := rfl
          rw [split, List.cons_append, List.nodup_cons] at distinct
          have free : claims.lookup (storedUid m) = none :=
            lookup_claims_eq_none.mpr fun hm => distinct.1 (List.mem_append_right _ hm)
          have moved : (claimed storedUid found ++
              List.map Prod.fst ((storedUid m, name x) :: claims)).Perm
              (storedUid m :: (claimed storedUid found ++ claims.map Prod.fst)) :=
            List.perm_middle
          obtain ⟨claims', run, perm⟩ := ih (moved.nodup_iff.mpr (List.nodup_cons.mpr distinct))
          refine ⟨claims', ?_, by rw [split]; exact perm.trans moved⟩
          simp [claimEach, hx, free, run, bind, Except.bind, pure, Except.pure]

/-- If each element is matched in one round only, the claims of two rounds are those of their common
result. -/
theorem claimed_zipWith_or {first second : List (Option μ)}
    (exclusive : List.Forall₂ (fun a b => a = none ∨ b = none) first second) :
    (claimed storedUid (List.zipWith (fun a b => a.or b) first second)).Perm
      (claimed storedUid first ++ claimed storedUid second) := by
  induction exclusive with
  | nil => exact .refl _
  | @cons a b first second one rest ih =>
      rcases one with rfl | rfl
      · cases b with
        | none => simpa [claimed] using ih
        | some m => simpa [claimed] using (ih.cons _).trans List.perm_middle.symm
      · cases a with
        | none => simpa [claimed] using ih
        | some m => simpa [claimed] using ih.cons (storedUid m)

/-- The match of an element in two rounds. -/
def FoundInRounds (byUid byName : α → Except ModelError (Option μ)) (x : α) (f : Option μ) : Prop :=
  ∃ a b, byUid x = .ok a ∧ byName x = .ok b ∧ f = a.or b

theorem combine_rounds {first second : List (Option μ)}
    (exclusive : ∀ x a b, byUid x = .ok a → byName x = .ok b → a = none ∨ b = none)
    (each₁ : List.Forall₂ (fun x f => byUid x = .ok f) xs first)
    (each₂ : List.Forall₂ (fun x f => byName x = .ok f) xs second) :
    List.Forall₂ (fun a b => a = none ∨ b = none) first second ∧
      List.Forall₂ (FoundInRounds byUid byName) xs
        (List.zipWith (fun a b => a.or b) first second) := by
  induction each₁ generalizing second with
  | nil => cases each₂; exact ⟨.nil, .nil⟩
  | cons ha _ ih =>
      cases each₂ with
      | cons hb each₂ =>
          obtain ⟨one, all⟩ := ih each₂
          exact ⟨.cons (exclusive _ _ _ ha hb) one, .cons ⟨_, _, ha, hb, rfl⟩ all⟩

theorem split_rounds
    (exclusive : ∀ x a b, byUid x = .ok a → byName x = .ok b → a = none ∨ b = none)
    (each : List.Forall₂ (FoundInRounds byUid byName) xs found) :
    ∃ first second, List.Forall₂ (fun x f => byUid x = .ok f) xs first ∧
      List.Forall₂ (fun x f => byName x = .ok f) xs second ∧
      List.Forall₂ (fun a b => a = none ∨ b = none) first second ∧
      found = List.zipWith (fun a b => a.or b) first second := by
  induction each with
  | nil => exact ⟨[], [], .nil, .nil, .nil, rfl⟩
  | cons hx _ ih =>
      obtain ⟨a, b, ha, hb, rfl⟩ := hx
      obtain ⟨first, second, each₁, each₂, one, rfl⟩ := ih
      exact ⟨a :: first, b :: second, .cons ha each₁, .cons hb each₂,
        .cons (exclusive _ _ _ ha hb) one, rfl⟩

/-- Matching in two rounds succeeds exactly if each element is matched for itself and nothing is
claimed twice. -/
theorem matchEach_eq_ok
    (exclusive : ∀ x a b, byUid x = .ok a → byName x = .ok b → a = none ∨ b = none) :
    matchEach sort name storedUid byUid byName xs = .ok found ↔
      List.Forall₂ (FoundInRounds byUid byName) xs found ∧ (claimed storedUid found).Nodup := by
  unfold matchEach
  constructor
  · intro h
    cases h₁ : claimEach sort name storedUid byUid [] xs with
    | error e => simp [h₁, bind, Except.bind] at h
    | ok r =>
        obtain ⟨first, claims⟩ := r
        cases h₂ : claimEach sort name storedUid byName claims xs with
        | error e => simp [h₁, h₂, bind, Except.bind] at h
        | ok r =>
            obtain ⟨second, claims'⟩ := r
            obtain rfl : List.zipWith (fun a b => a.or b) first second = found := by
              simpa [h₁, h₂, bind, Except.bind, pure, Except.pure] using h
            obtain ⟨each₁, perm₁, nodup₁⟩ := claimEach_eq_ok h₁
            obtain ⟨each₂, perm₂, nodup₂⟩ := claimEach_eq_ok h₂
            obtain ⟨one, all⟩ := combine_rounds exclusive each₁ each₂
            refine ⟨all, (claimed_zipWith_or one).nodup_iff.mpr ?_⟩
            have nodup := perm₂.nodup_iff.mp (nodup₂ (nodup₁ List.nodup_nil))
            apply List.perm_append_comm.nodup_iff.mp
            exact (List.Perm.append_left _ (by simpa using perm₁)).nodup_iff.mp nodup
  · rintro ⟨each, distinct⟩
    obtain ⟨first, second, each₁, each₂, one, rfl⟩ := split_rounds exclusive each
    have distinct := (claimed_zipWith_or one).nodup_iff.mp distinct
    obtain ⟨claims, run₁, perm₁⟩ : ∃ claims,
        claimEach sort name storedUid byUid [] xs = .ok (first, claims) ∧ _ :=
      claimEach_ok each₁ (by simpa using distinct.of_append_left)
    obtain ⟨claims', run₂, -⟩ : ∃ claims',
        claimEach sort name storedUid byName claims xs = .ok (second, claims') ∧ _ :=
      claimEach_ok each₂ ((List.Perm.append_left _ (by simpa using perm₁)).nodup_iff.mpr
        (List.perm_append_comm.nodup_iff.mp distinct))
    simp [run₁, run₂, bind, Except.bind, pure, Except.pure]

end Claims

/-! ### Entities and relations -/

/-- The match of a planned entity or relation: the stored one with the uid that the schema gives, or
else the one with the same name, if there is one and the schema does not ask for its uid. -/
inductive Matched (present : List UInt64) (named : Option UInt64) (given : UInt64)
    (asked : Bool) : Option UInt64 → Prop
  | byUid : given ≠ 0 → given ∈ present → Matched present named given asked (some given)
  | byName : given = 0 → asked = false → Matched present named given asked named

/-- The match of a planned entity in the stored model. -/
abbrev EntityMatched (stored : Model) (e : Entity) : Option UInt64 → Prop :=
  Matched (stored.entities.map (·.id.uid)) ((stored.entity? e.name).map (·.id.uid)) e.id.uid
    e.uidRequested

/-- The match of a planned relation in the stored entity. -/
abbrev RelationMatched (owner : Entity) (r : Relation) : Option UInt64 → Prop :=
  Matched (owner.relations.map (·.id.uid)) ((owner.relation? r.name).map (·.id.uid)) r.id.uid
    r.uidRequested

theorem findIdx?_isSome_iff {β : Type} (key : β → UInt64) (xs : List β) (uid : UInt64) :
    (xs.findIdx? (key · = uid)).isSome ↔ uid ∈ xs.map key := by
  simp [List.mem_map]

section Rounds

variable {α : Type} {byUid byName : α → Except ModelError (Option UInt64)} {x : α}
variable {present : List UInt64} {named : Option UInt64} {given : UInt64} {asked : Bool}
variable {listed : Bool} {unknown question : ModelError}

/-- Two rounds of which the first looks at the uid that is given and the second at the name find the
match of the element. -/
theorem foundInRounds_iff (known : listed = true ↔ given ∈ present)
    (first : byUid x = if given = 0 then .ok none
      else if listed then .ok (some given) else .error unknown)
    (second : byName x = if given ≠ 0 then .ok none
      else if asked then .error question else .ok named) (f : Option UInt64) :
    FoundInRounds byUid byName x f ↔ Matched present named given asked f := by
  unfold FoundInRounds
  rw [first, second]
  constructor
  · rintro ⟨a, b, ha, hb, rfl⟩
    by_cases none_given : given = 0
    · rw [if_pos none_given] at ha
      rw [if_neg (by simpa using none_given)] at hb
      obtain rfl := Except.ok.inj ha
      cases asked with
      | true => simp at hb
      | false =>
          obtain rfl : named = b := by simpa using hb
          exact .byName none_given rfl
    · rw [if_neg none_given] at ha
      rw [if_pos none_given] at hb
      obtain rfl := Except.ok.inj hb
      cases hl : listed with
      | false => simp [hl] at ha
      | true =>
          obtain rfl : some given = a := by simpa [hl] using ha
          exact .byUid none_given (known.mp hl)
  · rintro (⟨hg, hp⟩ | ⟨none_given, rfl⟩)
    · exact ⟨some given, none, by simp [hg, known.mpr hp], by simp [hg], rfl⟩
    · exact ⟨none, named, by simp [none_given], by simp [none_given], rfl⟩

theorem rounds_exclusive {a b : Option UInt64}
    (first : byUid x = if given = 0 then .ok none
      else if listed then .ok (some given) else .error unknown)
    (second : byName x = if given ≠ 0 then .ok none
      else if asked then .error question else .ok named)
    (ha : byUid x = .ok a) (hb : byName x = .ok b) : a = none ∨ b = none := by
  by_cases none_given : given = 0
  · rw [first, if_pos none_given] at ha
    exact .inl (Except.ok.inj ha).symm
  · rw [second, if_pos none_given] at hb
    exact .inr (Except.ok.inj hb).symm

end Rounds

theorem entityByUid_eq (stored : Model) (e : Entity) :
    entityByUid stored e = if e.id.uid = 0 then .ok none
      else if (stored.findByUid? e.id.uid).isSome then .ok (some e.id.uid)
      else .error (.within (.entity e.name) (.unknownEntityUid e.id.uid)) := rfl

theorem entityByName_eq (stored : Model) (e : Entity) :
    entityByName stored e = if e.id.uid ≠ 0 then .ok none
      else if e.uidRequested
      then .error (.uidRequested (.entity e.name ((stored.entity? e.name).map (·.id.uid))))
      else .ok ((stored.entity? e.name).map (·.id.uid)) := rfl

theorem matchEntities_eq_ok {stored : Model} {plan : List Entity} {found : List (Option UInt64)} :
    matchEntities stored plan = .ok found ↔
      List.Forall₂ (EntityMatched stored) plan found ∧ (claimed id found).Nodup := by
  have each : FoundInRounds (entityByUid stored) (entityByName stored) = EntityMatched stored := by
    funext e f
    exact propext (foundInRounds_iff (findIdx?_isSome_iff _ _ _) (entityByUid_eq stored e)
      (entityByName_eq stored e) f)
  rw [matchEntities, matchEach_eq_ok, each]
  intro e a b ha hb
  exact rounds_exclusive (entityByUid_eq stored e) (entityByName_eq stored e) ha hb

theorem relationByUid_eq (owner : Entity) (r : Relation) :
    relationByUid owner r = if r.id.uid = 0 then .ok none
      else if (owner.findRelationByUid? r.id.uid).isSome then .ok (some r.id.uid)
      else .error (.within (.relation r.name) (.unknownRelationUid owner.name r.id.uid)) := rfl

theorem relationByName_eq (planned owner : Entity) (r : Relation) :
    relationByName planned owner r = if r.id.uid ≠ 0 then .ok none
      else if r.uidRequested
      then .error (.uidRequested
        (.relation planned.name r.name ((owner.relation? r.name).map (·.id.uid))))
      else .ok ((owner.relation? r.name).map (·.id.uid)) := rfl

theorem matchRelations_eq_ok {planned owner : Entity} {found : List (Option UInt64)} :
    matchRelations planned owner = .ok found ↔
      List.Forall₂ (RelationMatched owner) planned.relations found ∧ (claimed id found).Nodup := by
  have each : FoundInRounds (relationByUid owner) (relationByName planned owner) =
      RelationMatched owner := by
    funext r f
    exact propext (foundInRounds_iff (findIdx?_isSome_iff _ _ _) (relationByUid_eq owner r)
      (relationByName_eq planned owner r) f)
  rw [matchRelations, matchEach_eq_ok, each]
  intro r a b ha hb
  exact rounds_exclusive (relationByUid_eq owner r) (relationByName_eq planned owner r) ha hb

/-- Where the identifier of a merged entity or relation comes from: a stored element keeps it, and a
new one gets an identifier that has never been in use. -/
inductive Origin {β : Type} (id : β → IdPair) (stored : List β) (named : Option β) (given : UInt64)
    (asked : Bool) (last : Option IdPair) (Fresh : UInt64 → Prop) : Option β → IdPair → Prop
  | byUid {x : β} : given ≠ 0 → x ∈ stored → (id x).uid = given →
      Origin id stored named given asked last Fresh (some x) (id x)
  | byName {x : β} : given = 0 → asked = false → named = some x →
      Origin id stored named given asked last Fresh (some x) (id x)
  | created {i : IdPair} : given = 0 → asked = false → named = none →
      IdPair.lastId last < i.id → Fresh i.uid →
      Origin id stored named given asked last Fresh none i

section Origins

variable {β : Type} {key : β → IdPair} {stored : List β} {named : Option β}
variable {present : List UInt64} {given : UInt64} {asked : Bool} {last : Option IdPair}
variable {Fresh : UInt64 → Prop} {x : β}

theorem Origin.of_found
    (matched : Matched present (named.map fun x => (key x).uid) given asked (some (key x).uid))
    (there : x ∈ stored) (only : ∀ y, named = some y → (key y).uid = (key x).uid → y = x) :
    Origin key stored named given asked last Fresh (some x) (key x) := by
  generalize same : some (key x).uid = f at matched
  cases matched with
  | byUid given _ => exact .byUid given there (Option.some.inj same)
  | byName none_given silent =>
      obtain ⟨y, is_named, same⟩ := Option.map_eq_some_iff.mp same.symm
      rw [only y is_named same] at is_named
      exact .byName none_given silent is_named

theorem Origin.of_created {id : IdPair}
    (matched : Matched present (named.map fun x => (key x).uid) given asked none)
    (above : IdPair.lastId last < id.id) (fresh : Fresh id.uid) :
    Origin key stored named given asked last Fresh none id := by
  generalize same : (none : Option UInt64) = f at matched
  cases matched with
  | byUid => simp at same
  | byName none_given silent =>
      exact .created none_given silent (Option.map_eq_none_iff.mp same.symm) above fresh

/-- An element that was found is stored under the identifier of the result, provided that elements
found by name are stored. -/
theorem Origin.mem {found : Option β} {id : IdPair}
    (h : Origin key stored named given asked last Fresh found id)
    (listed : ∀ x, named = some x → x ∈ stored) (is_found : found = some x) :
    x ∈ stored ∧ key x = id := by
  cases h with
  | byUid _ there _ =>
      obtain rfl := Option.some.inj is_found
      exact ⟨there, rfl⟩
  | byName _ _ is_named =>
      obtain rfl := Option.some.inj is_found
      exact ⟨listed _ is_named, rfl⟩
  | created => cases is_found

/-- An element that is matched is present, provided that elements found by name are. -/
theorem Matched.mem {uid : UInt64}
    (h : Matched present (named.map fun x => (key x).uid) given asked (some uid))
    (listed : ∀ x, named = some x → (key x).uid ∈ present) : uid ∈ present := by
  generalize same : some uid = f at h
  cases h with
  | byUid _ there =>
      obtain rfl := Option.some.inj same
      exact there
  | byName =>
      obtain ⟨y, is_named, rfl⟩ := Option.map_eq_some_iff.mp same.symm
      exact listed y is_named

end Origins

/-! ### Properties -/

/-- The match of a planned property in the stored entity: as for entities, but a uid that the entity
does not have resets the property with the same name, provided that the model does not mention the
uid. -/
inductive PropertyMatched (stored : Model) (owner : Entity) (p : Property) :
    Option PropertyMatch → Prop
  | byUid : p.id.uid ≠ 0 → p.id.uid ∈ owner.properties.map (·.id.uid) →
      PropertyMatched stored owner p (some (.existing p.id.uid))
  | reset {q : Property} : p.id.uid ≠ 0 → p.id.uid ∉ owner.properties.map (·.id.uid) →
      owner.property? p.name = some q → ¬ stored.Mentions p.id.uid →
      PropertyMatched stored owner p (some (.reset q.id.uid p.id.uid))
  | byName : p.id.uid = 0 → p.uidRequested = false →
      PropertyMatched stored owner p
        (((owner.property? p.name).map (·.id.uid)).map PropertyMatch.existing)

namespace PropertyMatched

variable {stored : Model} {owner : Entity} {p : Property}

theorem of_existing {uid : UInt64} (h : PropertyMatched stored owner p (some (.existing uid))) :
    p.id.uid ≠ 0 ∧ uid = p.id.uid ∧ uid ∈ owner.properties.map (·.id.uid) ∨
      p.id.uid = 0 ∧ p.uidRequested = false ∧
        ∃ q, owner.property? p.name = some q ∧ q.id.uid = uid := by
  generalize same : some (PropertyMatch.existing uid) = f at h
  cases h with
  | byUid given listed =>
      obtain rfl : uid = _ := by simpa using same
      exact .inl ⟨given, rfl, listed⟩
  | reset => simp at same
  | byName none_given silent =>
      cases named : owner.property? p.name with
      | none => simp [named] at same
      | some q => exact .inr ⟨none_given, silent, q, rfl, by simpa [named, eq_comm] using same⟩

theorem of_reset {old new : UInt64} (h : PropertyMatched stored owner p (some (.reset old new))) :
    new = p.id.uid ∧ p.id.uid ≠ 0 ∧ p.id.uid ∉ owner.properties.map (·.id.uid) ∧
      ¬ stored.Mentions p.id.uid ∧ ∃ q, owner.property? p.name = some q ∧ q.id.uid = old := by
  generalize same : some (PropertyMatch.reset old new) = f at h
  cases h with
  | byUid => simp at same
  | reset given unlisted named unmentioned =>
      obtain ⟨rfl, rfl⟩ : old = _ ∧ new = _ := by simpa using same
      exact ⟨rfl, given, unlisted, unmentioned, _, named, rfl⟩
  | byName => cases named : owner.property? p.name <;> simp [named] at same

theorem of_none (h : PropertyMatched stored owner p none) :
    p.id.uid = 0 ∧ p.uidRequested = false ∧ owner.property? p.name = none := by
  generalize same : none = f at h
  cases h with
  | byUid => simp at same
  | reset => simp at same
  | byName none_given silent => exact ⟨none_given, silent, by simpa using same.symm⟩

end PropertyMatched

theorem propertyByUid_eq_ok {stored : Model} {owner : Entity} {p : Property}
    {f : Option PropertyMatch} (given : p.id.uid ≠ 0) :
    propertyByUid stored owner p = .ok f ↔ PropertyMatched stored owner p f := by
  have known : (owner.findPropertyByUid? p.id.uid).isSome ↔
      p.id.uid ∈ owner.properties.map (·.id.uid) := findIdx?_isSome_iff _ _ _
  rw [propertyByUid, if_neg given]
  constructor
  · intro h
    split at h
    · next listed =>
        obtain rfl := Except.ok.inj h
        exact .byUid given (known.mp listed)
    · next unlisted =>
        rw [Place.wrap_eq_ok] at h
        split at h
        · cases h
        · next q named =>
            split at h
            · cases h
            · next unmentioned =>
                obtain rfl := Except.ok.inj h
                exact .reset given (fun hm => unlisted (known.mpr hm)) named unmentioned
  · intro h
    cases h with
    | byUid _ listed => exact if_pos (known.mpr listed)
    | reset _ unlisted named unmentioned =>
        rw [if_neg fun hl => unlisted (known.mp hl), Place.wrap_eq_ok]
        simp [named, unmentioned]
    | byName none_given => exact absurd none_given given

theorem propertyByName_eq_ok {store : Store} {planned owner : Entity} {p : Property}
    {f : Option PropertyMatch} (none_given : p.id.uid = 0) :
    propertyByName store planned owner p = .ok f ↔ PropertyMatched store.model owner p f := by
  rw [propertyByName, if_neg (by simpa using none_given)]
  constructor
  · intro h
    split at h
    · cases h
    · next silent =>
        obtain rfl := Except.ok.inj h
        exact .byName none_given (by simpa using silent)
  · intro h
    cases h with
    | byUid given => exact absurd none_given given
    | reset given => exact absurd none_given given
    | byName _ silent => simp [silent]

theorem matchProperties_eq_ok {store : Store} {planned owner : Entity}
    {found : List (Option PropertyMatch)} :
    matchProperties store planned owner = .ok found ↔
      List.Forall₂ (PropertyMatched store.model owner) planned.properties found ∧
        (claimed PropertyMatch.storedUid found).Nodup := by
  have first : ∀ p, p.id.uid = 0 → propertyByUid store.model owner p = .ok none :=
    fun p none_given => if_pos none_given
  have second : ∀ p, p.id.uid ≠ 0 → propertyByName store planned owner p = .ok none :=
    fun p given => if_pos given
  have each : FoundInRounds (propertyByUid store.model owner)
      (propertyByName store planned owner) = PropertyMatched store.model owner := by
    funext p f
    apply propext
    unfold FoundInRounds
    by_cases none_given : p.id.uid = 0
    · simp [first p none_given, propertyByName_eq_ok none_given]
    · simp [second p none_given, propertyByUid_eq_ok none_given]
  rw [matchProperties, matchEach_eq_ok, each]
  intro p a b ha hb
  by_cases none_given : p.id.uid = 0
  · exact .inl (Except.ok.inj ((first p none_given).symm.trans ha)).symm
  · exact .inr (Except.ok.inj ((second p none_given).symm.trans hb)).symm

end SchemaLedger.Merge
