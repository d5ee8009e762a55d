import SchemaLedger.Draft.Markup
import SchemaLedger.Proofs.Error.Chains

/-!
# What each annotation does

Annotations are applied to an element one after the other. For each of them it is said here what
becomes of the element if the annotation is accepted, and under which condition it is. An element
that is not left out has gone through all of them.
-/

namespace SchemaLedger

/-! ### Names and uids -/

/-- The name in the database: that of a `name` annotation, or else the declared one. -/
def Annotations.nameOr (set : Annotations) (declared : String) : String :=
  ((set.get? "name").map Annotation.text).getD declared

/-- The value of a `uid` annotation. -/
def Annotations.uidText? (set : Annotations) : Option String :=
  (set.get? "uid").map Annotation.text

theorem Annotations.getD_of_storedName {set : Annotations} {sort : ElementSort}
    {name : Option String} (h : set.storedName sort = .ok name) (declared : String) :
    name.getD declared = set.nameOr declared := by
  unfold storedName at h
  unfold nameOr
  split at h
  · next unnamed =>
      obtain rfl := Except.ok.inj h
      rw [unnamed]
      rfl
  · next a named =>
      split at h
      · cases h
      · obtain rfl := Except.ok.inj h
        rw [named]
        rfl

/-- The uid of an element is as a `uid` annotation with this value says: there is none without the
annotation, it is asked for if the value is empty, and otherwise it is the number written there. -/
inductive FollowsUid : Option String → IdPair → Bool → Prop
  | silent : FollowsUid none .unassigned false
  | requested : FollowsUid (some "") .unassigned true
  | given {value : String} {uid : UInt64} :
      Numeral.readUInt64 value.toList = .ok uid → uid ≠ 0 →
      FollowsUid (some value) { IdPair.unassigned with uid } false

namespace UidMark

/-- The identifier of an element with this mark. -/
def pair : UidMark → IdPair
  | requested => .unassigned
  | given uid => { IdPair.unassigned with uid }

/-- The mark is a request. -/
def asks : UidMark → Bool
  | requested => true
  | given _ => false

theorem followsUid_of_read {value : String} {mark : UidMark} (h : read value = .ok mark) :
    FollowsUid (some value) mark.pair mark.asks := by
  unfold read at h
  split at h
  · next empty =>
      obtain rfl := Except.ok.inj h
      exact empty ▸ .requested
  · split at h
    · next uid reads =>
        split at h
        · cases h
        · next nonzero =>
            obtain rfl := Except.ok.inj h
            exact .given reads nonzero
    · cases h

end UidMark

/-! ### Properties -/

namespace Property

variable {p q : Property} {set : Annotations}

theorem eq_of_markId (h : p.markId set = .ok q) :
    q = p ∨ q = p.addFlags .objectId ∨ q = (p.addFlags .objectId).addFlags .selfAssigned := by
  unfold markId at h
  split at h
  · exact .inl (Except.ok.inj h).symm
  · dsimp only at h
    split at h
    · cases h
    · split at h
      · exact .inr (.inr (Except.ok.inj h).symm)
      · exact .inr (.inl (Except.ok.inj h).symm)

theorem eq_of_markName (h : p.markName set = .ok q) : q = { p with name := set.nameOr p.name } := by
  simp only [markName, except_bind_eq_ok] at h
  obtain ⟨name, stored, h⟩ := h
  rw [← Annotations.getD_of_storedName stored p.name]
  cases name <;> (obtain rfl := except_pure_eq_ok.mp h; rfl)

theorem eq_of_markDate (h : p.markDate set = .ok q) :
    q = p ∨ p.kind = .long ∧ ∃ kind, (kind = .date ∨ kind = .dateNano) ∧ q = { p with kind } := by
  unfold markDate at h
  dsimp only at h
  split at h
  · exact .inl (Except.ok.inj h).symm
  · split at h
    · cases h
    · split at h
      · cases h
      · next long =>
          refine .inr ⟨Decidable.not_not.mp long, _, ?_, (Except.ok.inj h).symm⟩
          split
          · exact .inl rfl
          · exact .inr rfl

theorem eq_of_markCompanion (h : p.markCompanion set = .ok q) :
    q = p ∨ (p.kind = .date ∨ p.kind = .dateNano) ∧ q = p.addFlags .idCompanion := by
  unfold markCompanion at h
  split at h
  · split at h
    · next date => exact .inr ⟨date, (Except.ok.inj h).symm⟩
    · cases h
  · exact .inl (Except.ok.inj h).symm

/-- A flag that says how an index is built. -/
def IsIndexFlag (flag : Flags) : Prop :=
  flag = .indexed ∨ flag = .hashIndexed ∨ flag = .hash64Indexed

/-- A property that asks for an index gets a flag that says how it is built. A vector index is an
ordinary one with parameters. -/
theorem eq_of_requestIndexKind {kind : String} (h : p.requestIndexKind kind = .ok q) :
    (∃ flag, IsIndexFlag flag ∧ q = (p.addFlags flag).requestIndex) ∨
      p.kind = .floatVector ∧
        q = ({ p with vectorIndex := some {} }.addFlags .indexed).requestIndex := by
  unfold requestIndexKind at h
  split at h
  · refine .inl ⟨_, ?_, (Except.ok.inj h).symm⟩
    split
    · exact .inr (.inl rfl)
    · exact .inl rfl
  split at h
  · exact .inl ⟨_, .inl rfl, (Except.ok.inj h).symm⟩
  split at h
  · exact .inl ⟨_, .inr (.inl rfl), (Except.ok.inj h).symm⟩
  split at h
  · exact .inl ⟨_, .inr (.inr rfl), (Except.ok.inj h).symm⟩
  split at h
  · split at h
    · next vector => exact .inr ⟨vector, (Except.ok.inj h).symm⟩
    · cases h
  · cases h

theorem eq_of_markIndex (h : p.markIndex set = .ok q) :
    q = p ∨ ∃ p' kind, (p' = p ∨ p' = p.addFlags .unique) ∧ p'.requestIndexKind kind = .ok q := by
  have start : (if set.contains "unique" then p.addFlags .unique else p) = p ∨
      (if set.contains "unique" then p.addFlags .unique else p) = p.addFlags .unique := by
    split
    · exact .inr rfl
    · exact .inl rfl
  unfold markIndex at h
  dsimp only at h
  split at h
  · exact .inr ⟨_, _, start, h⟩
  · split at h
    · exact .inr ⟨_, _, .inr rfl, h⟩
    · exact .inl (Except.ok.inj h).symm

theorem eq_of_markUid (h : p.markUid set = .ok q) :
    q = { p with id := q.id, uidRequested := q.uidRequested } ∧
      (p.id = .unassigned → p.uidRequested = false →
        FollowsUid set.uidText? q.id q.uidRequested) := by
  unfold markUid at h
  unfold Annotations.uidText?
  split at h
  · next silent =>
      obtain rfl := Except.ok.inj h
      rw [silent]
      exact ⟨rfl, fun unassigned quiet => by rw [unassigned, quiet]; exact .silent⟩
  · next a marked =>
      rw [marked]
      obtain ⟨mark, read, h⟩ := except_bind_eq_ok.mp h
      have follows := UidMark.followsUid_of_read read
      cases mark with
      | requested =>
          obtain rfl := except_pure_eq_ok.mp h
          exact ⟨rfl, fun unassigned _ => by rw [unassigned]; exact follows⟩
      | given uid =>
          obtain rfl := except_pure_eq_ok.mp h
          exact ⟨rfl, fun unassigned quiet => by rw [unassigned, quiet]; exact follows⟩

theorem eq_of_markToOne (h : p.markToOne set = .ok q) :
    q = p ∨ p.kind = .long ∧ ∃ target, target ≠ "" ∧
      q = ({ p with kind := .relation, target }.addFlags (.indexed ∪ .skipZero)).requestIndex := by
  unfold markToOne at h
  split at h
  · cases h
  · split at h
    · unfold makeToOne at h
      split at h
      · exact .inl (Except.ok.inj h).symm
      · split at h
        · cases h
        · next long =>
            split at h
            · cases h
            · next named =>
                exact .inr ⟨Decidable.not_not.mp long, _, named, (Except.ok.inj h).symm⟩
    · exact .inl (Except.ok.inj h).symm

theorem eq_markOptional (set : Annotations) (p : Property) :
    p.markOptional set = { p with optional := (p.markOptional set).optional } := by
  unfold markOptional
  split <;> rfl

theorem eq_of_markVectorIndex (h : p.markVectorIndex set = .ok q) :
    q = { p with vectorIndex := q.vectorIndex } ∧
      ∀ index, q.vectorIndex = some index →
        p.vectorIndex.isSome ∧ index.dimensions ≠ none := by
  unfold markVectorIndex at h
  split at h
  · next none_there _ =>
      obtain rfl := Except.ok.inj h
      exact ⟨rfl, fun index there => by simp [none_there] at there⟩
  · cases h
  · next index there =>
      simp only [except_bind_eq_ok] at h
      obtain ⟨index', -, h⟩ := h
      split at h
      · simp [bind, Except.bind] at h
      · next sized =>
          obtain rfl := except_pure_eq_ok.mp h
          refine ⟨rfl, fun index'' same => ?_⟩
          obtain rfl := Option.some.inj same
          exact ⟨by rw [there]; rfl, sized⟩

/-- A property that is not left out has gone through all its annotations, in this order. -/
theorem steps_of_annotate (h : p.annotate set = .ok (some q)) :
    ∃ p₁ p₂ p₃ p₄ p₅ p₆ p₇, p.markId set = .ok p₁ ∧ p₁.markName set = .ok p₂ ∧
      p₂.markDate set = .ok p₃ ∧ p₃.markCompanion set = .ok p₄ ∧ p₄.markIndex set = .ok p₅ ∧
      p₅.markUid set = .ok p₆ ∧ p₆.markToOne set = .ok p₇ ∧
      (p₇.markOptional set).markVectorIndex set = .ok q := by
  simp only [annotate, except_bind_eq_ok] at h
  obtain ⟨skipped, -, h⟩ := h
  cases skipped with
  | true => simp at h
  | false =>
      simp only [Bool.false_eq_true, if_false, except_bind_eq_ok, except_pure_eq_ok,
        Option.some.injEq] at h
      obtain ⟨p₁, id, p₂, named, p₃, dated, p₄, companion, p₅, indexed, p₆, marked, p₇, related,
        p₈, vector, rfl⟩ := h
      exact ⟨p₁, p₂, p₃, p₄, p₅, p₆, p₇, id, named, dated, companion, indexed, marked, related,
        vector⟩

end Property

/-! ### Relations -/

/-- The details of the group declare the relation: they hold its name and that of its target, and
what they say about its uid. -/
structure Annotation.DeclaresRelation (group : Annotation) (r : Relation) : Prop where
  name : group.detail? "name" = some r.name
  named : r.name ≠ ""
  target : group.detail? "to" = some r.target
  targeted : r.target ≠ ""
  unbound : r.targetId = none
  uid : FollowsUid (group.detail? "uid") r.id r.uidRequested

namespace Entity

theorem declaresRelation_of_relationOf {group : Annotation} {r : Relation}
    (h : markRelations.relationOf group = .ok r) : group.DeclaresRelation r := by
  have some_text {text : Option String} (h : ¬ text.getD "" = "") :
      text = some (text.getD "") := by
    cases text with
    | none => exact absurd rfl h
    | some text => rfl
  unfold markRelations.relationOf at h
  by_cases unnamed : (group.detail? "name").getD "" = ""
  · simp [unnamed, bind, Except.bind] at h
  · by_cases untargeted : (group.detail? "to").getD "" = ""
    · simp [unnamed, untargeted, bind, Except.bind] at h
    · simp only [unnamed, untargeted, if_false] at h
      have declares (id : IdPair) (asked : Bool) (uid : FollowsUid (group.detail? "uid") id asked) :
          group.DeclaresRelation
            { id, name := (group.detail? "name").getD "", target := (group.detail? "to").getD ""
              uidRequested := asked } :=
        ⟨some_text unnamed, unnamed, some_text untargeted, untargeted, rfl, uid⟩
      split at h
      · next silent =>
          obtain rfl := except_pure_eq_ok.mp h
          exact declares _ _ (silent ▸ .silent)
      · next value marked =>
          obtain ⟨mark, read, h⟩ := except_bind_eq_ok.mp h
          have follows := UidMark.followsUid_of_read (Place.wrap_eq_ok.mp read)
          cases mark with
          | requested =>
              obtain rfl := except_pure_eq_ok.mp h
              exact declares _ _ (marked ▸ follows)
          | given uid =>
              obtain rfl := except_pure_eq_ok.mp h
              exact declares _ _ (marked ▸ follows)

/-! ### Entities -/

variable {e e' : Entity} {set : Annotations}

theorem eq_of_markName (h : e.markName set = .ok e') :
    e' = { e with name := set.nameOr e.name } := by
  simp only [markName, except_bind_eq_ok] at h
  obtain ⟨name, stored, h⟩ := h
  rw [← Annotations.getD_of_storedName stored e.name]
  cases name <;> (obtain rfl := except_pure_eq_ok.mp h; rfl)

theorem eq_of_markSync (h : e.markSync set = .ok e') : e' = { e with flags := e'.flags } := by
  unfold markSync at h
  split at h
  · obtain rfl := Except.ok.inj h
    rfl
  · obtain rfl := Except.ok.inj h
    rfl
  · obtain rfl := Except.ok.inj h
    rfl
  · split at h
    · obtain rfl := Except.ok.inj h
      rfl
    · cases h

theorem eq_of_markUid (h : e.markUid set = .ok e') :
    e' = { e with id := e'.id, uidRequested := e'.uidRequested } ∧
      (e.id = .unassigned → e.uidRequested = false →
        FollowsUid set.uidText? e'.id e'.uidRequested) := by
  unfold markUid at h
  unfold Annotations.uidText?
  split at h
  · next silent =>
      obtain rfl := Except.ok.inj h
      rw [silent]
      exact ⟨rfl, fun unassigned quiet => by rw [unassigned, quiet]; exact .silent⟩
  · next a marked =>
      rw [marked]
      obtain ⟨mark, read, h⟩ := except_bind_eq_ok.mp h
      have follows := UidMark.followsUid_of_read read
      cases mark with
      | requested =>
          obtain rfl := except_pure_eq_ok.mp h
          exact ⟨rfl, fun unassigned _ => by rw [unassigned]; exact follows⟩
      | given uid =>
          obtain rfl := except_pure_eq_ok.mp h
          exact ⟨rfl, fun unassigned quiet => by rw [unassigned, quiet]; exact follows⟩

theorem eq_of_markRelations (h : e.markRelations set = .ok e') :
    ∃ relations, e' = { e with relations := e.relations ++ relations } ∧
      List.Forall₂ Annotation.DeclaresRelation (set.relations.map Prod.snd) relations := by
  unfold markRelations at h
  split at h
  · simp [bind, Except.bind] at h
  simp only [except_bind_eq_ok, except_pure_eq_ok] at h
  obtain ⟨relations, each, rfl⟩ := h
  exact ⟨relations, rfl, List.forall₂_map_left_iff.mpr <|
    (forall₂_of_mapM each).imp fun _ _ made => declaresRelation_of_relationOf made⟩

/-- What the annotations of an entity make of it: it has the name in the database and the uid that
they say, and the relations that they declare are added in the order of the annotations. -/
structure IsMarked (set : Annotations) (e e' : Entity) : Prop where
  name : e'.name = set.nameOr e.name
  comments : e'.comments = e.comments
  uid : e.id = .unassigned → e.uidRequested = false →
    FollowsUid set.uidText? e'.id e'.uidRequested
  relations : ∃ relations, e'.relations = e.relations ++ relations ∧
    List.Forall₂ Annotation.DeclaresRelation (set.relations.map Prod.snd) relations

theorem isMarked_of_annotate (h : e.annotate set = .ok (some e')) : e.IsMarked set e' := by
  simp only [annotate, except_bind_eq_ok] at h
  obtain ⟨skipped, -, h⟩ := h
  cases skipped with
  | true => simp at h
  | false =>
      simp only [Bool.false_eq_true, if_false, except_bind_eq_ok, except_pure_eq_ok,
        Option.some.injEq] at h
      obtain ⟨e₁, named, e₂, synced, e₃, marked, e₄, related, rfl⟩ := h
      have name := eq_of_markName named
      have sync := eq_of_markSync synced
      obtain ⟨same, uid⟩ := eq_of_markUid marked
      obtain ⟨relations, added, declared⟩ := eq_of_markRelations related
      rw [sync, name] at uid same
      rw [same] at added
      subst added
      exact ⟨rfl, rfl, uid, relations, rfl, declared⟩

end Entity

end SchemaLedger
