import SchemaLedger.Proofs.Tag.Collection
import SchemaLedger.Proofs.Tag.Quotes

/-!
# Sets read line by line

A set to which the annotations of several lines have been added is made of the remarks on all of
them. Its entries are in the order of their keys. For relations with details, this is the order in
which they were added, as long as their number fits into the key. So the entries of a set are those
of the remarks that one reads off it in the order of its keys.
-/

namespace SchemaLedger.Tag

open Annotations

variable {text : String} {allowed lines : List String} {count n : Nat} {r : Remark}
variable {remarks remarks' relations' : List Remark} {set set' : Annotations}
variable {name : String} {details : List (String × Detail)}
variable {entries : List (String × Annotation)} {e : String × Annotation}

/-! ### Counting on -/

/-- The remarks that are relations with details. -/
def relationsOf (remarks : List Remark) : List Remark := remarks.filter (·.isRelation)

/-- The entries of relations with details that have `count` of them before. -/
def numbered (count : Nat) (relations : List Remark) : List (String × Annotation) :=
  relations.mapIdx fun i r => (r.key (count + i), r.annotation)

theorem numbered_cons :
    numbered count (r :: remarks) = (r.key count, r.annotation) :: numbered (count + 1) remarks := by
  simp only [numbered, List.mapIdx_cons, Nat.add_zero, List.cons.injEq, true_and]
  congr 1
  funext i r
  rw [Nat.add_assoc, Nat.add_comm 1]

theorem map_snd_numbered (count : Nat) (remarks : List Remark) :
    (numbered count remarks).map Prod.snd = remarks.map Remark.annotation := by
  induction remarks generalizing count with
  | nil => rfl
  | cons r remarks ih => rw [numbered_cons, List.map_cons, List.map_cons, ih]

theorem entriesOf_append :
    entriesOf count (remarks ++ remarks') =
      entriesOf count remarks ++ entriesOf (count + (relationsOf remarks).length) remarks' := by
  induction remarks generalizing count with
  | nil => rfl
  | cons r remarks ih =>
      rw [List.cons_append, entriesOf, entriesOf, ih, List.cons_append, relationsOf, relationsOf,
        List.filter_cons]
      split
      · rw [List.length_cons, Nat.add_assoc, Nat.add_comm 1]
      · rfl

theorem filter_entriesOf (names : AreNames allowed) (h : ∀ r ∈ remarks, r.IsAllowed allowed) :
    (entriesOf count remarks).filter (fun entry => IsRelationKey entry.1) =
      numbered count (relationsOf remarks) := by
  induction remarks generalizing count with
  | nil => rfl
  | cons r remarks ih =>
      obtain ⟨isAllowed, others⟩ := List.forall_mem_cons.mp h
      rw [entriesOf, List.filter_cons, relationsOf, List.filter_cons]
      simp only [isRelationKey_key_iff names isAllowed, decide_eq_true_eq]
      cases r.isRelation with
      | true => exact (congrArg (_ :: ·) (ih others)).trans numbered_cons.symm
      | false => exact ih others

/-- Numbers that fit are in the order of their keys. -/
theorem ascending_numbered (h : ∀ r ∈ remarks, r.isRelation = true)
    (few : count + remarks.length ≤ 10 ^ 10) :
    (numbered count remarks).Pairwise fun a b => a.1 < b.1 := by
  refine List.pairwise_iff_getElem.mpr fun i j hi hj less => ?_
  simp only [numbered, List.length_mapIdx] at hi hj
  obtain ⟨name, keys⟩ := Remark.exists_relationKey (h _ (List.getElem_mem hi))
  obtain ⟨name', keys'⟩ := Remark.exists_relationKey (h _ (List.getElem_mem hj))
  simp only [numbered, List.getElem_mapIdx, keys, keys']
  exact relationKey_lt (by omega) (by omega)

/-! ### Sets made of remarks -/

/-- The set has the entries of these remarks, which are as they can have been read. -/
structure IsMadeOf (allowed : List String) (remarks : List Remark) (set : Annotations) : Prop where
  areAllowed : ∀ r ∈ remarks, r.IsAllowed allowed
  areCut : ∀ r ∈ remarks, r.IsCut
  distinct : (KeyMap.keysOf (entriesOf 0 remarks)).Nodup
  made : .ofList (entriesOf 0 remarks) = set

theorem isMadeOf_empty (allowed : List String) : IsMadeOf allowed [] .empty :=
  ⟨nofun, nofun, .nil, rfl⟩

namespace IsMadeOf

theorem perm (h : IsMadeOf allowed remarks set) : set.entries.Perm (entriesOf 0 remarks) :=
  h.made ▸ KeyMap.ofList_perm h.distinct

theorem relations_length (h : IsMadeOf allowed remarks set) (names : AreNames allowed) :
    set.relations.length = (relationsOf remarks).length := by
  have perm := h.perm.filter fun entry => IsRelationKey entry.1
  rw [relations, perm.length_eq, filter_entriesOf names h.areAllowed, numbered,
    List.length_mapIdx]

/-- A line is accepted if the set can be made of its remarks together with those before them. -/
theorem readInto_eq_ok_iff (h : IsMadeOf allowed remarks set) (names : AreNames allowed) :
    readInto allowed text set = .ok set' ↔
      ∃ remarks', IsCutInto text remarks' ∧ IsMadeOf allowed (remarks ++ remarks') set' := by
  have together (remarks' : List Remark) : entriesOf 0 (remarks ++ remarks') =
      entriesOf 0 remarks ++ entriesOf (relationsOf remarks).length remarks' := by
    rw [entriesOf_append, Nat.zero_add]
  have fresh_iff (entries : List (String × Annotation)) :
      set.IsFresh entries ↔ (KeyMap.keysOf (entriesOf 0 remarks ++ entries)).Nodup :=
    ((h.perm.append_right entries).map _).nodup_iff
  rw [Tag.readInto_eq_ok_iff names, h.relations_length names]
  constructor
  · rintro ⟨remarks', cut, areAllowed, fresh, rfl⟩
    refine ⟨remarks', cut, fun r hr => ?_, fun r hr => ?_, ?_, ?_⟩
    · exact (List.mem_append.mp hr).elim (h.areAllowed r) (areAllowed r)
    · exact (List.mem_append.mp hr).elim (h.areCut r) (isCut_of_itemsOf cut r)
    · rw [together]
      exact (fresh_iff _).mp fresh
    · rw [together, KeyMap.ofList, KeyMap.insertAll_append, ← KeyMap.ofList, h.made]
  · rintro ⟨remarks', cut, more⟩
    refine ⟨remarks', cut, fun r hr => more.areAllowed r (List.mem_append_right _ hr), ?_, ?_⟩
    · apply (fresh_iff _).mpr
      rw [← together]
      exact more.distinct
    · rw [← more.made, together, KeyMap.ofList, KeyMap.insertAll_append, ← KeyMap.ofList, h.made]

/-- The remarks up to some point make a set as well. -/
theorem of_append (h : IsMadeOf allowed (remarks ++ remarks') set) :
    IsMadeOf allowed remarks (.ofList (entriesOf 0 remarks)) where
  areAllowed r hr := h.areAllowed r (List.mem_append_left _ hr)
  areCut r hr := h.areCut r (List.mem_append_left _ hr)
  distinct := by
    have distinct := h.distinct
    rw [entriesOf_append, KeyMap.keysOf, List.map_append] at distinct
    exact distinct.of_append_left
  made := rfl

/-- As long as their number fits into the keys, relations with details are in the order in which
they were added. -/
theorem relations_eq (h : IsMadeOf allowed remarks set) (names : AreNames allowed)
    (few : (relationsOf remarks).length ≤ 10 ^ 10) :
    set.relations = numbered 0 (relationsOf remarks) := by
  have areRelations : ∀ r ∈ relationsOf remarks, r.isRelation = true :=
    fun r hr => (List.mem_filter.mp hr).2
  -- both sides hold the same entries and ascend, the numbered ones because their number fits
  refine List.Perm.eq_of_pairwise (fun a b _ _ ab ba => absurd (String.lt_trans ab ba)
    (String.lt_irrefl _)) (set.ascending.filter _) (ascending_numbered areRelations (by omega)) ?_
  rw [← filter_entriesOf names h.areAllowed]
  exact h.perm.filter _

end IsMadeOf

/-! ### Remarks in the order of the keys -/

namespace Remark

/-- The remark with its details in the order of their names. -/
def sorted : Remark → Remark
  | plain name detail => plain name detail
  | group name details => group name (KeyMap.ofList details).entries

/-- The remark that an entry is. -/
def ofEntry : String × Annotation → Remark
  | (key, .flag) => plain key .flag
  | (key, .value text) => plain key (.value text)
  | (_, .group name details) => group name details.entries

theorem ofEntry_mk (r : Remark) (n : Nat) : ofEntry (r.key n, r.annotation) = r.sorted := by
  rcases r with ⟨name, _ | text⟩ | ⟨name, details⟩ <;> rfl

theorem annotation_sorted (r : Remark) : r.sorted.annotation = r.annotation := by
  cases r with
  | plain => rfl
  | group name details => rw [sorted, annotation, annotation, KeyMap.ofList_entries]

theorem isRelation_sorted (r : Remark) : r.sorted.isRelation = r.isRelation := by
  cases r <;> rfl

theorem key_sorted (h : r.IsAllowed allowed) (n : Nat) : r.sorted.key n = r.key n := by
  cases r with
  | plain => rfl
  | group name details =>
      have same : nameIn (KeyMap.ofList details).entries = nameIn details := by
        rw [nameIn, ← KeyMap.get?, KeyMap.get?_ofList h.2.distinct, nameIn]
      rw [sorted, key, key, same]

theorem IsAllowed.sorted (h : r.IsAllowed allowed) : r.sorted.IsAllowed allowed := by
  cases r with
  | plain => exact h
  | group name details =>
      obtain ⟨known, areDetails⟩ := h
      have perm := KeyMap.ofList_perm areDetails.distinct
      exact ⟨known, {
        takes := areDetails.takes
        known := fun p hp => areDetails.known p (perm.mem_iff.mp hp)
        distinct := KeyMap.nodup_keys _
        flags := fun p hp => areDetails.flags p (perm.mem_iff.mp hp)
        named := fun isRelation => by
          rw [nameIn, ← KeyMap.get?, KeyMap.get?_ofList areDetails.distinct]
          exact areDetails.named isRelation }⟩

theorem IsCut.sorted (h : r.IsCut) (isAllowed : r.IsAllowed allowed) : r.sorted.IsCut := by
  cases r with
  | plain => exact h
  | group name details =>
      have perm := KeyMap.ofList_perm isAllowed.2.distinct
      exact ⟨fun p hp => h.1 p (perm.mem_iff.mp hp), (quotesIn_of_perm perm).symm ▸ h.2⟩

end Remark

/-- Entries whose relations are numbered in order are the entries of the remarks that they are. -/
theorem entriesOf_map_ofEntry
    (each : ∀ e ∈ entries, ∃ r n, Remark.IsAllowed allowed r ∧ e = (r.key n, r.annotation))
    (names : AreNames allowed) (areAllowed : ∀ r ∈ remarks, r.IsAllowed allowed)
    (areRelations : ∀ r ∈ remarks, r.isRelation = true)
    (inOrder : entries.filter (fun entry => IsRelationKey entry.1) = numbered count remarks) :
    entriesOf count (entries.map .ofEntry) = entries := by
  induction entries generalizing count remarks with
  | nil => rfl
  | cons e entries ih =>
      -- a relation is the next of the numbered ones, and any other entry leaves them as they are
      obtain ⟨⟨r, n, isAllowed, rfl⟩, others⟩ := List.forall_mem_cons.mp each
      rw [List.filter_cons] at inOrder
      simp only [isRelationKey_key_iff names isAllowed, decide_eq_true_eq] at inOrder
      cases isRelation : r.isRelation with
      | true =>
          rw [isRelation, if_pos rfl] at inOrder
          cases remarks with
          | nil => simp [numbered] at inOrder
          | cons r' remarks =>
              obtain ⟨isAllowed', areAllowed⟩ := List.forall_mem_cons.mp areAllowed
              obtain ⟨isRelation', areRelations⟩ := List.forall_mem_cons.mp areRelations
              rw [numbered_cons] at inOrder
              obtain ⟨same, inOrder⟩ := List.cons.inj inOrder
              rw [same, List.map_cons, Remark.ofEntry_mk, entriesOf, Remark.key_sorted isAllowed',
                Remark.annotation_sorted, Remark.isRelation_sorted, isRelation', if_pos rfl,
                ih others areAllowed areRelations inOrder]
      | false =>
          rw [isRelation, if_neg Bool.false_ne_true] at inOrder
          rw [List.map_cons, Remark.ofEntry_mk, entriesOf, Remark.key_sorted isAllowed,
            Remark.annotation_sorted, Remark.isRelation_sorted, isRelation,
            if_neg Bool.false_ne_true, ih others areAllowed areRelations inOrder,
            Remark.key_eq isRelation, Remark.key_eq isRelation]

namespace IsMadeOf

theorem exists_remark (h : IsMadeOf allowed remarks set) (he : e ∈ set.entries) :
    ∃ r ∈ remarks, ∃ n, e = (r.key n, r.annotation) := by
  obtain ⟨r, hr, n, -, same⟩ := exists_of_mem_entriesOf (h.perm.mem_iff.mp he)
  exact ⟨r, hr, n, same⟩

/-- What one reads off a set in the order of its keys is an allowed remark that can have been
read. -/
theorem of_mem_entries (h : IsMadeOf allowed remarks set) (he : e ∈ set.entries) :
    (Remark.ofEntry e).IsAllowed allowed ∧ (Remark.ofEntry e).IsCut := by
  obtain ⟨r, hr, n, rfl⟩ := h.exists_remark he
  rw [Remark.ofEntry_mk]
  exact ⟨(h.areAllowed r hr).sorted, (h.areCut r hr).sorted (h.areAllowed r hr)⟩

/-- The entries of what one reads off a set in the order of its keys are those of the set. -/
theorem entriesOf_entries (h : IsMadeOf allowed remarks set) (names : AreNames allowed)
    (few : set.relations.length ≤ 10 ^ 10) :
    entriesOf 0 (set.entries.map .ofEntry) = set.entries := by
  have mem {r : Remark} (hr : r ∈ relationsOf remarks) := List.mem_filter.mp hr
  rw [h.relations_length names] at few
  refine entriesOf_map_ofEntry (fun e he => ?_) names (fun r hr => h.areAllowed r (mem hr).1)
    (fun r hr => (mem hr).2) (h.relations_eq names few)
  obtain ⟨r, hr, n, same⟩ := h.exists_remark he
  exact ⟨r, n, h.areAllowed r hr, same⟩

end IsMadeOf

end SchemaLedger.Tag
