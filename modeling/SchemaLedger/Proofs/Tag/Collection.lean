import SchemaLedger.Proofs.Error.Chains
import SchemaLedger.Proofs.Tag.KeyMap
import SchemaLedger.Proofs.Tag.RelationKey
import SchemaLedger.Proofs.Tag.Spelling
import SchemaLedger.Tag.Reader

/-!
# The set that remarks make

A text is accepted if its items are remarks whose names are allowed, with details that belong to
these names, and if no two of them have the same key. The set then has an entry for each remark, and
a relation with details has the number of those before it in its key.
-/

namespace SchemaLedger.Tag

open Annotations

variable {text name : String} {allowed : List String} {count : Nat} {fault : Option PlacedFault}
variable {items : List Item} {item : Item} {details : List (String × Detail)}
variable {d m m' : KeyMap Detail} {set set' : Annotations} {r : Remark} {remarks : List Remark}

/-! ### Entries -/

/-- The text of the name among the details of a relation, empty if there is none. -/
def nameIn (details : List (String × Detail)) : String :=
  ((details.lookup "name").map Detail.text).getD ""

namespace Remark

/-- The remark is a relation with details. Only these can be made several times. -/
def isRelation : Remark → Bool
  | plain .. => false
  | group name _ => name = "relation"

/-- The key of a remark that has `count` relations with details before it. -/
def key (count : Nat) : Remark → String
  | plain name _ => name
  | group name details => if name = "relation" then relationKey count (nameIn details) else name

/-- What is said under the key of a remark. -/
def annotation : Remark → Annotation
  | plain _ .flag => .flag
  | plain _ (.value text) => .value text
  | group name details => .group name (.ofList details)

end Remark

/-- The entries of remarks that have `count` relations with details before them. -/
def entriesOf (count : Nat) : List Remark → List (String × Annotation)
  | [] => []
  | r :: rest =>
    (r.key count, r.annotation) :: entriesOf (if r.isRelation then count + 1 else count) rest

/-! ### What is accepted -/

/-- The details can stand in the brackets behind a name. -/
structure AreDetailsOf (name : String) (details : List (String × Detail)) : Prop where
  takes : (detailNames.lookup name).isSome
  known : ∀ p ∈ details, p.1 ∈ allowedDetails name
  distinct : (KeyMap.keysOf details).Nodup
  flags : ∀ p ∈ details, p.1 ∈ flagDetails → p.2.text = ""
  named : name = "relation" → nameIn details ≠ ""

/-- The remark has an allowed name, and its details belong to this name. -/
def Remark.IsAllowed (allowed : List String) : Remark → Prop
  | .plain name _ => name ∈ allowed
  | .group name details => name ∈ allowed ∧ AreDetailsOf name details

instance (name : String) (details : List (String × Detail)) :
    Decidable (AreDetailsOf name details) :=
  decidable_of_iff
    ((detailNames.lookup name).isSome ∧ (∀ p ∈ details, p.1 ∈ allowedDetails name) ∧
      (KeyMap.keysOf details).Nodup ∧ (∀ p ∈ details, p.1 ∈ flagDetails → p.2.text = "") ∧
      (name = "relation" → nameIn details ≠ ""))
    ⟨fun ⟨takes, known, distinct, flags, named⟩ => ⟨takes, known, distinct, flags, named⟩,
      fun h => ⟨h.takes, h.known, h.distinct, h.flags, h.named⟩⟩

instance (allowed : List String) : (r : Remark) → Decidable (r.IsAllowed allowed)
  | .plain name _ => inferInstanceAs (Decidable (name ∈ allowed))
  | .group name details => inferInstanceAs (Decidable (name ∈ allowed ∧ AreDetailsOf name details))

/-- If the item is a group, its name takes details. -/
def Item.TakesDetails : Item → Prop
  | .group name _ _ => (detailNames.lookup name).isSome
  | _ => True

/-! ### Details -/

theorem add_eq_ok_iff {α : Type} {key : String} {x : α} {m m' : KeyMap α} :
    add allowed name key x m = .ok m' ↔
      m.contains key = false ∧ name ∈ allowed ∧ m.insert key x = m' := by
  unfold add
  split
  · next there => simp [there]
  · next new => split <;> simp_all

theorem checkFault_eq_ok_iff : checkFault text fault = .ok () ↔ fault = none := by
  cases fault <;> simp [checkFault]

theorem checkFlags_eq_ok_iff :
    checkFlags d = .ok () ↔ ∀ p ∈ d.entries, p.1 ∈ flagDetails → p.2.text = "" := by
  unfold checkFlags
  split
  · next name detail found =>
      have faulty := List.find?_some found
      simp only [Bool.and_eq_true, decide_eq_true_eq] at faulty
      exact ⟨nofun, fun h => absurd (h _ (List.mem_of_find?_eq_some found) faulty.1) faulty.2⟩
  · next none_found => simpa using none_found

theorem checkNamed_eq_ok_iff :
    checkNamed name d = .ok () ↔
      (name = "relation" → ((d.get? "name").map Detail.text).getD "" ≠ "") := by
  unfold checkNamed
  split <;> simp_all

theorem finishGroup_eq_ok_iff {read : Except ModelError (KeyMap Detail)} :
    finishGroup text name fault read = .ok d ↔
      read = .ok d ∧ fault = none ∧ checkFlags d = .ok () ∧ checkNamed name d = .ok () := by
  simp only [finishGroup, except_bind_eq_ok]
  constructor
  · rintro ⟨_, read, _, faultless, _, flags, _, named, same⟩
    obtain rfl := Except.ok.inj same
    exact ⟨read, checkFault_eq_ok_iff.mp faultless, flags, named⟩
  · rintro ⟨read, faultless, flags, named⟩
    exact ⟨d, read, (), checkFault_eq_ok_iff.mpr faultless, (), flags, (), named, rfl⟩

theorem readDetails_plainItem (p : String × Detail) :
    readDetails text allowed m (plainItem p :: items) =
      (add allowed p.1 p.1 p.2 m >>= fun m => readDetails text allowed m items) := by
  obtain ⟨name, _ | value⟩ := p <;> rw [plainItem, readDetails]

/-- Details are read if they are plain and known and none of them is repeated. -/
theorem readDetails_eq_ok_iff :
    readDetails text allowed m items = .ok m' ↔
      ∃ details : List (String × Detail), items = details.map plainItem ∧
        (∀ p ∈ details, p.1 ∈ allowed) ∧ m.IsFresh details ∧ m.insertAll details = m' := by
  constructor
  · intro h
    induction items generalizing m with
    | nil =>
        rw [readDetails] at h
        exact ⟨[], rfl, by simp, m.isFresh_nil, Except.ok.inj h⟩
    | cons item items ih =>
        have plain (p : String × Detail) (same : item = plainItem p) :
            ∃ details : List (String × Detail), item :: items = details.map plainItem ∧
              (∀ p ∈ details, p.1 ∈ allowed) ∧ m.IsFresh details ∧ m.insertAll details = m' := by
          rw [same, readDetails_plainItem, except_bind_eq_ok] at h
          obtain ⟨m, added, h⟩ := h
          obtain ⟨new, known, rfl⟩ := add_eq_ok_iff.mp added
          obtain ⟨details, rfl, others, fresh, rfl⟩ := ih h
          exact ⟨p :: details, by rw [same, List.map_cons],
            List.forall_mem_cons.mpr ⟨known, others⟩,
            KeyMap.isFresh_cons_iff.mpr ⟨new, fresh⟩, rfl⟩
        cases item with
        | flag name => exact plain (name, .flag) rfl
        | value name text => exact plain (name, .value text) rfl
        | group name inner fault =>
            rw [readDetails, except_bind_eq_ok] at h
            obtain ⟨_, _, impossible⟩ := h
            cases impossible
  · rintro ⟨details, rfl, known, fresh, rfl⟩
    induction details generalizing m with
    | nil => rw [List.map_nil, readDetails]; rfl
    | cons p details ih =>
        obtain ⟨new, fresh⟩ := KeyMap.isFresh_cons_iff.mp fresh
        obtain ⟨first, known⟩ := List.forall_mem_cons.mp known
        rw [List.map_cons, readDetails_plainItem, except_bind_eq_ok]
        exact ⟨_, add_eq_ok_iff.mpr ⟨new, first, rfl⟩, ih known fresh⟩

/-- A group is accepted if its items are details of its name. -/
theorem finishGroup_readDetails_iff (takes : (detailNames.lookup name).isSome) :
    finishGroup text name fault (readDetails text (allowedDetails name) .empty items) = .ok d ↔
      fault = none ∧ ∃ details, items = details.map plainItem ∧ AreDetailsOf name details ∧
        .ofList details = d := by
  simp only [finishGroup_eq_ok_iff, readDetails_eq_ok_iff, checkFlags_eq_ok_iff,
    checkNamed_eq_ok_iff, KeyMap.isFresh_empty_iff]
  constructor
  · rintro ⟨⟨details, same, known, distinct, rfl⟩, faultless, flags, named⟩
    refine ⟨faultless, details, same, ⟨takes, known, distinct, fun p hp => ?_, fun isRelation => ?_⟩,
      rfl⟩
    · exact flags p ((KeyMap.ofList_perm distinct).mem_iff.mpr hp)
    · have := named isRelation
      rwa [← KeyMap.ofList, KeyMap.get?_ofList distinct] at this
  · rintro ⟨faultless, details, same, areDetails, rfl⟩
    refine ⟨⟨details, same, areDetails.known, areDetails.distinct, rfl⟩, faultless, fun p hp => ?_,
      fun isRelation => ?_⟩
    · exact areDetails.flags p ((KeyMap.ofList_perm areDetails.distinct).mem_iff.mp hp)
    · rw [KeyMap.get?_ofList areDetails.distinct]
      exact areDetails.named isRelation

/-! ### Remarks -/

theorem addItem_plain (p : String × Detail) :
    addItem text allowed set (plainItem p) =
      add allowed p.1 p.1 ( Remark.annotation (.plain p.1 p.2)) set := by
  obtain ⟨name, _ | value⟩ := p <;> rfl

theorem groupKey_ofList (distinct : (KeyMap.keysOf details).Nodup) :
    set.groupKey name (.ofList details) =
      (Remark.group name details).key set.relations.length := by
  rw [groupKey, KeyMap.get?_ofList distinct]
  rfl

/-- An item is accepted if it is an allowed remark with a new key. -/
theorem addItem_eq_ok_iff (takes : item.TakesDetails) :
    addItem text allowed set item = .ok set' ↔
      ∃ r : Remark, item = r.toItem ∧ r.IsAllowed allowed ∧
        set.contains (r.key set.relations.length) = false ∧
        set.insert (r.key set.relations.length) r.annotation = set' := by
  constructor
  · intro h
    have plain (p : String × Detail) (same : item = plainItem p) :
        ∃ r : Remark, item = r.toItem ∧ r.IsAllowed allowed ∧
          set.contains (r.key set.relations.length) = false ∧
          set.insert (r.key set.relations.length) r.annotation = set' := by
      rw [same, addItem_plain] at h
      obtain ⟨new, known, rfl⟩ := add_eq_ok_iff.mp h
      exact ⟨.plain p.1 p.2, same, known, new, rfl⟩
    cases item with
    | flag name => exact plain (name, .flag) rfl
    | value name text => exact plain (name, .value text) rfl
    | group name items fault =>
        obtain ⟨d, finished, added⟩ := except_bind_eq_ok.mp h
        obtain ⟨rfl, details, rfl, areDetails, rfl⟩ := (finishGroup_readDetails_iff takes).mp finished
        obtain ⟨new, known, rfl⟩ := add_eq_ok_iff.mp added
        rw [groupKey_ofList areDetails.distinct] at new ⊢
        exact ⟨.group name details, rfl, ⟨known, areDetails⟩, new, rfl⟩
  · rintro ⟨r, rfl, isAllowed, new, rfl⟩
    cases r with
    | plain name detail =>
        rw [Remark.toItem, addItem_plain]
        exact add_eq_ok_iff.mpr ⟨new, isAllowed, rfl⟩
    | group name details =>
        obtain ⟨known, areDetails⟩ := isAllowed
        refine except_bind_eq_ok.mpr ⟨.ofList details,
          (finishGroup_readDetails_iff takes).mpr ⟨rfl, details, rfl, areDetails, rfl⟩, ?_⟩
        rw [groupKey_ofList areDetails.distinct]
        exact add_eq_ok_iff.mpr ⟨new, known, rfl⟩

/-! ### Relations count -/

/-- The allowed names cannot be taken for the keys of relations with details. -/
def AreNames (allowed : List String) : Prop :=
  ∀ name ∈ allowed, IsTagName name ∧ ¬ IsRelationKey name

theorem areNames_entityNames : AreNames entityNames := by
  unfold AreNames
  decide

theorem areNames_propertyNames : AreNames propertyNames := by
  unfold AreNames
  decide

theorem areNames_of_known (h : allowed = entityNames ∨ allowed = propertyNames) :
    AreNames allowed := by
  rcases h with rfl | rfl
  · exact areNames_entityNames
  · exact areNames_propertyNames

theorem Remark.IsAllowed.name_mem (h : r.IsAllowed allowed) : r.name ∈ allowed := by
  cases r with
  | plain => exact h
  | group => exact h.1

theorem Remark.key_eq (h : r.isRelation = false) (count : Nat) : r.key count = r.name := by
  cases r with
  | plain => rfl
  | group name details => exact if_neg (by simpa [isRelation] using h)

theorem isRelationKey_key_iff (names : AreNames allowed) (h : r.IsAllowed allowed) (count : Nat) :
    IsRelationKey (r.key count) ↔ r.isRelation = true := by
  cases isRelation : r.isRelation with
  | false => simp [Remark.key_eq isRelation, (names _ h.name_mem).2]
  | true =>
      cases r with
      | plain => simp [Remark.isRelation] at isRelation
      | group name details =>
          obtain rfl : name = "relation" := by simpa [Remark.isRelation] using isRelation
          simpa [Remark.key] using isRelationKey_relationKey count _

theorem relations_length_insert (new : set.contains (r.key count) = false)
    (names : AreNames allowed) (h : r.IsAllowed allowed) {a : Annotation} :
    (relations (set.insert (r.key count) a)).length =
      if r.isRelation then set.relations.length + 1 else set.relations.length := by
  have perm := (KeyMap.insert_perm (x := a) new).filter fun entry => IsRelationKey entry.1
  rw [relations, perm.length_eq, List.filter_cons]
  simp only [isRelationKey_key_iff names h, decide_eq_true_eq]
  split <;> rfl

/-! ### Texts -/

/-- Items are accepted if they are allowed remarks with new keys. -/
theorem addItems_eq_ok_iff (names : AreNames allowed) (takes : ∀ item ∈ items, item.TakesDetails) :
    addItems text allowed set items = .ok set' ↔
      ∃ remarks : List Remark, items = remarks.map Remark.toItem ∧
        (∀ r ∈ remarks, r.IsAllowed allowed) ∧
        set.IsFresh (entriesOf set.relations.length remarks) ∧
        set.insertAll (entriesOf set.relations.length remarks) = set' := by
  induction items generalizing set with
  | nil =>
      constructor
      · intro h
        exact ⟨[], rfl, by simp, set.isFresh_nil, Except.ok.inj h⟩
      · rintro ⟨remarks, same, _, _, rfl⟩
        obtain rfl := List.map_eq_nil_iff.mp same.symm
        rfl
  | cons item items ih =>
      obtain ⟨first, others⟩ := List.forall_mem_cons.mp takes
      rw [addItems, except_bind_eq_ok]
      constructor
      · rintro ⟨set, added, h⟩
        obtain ⟨r, rfl, isAllowed, new, rfl⟩ := (addItem_eq_ok_iff first).mp added
        obtain ⟨remarks, rfl, areAllowed, fresh, rfl⟩ := (ih others).mp h
        rw [relations_length_insert new names isAllowed] at fresh ⊢
        exact ⟨r :: remarks, rfl, List.forall_mem_cons.mpr ⟨isAllowed, areAllowed⟩,
          KeyMap.isFresh_cons_iff.mpr ⟨new, fresh⟩, rfl⟩
      · rintro ⟨remarks, same, areAllowed, fresh, rfl⟩
        obtain ⟨r, remarks, rfl, rfl, rfl⟩ := List.map_eq_cons_iff.mp same.symm
        obtain ⟨isAllowed, areAllowed⟩ := List.forall_mem_cons.mp areAllowed
        obtain ⟨new, fresh⟩ := KeyMap.isFresh_cons_iff.mp fresh
        refine ⟨_, (addItem_eq_ok_iff first).mpr ⟨r, rfl, isAllowed, new, rfl⟩, (ih others).mpr
          ⟨remarks, rfl, areAllowed, ?_⟩⟩
        rw [relations_length_insert new names isAllowed]
        exact ⟨fresh, rfl⟩

/-- The name in front of a group takes details. -/
theorem takesDetails_of_nextToken {s rest : List Char} {token : Token} {stop : Nat}
    (h : nextToken s = .ok (token, rest)) : (itemOf stop rest token).TakesDetails := by
  cases cuts_of_nextToken h with
  | flag => trivial
  | value => trivial
  | group _ _ takes => exact takes

theorem plainItem_injective : Function.Injective plainItem := by
  rintro ⟨name, _ | text⟩ ⟨name', _ | text'⟩ same
  all_goals cases same
  · rfl
  · rfl

theorem Remark.toItem_injective : Function.Injective Remark.toItem := by
  rintro (⟨name, detail⟩ | ⟨name, details⟩) (⟨name', detail'⟩ | ⟨name', details'⟩) same
  · obtain ⟨rfl, rfl⟩ := Prod.mk.inj (plainItem_injective same)
    rfl
  · cases detail <;> cases same
  · cases detail' <;> cases same
  · obtain ⟨rfl, details, -⟩ := Item.group.inj same
    rw [List.map_injective_iff.mpr plainItem_injective details]

/-- The items of the text are these remarks, and there is no fault in it. -/
def IsCutInto (text : String) (remarks : List Remark) : Prop :=
  itemsOf (byteLength text.toList) text.toList = (remarks.map Remark.toItem, none)

/-- There is one way to cut a text into remarks. -/
theorem rightUnique_isCutInto : Relator.RightUnique IsCutInto := by
  intro text remarks remarks' cut cut'
  have same := (Prod.mk.inj (cut.symm.trans cut')).1
  exact List.map_injective_iff.mpr Remark.toItem_injective same

/-- A text is accepted if its items are allowed remarks with new keys. -/
theorem readInto_eq_ok_iff (names : AreNames allowed) :
    readInto allowed text set = .ok set' ↔
      ∃ remarks : List Remark, IsCutInto text remarks ∧ (∀ r ∈ remarks, r.IsAllowed allowed) ∧
        set.IsFresh (entriesOf set.relations.length remarks) ∧
        set.insertAll (entriesOf set.relations.length remarks) = set' := by
  unfold IsCutInto
  have takes := forall_mem_itemsOf (byteLength text.toList) text.toList
    fun s token rest => takesDetails_of_nextToken
  generalize cut : itemsOf (byteLength text.toList) text.toList = cutOff at takes ⊢
  obtain ⟨items, fault⟩ := cutOff
  simp only [readInto, cut, except_bind_eq_ok, Prod.mk.injEq]
  constructor
  · rintro ⟨set', added, _, faultless, same⟩
    obtain rfl := Except.ok.inj same
    obtain ⟨remarks, rfl, spec⟩ := (addItems_eq_ok_iff names takes).mp added
    exact ⟨remarks, ⟨rfl, checkFault_eq_ok_iff.mp faultless⟩, spec⟩
  · rintro ⟨remarks, ⟨rfl, rfl⟩, spec⟩
    exact ⟨set', (addItems_eq_ok_iff names takes).mpr ⟨remarks, rfl, spec⟩, (), rfl, rfl⟩

/-! ### Different keys -/

theorem exists_of_mem_entriesOf {e : String × Annotation} (h : e ∈ entriesOf count remarks) :
    ∃ r ∈ remarks, ∃ n, count ≤ n ∧ e = (r.key n, r.annotation) := by
  induction remarks generalizing count with
  | nil => simp [entriesOf] at h
  | cons r remarks ih =>
      rcases List.mem_cons.mp h with rfl | h
      · exact ⟨r, List.mem_cons_self, count, Nat.le_refl _, rfl⟩
      · obtain ⟨r', hr', n, le, same⟩ := ih h
        refine ⟨r', List.mem_cons_of_mem _ hr', n, ?_, same⟩
        split at le <;> omega

theorem exists_of_mem_keysOf {key : String} (h : key ∈ KeyMap.keysOf (entriesOf count remarks)) :
    ∃ r ∈ remarks, ∃ n, count ≤ n ∧ key = r.key n := by
  obtain ⟨e, he, rfl⟩ := List.mem_map.mp h
  obtain ⟨r, hr, n, le, rfl⟩ := exists_of_mem_entriesOf he
  exact ⟨r, hr, n, le, rfl⟩

theorem Remark.exists_relationKey (h : r.isRelation = true) :
    ∃ name, ∀ count, r.key count = relationKey count name := by
  cases r with
  | plain => simp [isRelation] at h
  | group name details => exact ⟨nameIn details, fun count => if_pos (by simpa [isRelation] using h)⟩

/-- Remarks have different keys if those that are not relations with details have different
names. -/
theorem nodup_keysOf_entriesOf (names : AreNames allowed) (h : ∀ r ∈ remarks, r.IsAllowed allowed)
    (distinct : ((remarks.filter (!·.isRelation)).map Remark.name).Nodup) (count : Nat) :
    (KeyMap.keysOf (entriesOf count remarks)).Nodup := by
  induction remarks generalizing count with
  | nil => exact .nil
  | cons r remarks ih =>
      obtain ⟨isAllowed, others⟩ := List.forall_mem_cons.mp h
      have relation {r' : Remark} {n : Nat} (hr' : r' ∈ remarks) (same : r.key count = r'.key n) :
          r.isRelation = r'.isRelation := by
        have := isRelationKey_key_iff names isAllowed count
        rw [same, isRelationKey_key_iff names (others r' hr')] at this
        exact (Bool.eq_iff_iff.mpr this).symm
      cases isRelation : r.isRelation with
      | true =>
          rw [List.filter_cons_of_neg (by simp [isRelation])] at distinct
          refine List.nodup_cons.mpr ⟨fun there => ?_, ih others distinct _⟩
          obtain ⟨r', hr', n, le, same⟩ := exists_of_mem_keysOf there
          obtain ⟨name, keys⟩ := Remark.exists_relationKey isRelation
          obtain ⟨name', keys'⟩ := Remark.exists_relationKey ((relation hr' same).symm.trans isRelation)
          have := relationKey_inj (((keys count).symm.trans same).trans (keys' n))
          simp only [isRelation, if_true] at le
          omega
      | false =>
          rw [List.filter_cons_of_pos (by simp [isRelation]), List.map_cons] at distinct
          obtain ⟨new, distinct⟩ := List.nodup_cons.mp distinct
          refine List.nodup_cons.mpr ⟨fun there => new ?_, ih others distinct _⟩
          obtain ⟨r', hr', n, -, (same : r.key count = r'.key n)⟩ := exists_of_mem_keysOf there
          have plain := (relation hr' same).symm.trans isRelation
          rw [Remark.key_eq isRelation, Remark.key_eq plain] at same
          rw [same]
          exact List.mem_map_of_mem (List.mem_filter.mpr ⟨hr', by simp [plain]⟩)

/-- The names of remarks that are not relations with details are among the keys, in order. -/
theorem names_sublist_keysOf_entriesOf (count : Nat) (remarks : List Remark) :
    ((remarks.filter (!·.isRelation)).map Remark.name).Sublist
      (KeyMap.keysOf (entriesOf count remarks)) := by
  induction remarks generalizing count with
  | nil => exact .slnil
  | cons r remarks ih =>
      cases isRelation : r.isRelation with
      | true =>
          rw [List.filter_cons_of_neg (by simp [isRelation])]
          exact (ih _).cons _
      | false =>
          rw [List.filter_cons_of_pos (by simp [isRelation]), List.map_cons,
            ← Remark.key_eq isRelation count]
          exact (ih _).cons_cons _

/-! ### Spelled texts -/

theorem isTagName_of_allowedDetails {detail : String} (h : detail ∈ allowedDetails name) :
    IsTagName detail := by
  have all : ∀ p ∈ detailNames, ∀ detail ∈ p.2, IsTagName detail := by decide
  cases found : detailNames.lookup name with
  | none => simp [allowedDetails, found] at h
  | some known =>
      rw [allowedDetails, found] at h
      exact all _ (KeyMap.mem_of_lookup found) detail h

/-- A text that spells allowed remarks is cut into them, in whatever way details are spelled that is
read back. -/
theorem isCutInto_of_spellsEach {Inner : List (String × Detail) → List Char → Prop}
    (names : AreNames allowed) (areAllowed : ∀ r ∈ remarks, r.IsAllowed allowed)
    (spelled : SpellsEach (SpellsRemark Inner) remarks text.toList)
    (inGroups : ∀ name details inner, .group name details ∈ remarks → Inner details inner →
      IsReadInGroup details inner) : IsCutInto text remarks := by
  have reads : ∀ r ∈ remarks, ∀ text, SpellsRemark Inner r text → IsReadAs r.toItem text := by
    intro r hr text h
    refine h.isReadAs (names _ (areAllowed r hr).name_mem).1 fun name details inner same inside => ?_
    subst same
    exact ⟨(areAllowed _ hr).2.takes, inGroups name details inner hr inside⟩
  exact spelled.items reads _

/-- A text that spells allowed remarks with different keys gives the set with their entries, in
whatever way details are spelled that is read back. -/
theorem read_of_spellsEach {Inner : List (String × Detail) → List Char → Prop}
    (names : AreNames allowed) (areAllowed : ∀ r ∈ remarks, r.IsAllowed allowed)
    (distinct : (KeyMap.keysOf (entriesOf 0 remarks)).Nodup)
    (spelled : SpellsEach (SpellsRemark Inner) remarks text.toList)
    (inGroups : ∀ name details inner, .group name details ∈ remarks → Inner details inner →
      IsReadInGroup details inner) :
    read allowed text = .ok (.ofList (entriesOf 0 remarks)) := by
  have cut := isCutInto_of_spellsEach names areAllowed spelled inGroups
  exact (readInto_eq_ok_iff names).mpr
    ⟨remarks, cut, areAllowed, KeyMap.isFresh_empty_iff.mpr distinct, rfl⟩

end SchemaLedger.Tag
