import SchemaLedger.File.Basic
import SchemaLedger.Proofs.Json.RoundTrip
import SchemaLedger.Proofs.Model.Acyclic
import SchemaLedger.Proofs.Model.Soundness

/-!
# What a document keeps of a model

A model that has been written is read back without what only the schema knows. The checks look at
nothing else, so a consistent model is read back as a consistent model.
-/

namespace SchemaLedger

open Json

/-! ### What is kept -/

/-- The property as a document keeps it. -/
def Property.kept (p : Property) : Property :=
  { id := p.id, name := p.name, index := p.index, kind := p.kind, flags := p.flags,
    target := p.target }

/-- The relation as a document keeps it. -/
def Relation.kept (r : Relation) : Relation :=
  { id := r.id, name := r.name, targetId := r.targetId }

/-- The entity as a document keeps it. -/
def Entity.kept (e : Entity) : Entity :=
  { id := e.id, lastProperty := e.lastProperty, name := e.name, flags := e.flags,
    properties := e.properties.map Property.kept, relations := e.relations.map Relation.kept }

/-- The model as a document keeps it, with today's notes. -/
def Model.kept (m : Model) : Model :=
  { m with notes := .current, entities := m.entities.map Entity.kept }

/-! ### Values -/

theorem IdPair.ofJson_toJson (p : IdPair) : IdPair.ofJson p.toJson = .ok p := by
  simp [IdPair.toJson, IdPair.ofJson, text, readLax_chars]

theorem IdPair.optionalOfJson_optionalToJson {p : Option IdPair}
    (assigned : ∀ q, p = some q → ¬ q.IsUnassigned) :
    IdPair.optionalOfJson (IdPair.optionalToJson p) = .ok p := by
  simp [IdPair.optionalOfJson, IdPair.optionalToJson, readText, readOptional_optionalText assigned,
    bind, Except.bind]

theorem readUInt32_ofUInt32 (n : UInt32) : readUInt32 (ofUInt32 n) = .ok n := by
  have fits := n.toNat_lt
  simp [readUInt32, ofUInt32, readWord, fits, Except.map]

theorem readUInt64_ofUInt64 (n : UInt64) : readUInt64 (ofUInt64 n) = .ok n := by
  have fits := n.toNat_lt
  simp [readUInt64, ofUInt64, readWord, fits, Except.map]

theorem PropertyKind.ofJson_toJson (kind : PropertyKind) :
    PropertyKind.ofJson kind.toJson = .ok kind := by
  have code : (kind.code.toUInt32.toUInt64).toNat = kind.code := by cases kind <;> rfl
  have fits : kind.code < 2 ^ 8 := by cases kind <;> decide
  simp only [ofJson, toJson, ofUInt32, readWord, code, if_pos fits]
  simp [ofCode?_code, bind, Except.bind]

theorem Flags.ofJson_toJson (flags : Flags) : Flags.ofJson flags.toJson = .ok flags := by
  simp [Flags.ofJson, Flags.toJson, readUInt32_ofUInt32, Except.map]

theorem readList_map {α β : Type} {read : Json → Except Mismatch α} {write : β → Json}
    {back : β → α} {xs : List β} (each : ∀ x ∈ xs, read (write x) = .ok (back x)) :
    readList read (array (xs.map write)) = .ok (xs.map back) := by
  rw [readList]
  induction xs with
  | nil => rfl
  | cons x xs ih =>
      have rest := ih fun y hy => each y (List.mem_cons_of_mem _ hy)
      simp [readEach, each x List.mem_cons_self, rest, bind, Except.bind, pure, Except.pure]

theorem uidsOfJson_uidsToJson (uids : List UInt64) : uidsOfJson (uidsToJson uids) = .ok uids := by
  have run : readList readUInt64 (array (uids.map ofUInt64)) = .ok (uids.map id) :=
    readList_map fun uid _ => readUInt64_ofUInt64 uid
  rwa [List.map_id] at run

/-! ### Records -/

/-- A member whose value can be read is taken up. -/
theorem takeMembers_cons {α β : Type} {format : RecordFormat α} {seen : List String}
    {record final : α} {name : String} {v : Json} {rest : List (String × Json)}
    {read : Json → Except Mismatch β} {put : β → α → α} {required : Bool} {x : β}
    (located : format.fields.find? (fun field => field.name = name) =
      some ⟨name, required, fun v record => (read v).map (put · record)⟩)
    (unseen : seen.contains name = false) (value : read v = .ok x)
    (others : format.takeMembers (name :: seen) (put x record) rest = .ok final) :
    format.takeMembers seen record ((name, v) :: rest) = .ok final := by
  rw [RecordFormat.takeMembers, located]
  simp only [unseen, value]
  exact others

theorem Property.read_toJson (p : Property) : Property.format.read p.toJson = .ok p.kept := by
  have index (i : IdPair) : readNullable IdPair.ofJson i.toJson = .ok (some i) := by
    have read := IdPair.ofJson_toJson i
    simp only [IdPair.toJson] at read ⊢
    simp [readNullable, read, Except.map]
  obtain ⟨id, name, stored, kind, ⟨bits⟩, target, -, -, -⟩ := p
  -- an index, flags and a target are there or not
  cases stored <;> by_cases none_set : bits = 0 <;> by_cases no_target : target = "" <;>
    simp [toJson, format, kept, RecordFormat.read, RecordFormat.takeMembers, Field.needed,
      Field.optional, IdPair.ofJson_toJson, PropertyKind.ofJson_toJson, readText, index,
      Flags.member, Flags.IsNone, Flags.none, Flags.ofJson_toJson, none_set, no_target, Except.map,
      bind, Except.bind]

theorem Relation.read_toJson {r : Relation} (target : ∀ q, r.targetId = some q → ¬ q.IsUnassigned) :
    Relation.format.read r.toJson = .ok r.kept := by
  simp [toJson, format, kept, RecordFormat.read, RecordFormat.takeMembers, Field.needed,
    Field.optional, IdPair.ofJson_toJson, IdPair.optionalOfJson_optionalToJson target, readText,
    Except.map, bind, Except.bind]

theorem Entity.read_toJson {e : Entity}
    (last : ∀ q, e.lastProperty = some q → ¬ q.IsUnassigned)
    (targets : ∀ r ∈ e.relations, ∀ q, r.targetId = some q → ¬ q.IsUnassigned) :
    Entity.format.read e.toJson = .ok e.kept := by
  have properties := readList_map fun p (_ : p ∈ e.properties) => p.read_toJson
  have relations := readList_map fun r (hr : r ∈ e.relations) => Relation.read_toJson (targets r hr)
  have last := IdPair.optionalOfJson_optionalToJson last
  have none_set : e.flags.IsNone → Flags.none = e.flags := by
    generalize e.flags = flags
    intro h
    cases flags
    exact congrArg Flags.mk h.symm
  by_cases flags : e.flags.IsNone <;> by_cases no_relations : e.relations = [] <;>
    simp [toJson, format, kept, RecordFormat.read, RecordFormat.takeMembers, Field.needed,
      Field.optional, IdPair.ofJson_toJson, last, properties, relations, readText, Flags.member,
      flags, none_set, Flags.ofJson_toJson, no_relations, Except.map, bind, Except.bind]

/-- Every identifier that may be unset is either unset or something else than zeros. -/
structure Model.IsWritable (m : Model) : Prop where
  lastEntity : ∀ q, m.lastEntity = some q → ¬ q.IsUnassigned
  lastIndex : ∀ q, m.lastIndex = some q → ¬ q.IsUnassigned
  lastRelation : ∀ q, m.lastRelation = some q → ¬ q.IsUnassigned
  lastProperty : ∀ e ∈ m.entities, ∀ q, e.lastProperty = some q → ¬ q.IsUnassigned
  targets : ∀ e ∈ m.entities, ∀ r ∈ e.relations, ∀ q, r.targetId = some q → ¬ q.IsUnassigned

theorem Model.read_toJson {m : Model} (h : m.IsWritable) :
    Model.format.read m.toJson = .ok { m.kept with notes := m.notes } := by
  have entities := readList_map fun e (he : e ∈ m.entities) =>
    Entity.read_toJson (h.lastProperty e he) (h.targets e he)
  rw [toJson, RecordFormat.read]
  refine takeMembers_cons rfl rfl rfl ?_
  refine takeMembers_cons rfl rfl rfl ?_
  refine takeMembers_cons rfl rfl rfl ?_
  refine takeMembers_cons rfl rfl entities ?_
  refine takeMembers_cons rfl rfl (IdPair.optionalOfJson_optionalToJson h.lastEntity) ?_
  refine takeMembers_cons rfl rfl (IdPair.optionalOfJson_optionalToJson h.lastIndex) ?_
  refine takeMembers_cons rfl rfl (IdPair.optionalOfJson_optionalToJson h.lastRelation) ?_
  refine takeMembers_cons rfl rfl (readUInt32_ofUInt32 m.formatVersion) ?_
  refine takeMembers_cons rfl rfl (readUInt32_ofUInt32 m.parserMinimum) ?_
  refine takeMembers_cons rfl rfl (uidsOfJson_uidsToJson m.retired.entities) ?_
  refine takeMembers_cons rfl rfl (uidsOfJson_uidsToJson m.retired.indexes) ?_
  refine takeMembers_cons rfl rfl (uidsOfJson_uidsToJson m.retired.properties) ?_
  refine takeMembers_cons rfl rfl (uidsOfJson_uidsToJson m.retired.relations) ?_
  refine takeMembers_cons rfl rfl (readUInt64_ofUInt64 m.version) ?_
  rfl

/-! ### Documents -/

theorem isPlain_array_map {α : Type} {write : α → Json} {xs : List α}
    (each : ∀ x ∈ xs, IsPlain (write x)) : IsPlain (array (xs.map write)) := by
  apply IsPlain.array
  intro v hv
  obtain ⟨x, hx, rfl⟩ := List.mem_map.mp hv
  exact each x hx

theorem Flags.isPlain_member (flags : Flags) : ∀ a ∈ flags.member, IsPlain a.2 := by
  intro a ha
  unfold member at ha
  split at ha
  · cases ha
  · obtain rfl := List.mem_singleton.mp ha
    exact .natural _

theorem Property.isPlain_toJson (p : Property) : IsPlain p.toJson := by
  apply IsPlain.object
  intro a ha
  simp only [List.mem_append, List.mem_cons, List.not_mem_nil, or_false, Option.mem_toList,
    Option.map_eq_some_iff, List.mem_ite_nil_left] at ha
  rcases ha with ((((rfl | rfl) | ⟨index, -, rfl⟩) | rfl) | ha) | ⟨-, rfl⟩
  · exact .string _
  · exact .string _
  · exact .string _
  · exact .natural _
  · exact p.flags.isPlain_member a ha
  · exact .string _

theorem Relation.isPlain_toJson (r : Relation) : IsPlain r.toJson := by
  apply IsPlain.object
  intro a ha
  simp only [List.mem_cons, List.not_mem_nil, or_false] at ha
  rcases ha with rfl | rfl | rfl <;> exact .string _

theorem Entity.isPlain_toJson (e : Entity) : IsPlain e.toJson := by
  apply IsPlain.object
  intro a ha
  simp only [List.mem_append, List.mem_cons, List.not_mem_nil, or_false,
    List.mem_ite_nil_left] at ha
  rcases ha with (((rfl | rfl | rfl) | ha) | rfl) | ⟨-, rfl⟩
  · exact .string _
  · exact .string _
  · exact .string _
  · exact e.flags.isPlain_member a ha
  · exact isPlain_array_map fun p _ => p.isPlain_toJson
  · exact isPlain_array_map fun r _ => r.isPlain_toJson

theorem Model.isPlain_toJson (m : Model) : IsPlain m.toJson := by
  have uids (us : List UInt64) : IsPlain (uidsToJson us) :=
    isPlain_array_map fun u _ => .natural u
  have entities : IsPlain (array (m.entities.map Entity.toJson)) :=
    isPlain_array_map fun e _ => e.isPlain_toJson
  apply IsPlain.object
  intro a ha
  simp only [List.mem_cons, List.not_mem_nil, or_false] at ha
  rcases ha with rfl | rfl | rfl | rfl | rfl | rfl | rfl | rfl | rfl | rfl | rfl | rfl | rfl | rfl
  all_goals first
    | exact .string _
    | exact .natural _
    | exact uids _
    | exact entities

/-- A model that has been written is read back with the notes that were written. -/
theorem Model.ofText_text {m : Model} (h : m.IsWritable) :
    Model.ofText m.text = .ok { m.kept with notes := m.notes } := by
  rw [ofText, readDocument, text, read_render .indented m.isPlain_toJson]
  simp [Model.read_toJson h]

/-! ### Checks -/

section Checks

variable {m : Model}

theorem Entity.check_kept (e : Entity) : e.kept.check = e.check := by
  have property (last : IdPair) (before : List Property) (p : Property) :
      checkProperty last (before.map Property.kept) p.kept = checkProperty last before p := by
    rw [checkProperty, checkProperty, Check.all_map]
    rfl
  have relation (before : List Relation) (r : Relation) :
      checkRelation (before.map Relation.kept) r.kept = checkRelation before r := by
    have names : (∀ q ∈ before.map Relation.kept, ¬ Text.SameName q.name r.kept.name) ↔
        ∀ q ∈ before, ¬ Text.SameName q.name r.name := by
      simp [Relation.kept]
    rw [checkRelation, checkRelation, Check.require_congr names]
    rfl
  have ids : e.kept.checkIdCount = e.checkIdCount := by
    have count : e.kept.properties.countP (fun p => p.IsId) =
        e.properties.countP fun p => p.IsId := by
      rw [Entity.kept, List.countP_map]
      rfl
    rw [checkIdCount, checkIdCount, count]
  have none_left : e.kept.properties = [] ↔ e.properties = [] := by simp [Entity.kept]
  rw [check, check, ids, Check.require_congr none_left]
  have properties (last : IdPair) := Check.eachAfter_map (property last) [] e.properties
  have relations := Check.eachAfter_map relation [] e.relations
  simp only [List.map_nil] at properties relations
  simp only [Entity.kept, properties, relations]
  rfl

namespace Model

theorem checkEntity_kept (m : Model) (before : List Entity) (e : Entity) :
    m.kept.checkEntity (before.map Entity.kept) e.kept = m.checkEntity before e := by
  have known (last : IdPair) : ((∃ p ∈ e.kept.properties, p.id = last) ∨
      last.uid ∈ m.kept.retired.properties) ↔
      (∃ p ∈ e.properties, p.id = last) ∨ last.uid ∈ m.retired.properties := by
    simp [Entity.kept, Property.kept, kept]
  have last : m.kept.checkLastProperty e.kept = m.checkLastProperty e := by
    simp only [checkLastProperty, Check.require_congr (known _)]
    rfl
  rw [checkEntity, checkEntity, last, e.check_kept, Check.all_map]
  rfl

theorem findById?_kept (m : Model) (id : IdPair) : m.kept.findById? id = m.findById? id := by
  rw [findById?, kept, List.findIdx?_map]
  rfl

theorem findByName?_kept (m : Model) (name : String) :
    m.kept.findByName? name = m.findByName? name := by
  rw [findByName?, kept, List.findIdx?_map]
  rfl

theorem checkTargets_kept (m : Model) (e : Entity) :
    m.kept.checkTargets e.kept = m.checkTargets e := by
  have present (target : IdPair) :
      (∃ f ∈ m.kept.entities, f.id = target) ↔ ∃ f ∈ m.entities, f.id = target := by
    simp [kept, Entity.kept]
  simp only [checkTargets, Check.require_congr (present _), findByName?_kept, Entity.kept,
    Check.all_map]
  rfl

theorem checkCycles_kept (m : Model) : m.kept.checkCycles = m.checkCycles := by
  have edgesOf (e : Entity) : m.kept.edgesOf e.kept = m.edgesOf e := by
    have byId : m.kept.findById? = m.findById? := funext m.findById?_kept
    rw [Model.edgesOf, Model.edgesOf, Entity.kept, List.filterMap_map, List.filter_map,
      List.filterMap_map, byId]
    simp only [findByName?_kept]
    rfl
  apply checkCycles_congr
  · funext i
    rw [edges, edges, kept, List.getElem?_map, Option.map_map]
    exact congrArg (fun f => (m.entities[i]?.map f).getD []) (funext edgesOf)
  · funext i
    rw [nameAt, nameAt, kept, List.getElem?_map, Option.map_map]
    rfl
  · simp [kept]

theorem indexes_kept (m : Model) : m.kept.indexes = m.indexes := by
  simp [indexes, kept, Entity.kept, Property.kept, List.flatMap_map, List.filterMap_map,
    Function.comp_def]

theorem relations_kept (m : Model) : m.kept.relations = m.relations := by
  simp [relations, kept, Entity.kept, Relation.kept, List.flatMap_map, Function.comp_def]

theorem allUidPlaces_kept (m : Model) : m.kept.allUidPlaces = m.allUidPlaces := by
  have own (e : Entity) : uidPlaces e.kept = uidPlaces e := by
    simp [uidPlaces, Entity.kept, Property.kept, Relation.kept, List.flatMap_map,
      Function.comp_def]
  simp [allUidPlaces, kept, List.flatMap_map, own]

/-- The checks look at nothing that a document does not keep. -/
theorem check_kept (m : Model) : m.kept.check = m.check := by
  have entities := Check.eachAfter_map m.checkEntity_kept [] m.entities
  have targets : Check.all m.kept.checkTargets m.kept.entities =
      Check.all m.checkTargets m.entities := by
    have each := Check.all_map m.kept.checkTargets Entity.kept m.entities
    simp only [checkTargets_kept] at each
    exact each
  have ids : m.kept.entityIds = m.entityIds := by simp [entityIds, kept, Entity.kept]
  rw [check, check, checkCycles_kept, targets, allUidPlaces_kept, ids, indexes_kept,
    relations_kept]
  rw [List.map_nil] at entities
  simp only [kept] at entities ⊢
  rw [entities]
  rfl

theorem isConsistent_kept {m : Model} : m.kept.IsConsistent ↔ m.IsConsistent := by
  rw [IsConsistent, IsConsistent, check_kept]

/-- Identifiers of a consistent model are either unset or assigned. -/
theorem IsConsistent.isWritable {m : Model} (h : m.IsConsistent) : m.IsWritable where
  lastEntity q last zero := ((of_checkLast h.checks.2.2.1).2.2.1 q last).1 zero.1
  lastIndex q last zero := ((of_checkLast h.checks.2.2.2.1).2.2.1 q last).1 zero.1
  lastRelation q last zero := ((of_checkLast h.checks.2.2.2.2.1).2.2.1 q last).1 zero.1
  lastProperty e he q last zero := ((h.isChecked he).last q last).1 zero.1
  targets e he r hr q there zero := by
    obtain ⟨f, hf, rfl⟩ := h.relationTarget he hr there
    exact (h.isChecked hf).id zero.1

/-- A consistent model is read back without what only the schema knows. -/
theorem read_text {m : Model} (h : m.IsConsistent) : Model.read m.text = .ok m.kept := by
  have version : m.formatVersion ≠ 0 := by
    have passed := h.checks.1
    simp only [checkVersion, Check.bind_eq_ok, Check.require_eq_ok] at passed
    intro zero
    rw [zero] at passed
    exact absurd passed.1 (by decide)
  have filled : { m.kept with notes := m.notes }.fillIn = m.kept := by
    simp [fillIn, kept, version]
  exact read_eq_ok.mpr ⟨_, ofText_text h.isWritable, filled.symm, isConsistent_kept.mpr h⟩

/-- The file that holds a consistent model loads as what a document keeps of it. -/
theorem load_ofModel {m : Model} (h : m.IsConsistent) (path : String) :
    (FileContent.ofModel m).load path = .ok (some m.kept) := by
  have brace : '{' ∈ m.text.toList := by
    simp [text, render, toJson, print]
  have not_blank : ¬ Text.IsBlankText m.text := by
    intro blank
    exact absurd (List.all_eq_true.mp blank '{' brace) (by decide)
  rw [FileContent.ofModel, FileContent.load, if_neg not_blank, read_text h]
  rfl

end Model

end Checks

end SchemaLedger
