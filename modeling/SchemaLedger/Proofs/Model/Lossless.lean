import SchemaLedger.Proofs.Model.Persistence

/-!
# Saving and loading is lossless

What is read from a document knows nothing of what only a schema knows, because no field of the
document puts it there. So a model that was read is all that its own document keeps: saved and read
again it is the same model, and saved once more it is the same text.
-/

namespace SchemaLedger

open Json

/-! ### What reading a record preserves -/

namespace Json

variable {α β : Type} {P : α → Prop} {format : RecordFormat α} {r : α} {v : Json}

/-- Taking up a field preserves a property of the record. -/
def Field.Keeps (P : α → Prop) (field : Field α) : Prop :=
  ∀ v x y, field.take v x = .ok y → P x → P y

theorem Field.keeps_of_put {name : String} {required : Bool} {read : Json → Except Mismatch β}
    {put : β → α → α} (h : ∀ v b x, read v = .ok b → P x → P (put b x)) :
    (⟨name, required, fun v x => (read v).map (put · x)⟩ : Field α).Keeps P := by
  intro v x y taken hx
  cases run : read v with
  | error e => simp [run, Except.map] at taken
  | ok b =>
      obtain rfl : put b x = y := by simpa [run, Except.map] using taken
      exact h v b x run hx

theorem RecordFormat.of_takeMembers (keeps : ∀ field ∈ format.fields, field.Keeps P)
    {seen : List String} {record : α} {members : List (String × Json)}
    (run : format.takeMembers seen record members = .ok r) (start : P record) : P r := by
  induction members generalizing seen record with
  | nil =>
      rw [takeMembers] at run
      split at run
      · cases run
      · exact Except.ok.inj run ▸ start
  | cons member members ih =>
      rw [takeMembers] at run
      split at run
      · next field located =>
          split at run
          · cases run
          · obtain ⟨record', taken, rest⟩ := except_bind_eq_ok.mp run
            exact ih rest (keeps field (List.mem_of_find?_eq_some located) _ _ _ taken start)
      · split at run
        · cases run
        · exact ih run start

theorem RecordFormat.of_takeItems {fields : List (Field α)}
    (keeps : ∀ field ∈ fields, field.Keeps P) {position : Nat} {record : α} {items : List Json}
    (run : format.takeItems position record fields items = .ok r) (start : P record) : P r := by
  induction fields generalizing position record items with
  | nil =>
      cases items with
      | nil => exact Except.ok.inj run ▸ start
      | cons item items => cases run
  | cons field fields ih =>
      have others := fun f hf => keeps f (List.mem_cons_of_mem _ hf)
      cases items with
      | nil =>
          rw [takeItems] at run
          split at run
          · cases run
          · exact ih others run start
      | cons item items =>
          rw [takeItems] at run
          obtain ⟨record', taken, rest⟩ := except_bind_eq_ok.mp run
          exact ih others rest (keeps field List.mem_cons_self _ _ _ taken start)

/-- A property of the empty record that every field preserves holds of what is read. -/
theorem RecordFormat.of_read (run : format.read v = .ok r) (blank : P format.blank)
    (keeps : ∀ field ∈ format.fields, field.Keeps P) : P r := by
  cases v with
  | object members => exact of_takeMembers keeps run blank
  | array items => exact of_takeItems keeps run blank
  | _ => cases run

theorem exists_of_readList {read : Json → Except Mismatch α} {xs : List α}
    (run : readList read v = .ok xs) : ∀ x ∈ xs, ∃ w, read w = .ok x := by
  cases v with
  | array items =>
      rw [readList] at run
      induction items generalizing xs with
      | nil =>
          obtain rfl : [] = xs := Except.ok.inj run
          simp
      | cons w items ih =>
          simp only [readEach, except_bind_eq_ok, except_pure_eq_ok] at run
          obtain ⟨x, first, rest, others, rfl⟩ := run
          intro y hy
          rcases List.mem_cons.mp hy with rfl | hy
          · exact ⟨w, first⟩
          · exact ih others y hy
  | _ => cases run

end Json

/-! ### What is read is kept -/

theorem map_kept_eq_self {α : Type} {kept : α → α} {read : Json → Except Mismatch α} {v : Json}
    {xs : List α} (run : readList read v = .ok xs) (each : ∀ w x, read w = .ok x → kept x = x) :
    xs.map kept = xs := by
  refine (List.map_congr_left fun x hx => ?_).trans (List.map_id xs)
  obtain ⟨w, read⟩ := exists_of_readList run x hx
  exact each w x read

theorem Property.kept_of_read {v : Json} {p : Property} (run : Property.format.read v = .ok p) :
    p.kept = p := by
  refine RecordFormat.of_read (P := fun p => p.kept = p) run rfl fun field hf => ?_
  simp only [format, List.mem_cons, List.not_mem_nil, or_false] at hf
  rcases hf with rfl | rfl | rfl | rfl | rfl | rfl
  all_goals
    refine Field.keeps_of_put fun v x p _ same => ?_
    rw [← same]
    rfl

theorem Relation.kept_of_read {v : Json} {r : Relation} (run : Relation.format.read v = .ok r) :
    r.kept = r := by
  refine RecordFormat.of_read (P := fun r => r.kept = r) run rfl fun field hf => ?_
  simp only [format, List.mem_cons, List.not_mem_nil, or_false] at hf
  rcases hf with rfl | rfl | rfl
  all_goals
    refine Field.keeps_of_put fun v x r _ same => ?_
    rw [← same]
    rfl

theorem Entity.kept_eq_self {e : Entity} : e.kept = e ↔
    e.properties.map Property.kept = e.properties ∧ e.relations.map Relation.kept = e.relations ∧
      e.uidRequested = false ∧ e.comments = [] := by
  obtain ⟨id, last, name, flags, properties, relations, requested, comments⟩ := e
  simp only [kept, Entity.mk.injEq, true_and]
  tauto

theorem Entity.kept_of_read {v : Json} {e : Entity} (run : Entity.format.read v = .ok e) :
    e.kept = e := by
  rw [kept_eq_self]
  refine RecordFormat.of_read (P := fun e => e.properties.map Property.kept = e.properties ∧
    e.relations.map Relation.kept = e.relations ∧ e.uidRequested = false ∧ e.comments = [])
    run ⟨rfl, rfl, rfl, rfl⟩ fun field hf => ?_
  simp only [format, List.mem_cons, List.not_mem_nil, or_false] at hf
  rcases hf with rfl | rfl | rfl | rfl | rfl | rfl
  case inr.inr.inr.inr.inl =>
    exact Field.keeps_of_put fun v properties e read same =>
      ⟨map_kept_eq_self read fun _ _ => Property.kept_of_read, same.2⟩
  case inr.inr.inr.inr.inr =>
    exact Field.keeps_of_put fun v relations e read same =>
      ⟨same.1, map_kept_eq_self read fun _ _ => Relation.kept_of_read, same.2.2⟩
  all_goals exact Field.keeps_of_put fun _ _ _ _ same => same

namespace Model

theorem kept_entities_of_read {v : Json} {m : Model} (run : Model.format.read v = .ok m) :
    m.entities.map Entity.kept = m.entities := by
  refine RecordFormat.of_read (P := fun m => m.entities.map Entity.kept = m.entities) run rfl
    fun field hf => ?_
  simp only [format, List.mem_cons, List.not_mem_nil, or_false] at hf
  rcases hf with rfl | rfl | rfl | rfl | hf
  case inr.inr.inr.inl =>
    exact Field.keeps_of_put fun v entities m read same =>
      map_kept_eq_self read fun _ _ => Entity.kept_of_read
  case inr.inr.inr.inr =>
    rcases hf with rfl | rfl | rfl | rfl | rfl | rfl | rfl | rfl | rfl | rfl
    all_goals exact Field.keeps_of_put fun _ _ _ _ same => same
  all_goals exact Field.keeps_of_put fun _ _ _ _ same => same

@[simp] theorem fillIn_entities (m : Model) : m.fillIn.entities = m.entities := by
  unfold fillIn
  split <;> rfl

/-- A document keeps all of a model that was read. -/
theorem kept_of_read {s : String} {m : Model} (run : Model.read s = .ok m) : m.kept = m := by
  obtain ⟨m', parsed, rfl, -⟩ := read_eq_ok.mp run
  have entities : m'.entities.map Entity.kept = m'.entities := by
    rw [Model.ofText, readDocument] at parsed
    split at parsed
    · cases parsed
    · split at parsed
      · next read =>
          obtain rfl := Except.ok.inj parsed
          exact kept_entities_of_read read
      · cases parsed
  rw [kept, fillIn_entities, entities, ← fillIn_entities]
  rfl

/-- A consistent model is read back from its document with everything that the document keeps, in
the same order and with today's notes. So whatever text is read, saving the model and reading it
again gives the same model, and saving it once more the same text. -/
theorem lossless :
    (∀ m : Model, m.IsConsistent → Model.read m.text = .ok m.kept) ∧
    ∀ (s : String) (m : Model), Model.read s = .ok m →
      Model.read m.text = .ok m ∧ (Model.read m.text).map Model.text = .ok m.text := by
  refine ⟨fun m consistent => read_text consistent, fun s m run => ?_⟩
  obtain ⟨-, -, -, consistent⟩ := read_eq_ok.mp run
  have again : Model.read m.text = .ok m := by rw [read_text consistent, kept_of_read run]
  exact ⟨again, by rw [again]; rfl⟩

/-- A model with names that have to be escaped, flags without a meaning, a retired index among those
in use, and an entity that never had a property. -/
def unusual : Model :=
  { notes := {}
    entities := [
      { id := ⟨3, 18446744073709551615⟩, lastProperty := some ⟨7, 12⟩
        name := "T\u00e4sk \"\\\n\u65e5", flags := ⟨0x80000000⟩, comments := ["lost"]
        properties := [
          { id := ⟨1, 10⟩, name := "ID", kind := .long, flags := ⟨0x40000001⟩ },
          { id := ⟨2, 11⟩, name := "\u0001", index := some ⟨4, 13⟩, kind := .string
            optional := some "lost" }]
        relations := [{ id := ⟨2, 14⟩, name := "self", targetId := some ⟨5, 15⟩, target := "x" }] },
      { id := ⟨5, 15⟩, name := "never used" }]
    lastEntity := some ⟨5, 15⟩, lastIndex := some ⟨9, 16⟩, lastRelation := some ⟨2, 14⟩
    formatVersion := 5, parserMinimum := 0, version := 18446744073709551615
    retired := { properties := [12, 0], indexes := [16] } }

theorem lossless_unusual :
    unusual.IsConsistent ∧ Model.read unusual.text = .ok unusual.kept ∧
      Model.read unusual.kept.text = .ok unusual.kept := by
  have consistent : unusual.IsConsistent := by decide
  have read := lossless.1 unusual consistent
  exact ⟨consistent, read, (lossless.2 _ _ read).1⟩

end Model

end SchemaLedger
