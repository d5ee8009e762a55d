import Mathlib.Data.List.Perm.Subperm
import Mathlib.Logic.Relation
import SchemaLedger.Proofs.Model.Soundness

/-!
# The search for cycles is right

The search in depth leaves a list of the entities that it is done with, the last one first. All
edges of an entity in this list lead to entities behind it, which excludes cycles among them. The
search never runs out of fuel, because the entities on the way to the current one are distinct. If
it finds a cycle, there is one, since every entity on the way leads to the current one.
-/

open Relation

namespace SchemaLedger.Model

variable {m : Model} {fuel i : Nat} {path done done' : List Nat} {steps : List String}

/-- The search only depends on the edges and on the names that it reports. -/
theorem explore_congr {m' : Model} (edges : m.edges = m'.edges) (names : m.nameAt = m'.nameAt) :
    m.explore fuel path steps i done = m'.explore fuel path steps i done := by
  induction fuel generalizing path steps i done with
  | zero => rfl
  | succ fuel ih =>
      have step : @explore m fuel = @explore m' fuel := by
        funext path steps i done
        exact ih
      rw [explore, explore, edges, names, step]

theorem checkCycles_congr {m' : Model} (edges : m.edges = m'.edges) (names : m.nameAt = m'.nameAt)
    (length : m.entities.length = m'.entities.length) : m.checkCycles = m'.checkCycles := by
  have all (is done : List Nat) : m.exploreAll done is = m'.exploreAll done is := by
    induction is generalizing done with
    | nil => rfl
    | cons i is ih =>
        simp only [exploreAll, ih, length, names]
        rw [explore_congr edges names]
  rw [checkCycles, checkCycles, length, all]

/-- There is an edge from one position to another. -/
def Edge (m : Model) (i j : Nat) : Prop := ∃ name, (name, j) ∈ m.edges i

/-- All edges lead from an entity in the list to entities behind it. -/
inductive Settled (m : Model) : List Nat → Prop
  | nil : Settled m []
  | cons {i : Nat} {done : List Nat} : (∀ j, m.Edge i j → j ∈ done) → i ∉ done → Settled m done →
      Settled m (i :: done)

namespace Settled

/-- Whatever is reached from the list lies in it. -/
theorem mem_of_transGen (h : Settled m done) {j : Nat} (way : TransGen m.Edge i j)
    (hi : i ∈ done) : j ∈ done := by
  have closed : ∀ i ∈ done, ∀ j, m.Edge i j → j ∈ done := by
    clear way hi
    induction h with
    | nil => simp
    | cons successors _ _ ih =>
        intro k hk j edge
        rcases List.mem_cons.mp hk with rfl | hk
        · exact List.mem_cons_of_mem _ (successors j edge)
        · exact List.mem_cons_of_mem _ (ih k hk j edge)
  induction way with
  | single edge => exact closed i hi _ edge
  | tail _ edge ih => exact closed _ ih _ edge

/-- No entity in the list lies on a cycle. -/
theorem acyclic (h : Settled m done) (hi : i ∈ done) : ¬ TransGen m.Edge i i := by
  induction h with
  | nil => simp at hi
  | @cons k done successors fresh rest ih =>
      rcases List.mem_cons.mp hi with rfl | hi
      · intro way
        apply fresh
        rcases TransGen.head'_iff.mp way with ⟨j, edge, way⟩
        rcases reflTransGen_iff_eq_or_transGen.mp way with rfl | way
        · exact successors _ edge
        · exact rest.mem_of_transGen way (successors j edge)
      · exact ih hi

end Settled

theorem lt_of_edge {j : Nat} (h : m.Edge i j) : j < m.entities.length := by
  obtain ⟨name, h⟩ := h
  simp only [edges] at h
  cases there : m.entities[i]? with
  | none => simp [there] at h
  | some e =>
      simp only [there, Option.map_some, Option.getD_some, edgesOf, List.mem_append,
        List.mem_filterMap] at h
      have found {p : Entity → Bool} (h : m.entities.findIdx? p = some j) :
          j < m.entities.length := (List.findIdx?_eq_some_iff_getElem.mp h).1
      rcases h with ⟨r, -, h⟩ | ⟨p, -, h⟩
      · obtain ⟨k, target, same⟩ := Option.map_eq_some_iff.mp h
        obtain ⟨-, rfl⟩ := Prod.mk.inj same
        obtain ⟨id, -, target⟩ := Option.bind_eq_some_iff.mp target
        exact found target
      · obtain ⟨k, target, same⟩ := Option.map_eq_some_iff.mp h
        obtain ⟨-, rfl⟩ := Prod.mk.inj same
        exact found target

/-- What exploring from an entity ensures: the entity is done, and nothing on the way to it is. -/
def Explored (m : Model) (path : List Nat) (i : Nat) (done done' : List Nat) : Prop :=
  m.Settled done' ∧ done ⊆ done' ∧ i ∈ done' ∧ ∀ j ∈ path, j ∉ done'

/-- If exploring works from the entities that are not done yet, following a list of edges ensures
that the targets of all of them are done. -/
theorem settled_of_edges {edges : List (String × Nat)}
    (explored : ∀ name target done done', target < m.entities.length → target ∉ i :: path →
      m.explore fuel (i :: path) (steps ++ [name]) target done = .ok done' → m.Settled done →
      (∀ j ∈ target :: i :: path, j ∉ done) → m.Explored (i :: path) target done done')
    (h : edges.foldlM (fun done (name, target) =>
      if target ∈ i :: path then
        Except.error (ModelError.relationCycle (steps ++ [name]) (m.nameAt target))
      else if target ∈ done then Except.ok done
      else m.explore fuel (i :: path) (steps ++ [name]) target done) done = .ok done')
    (bound : ∀ e ∈ edges, e.2 < m.entities.length) (settled : m.Settled done)
    (apart : ∀ j ∈ i :: path, j ∉ done) :
    m.Settled done' ∧ done ⊆ done' ∧ (∀ e ∈ edges, e.2 ∈ done') ∧ ∀ j ∈ i :: path, j ∉ done' := by
  induction edges generalizing done with
  | nil =>
      obtain rfl : done = done' := by simpa [pure, Except.pure] using h
      exact ⟨settled, List.Subset.refl _, by simp, apart⟩
  | cons e edges ih =>
      obtain ⟨name, target⟩ := e
      rw [List.foldlM_cons] at h
      by_cases back : target ∈ i :: path
      · simp [back, bind, Except.bind] at h
      · by_cases known : target ∈ done
        · simp only [back, known, if_false, if_true, bind, Except.bind] at h
          obtain ⟨settled', grows, reached, apart'⟩ :=
            ih h (fun e he => bound e (List.mem_cons_of_mem _ he)) settled apart
          refine ⟨settled', grows, ?_, apart'⟩
          rintro e he
          rcases List.mem_cons.mp he with rfl | he
          · exact grows known
          · exact reached e he
        · simp only [back, known, if_false] at h
          cases first : m.explore fuel (i :: path) (steps ++ [name]) target done with
          | error e => simp [first, bind, Except.bind] at h
          | ok middle =>
              simp only [first, bind, Except.bind] at h
              obtain ⟨settled₁, grows₁, reached₁, apart₁⟩ :=
                explored name target done middle (bound _ List.mem_cons_self) back first settled
                  (by
                    intro j hj
                    rcases List.mem_cons.mp hj with rfl | hj
                    · exact known
                    · exact apart j hj)
              obtain ⟨settled', grows, reached, apart'⟩ :=
                ih h (fun e he => bound e (List.mem_cons_of_mem _ he)) settled₁ apart₁
              refine ⟨settled', fun j hj => grows (grows₁ hj), ?_, apart'⟩
              rintro e he
              rcases List.mem_cons.mp he with rfl | he
              · exact grows reached₁
              · exact reached e he

theorem explored_of_explore (h : m.explore fuel path steps i done = .ok done')
    (enough : fuel + path.length = m.entities.length) (way : (i :: path).Nodup)
    (bound : ∀ j ∈ i :: path, j < m.entities.length) (settled : m.Settled done)
    (apart : ∀ j ∈ i :: path, j ∉ done) : m.Explored path i done done' := by
  induction fuel generalizing path steps i done done' with
  | zero =>
      -- the way would visit more positions than there are
      have short : (i :: path).length ≤ (List.range m.entities.length).length :=
        (way.subperm fun j hj => List.mem_range.mpr (bound j hj)).length_le
      simp only [List.length_cons, List.length_range] at short
      omega
  | succ fuel ih =>
      simp only [explore, except_bind_eq_ok, except_pure_eq_ok] at h
      obtain ⟨closed, fold, rfl⟩ := h
      have explored (name : String) (target : Nat) (done done' : List Nat)
          (lt : target < m.entities.length) (back : target ∉ i :: path)
          (run : m.explore fuel (i :: path) (steps ++ [name]) target done = .ok done')
          (settled : m.Settled done) (apart : ∀ j ∈ target :: i :: path, j ∉ done) :
          m.Explored (i :: path) target done done' := by
        refine ih run ?_ (List.nodup_cons.mpr ⟨back, way⟩) ?_ settled apart
        · simp only [List.length_cons]
          omega
        · intro j hj
          rcases List.mem_cons.mp hj with rfl | hj
          · exact lt
          · exact bound j hj
      obtain ⟨settled', grows, reached, apart'⟩ :=
        settled_of_edges explored fold (fun e he => lt_of_edge ⟨e.1, he⟩) settled apart
      refine ⟨.cons ?_ (apart' i List.mem_cons_self) settled',
        fun j hj => List.mem_cons_of_mem _ (grows hj), List.mem_cons_self, ?_⟩
      · rintro j ⟨name, edge⟩
        exact reached _ edge
      · intro j hj hd
        rcases List.mem_cons.mp hd with rfl | hd
        · exact (List.nodup_cons.mp way).1 hj
        · exact apart' j (List.mem_cons_of_mem _ hj) hd

/-- Exploring from entity after entity leaves all of them done. -/
theorem settled_of_exploreAll {is : List Nat} (h : m.exploreAll done is = .ok ())
    (bound : ∀ i ∈ is, i < m.entities.length) (settled : m.Settled done) :
    ∃ done', m.Settled done' ∧ done ⊆ done' ∧ is ⊆ done' := by
  induction is generalizing done with
  | nil => exact ⟨done, settled, List.Subset.refl _, List.nil_subset _⟩
  | cons i is ih =>
      rw [exploreAll] at h
      have bound' : ∀ j ∈ is, j < m.entities.length :=
        fun j hj => bound j (List.mem_cons_of_mem _ hj)
      by_cases known : i ∈ done
      · rw [if_pos known] at h
        obtain ⟨done', settled', grows, all⟩ := ih h bound' settled
        exact ⟨done', settled', grows, List.cons_subset.mpr ⟨grows known, all⟩⟩
      · rw [if_neg known] at h
        cases first : m.explore m.entities.length [] [m.nameAt i] i done with
        | error e => simp [first, bind, Except.bind] at h
        | ok middle =>
            simp only [first, bind, Except.bind] at h
            obtain ⟨settled₁, grows₁, reached, -⟩ := explored_of_explore first rfl
              (List.nodup_singleton i) (by simpa using bound i List.mem_cons_self) settled
              (by simpa using known)
            obtain ⟨done', settled', grows, all⟩ := ih h bound' settled₁
            exact ⟨done', settled', fun j hj => grows (grows₁ hj),
              List.cons_subset.mpr ⟨grows reached, all⟩⟩

/-- If the search finds no cycle, there is none. -/
theorem acyclic_of_checkCycles (h : m.checkCycles = .ok ()) : ¬ TransGen m.Edge i i := by
  intro way
  obtain ⟨done, settled, -, all⟩ :=
    settled_of_exploreAll h (fun i hi => List.mem_range.mp hi) .nil
  have lt : i < m.entities.length := by
    cases way with
    | single edge => exact lt_of_edge edge
    | tail _ edge => exact lt_of_edge edge
  exact settled.acyclic (all (List.mem_range.mpr lt)) way

/-- The search only fails on a cycle. -/
theorem of_explore_eq_error {e : ModelError} (h : m.explore fuel path steps i done = .error e)
    (way : ∀ j ∈ path, TransGen m.Edge j i) :
    (∃ names last, e = .relationCycle names last) ∧ ∃ k, TransGen m.Edge k k := by
  induction fuel generalizing path steps i done with
  | zero => cases h
  | succ fuel ih =>
      simp only [explore, except_bind_eq_error, except_pure_ne_error, and_false, exists_false,
        or_false] at h
      have there : ∀ edge ∈ m.edges i, m.Edge i edge.2 := fun edge hedge => ⟨edge.1, hedge⟩
      generalize m.edges i = edges at h there
      induction edges generalizing done with
      | nil => cases h
      | cons edge edges ih' =>
          obtain ⟨name, target⟩ := edge
          have step : m.Edge i target := there _ List.mem_cons_self
          rw [List.foldlM_cons, except_bind_eq_error] at h
          rcases h with first | ⟨done', -, rest⟩
          · split at first
            · next back =>
                refine ⟨⟨_, _, (Except.error.inj first).symm⟩, target, ?_⟩
                rcases List.mem_cons.mp back with rfl | back
                · exact .single step
                · exact (way target back).tail step
            · split at first
              · cases first
              · refine ih first fun j hj => ?_
                rcases List.mem_cons.mp hj with rfl | hj
                · exact .single step
                · exact (way j hj).tail step
          · exact ih' rest fun x hx => there x (List.mem_cons_of_mem _ hx)

theorem of_checkCycles_eq_error {e : ModelError} (h : m.checkCycles = .error e) :
    (∃ names last, e = .relationCycle names last) ∧ ∃ k, TransGen m.Edge k k := by
  have all (is done : List Nat) (h : m.exploreAll done is = .error e) :
      (∃ names last, e = .relationCycle names last) ∧ ∃ k, TransGen m.Edge k k := by
    induction is generalizing done with
    | nil => cases h
    | cons i is ih =>
        rw [exploreAll] at h
        split at h
        · exact ih done h
        · rcases except_bind_eq_error.mp h with first | ⟨done', -, rest⟩
          · exact of_explore_eq_error first nofun
          · exact ih done' rest
  exact all _ _ h

/-! ### Entities -/

open Text

/-- An entity has a relation to another one, or a to-one property with its name. -/
def PointsTo (m : Model) (a b : Entity) : Prop :=
  a ∈ m.entities ∧ b ∈ m.entities ∧
    ((∃ r ∈ a.relations, r.targetId = some b.id) ∨
      ∃ p ∈ a.properties, p.IsToOne ∧ SameName b.name p.target)

/-- An edge leads from an entity to one that it points at. -/
theorem pointsTo_of_edge {j : Nat} (edge : m.Edge i j) :
    ∃ a b, m.entities[i]? = some a ∧ m.entities[j]? = some b ∧ m.PointsTo a b := by
  obtain ⟨name, listed⟩ := edge
  cases at_i : m.entities[i]? with
  | none => simp [edges, at_i] at listed
  | some a =>
      have ha := List.mem_of_getElem? at_i
      simp only [edges, at_i, Option.map_some, Option.getD_some, edgesOf, List.mem_append,
        List.mem_filterMap, List.mem_filter, Option.map_eq_some_iff, Prod.mk.injEq,
        decide_eq_true_eq] at listed
      have found {p : Entity → Bool} (h : m.entities.findIdx? p = some j) :
          ∃ b, m.entities[j]? = some b ∧ p b := by
        obtain ⟨lt, hit, -⟩ := List.findIdx?_eq_some_iff_getElem.mp h
        exact ⟨_, List.getElem?_eq_getElem lt, hit⟩
      rcases listed with ⟨r, hr, _, located, -, rfl⟩ | ⟨p, ⟨hp, toOne⟩, _, located, -, rfl⟩
      · obtain ⟨id, target, located⟩ := Option.bind_eq_some_iff.mp located
        obtain ⟨b, at_j, same⟩ := found located
        refine ⟨a, b, rfl, at_j, ha, List.mem_of_getElem? at_j, .inl ⟨r, hr, ?_⟩⟩
        rw [target, of_decide_eq_true same]
      · obtain ⟨b, at_j, named⟩ := found located
        exact ⟨a, b, rfl, at_j, ha, List.mem_of_getElem? at_j,
          .inr ⟨p, hp, toOne, of_decide_eq_true named⟩⟩

/-- If no entity points at itself, be it through others, then the search succeeds. -/
theorem checkCycles_of_acyclic (acyclic : ∀ a, ¬ TransGen m.PointsTo a a) :
    m.checkCycles = .ok () := by
  cases h : m.checkCycles with
  | ok => rfl
  | error e =>
      obtain ⟨-, k, cycle⟩ := of_checkCycles_eq_error h
      have lift {j : Nat} (way : TransGen m.Edge k j) :
          ∃ a b, m.entities[k]? = some a ∧ m.entities[j]? = some b ∧ TransGen m.PointsTo a b := by
        induction way with
        | single edge =>
            obtain ⟨a, b, at_k, at_j, points⟩ := pointsTo_of_edge edge
            exact ⟨a, b, at_k, at_j, .single points⟩
        | tail _ edge ih =>
            obtain ⟨a, b, at_k, at_i, way⟩ := ih
            obtain ⟨b', c, at_i', at_j, points⟩ := pointsTo_of_edge edge
            obtain rfl := Option.some.inj (at_i.symm.trans at_i')
            exact ⟨a, c, at_k, at_j, way.tail points⟩
      obtain ⟨a, b, at_k, at_k', way⟩ := lift cycle
      obtain rfl := Option.some.inj (at_k.symm.trans at_k')
      exact absurd way (acyclic a)

namespace IsConsistent

variable {a b : Entity}

theorem eq_of_id_eq (h : m.IsConsistent) (ha : a ∈ m.entities) (hb : b ∈ m.entities)
    (same : a.id = b.id) : a = b :=
  List.inj_on_of_nodup_map h.distinctUids ha hb (by rw [same])

theorem eq_of_sameName (h : m.IsConsistent) (ha : a ∈ m.entities) (hb : b ∈ m.entities)
    (same : SameName a.name b.name) : a = b :=
  List.inj_on_of_nodup_map h.distinctNames ha hb same

/-- Where an entity points at another one, there is an edge from its position. -/
theorem edge_of_pointsTo (h : m.IsConsistent) (points : m.PointsTo a b)
    (at_i : m.entities[i]? = some a) : ∃ j, m.entities[j]? = some b ∧ m.Edge i j := by
  obtain ⟨-, hb, points⟩ := points
  have edges : m.edges i = m.edgesOf a := by simp [Model.edges, at_i]
  -- the target is found, and it is the only entity that is
  have search (found : Entity → Bool) (hit : found b) (only : ∀ e ∈ m.entities, found e → e = b) :
      ∃ j, m.entities.findIdx? found = some j ∧ m.entities[j]? = some b := by
    cases located : m.entities.findIdx? found with
    | none => exact absurd hit (by simp [List.findIdx?_eq_none_iff.mp located b hb])
    | some j =>
        obtain ⟨lt, hj, -⟩ := List.findIdx?_eq_some_iff_getElem.mp located
        exact ⟨j, rfl, by
          rw [List.getElem?_eq_getElem lt, only _ (List.getElem_mem lt) hj]⟩
  rcases points with ⟨r, hr, target⟩ | ⟨p, hp, toOne, named⟩
  · obtain ⟨j, located, at_j⟩ := search (fun e => e.id = b.id) (by simp) fun e he same =>
      h.eq_of_id_eq he hb (of_decide_eq_true same)
    refine ⟨j, at_j, r.name, ?_⟩
    rw [edges]
    refine List.mem_append_left _ (List.mem_filterMap.mpr ⟨r, hr, ?_⟩)
    simp [target, Model.findById?, located]
  · obtain ⟨j, located, at_j⟩ := search (fun e => SameName e.name p.target) (by simpa using named)
      fun e he same => h.eq_of_sameName he hb ((of_decide_eq_true same).trans named.symm)
    refine ⟨j, at_j, p.name, ?_⟩
    rw [edges]
    refine List.mem_append_right _
      (List.mem_filterMap.mpr ⟨p, List.mem_filter.mpr ⟨hp, by simpa using toOne⟩, ?_⟩)
    simp [Model.findByName?, located]

/-- In a consistent model, no entity points at itself, be it through others. -/
theorem acyclic (h : m.IsConsistent) : ¬ TransGen m.PointsTo a a := by
  have lift {b : Entity} (way : TransGen m.PointsTo a b) {i : Nat}
      (at_i : m.entities[i]? = some a) :
      ∃ j, m.entities[j]? = some b ∧ TransGen m.Edge i j := by
    induction way with
    | single points =>
        obtain ⟨j, at_j, edge⟩ := h.edge_of_pointsTo points at_i
        exact ⟨j, at_j, .single edge⟩
    | tail _ points ih =>
        obtain ⟨j, at_j, way⟩ := ih
        obtain ⟨k, at_k, edge⟩ := h.edge_of_pointsTo points at_j
        exact ⟨k, at_k, way.tail edge⟩
  intro way
  have ha : a ∈ m.entities := by
    rcases TransGen.head'_iff.mp way with ⟨b, points, -⟩
    exact points.1
  obtain ⟨i, lt, rfl⟩ := List.getElem_of_mem ha
  have at_i := List.getElem?_eq_getElem lt
  obtain ⟨j, at_j, way⟩ := lift way at_i
  obtain rfl : i = j :=
    (List.getElem?_inj lt h.distinctUids.of_map).mp (at_i.trans at_j.symm)
  exact acyclic_of_checkCycles h.checks.2.2.2.2.2.2.2 way

end IsConsistent

end SchemaLedger.Model
