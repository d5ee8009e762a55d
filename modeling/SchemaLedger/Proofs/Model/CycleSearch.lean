import SchemaLedger.Proofs.Model.Acyclic

/-!
# What the search for cycles reports

The search in depth is described twice: by the edges of the graph and walks along them, and by its
steps, without any bound on its depth. The bound that the search is given is never reached, because
no entity is twice on the way to the current one. So the search comes to an end, it succeeds exactly
if the graph has no cycle, and what it reports is a walk that comes back to where it has been.
-/

open Relation

namespace SchemaLedger

open Text

namespace Model

variable {m : Model} {fuel i j s target : Nat} {name : String} {path done done' : List Nat}
variable {steps : List String} {edges rest : List (String × Nat)} {way : List (String × Nat)}

/-! ### Edges and walks -/

/-- The first entity that meets the condition stands at position `j`. -/
structure IsFirst (m : Model) (hit : Entity → Prop) (j : Nat) : Prop where
  hits : ∃ x, m.entities[j]? = some x ∧ hit x
  first : ∀ k < j, ∀ x, m.entities[k]? = some x → ¬ hit x

/-- An edge leads from one position to another under a name: that of a relation, to the first entity
with the identifier of its target, or that of a to-one property, to the first entity with the name
of its target. -/
inductive Leads (m : Model) (i : Nat) : String → Nat → Prop
  | relation {e : Entity} {r : Relation} {id : IdPair} {j : Nat} : m.entities[i]? = some e →
      r ∈ e.relations → r.targetId = some id → m.IsFirst (·.id = id) j → Leads m i r.name j
  | property {e : Entity} {p : Property} {j : Nat} : m.entities[i]? = some e →
      p ∈ e.properties → p.target ≠ "" → m.IsFirst (SameName ·.name p.target) j →
      Leads m i p.name j

/-- A walk along edges, with the name of each edge and the position that it leads to. -/
inductive Walk (m : Model) (s : Nat) : List (String × Nat) → Nat → Prop
  | nil : Walk m s [] s
  | snoc {way : List (String × Nat)} {i j : Nat} {name : String} : Walk m s way i →
      m.Leads i name j → Walk m s (way ++ [(name, j)]) j

theorem findIdx?_eq_some_iff_isFirst {hit : Entity → Prop} [DecidablePred hit] :
    m.entities.findIdx? (fun x => decide (hit x)) = some j ↔ m.IsFirst hit j := by
  rw [List.findIdx?_eq_some_iff_getElem]
  constructor
  · rintro ⟨lt, hits, first⟩
    refine ⟨⟨_, List.getElem?_eq_getElem lt, of_decide_eq_true hits⟩, ?_⟩
    intro k below x at_k
    obtain ⟨lt', rfl⟩ := List.getElem?_eq_some_iff.mp at_k
    simpa using first k below
  · rintro ⟨⟨x, at_j, hits⟩, first⟩
    obtain ⟨lt, rfl⟩ := List.getElem?_eq_some_iff.mp at_j
    refine ⟨lt, decide_eq_true hits, ?_⟩
    intro k below
    simpa using first k below _ (List.getElem?_eq_getElem (Nat.lt_trans below lt))

/-- The edges that are listed are those of the graph. -/
theorem mem_edges_iff : (name, j) ∈ m.edges i ↔ m.Leads i name j := by
  cases at_i : m.entities[i]? with
  | none =>
      simp only [Model.edges, at_i, Option.map_none, Option.getD_none, List.not_mem_nil, false_iff]
      rintro (⟨there, -⟩ | ⟨there, -⟩) <;> simp [at_i] at there
  | some e =>
      simp only [Model.edges, at_i, Option.map_some, Option.getD_some, edgesOf, List.mem_append,
        List.mem_filterMap, List.mem_filter, Option.map_eq_some_iff, Option.bind_eq_some_iff,
        Prod.mk.injEq, decide_eq_true_eq, Model.findById?, Model.findByName?,
        findIdx?_eq_some_iff_isFirst]
      constructor
      · rintro (⟨r, hr, j, ⟨id, target, first⟩, rfl, rfl⟩ | ⟨p, ⟨hp, toOne⟩, j, first, rfl, rfl⟩)
        · exact .relation at_i hr target first
        · exact .property at_i hp toOne first
      · rintro (⟨there, hr, target, first⟩ | ⟨there, hp, toOne, first⟩)
        · obtain rfl := Option.some.inj (at_i.symm.trans there)
          exact .inl ⟨_, hr, j, ⟨_, target, first⟩, rfl, rfl⟩
        · obtain rfl := Option.some.inj (at_i.symm.trans there)
          exact .inr ⟨_, ⟨hp, toOne⟩, j, first, rfl, rfl⟩

theorem edge_iff : m.Edge i j ↔ ∃ name, m.Leads i name j := by
  simp only [Edge, mem_edges_iff]

/-! ### The steps of the search -/

/-- The search in depth, as its steps: at entity `i`, which was reached over `path` under the names
`steps`, with the given edges still to follow and the entities in `done` known to lead to no
cycle. -/
inductive Searches (m : Model) : List Nat → List String → Nat → List (String × Nat) → List Nat →
    Except ModelError (List Nat) → Prop
  | finished {path : List Nat} {steps : List String} {i : Nat} {done : List Nat} :
      Searches m path steps i [] done (.ok (i :: done))
  | back {path : List Nat} {steps : List String} {i target : Nat} {name : String}
      {rest : List (String × Nat)} {done : List Nat} : target ∈ i :: path →
      Searches m path steps i ((name, target) :: rest) done
        (.error (.relationCycle (steps ++ [name]) (m.nameAt target)))
  | known {path : List Nat} {steps : List String} {i target : Nat} {name : String}
      {rest : List (String × Nat)} {done : List Nat} {r : Except ModelError (List Nat)} :
      target ∉ i :: path → target ∈ done → Searches m path steps i rest done r →
      Searches m path steps i ((name, target) :: rest) done r
  | entered {path : List Nat} {steps : List String} {i target : Nat} {name : String}
      {rest : List (String × Nat)} {done done' : List Nat} {r : Except ModelError (List Nat)} :
      target ∉ i :: path → target ∉ done →
      Searches m (i :: path) (steps ++ [name]) target (m.edges target) done (.ok done') →
      Searches m path steps i rest done' r →
      Searches m path steps i ((name, target) :: rest) done r
  | failed {path : List Nat} {steps : List String} {i target : Nat} {name : String}
      {rest : List (String × Nat)} {done : List Nat} {e : ModelError} :
      target ∉ i :: path → target ∉ done →
      Searches m (i :: path) (steps ++ [name]) target (m.edges target) done (.error e) →
      Searches m path steps i ((name, target) :: rest) done (.error e)

/-- The search from one entity after the other, unless it is done already. -/
inductive SearchesAll (m : Model) : List Nat → List Nat → Check → Prop
  | finished {done : List Nat} : SearchesAll m done [] (.ok ())
  | known {i : Nat} {is done : List Nat} {r : Check} : i ∈ done → SearchesAll m done is r →
      SearchesAll m done (i :: is) r
  | entered {i : Nat} {is done done' : List Nat} {r : Check} : i ∉ done →
      m.Searches [] [m.nameAt i] i (m.edges i) done (.ok done') → SearchesAll m done' is r →
      SearchesAll m done (i :: is) r
  | failed {i : Nat} {is done : List Nat} {e : ModelError} : i ∉ done →
      m.Searches [] [m.nameAt i] i (m.edges i) done (.error e) →
      SearchesAll m done (i :: is) (.error e)

theorem Searches.unique {r r' : Except ModelError (List Nat)}
    (h : m.Searches path steps i edges done r) (h' : m.Searches path steps i edges done r') :
    r = r' := by
  induction h generalizing r' with
  | finished => cases h'; rfl
  | back back =>
      cases h' with
      | back => rfl
      | known other | entered other | failed other => exact absurd back other
  | known back known _ ih =>
      cases h' with
      | back other => exact absurd other back
      | known _ _ later => exact ih later
      | entered _ other | failed _ other => exact absurd known other
  | entered back known _ _ ih ih' =>
      cases h' with
      | back other => exact absurd other back
      | known _ other => exact absurd other known
      | entered _ _ inner later =>
          obtain rfl := Except.ok.inj (ih inner)
          exact ih' later
      | failed _ _ inner => cases ih inner
  | failed back known _ ih =>
      cases h' with
      | back other => exact absurd other back
      | known _ other => exact absurd other known
      | entered _ _ inner => cases ih inner
      | failed _ _ inner => rw [Except.error.inj (ih inner)]

theorem SearchesAll.unique {is : List Nat} {r r' : Check} (h : m.SearchesAll done is r)
    (h' : m.SearchesAll done is r') : r = r' := by
  induction h generalizing r' with
  | finished => cases h'; rfl
  | known known _ ih =>
      cases h' with
      | known _ later => exact ih later
      | entered other | failed other => exact absurd known other
  | entered known search _ ih =>
      cases h' with
      | known other => exact absurd other known
      | entered _ search' later =>
          obtain rfl := Except.ok.inj (search.unique search')
          exact ih later
      | failed _ search' => cases search.unique search'
  | failed known search =>
      cases h' with
      | known other => exact absurd other known
      | entered _ search' => cases search.unique search'
      | failed _ search' => rw [Except.error.inj (search.unique search')]

/-- Where exploring from the next entities ends with the result of the search, following a list of
edges does. -/
theorem searches_foldlM (bound : ∀ e ∈ edges, e.2 < m.entities.length)
    (inner : ∀ name target done, target < m.entities.length → target ∉ i :: path →
      m.Searches (i :: path) (steps ++ [name]) target (m.edges target) done
        (m.explore fuel (i :: path) (steps ++ [name]) target done)) :
    m.Searches path steps i edges done (do
      let done ← edges.foldlM (fun done (name, target) =>
        if target ∈ i :: path then
          .error (.relationCycle (steps ++ [name]) (m.nameAt target))
        else if target ∈ done then .ok done
        else m.explore fuel (i :: path) (steps ++ [name]) target done) done
      return i :: done) := by
  induction edges generalizing done with
  | nil => exact .finished
  | cons e edges ih =>
      obtain ⟨name, target⟩ := e
      have bound' : ∀ e ∈ edges, e.2 < m.entities.length :=
        fun e he => bound e (List.mem_cons_of_mem _ he)
      rw [List.foldlM_cons]
      dsimp only
      by_cases back : target ∈ i :: path
      · rw [if_pos back]
        exact .back back
      · by_cases known : target ∈ done
        · rw [if_neg back, if_pos known]
          exact .known back known (ih bound')
        · rw [if_neg back, if_neg known]
          have entered := inner name target done (bound _ List.mem_cons_self) back
          cases explored : m.explore fuel (i :: path) (steps ++ [name]) target done with
          | error e => exact .failed back known (explored ▸ entered)
          | ok done' => exact .entered back known (explored ▸ entered) (ih bound')

/-- Exploring with a bound ends with the result of the search, because the way to an entity never
gets longer than there are entities. -/
theorem searches_explore (enough : fuel + path.length = m.entities.length)
    (distinct : (i :: path).Nodup) (bound : ∀ j ∈ i :: path, j < m.entities.length) :
    m.Searches path steps i (m.edges i) done (m.explore fuel path steps i done) := by
  induction fuel generalizing path steps i done with
  | zero =>
      have short : (i :: path).length ≤ (List.range m.entities.length).length :=
        (distinct.subperm fun j hj => List.mem_range.mpr (bound j hj)).length_le
      simp only [List.length_cons, List.length_range] at short
      omega
  | succ fuel ih =>
      refine searches_foldlM (fun e he => lt_of_edge ⟨e.1, he⟩) ?_
      intro name target done lt back
      refine ih ?_ (List.nodup_cons.mpr ⟨back, distinct⟩) ?_
      · simp only [List.length_cons]
        omega
      · intro j hj
        rcases List.mem_cons.mp hj with rfl | hj
        · exact lt
        · exact bound j hj

/-- The check is the search from entity after entity. -/
theorem searchesAll_checkCycles (m : Model) :
    m.SearchesAll [] (List.range m.entities.length) m.checkCycles := by
  have all (is done : List Nat) (bound : ∀ i ∈ is, i < m.entities.length) :
      m.SearchesAll done is (m.exploreAll done is) := by
    induction is generalizing done with
    | nil => exact .finished
    | cons i is ih =>
        have bound' : ∀ j ∈ is, j < m.entities.length :=
          fun j hj => bound j (List.mem_cons_of_mem _ hj)
        rw [exploreAll]
        by_cases known : i ∈ done
        · rw [if_pos known]
          exact .known known (ih done bound')
        · rw [if_neg known]
          have entered : m.Searches [] [m.nameAt i] i (m.edges i) done
              (m.explore m.entities.length [] [m.nameAt i] i done) :=
            searches_explore rfl (List.nodup_singleton i)
              (by simpa using bound i List.mem_cons_self)
          cases explored : m.explore m.entities.length [] [m.nameAt i] i done with
          | error e => exact .failed known (explored ▸ entered)
          | ok done' => exact .entered known (explored ▸ entered) (ih done' bound')
  exact all _ _ fun i hi => List.mem_range.mp hi

/-! ### The report -/

/-- The error reports a walk from `s` that ends where it has been before. -/
def ReportsCycle (m : Model) (s : Nat) (e : ModelError) : Prop :=
  ∃ way j, m.Walk s way j ∧ j ∈ (s :: way.map Prod.snd).dropLast ∧
    e = .relationCycle (m.nameAt s :: way.map Prod.fst) (m.nameAt j)

/-- If the search has come to an entity on a walk from `s`, then what it reports is a walk from
`s`. -/
theorem reportsCycle_of_searches {r : Except ModelError (List Nat)}
    (h : m.Searches path steps i edges done r) (there : edges ⊆ m.edges i) (walk : m.Walk s way i)
    (names : steps = m.nameAt s :: way.map Prod.fst)
    (nodes : i :: path = (s :: way.map Prod.snd).reverse) {e : ModelError} (failed : r = .error e) :
    m.ReportsCycle s e := by
  induction h generalizing way with
  | finished => cases failed
  | @back path steps i target name rest done back =>
      obtain rfl := Except.error.inj failed
      have walk' : m.Walk s (way ++ [(name, target)]) target :=
        walk.snoc (mem_edges_iff.mp (there List.mem_cons_self))
      have visited : s :: (way ++ [(name, target)]).map Prod.snd =
          (s :: way.map Prod.snd) ++ [target] := by simp
      refine ⟨_, target, walk', ?_, by simp [names]⟩
      rw [visited, List.dropLast_concat]
      rwa [nodes, List.mem_reverse] at back
  | known _ _ _ ih =>
      exact ih (fun _ he => there (List.mem_cons_of_mem _ he)) walk names nodes failed
  | entered _ _ _ _ _ ih =>
      exact ih (fun _ he => there (List.mem_cons_of_mem _ he)) walk names nodes failed
  | @failed path steps i target name rest done e' _ _ _ ih =>
      obtain rfl := Except.error.inj failed
      have walk' : m.Walk s (way ++ [(name, target)]) target :=
        walk.snoc (mem_edges_iff.mp (there List.mem_cons_self))
      refine ih (List.Subset.refl _) walk' (by simp [names]) ?_ rfl
      simp [nodes]

theorem exists_reportsCycle {is : List Nat} {r : Check} (h : m.SearchesAll done is r)
    {e : ModelError} (failed : r = .error e) : ∃ s, m.ReportsCycle s e := by
  induction h with
  | finished => cases failed
  | known _ _ ih => exact ih failed
  | entered _ _ _ ih => exact ih failed
  | @failed i _ _ _ _ search =>
      obtain rfl := Except.error.inj failed
      exact ⟨i, reportsCycle_of_searches search (List.Subset.refl _) .nil rfl rfl rfl⟩

theorem lt_of_leads (h : m.Leads i name j) : i < m.entities.length ∧ j < m.entities.length := by
  refine ⟨?_, lt_of_edge ⟨name, mem_edges_iff.mpr h⟩⟩
  rcases h with ⟨there, -⟩ | ⟨there, -⟩
  · exact (List.getElem?_eq_some_iff.mp there).1
  · exact (List.getElem?_eq_some_iff.mp there).1

theorem Walk.lt (h : m.Walk s way j) (moved : way ≠ []) :
    s < m.entities.length ∧ j < m.entities.length := by
  induction h with
  | nil => exact absurd rfl moved
  | @snoc way i j name before edge ih =>
      refine ⟨?_, (lt_of_leads edge).2⟩
      cases before with
      | nil => exact (lt_of_leads edge).1
      | snoc before edge' => exact (ih (by simp)).1

theorem nameAt_eq {x : Entity} (h : m.entities[i]? = some x) : m.nameAt i = x.name := by
  simp [nameAt, h]

/-- The check for cycles is exact. The search comes to an end with its result, whatever the model.
It succeeds exactly if the graph of relations has no cycle. If it fails, it reports the names along
a walk, after the name of the entity where the walk starts, with the name of the entity where the
walk ends, which it has been at before. -/
theorem checkCycles_is_exact (m : Model) :
    (∀ r, m.SearchesAll [] (List.range m.entities.length) r ↔ r = m.checkCycles) ∧
    (m.checkCycles = .ok () ↔ ∀ i, ¬ TransGen (fun a b => ∃ name, m.Leads a name b) i i) ∧
    ∀ e, m.checkCycles = .error e → ∃ s x way j y, m.entities[s]? = some x ∧
      m.entities[j]? = some y ∧ m.Walk s way j ∧ j ∈ (s :: way.map Prod.snd).dropLast ∧
      e = .relationCycle (x.name :: way.map Prod.fst) y.name ∧
      e.message = "relation cycle detected: " ++ ".".intercalate (x.name :: way.map Prod.fst) ++
        " (" ++ y.name ++ ")" := by
  have edges : (fun a b => ∃ name, m.Leads a name b) = m.Edge := by
    funext a b
    exact propext edge_iff.symm
  have ends := m.searchesAll_checkCycles
  refine ⟨fun r => ⟨fun h => h.unique ends, fun same => same ▸ ends⟩, ?_, ?_⟩
  · rw [edges]
    refine ⟨fun h i => acyclic_of_checkCycles h, fun acyclic => ?_⟩
    cases h : m.checkCycles with
    | ok => rfl
    | error e =>
        obtain ⟨-, k, cycle⟩ := of_checkCycles_eq_error h
        exact absurd cycle (acyclic k)
  · intro e h
    obtain ⟨s, way, j, walk, again, rfl⟩ := exists_reportsCycle ends h
    have moved : way ≠ [] := by
      rintro rfl
      simp at again
    obtain ⟨lt, lt'⟩ := walk.lt moved
    have at_s := List.getElem?_eq_getElem lt
    have at_j := List.getElem?_eq_getElem lt'
    rw [nameAt_eq at_s, nameAt_eq at_j]
    exact ⟨s, _, way, j, _, at_s, at_j, walk, again, rfl, rfl⟩

end Model

end SchemaLedger
