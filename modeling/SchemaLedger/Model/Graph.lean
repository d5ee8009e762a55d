import SchemaLedger.Error.Check
import SchemaLedger.Model.Basic

/-!
# The graph of relations

Entities are joined by the relations they own and by their to-one properties. A relation finds its
target by identifier, a to-one property by name; a target that does not exist gives no edge. The
search for a cycle follows the edges in depth and reports the names on its way.
-/

namespace SchemaLedger.Model

/-- The edges that leave the entity: the name of each relation or property with the position of its
target. -/
def edgesOf (m : Model) (e : Entity) : List (String × Nat) :=
  (e.relations.filterMap fun r =>
      (r.targetId.bind m.findById?).map fun target => (r.name, target)) ++
    (e.properties.filter fun p => p.IsToOne).filterMap fun p =>
      (m.findByName? p.target).map fun target => (p.name, target)

/-- The edges that leave the entity at the given position. -/
def edges (m : Model) (i : Nat) : List (String × Nat) := (m.entities[i]?.map m.edgesOf).getD []

/-- The name of the entity at the given position. -/
def nameAt (m : Model) (i : Nat) : String := (m.entities[i]?.map (·.name)).getD ""

/-- Follows the edges from entity `i` in depth. The entities on the way to `i` are in `path`, the
names on this way in `steps`, and the entities known to lead to no cycle in `done`; the result is
this list with all that are reached. The first argument bounds the length of the way. -/
def explore (m : Model) : Nat → List Nat → List String → Nat → List Nat →
    Except ModelError (List Nat)
  | 0, _, _, _, done => .ok done
  | fuel + 1, path, steps, i, done => do
    let done ← (m.edges i).foldlM (fun done (name, target) =>
      if target ∈ i :: path then
        .error (.relationCycle (steps ++ [name]) (m.nameAt target))
      else if target ∈ done then .ok done
      else explore m fuel (i :: path) (steps ++ [name]) target done) done
    return i :: done

/-- Explores the graph from each of the given entities that is not done yet. -/
def exploreAll (m : Model) (done : List Nat) : List Nat → Check
  | [] => .ok ()
  | i :: rest =>
    if i ∈ done then exploreAll m done rest
    else do
      let done ← m.explore m.entities.length [] [m.nameAt i] i done
      exploreAll m done rest

/-- Fails if the relations form a cycle. -/
def checkCycles (m : Model) : Check := m.exploreAll [] (List.range m.entities.length)

end SchemaLedger.Model
