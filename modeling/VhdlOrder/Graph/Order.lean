import VhdlOrder.Graph.Basic

/-! # Orders and cycles

An order of some nodes of a graph places each of them after its predecessors among them. It is built
from the front: whenever several nodes could be next, the one with the lowest number is. If no node
can be next although some are left, following predecessors among those that are left must run into a
cycle, and that cycle is the answer, with its first node repeated at the end.
-/

namespace VhdlOrder.Graph

variable {α : Type}

/-- A node to be placed, and those of its predecessors that have to be placed before it. -/
structure Waiting where
  node : Nat
  unmet : List Nat
deriving DecidableEq

/-- Takes a node that has been placed out of what waits. -/
def Waiting.release (placed : Nat) (waiting : List Waiting) : List Waiting :=
  (waiting.filter fun entry => entry.node != placed).map fun entry =>
    ⟨entry.node, entry.unmet.filter fun node => node != placed⟩

theorem Waiting.length_release_lt {waiting : List Waiting} {entry : Waiting}
    (member : entry ∈ waiting) :
    (Waiting.release entry.node waiting).length < waiting.length := by
  simp only [Waiting.release, List.length_map]
  apply List.length_filter_lt_length_iff_exists.mpr
  exact ⟨entry, member, by simp⟩

/-- Places one node after the other, always the first one that waits for nothing, until none is left
or all that are left wait; answers the nodes placed and what is left. -/
def place (waiting : List Waiting) : List Nat × List Waiting :=
  match _ : waiting.find? fun entry => entry.unmet.isEmpty with
  | none => ([], waiting)
  | some entry =>
      let (order, stuck) := place (Waiting.release entry.node waiting)
      (entry.node :: order, stuck)
termination_by waiting.length
decreasing_by exact Waiting.length_release_lt (List.mem_of_find?_eq_some ‹_›)

/-- What the node `node` waits for among `waiting`. -/
def unmetOf (waiting : List Waiting) (node : Nat) : List Nat :=
  ((waiting.find? fun entry => entry.node == node).map Waiting.unmet).getD []

/-- Goes from `current` to the lowest node that it waits for, and on from there, until a node comes
up that is not in `unvisited`. That node is on the path already, which holds the nodes passed with
the last one first; the cycle leads from it along the path back to itself. -/
def followUnmet (waiting : List Waiting) (unvisited path : List Nat) (current : Nat) : List Nat :=
  match (unmetOf waiting current).min? with
  | none => path.reverse
  | some node =>
      if _ : node ∈ unvisited then
        followUnmet waiting (unvisited.erase node) (node :: path) node
      else node :: (path.takeWhile fun passed => passed != node).reverse ++ [node]
termination_by unvisited.length
decreasing_by exact length_erase_lt ‹_›

/-- A cycle among nodes all of which wait for others among them. -/
def cycleAmong (waiting : List Waiting) : List Nat :=
  match waiting with
  | [] => []
  | entry :: rest => followUnmet waiting (rest.map Waiting.node) [entry.node] entry.node

/-- The nodes of `within` that are in the graph, in increasing order, each with its predecessors
among them. -/
def waitingWithin (graph : Graph α) (within : List Nat) : List Waiting :=
  let members := graph.chosen within
  members.map fun node => ⟨node, (graph.predecessors node).filter members.contains⟩

/-- An order of the nodes in `within`, or a cycle among them. -/
def orderWithin (graph : Graph α) (within : List Nat) : Except (List Nat) (List Nat) :=
  match place (graph.waitingWithin within) with
  | (order, []) => .ok order
  | (_, stuck) => .error (cycleAmong stuck)

/-- An order of all nodes, or a cycle. -/
def order (graph : Graph α) : Except (List Nat) (List Nat) := graph.orderWithin graph.nodes

end VhdlOrder.Graph
