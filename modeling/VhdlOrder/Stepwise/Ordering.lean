import VhdlOrder.Graph.Tree
import VhdlOrder.Stepwise.Threaded

/-! # Searching and sorting a graph with threaded edges

The nodes that lead to a node are found with a stack. A sort keeps, for every node, a count of the predecessors that
have not been placed, and takes one from it for each edge from a node that is placed; a node whose count has come down
to nothing is ready, and the lowest ready node is placed next. If nodes are left over, a walk back along their edges is
written down until it comes to a node for the second time, and the cycle is the part of the path from there on.
-/

namespace VhdlOrder.ThreadedGraph

open Stepwise

variable {α : Type}

/-! ## What leads to a node -/

/-- Takes a node from the stack, and puts its predecessors on the stack if it is visited for the first time. -/
def ancestorsRound (graph : ThreadedGraph α) :
    List Nat × List Nat → Option (Round (List Nat × List Nat) (List Nat))
  | (visited, []) => some (.done visited)
  | (visited, node :: stack) =>
      if visited.contains node then some (.again (visited, stack))
      else do
        let before ← graph.predecessors node
        return .again (node :: visited, before.reverse ++ stack)

/-- The node itself and all nodes from which it can be reached, in increasing order. -/
def ancestors (graph : ThreadedGraph α) (node : Nat) : Option (List Nat) := do
  let visited ← loop graph.ancestorsRound (graph.edges.length + 2) ([], [node])
  return (List.range graph.size).filter visited.contains

/-! ## Orders -/

/-- A sort that is under way: the nodes placed so far, how many predecessors of each node are still to be placed, and
the nodes that are ready. -/
structure Sorting where
  order : List Nat
  remaining : List Nat
  ready : List Nat

/-- Takes one from the count of a node that an edge leads to from the node placed last. -/
def release (within : List Nat) : List Nat × List Nat → Nat → Option (List Nat × List Nat)
  | (remaining, ready), node =>
      if within.contains node then do
        let left ← subtract? (← remaining[node]?) 1
        let remaining ← update? remaining node fun _ => left
        return (remaining, if left = 0 then node :: ready else ready)
      else some (remaining, ready)

/-- Places the lowest node that is ready. -/
def sortRound (graph : ThreadedGraph α) (within : List Nat) (sorting : Sorting) :
    Option (Round Sorting (List Nat × List Nat)) :=
  match sorting.ready.min? with
  | none => some (.done (sorting.order, sorting.remaining))
  | some node => do
      let after ← graph.successors node
      let (remaining, ready) ← after.foldlM (release within) (sorting.remaining, sorting.ready.erase node)
      return .again ⟨sorting.order ++ [node], remaining, ready⟩

/-- The counts at the beginning. -/
def counts (graph : ThreadedGraph α) (within : List Nat) : Option (List Nat) :=
  (List.range graph.size).mapM fun node => do
    if within.contains node then return ((← graph.predecessors node).filter within.contains).length
    else return 0

/-- The nodes whose count satisfies a condition. -/
def withCount (remaining within : List Nat) (wanted : Nat → Bool) : Option (List Nat) :=
  filterMap? (fun node => do return if wanted (← remaining[node]?) then some node else none) within

/-- Goes on to the lowest predecessor of the last node on the path, or ends where it is on the path already. -/
def cycleRound (graph : ThreadedGraph α) (within : List Nat) :
    List Nat × Nat → Option (Round (List Nat × Nat) (List Nat))
  | (path, node) => do
      let before ← graph.predecessors node
      match (before.filter within.contains).min? with
      | none => return .done path
      | some next =>
          match path.findIdx? fun passed => passed == next with
          | none => return .again (path ++ [next], next)
          | some place => return .done ((← slice? path place path.length) ++ [next])

/-- A cycle among nodes all of which have a predecessor among them. -/
def findCycle (graph : ThreadedGraph α) (within : List Nat) : Option (List Nat) :=
  match within.min? with
  | none => some []
  | some node => loop (graph.cycleRound within) (within.length + 1) ([node], node)

/-- An order of the nodes in `within`, or a cycle among them. -/
def orderWithin (graph : ThreadedGraph α) (within : List Nat) : Option (Except (List Nat) (List Nat)) := do
  let remaining ← graph.counts within
  let ready ← withCount remaining within fun count => count == 0
  let (order, remaining) ← loop (graph.sortRound within) (within.length + 1) ⟨[], remaining, ready⟩
  if order.length = within.length then return .ok order
  else return .error (← graph.findCycle (← withCount remaining within fun count => count != 0))

/-! ## Trees -/

/-- The lines of the tree below `node`, whose own line stands at `twig`, where the nodes of `branch` lie on the way to
it; no branch may be longer than a number of steps. -/
def treeFrom (graph : ThreadedGraph α) : Nat → List Nat → Twig → Nat → Option (List (Twig × Nat))
  | steps, branch, twig, node =>
      if branch.contains node then some [(twig, node)]
      else
        match steps with
        | 0 => none
        | steps + 1 => do
            let before ← graph.predecessors node
            let parts ← (twig.below (before.mergeSort (· ≤ ·))).mapM fun (step, next) =>
              treeFrom graph steps (branch ++ [node]) step next
            return (twig, node) :: parts.flatten

/-- The tree of predecessors of `node`, line by line. -/
def tree (graph : ThreadedGraph α) (node : Nat) : Option (List (Twig × Nat)) := graph.treeFrom graph.size [] [] node

end VhdlOrder.ThreadedGraph
