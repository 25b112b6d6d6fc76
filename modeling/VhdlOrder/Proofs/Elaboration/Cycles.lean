import VhdlOrder.Proofs.Elaboration.Dependents
import VhdlOrder.Proofs.Elaboration.Plan
import VhdlOrder.Proofs.Graph.Ordering

/-! # Cycles of units

What a sort finds in place of an order is a cycle in the set that was to be sorted, whichever way the graph was built
and the set is listed. In the dependency graph of a library an edge leads from a unit to those that need it, so going
back along the cycle goes on to what each unit needs, and that is how the message names the units.
-/

namespace VhdlOrder

namespace Elaboration

variable {library : Library} {checks : Checks} {units : List Nat} {fault : OrderFault}

/-- The fault names the units on a cycle of a set, and each of them depends directly on the one that is named next. -/
def NamesCycle (library : Library) (checks : Checks) (units : List Nat) (fault : OrderFault) : Prop :=
  ∃ cycle, (ofLibrary library checks).graph.CycleWithin units cycle ∧
    cycle.IsChain (library.resolve checks).Needs ∧
    fault.render = "dependency cycle detected: " ++ " -> ".intercalate (cycle.map library.display)

theorem namesCycle_of_error (failed : ((ofLibrary library checks).graph.orderWithin units).mapError
    (ofLibrary library checks).cycleFault = .error fault) : NamesCycle library checks units fault := by
  obtain ⟨cycle, found, rfl⟩ := exists_cycle_of_error failed
  have isCycle := Graph.cycleWithin_of_orderWithin_eq_error (simple_graph _) found
  exact ⟨cycle, isCycle, isCycle.backward.imp fun _ _ before => edge_graph_iff.mp (Graph.mem_predecessors.mp before), rfl⟩

/-- Sorting a set of nodes of a graph that calls have built ends, and if it ends without an order, then with a cycle in
the set. So whatever takes the place of an order or a plan of a library names the units on a cycle. -/
theorem cycles_are_genuine {α : Type} (calls : List (Call α)) (library : Library) (checks : Checks) :
    (∃ graph history, ThreadedGraph.performAll calls = some (graph, history) ∧
      ∀ within : List Nat, within.Nodup → (∀ node ∈ within, node < graph.size) →
        ∃ result, graph.orderWithin within = some result ∧
          ∀ cycle, result = .error cycle → (Graph.ofCalls calls).CycleWithin within cycle) ∧
      (∀ fault, (ofLibrary library checks).order = .error fault →
        NamesCycle library checks (List.range library.size) fault) ∧
      ∀ target fault, (ofLibrary library checks).plan target = .error fault →
        NamesCycle library checks ((ofLibrary library checks).needed target) fault := by
  refine ⟨?_, fun fault failed => ?_, fun target fault => namesCycle_of_error⟩
  · obtain ⟨graph, history, performed, holds, plain⟩ := ThreadedGraph.exists_performAll calls
    refine ⟨graph, history, performed, fun within unique inside => ?_⟩
    refine ⟨_, holds.orderWithin_eq unique inside, fun cycle failed => ?_⟩
    rw [Graph.ofCalls, ← plain]
    exact Graph.cycleWithin_of_orderWithin_eq_error holds.simple failed
  · rw [← size_graph]
    exact namesCycle_of_error failed

end Elaboration

/-- Three nodes, of which the last two are on a cycle that leads to the first one. -/
def Knotted.calls : List (Call Unit) :=
  [.node (), .node (), .node (), .edge 1 2, .edge 2 1, .edge 2 0]

namespace Elaboration

/-- The way from the lowest node back to the cycle is left out, and the message names two packages that use each
other. -/
theorem cycles_are_genuine_knotted :
    (Graph.ofCalls Knotted.calls).CycleWithin [0, 1, 2] [2, 1, 2] ∧
      NamesCycle Knotted.library .standard [0, 1, 2] (.cycle ["a", "b", "a"]) := by
  have found : (ThreadedGraph.performAll Knotted.calls).bind (fun state => state.1.orderWithin [0, 1, 2]) =
      some (.error [2, 1, 2]) := by decide
  obtain ⟨⟨graph, history, performed, cycles⟩, named, -⟩ :=
    cycles_are_genuine Knotted.calls Knotted.library .standard
  have inside : ∀ node ∈ [0, 1, 2], node < graph.size := ThreadedGraph.size_of_performAll performed ▸ by decide
  rw [performed, Option.bind_some] at found
  obtain ⟨result, sorted, genuine⟩ := cycles [0, 1, 2] (by decide) inside
  exact ⟨genuine _ (Option.some.inj (sorted.symm.trans found)), named _ Knotted.order_library⟩

end Elaboration

end VhdlOrder
