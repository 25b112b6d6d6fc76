import VhdlOrder.Graph.Basic

/-! # What can be reached

The nodes that can be reached from given nodes by following a function from a node to its neighbours.
Only nodes of a given list are visited, each of them at most once, so the search ends whatever the
neighbours are. A set of nodes may also ask for companions of its members; it is completed by adding
the companions that are missing, with all that leads to them, as long as there are any.
-/

namespace VhdlOrder.Graph

variable {α : Type}

/-- Visits the nodes of `pending` and all that `next` leads to from them, as far as they are still
`unvisited`, and lists them in the order of the visits. -/
def visit (next : Nat → List Nat) (unvisited : List Nat) : List Nat → List Nat
  | [] => []
  | node :: pending =>
      if _ : node ∈ unvisited then
        node :: visit next (unvisited.erase node) (next node ++ pending)
      else visit next unvisited pending
termination_by pending => (unvisited.length, pending.length)
decreasing_by
  · exact Prod.Lex.left _ _ (length_erase_lt ‹_›)
  · exact Prod.Lex.right _ (by simp)

/-- The nodes of the graph that `next` leads to from `start` in any number of steps, in increasing
order. -/
def reach (graph : Graph α) (next : Nat → List Nat) (start : Nat) : List Nat :=
  graph.chosen (visit next graph.nodes [start])

/-- The node itself and all nodes from which it can be reached, in increasing order. -/
def ancestors (graph : Graph α) (node : Nat) : List Nat := graph.reach graph.predecessors node

theorem mem_ancestors_self {graph : Graph α} {node : Nat} (member : node ∈ graph.nodes) :
    node ∈ graph.ancestors node := by
  have first : node ∈ visit graph.predecessors graph.nodes [node] := by
    rw [visit, dif_pos member]
    exact List.mem_cons_self
  exact mem_chosen.mpr ⟨member, first⟩

/-- The companions of members that are no members. -/
def missing (graph : Graph α) (companions : Nat → List Nat) (members : List Nat) : List Nat :=
  (graph.chosen (members.flatMap companions)).filter fun node => !members.contains node

/-- The members and all nodes from which one of `further` can be reached, in increasing order. -/
def extend (graph : Graph α) (members further : List Nat) : List Nat :=
  graph.chosen (members ++ further.flatMap graph.ancestors)

/-- The nodes that are no members. -/
def others (graph : Graph α) (members : List Nat) : List Nat :=
  graph.nodes.filter fun node => !members.contains node

theorem mem_missing {graph : Graph α} {companions : Nat → List Nat} {members : List Nat} {node : Nat} :
    node ∈ graph.missing companions members ↔
      node ∈ graph.nodes ∧ (∃ member ∈ members, node ∈ companions member) ∧ node ∉ members := by
  simp [missing, mem_chosen, and_assoc]

theorem mem_extend {graph : Graph α} {members further : List Nat} {node : Nat} :
    node ∈ graph.extend members further ↔
      node ∈ graph.nodes ∧ (node ∈ members ∨ ∃ start ∈ further, node ∈ graph.ancestors start) := by
  simp [extend, mem_chosen]

/-- Adding what is missing leaves fewer nodes outside. -/
theorem length_others_extend_lt {graph : Graph α} {companions : Nat → List Nat} {members : List Nat}
    (incomplete : graph.missing companions members ≠ []) :
    (graph.others (graph.extend members (graph.missing companions members))).length <
      (graph.others members).length := by
  obtain ⟨node, absent⟩ := List.exists_mem_of_ne_nil _ incomplete
  obtain ⟨inGraph, -, outside⟩ := mem_missing.mp absent
  have reached : node ∈ graph.extend members (graph.missing companions members) :=
    mem_extend.mpr ⟨inGraph, .inr ⟨node, absent, mem_ancestors_self inGraph⟩⟩
  have fewer : graph.others (graph.extend members (graph.missing companions members)) =
      (graph.others members).filter fun other =>
        !(graph.extend members (graph.missing companions members)).contains other := by
    simp only [others, List.filter_filter]
    apply List.filter_congr
    intro other member
    by_cases old : other ∈ members
    · simp [old, mem_extend.mpr ⟨member, .inl old⟩]
    · simp [old]
  rw [fewer]
  apply List.length_filter_lt_length_iff_exists.mpr
  exact ⟨node, by simp [others, inGraph, outside], by simp [reached]⟩

/-- Adds the companions that are missing, and all that leads to them, until none is missing. -/
def complete (graph : Graph α) (companions : Nat → List Nat) (members : List Nat) : List Nat :=
  if _ : graph.missing companions members = [] then members
  else complete graph companions (graph.extend members (graph.missing companions members))
termination_by (graph.others members).length
decreasing_by exact length_others_extend_lt ‹_›

end VhdlOrder.Graph
