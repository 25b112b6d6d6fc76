import Mathlib.Order.Bounds.Basic
import VhdlOrder.Proofs.Graph.Edges

/-! # What is reached

A visit finds exactly what can be reached: whatever it lists lies on a path from where it began, and what
it lists is closed under taking neighbours. The ancestors of a node are therefore the nodes with a path
to it. Completing a set with companions keeps it closed under predecessors in every round, adds nothing
that a complete set could do without, and ends with a set that lacks nothing; so it ends with the least
complete set.
-/

namespace VhdlOrder.Graph

open Relation

variable {α : Type} {graph : Graph α}

/-- Everything visited lies on a path from something that was pending. -/
theorem exists_path_of_mem_visit {next : Nat → List Nat} {unvisited pending : List Nat} {node : Nat}
    (member : node ∈ visit next unvisited pending) :
    ∃ start ∈ pending, ReflTransGen (fun a b => b ∈ next a) start node := by
  induction unvisited, pending using visit.induct next with
  | case1 unvisited =>
    rw [visit] at member
    exact absurd member List.not_mem_nil
  | case2 unvisited head rest fresh ih =>
    rw [visit, dif_pos fresh] at member
    rcases List.mem_cons.mp member with rfl | later
    · exact ⟨node, List.mem_cons_self, .refl⟩
    · obtain ⟨start, startMember, path⟩ := ih later
      rcases List.mem_append.mp startMember with neighbour | waiting
      · exact ⟨head, List.mem_cons_self, .head neighbour path⟩
      · exact ⟨start, List.mem_cons_of_mem _ waiting, path⟩
  | case3 unvisited head rest visited ih =>
    rw [visit, dif_neg visited] at member
    obtain ⟨start, startMember, path⟩ := ih member
    exact ⟨start, List.mem_cons_of_mem _ startMember, path⟩

/-- Everything pending is visited, and so is every neighbour of what is visited, as far as it may be. -/
theorem visit_closed (next : Nat → List Nat) (unvisited pending : List Nat) :
    (∀ start ∈ pending, start ∈ unvisited → start ∈ visit next unvisited pending) ∧
      ∀ passed ∈ visit next unvisited pending, ∀ neighbour ∈ next passed, neighbour ∈ unvisited →
        neighbour ∈ visit next unvisited pending := by
  induction unvisited, pending using visit.induct next with
  | case1 unvisited =>
    rw [visit]
    simp
  | case2 unvisited head rest fresh ih =>
    rw [visit, dif_pos fresh]
    obtain ⟨pendingVisited, closed⟩ := ih
    -- what is unvisited is the node at hand or still unvisited afterwards
    have lift {other : Nat} (mayVisit : other ∈ unvisited)
        (rest_visited : other ∈ unvisited.erase head →
          other ∈ visit next (unvisited.erase head) (next head ++ rest)) :
        other ∈ head :: visit next (unvisited.erase head) (next head ++ rest) := by
      by_cases same : other = head
      · exact same ▸ List.mem_cons_self
      · exact List.mem_cons_of_mem _ (rest_visited ((List.mem_erase_of_ne same).mpr mayVisit))
    constructor
    · intro start member mayVisit
      rcases List.mem_cons.mp member with rfl | waiting
      · exact List.mem_cons_self
      · exact lift mayVisit (pendingVisited start (List.mem_append_right _ waiting))
    · intro passed member neighbour isNeighbour mayVisit
      rcases List.mem_cons.mp member with rfl | later
      · exact lift mayVisit (pendingVisited neighbour (List.mem_append_left _ isNeighbour))
      · exact lift mayVisit (closed passed later neighbour isNeighbour)
  | case3 unvisited head rest visited ih =>
    rw [visit, dif_neg visited]
    refine ⟨?_, ih.2⟩
    intro start member mayVisit
    rcases List.mem_cons.mp member with rfl | waiting
    · exact absurd mayVisit visited
    · exact ih.1 start waiting mayVisit

/-- If neighbours of nodes are nodes, exactly what has a path from the start is reached. -/
theorem mem_reach_iff {next : Nat → List Nat} {start node : Nat}
    (inside : ∀ passed ∈ graph.nodes, ∀ neighbour ∈ next passed, neighbour ∈ graph.nodes)
    (startMember : start ∈ graph.nodes) :
    node ∈ graph.reach next start ↔ ReflTransGen (fun a b => b ∈ next a) start node := by
  rw [reach, mem_chosen]
  obtain ⟨pendingVisited, closed⟩ := visit_closed next graph.nodes [start]
  constructor
  · rintro ⟨-, visited⟩
    obtain ⟨first, member, path⟩ := exists_path_of_mem_visit visited
    obtain rfl := List.mem_singleton.mp member
    exact path
  · intro path
    induction path with
    | refl => exact ⟨startMember, pendingVisited start List.mem_cons_self startMember⟩
    | tail _ step ih =>
      have target := inside _ ih.1 _ step
      exact ⟨target, closed _ ih.2 _ step target⟩

/-- The ancestors of a node are the nodes with a path to it. -/
theorem mem_ancestors_iff (simple : graph.Simple) {node other : Nat} (member : node ∈ graph.nodes) :
    other ∈ graph.ancestors node ↔ ReflTransGen graph.Edge other node := by
  have inside : ∀ passed ∈ graph.nodes, ∀ neighbour ∈ graph.predecessors passed,
      neighbour ∈ graph.nodes := by
    intro passed _ neighbour isPredecessor
    exact simple.source_mem (mem_predecessors_iff_edge.mp isPredecessor)
  rw [ancestors, mem_reach_iff inside member, ← reflTransGen_swap]
  simp only [mem_predecessors_iff_edge]

/-- A set that lacks neither predecessors nor companions of its members. -/
structure Complete (graph : Graph α) (companions : Nat → List Nat) (members : Set Nat) : Prop where
  predecessor_mem : ∀ {source target}, graph.Edge source target → target ∈ members → source ∈ members
  companion_mem : ∀ member ∈ members, ∀ companion ∈ companions member, companion ∈ members

section Completion

variable {companions : Nat → List Nat} {members : List Nat} {set : Set Nat}

theorem Complete.ancestors_subset (whole : graph.Complete companions set) (simple : graph.Simple)
    {node other : Nat} (inGraph : node ∈ graph.nodes) (member : node ∈ set)
    (ancestor : other ∈ graph.ancestors node) : other ∈ set := by
  have path := (mem_ancestors_iff simple inGraph).mp ancestor
  induction path using ReflTransGen.head_induction_on with
  | refl => exact member
  | head step rest ih =>
    exact whole.predecessor_mem step (ih ((mem_ancestors_iff simple inGraph).mpr rest))

/-- The state of a set while it is completed: a part of the graph with the predecessors of its members. -/
structure Growing (graph : Graph α) (members : List Nat) : Prop where
  inGraph : ∀ member ∈ members, member ∈ graph.nodes
  predecessor_mem : ∀ {source target}, graph.Edge source target → target ∈ members → source ∈ members

theorem growing_ancestors (simple : graph.Simple) {node : Nat} (member : node ∈ graph.nodes) :
    graph.Growing (graph.ancestors node) := by
  constructor
  · intro other ancestor
    exact (mem_chosen.mp ancestor).1
  · intro source target edge ancestor
    rw [mem_ancestors_iff simple member] at ancestor ⊢
    exact .head edge ancestor

/-- One round keeps the predecessors of all members. -/
theorem Growing.extend (growing : graph.Growing members) (simple : graph.Simple) (further : List Nat)
    (inGraph : ∀ start ∈ further, start ∈ graph.nodes) : graph.Growing (graph.extend members further) := by
  constructor
  · intro member present
    exact (mem_extend.mp present).1
  · intro source target edge present
    refine mem_extend.mpr ⟨simple.source_mem edge, ?_⟩
    rcases (mem_extend.mp present).2 with old | ⟨start, isStart, ancestor⟩
    · exact .inl (growing.predecessor_mem edge old)
    · have closed := growing_ancestors simple (inGraph start isStart)
      exact .inr ⟨start, isStart, closed.predecessor_mem edge ancestor⟩

theorem complete_of_nil (whole : graph.missing companions members = []) :
    graph.complete companions members = members := by
  rw [complete, dif_pos whole]

theorem complete_of_ne_nil (lacking : graph.missing companions members ≠ []) :
    graph.complete companions members =
      graph.complete companions (graph.extend members (graph.missing companions members)) := by
  rw [complete, dif_neg lacking]

theorem subset_complete (growing : graph.Growing members) (simple : graph.Simple) {node : Nat}
    (member : node ∈ members) : node ∈ graph.complete companions members := by
  induction members using complete.induct graph companions with
  | case1 members whole => rwa [complete_of_nil whole]
  | case2 members lacking ih =>
    rw [complete_of_ne_nil lacking]
    exact ih (growing.extend simple _ fun start absent => (mem_missing.mp absent).1)
      (mem_extend.mpr ⟨growing.inGraph node member, .inl member⟩)

theorem growing_complete (companions : Nat → List Nat) (growing : graph.Growing members)
    (simple : graph.Simple) :
    graph.Growing (graph.complete companions members) := by
  induction members using complete.induct graph companions with
  | case1 members whole => rwa [complete_of_nil whole]
  | case2 members lacking ih =>
    rw [complete_of_ne_nil lacking]
    exact ih (growing.extend simple _ fun start absent => (mem_missing.mp absent).1)

/-- Nothing is missing at the end. -/
theorem missing_complete : graph.missing companions (graph.complete companions members) = [] := by
  induction members using complete.induct graph companions with
  | case1 members whole => rw [complete_of_nil whole, whole]
  | case2 members lacking ih => rw [complete_of_ne_nil lacking, ih]

/-- A complete set that has the members to begin with has all that is added. -/
theorem complete_subset (whole : graph.Complete companions set) (simple : graph.Simple)
    (included : ∀ member ∈ members, member ∈ set) {node : Nat}
    (member : node ∈ graph.complete companions members) : node ∈ set := by
  induction members using complete.induct graph companions with
  | case1 members full => exact included node (complete_of_nil full ▸ member)
  | case2 members lacking ih =>
    rw [complete_of_ne_nil lacking] at member
    refine ih ?_ member
    intro other present
    rcases (mem_extend.mp present).2 with old | ⟨start, absent, ancestor⟩
    · exact included other old
    · obtain ⟨inGraph, ⟨primary, isMember, isCompanion⟩, -⟩ := mem_missing.mp absent
      have startMember := whole.companion_mem primary (included primary isMember) start isCompanion
      exact whole.ancestors_subset simple inGraph startMember ancestor

/-- Completing the ancestors of a node ends with the least complete set that has the node. -/
theorem isLeast_complete (simple : graph.Simple)
    (inside : ∀ member ∈ graph.nodes, ∀ companion ∈ companions member, companion ∈ graph.nodes)
    {node : Nat} (member : node ∈ graph.nodes) :
    IsLeast {set | node ∈ set ∧ graph.Complete companions set}
      {other | other ∈ graph.complete companions (graph.ancestors node)} := by
  have start := growing_ancestors simple member
  have final := growing_complete companions start simple
  refine ⟨⟨subset_complete start simple (mem_ancestors_self member), final.predecessor_mem, ?_⟩, ?_⟩
  · intro primary isMember companion isCompanion
    by_contra absent
    have lacking := mem_missing.mpr
      ⟨inside primary (final.inGraph primary isMember) companion isCompanion,
        ⟨primary, isMember, isCompanion⟩, absent⟩
    rw [missing_complete] at lacking
    exact List.not_mem_nil lacking
  · rintro set ⟨hasNode, whole⟩ other present
    exact complete_subset whole simple
      (fun _ ancestor => whole.ancestors_subset simple member hasNode ancestor) present

end Completion

end VhdlOrder.Graph
