import Mathlib.Data.List.Nodup
import Mathlib.Data.List.Sort
import Mathlib.Logic.Relation
import Mathlib.Tactic.SplitIfs
import Mathlib.Tactic.Tauto
import VhdlOrder.Graph.Order
import VhdlOrder.Graph.Reach

/-! # Edges as a relation

The edges of a graph lead from nodes to other nodes. Adding an edge adds exactly that one, provided that
both ends are nodes and differ, whether or not it is there already; so the order in which a list of edges
is added, and how often an edge occurs in it, do not matter for the relation.
-/

namespace VhdlOrder.Graph

variable {α : Type} {graph : Graph α}

/-- An edge leads from `source` to `target`. -/
def Edge (graph : Graph α) (source target : Nat) : Prop := (source, target) ∈ graph.edges

/-- Every edge leads from a node to a different node. -/
structure Simple (graph : Graph α) : Prop where
  source_mem : ∀ {source target}, graph.Edge source target → source ∈ graph.nodes
  target_mem : ∀ {source target}, graph.Edge source target → target ∈ graph.nodes
  ne : ∀ {source target}, graph.Edge source target → source ≠ target

theorem mem_predecessors_iff_edge {source target : Nat} :
    source ∈ graph.predecessors target ↔ graph.Edge source target :=
  mem_predecessors

theorem simple_ofLabels (labels : List α) : (ofLabels labels).Simple := by
  constructor <;> intro source target edge <;> exact absurd edge (List.not_mem_nil)

@[simp] theorem size_addEdge (source target : Nat) :
    (graph.addEdge source target).2.size = graph.size := by
  unfold addEdge
  split_ifs <;> rfl

/-- An added edge is there afterwards if both ends are nodes and differ; nothing else changes. -/
theorem edge_addEdge {source target first second : Nat} :
    (graph.addEdge source target).2.Edge first second ↔
      graph.Edge first second ∨
        (first = source ∧ second = target ∧ source < graph.size ∧ target < graph.size ∧
          source ≠ target) := by
  unfold addEdge
  split_ifs with noSource noTarget loop old
  · simp only [hasNode, Bool.not_eq_eq_eq_not, Bool.not_true, decide_eq_false_iff_not] at noSource
    simp [noSource]
  · simp only [hasNode, Bool.not_eq_eq_eq_not, Bool.not_true, decide_eq_false_iff_not] at noTarget
    simp [noTarget]
  · simp [loop]
  · simp only [hasEdge, List.contains_iff_mem] at old
    constructor
    · exact Or.inl
    · rintro (edge | ⟨rfl, rfl, -⟩)
      · exact edge
      · exact old
  · simp only [hasNode, Bool.not_eq_true', decide_eq_false_iff_not, not_not] at noSource noTarget
    simp only [Edge, List.mem_cons, Prod.mk.injEq]
    tauto

@[simp] theorem size_addEdges (edges : List (Nat × Nat)) : (graph.addEdges edges).size = graph.size := by
  induction edges generalizing graph with
  | nil => rfl
  | cons edge rest ih => exact ih.trans (size_addEdge edge.1 edge.2)

/-- Adding edges adds those of them that join different nodes. -/
theorem edge_addEdges {edges : List (Nat × Nat)} {source target : Nat} :
    (graph.addEdges edges).Edge source target ↔
      graph.Edge source target ∨
        ((source, target) ∈ edges ∧ source < graph.size ∧ target < graph.size ∧ source ≠ target) := by
  induction edges generalizing graph with
  | nil => simp [addEdges]
  | cons edge rest ih =>
    have step : (graph.addEdges (edge :: rest)).Edge source target ↔
        ((graph.addEdge edge.1 edge.2).2.addEdges rest).Edge source target := Iff.rfl
    rw [step, ih, edge_addEdge, size_addEdge, List.mem_cons, Prod.ext_iff]
    constructor
    · rintro ((old | ⟨rfl, rfl, bounds⟩) | ⟨member, bounds⟩)
      · exact .inl old
      · exact .inr ⟨.inl ⟨rfl, rfl⟩, bounds⟩
      · exact .inr ⟨.inr member, bounds⟩
    · rintro (old | ⟨⟨first, second⟩ | member, bounds⟩)
      · exact .inl (.inl old)
      · dsimp only at first second
        subst first second
        exact .inl (.inr ⟨rfl, rfl, bounds⟩)
      · exact .inr ⟨member, bounds⟩

theorem simple_addEdges (simple : graph.Simple) (edges : List (Nat × Nat)) :
    (graph.addEdges edges).Simple := by
  have bounds {source target : Nat} (edge : (graph.addEdges edges).Edge source target) :
      source < graph.size ∧ target < graph.size ∧ source ≠ target := by
    rcases edge_addEdges.mp edge with old | ⟨-, bounds⟩
    · exact ⟨mem_nodes.mp (simple.source_mem old), mem_nodes.mp (simple.target_mem old), simple.ne old⟩
    · exact bounds
  constructor
  · intro source target edge
    exact mem_nodes.mpr ((size_addEdges edges).symm ▸ (bounds edge).1)
  · intro source target edge
    exact mem_nodes.mpr ((size_addEdges edges).symm ▸ (bounds edge).2.1)
  · intro source target edge
    exact (bounds edge).2.2

/-! ## Edges without repeats -/

theorem nodup_addEdge (unique : graph.edges.Nodup) (source target : Nat) :
    (graph.addEdge source target).2.edges.Nodup := by
  unfold addEdge
  split_ifs with noSource noTarget loop old
  iterate 4 exact unique
  exact List.nodup_cons.mpr ⟨by simpa [hasEdge] using old, unique⟩

theorem nodup_addEdges (unique : graph.edges.Nodup) (edges : List (Nat × Nat)) :
    (graph.addEdges edges).edges.Nodup := by
  induction edges generalizing graph with
  | nil => exact unique
  | cons edge rest ih => exact ih (nodup_addEdge unique edge.1 edge.2)

theorem nodup_predecessors (unique : graph.edges.Nodup) (node : Nat) : (graph.predecessors node).Nodup := by
  refine List.Nodup.map_on (fun first isFirst second isSecond same => ?_) (unique.filter _)
  exact Prod.ext same (by simp_all)

theorem nodup_successors (unique : graph.edges.Nodup) (node : Nat) : (graph.successors node).Nodup := by
  refine List.Nodup.map_on (fun first isFirst second isSecond same => ?_) (unique.filter _)
  exact Prod.ext (by simp_all) same

/-- Sorting numbers of which none occurs twice lists them in strictly increasing order. -/
theorem pairwise_lt_mergeSort {nodes : List Nat} (unique : nodes.Nodup) :
    (nodes.mergeSort (· ≤ ·)).Pairwise (· < ·) :=
  List.Pairwise.imp₂ (fun _ _ => Nat.lt_of_le_of_ne) (List.pairwise_mergeSort' (· ≤ ·) nodes)
    ((List.mergeSort_perm nodes _).nodup_iff.mpr unique)

/-! ## Graphs with the same edges -/

variable {β : Type}

/-- Graphs that differ in their labels only. -/
structure Alike (first : Graph α) (second : Graph β) : Prop where
  size : first.size = second.size
  edges : first.edges = second.edges

namespace Alike

variable {first : Graph α} {second : Graph β} (alike : first.Alike second)

include alike

theorem addEdge (source target : Nat) : (first.addEdge source target).2.Alike (second.addEdge source target).2 := by
  unfold Graph.addEdge hasNode hasEdge
  rw [alike.size, alike.edges]
  split_ifs
  iterate 4 exact alike
  exact ⟨alike.size, rfl⟩

theorem addEdges (edges : List (Nat × Nat)) : (first.addEdges edges).Alike (second.addEdges edges) := by
  induction edges generalizing first second with
  | nil => exact alike
  | cons edge rest ih => exact ih (alike.addEdge edge.1 edge.2)

/-- Labels do not matter for the order of nodes. -/
theorem orderWithin {within within' : List Nat} (agree : ∀ node, node ∈ within ↔ node ∈ within') :
    first.orderWithin within = second.orderWithin within' := by
  have chosen : first.chosen within = second.chosen within' := by
    rw [Graph.chosen, Graph.chosen, nodes, nodes, alike.size]
    refine List.filter_congr fun node _ => ?_
    rw [Bool.eq_iff_iff, List.contains_iff_mem, List.contains_iff_mem, agree]
  unfold Graph.orderWithin waitingWithin predecessors
  rw [chosen, alike.edges]

end Alike

end VhdlOrder.Graph
