import Mathlib.Data.List.Find
import Mathlib.Data.List.Lex
import Mathlib.Order.Bounds.Basic
import VhdlOrder.Proofs.Graph.Ordering

/-! # The least order

The first node of an order waits for nothing, and what is behind it is an order of the rest once that node is
released. Placing the lowest node that waits for nothing is therefore never worse than how another order begins,
and where both begin alike their rests are compared in the same way. So of all orders of some nodes the one that is
found is the least, number by number from the front.
-/

namespace VhdlOrder

namespace Graph

variable {α : Type} {graph : Graph α} {within order : List Nat} {waiting : List Waiting}

/-- An order of what waits: each node once, and behind all that it waits for. -/
structure Waiting.Ordered (waiting : List Waiting) (order : List Nat) : Prop where
  perm : order.Perm (waiting.map Waiting.node)
  precedes : ∀ entry ∈ waiting, ∀ before ∈ entry.unmet, Precedes order before entry.node

namespace Waiting.Ordered

variable {first : Nat} {rest : List Nat}

/-- Nothing is waited for by the first node of an order. -/
theorem exists_first (distinct : Distinct waiting) (ordered : Ordered waiting (first :: rest)) :
    ∃ entry ∈ waiting, entry.node = first ∧ entry.unmet = [] := by
  have fresh : first ∉ rest := (List.nodup_cons.mp (ordered.perm.nodup_iff.mpr distinct)).1
  obtain ⟨entry, member, rfl⟩ := List.mem_map.mp (ordered.perm.mem_iff.mp List.mem_cons_self)
  refine ⟨entry, member, rfl, List.eq_nil_iff_forall_not_mem.mpr fun before waits => ?_⟩
  rcases Precedes.cons_iff.mp (ordered.precedes entry member before waits) with ⟨-, later⟩ | later
  · exact fresh later
  · exact fresh later.right_mem

/-- Without its first node, an order is one of what waits once that node is released. -/
theorem release (distinct : Distinct waiting) (ordered : Ordered waiting (first :: rest)) :
    Ordered (release first waiting) rest := by
  constructor
  · rw [nodes_release, ← List.Nodup.erase_eq_filter distinct]
    simpa using ordered.perm.erase first
  · intro entry member before waits
    obtain ⟨old, oldMember, -, rfl⟩ := mem_release.mp member
    obtain ⟨oldWaits, differs⟩ := List.mem_filter.mp waits
    rcases Precedes.cons_iff.mp (ordered.precedes old oldMember before oldWaits) with ⟨same, -⟩ | later
    · exact absurd same (bne_iff_ne.mp differs)
    · exact later

end Waiting.Ordered

/-- The first entry that is ready has the lowest node of those that are. -/
theorem node_le_of_ready (ascending : (waiting.map Waiting.node).Pairwise (· < ·)) {entry other : Waiting}
    (ready : waiting.find? (fun entry => entry.unmet.isEmpty) = some entry) (member : other ∈ waiting)
    (unmet : other.unmet = []) : entry.node ≤ other.node := by
  obtain ⟨-, front, back, rfl, blocked⟩ := List.find?_eq_some_iff_append.mp ready
  rcases List.mem_append.mp member with before | behind
  · exact absurd (blocked other before) (by simp [unmet])
  · rcases List.mem_cons.mp behind with rfl | later
    · exact Nat.le_refl _
    · rw [List.map_append, List.map_cons] at ascending
      have above := (List.pairwise_cons.mp (List.pairwise_append.mp ascending).2.1).1
      exact Nat.le_of_lt (above other.node (List.mem_map_of_mem later))

/-- Where everything can be placed, no order of what waits is less than the one in which it is placed. -/
theorem place_le_of_ordered (ascending : (waiting.map Waiting.node).Pairwise (· < ·))
    (ordered : Waiting.Ordered waiting order) (all : (place waiting).2 = []) : (place waiting).1 ≤ order := by
  induction waiting using place_induction generalizing order with
  | stop waiting stuck =>
    rw [place_of_none stuck]
    exact not_lt.mp (List.not_lt_nil order)
  | step waiting entry ready ih =>
    have distinct : Waiting.Distinct waiting := ascending.imp Nat.ne_of_lt
    rw [place_of_some ready] at all ⊢
    cases order with
    | nil =>
      have none := List.map_eq_nil_iff.mp (List.nil_perm.mp ordered.perm)
      rw [none] at ready
      cases ready
    | cons first rest =>
      obtain ⟨other, member, rfl, unmet⟩ := ordered.exists_first distinct
      rcases Nat.lt_or_eq_of_le (node_le_of_ready ascending ready member unmet) with lower | same
      · exact le_of_lt (.rel lower)
      · rw [← same] at ordered ⊢
        have further : ((Waiting.release entry.node waiting).map Waiting.node).Pairwise (· < ·) := by
          rw [Waiting.nodes_release]
          exact ascending.filter _
        exact List.cons_le_cons _ (ih further (ordered.release distinct) all)

/-! ## Orders of a set of nodes -/

/-- An order of a set of nodes: each node once, and every edge between two of them leads forward. -/
structure Sorts (graph : Graph α) (within order : List Nat) : Prop where
  perm : order.Perm within
  forward : ∀ {source target}, graph.EdgeWithin within source target → Precedes order source target

theorem Sorts.ordered (sorts : graph.Sorts within order) (chosen : (graph.chosen within).Perm within) :
    Waiting.Ordered (graph.waitingWithin within) order := by
  constructor
  · rw [nodes_waitingWithin]
    exact sorts.perm.trans chosen.symm
  · intro entry member before waits
    obtain ⟨isChosen, unmet⟩ := mem_waitingWithin.mp member
    rw [unmet, List.mem_filter, mem_predecessors_iff_edge, List.contains_iff_mem] at waits
    exact sorts.forward ⟨waits.1, (mem_chosen.mp waits.2).2, (mem_chosen.mp isChosen).2⟩

/-- An order that is found is the least of all orders of the set. -/
theorem isLeast_of_orderWithin_eq_ok (simple : graph.Simple) (unique : within.Nodup)
    (inside : ∀ node ∈ within, node ∈ graph.nodes) (sorted : graph.orderWithin within = .ok order) :
    IsLeast {other | graph.Sorts within other} order := by
  have chosen := perm_chosen unique inside
  obtain ⟨perm, forward⟩ := orderWithin_ok simple sorted
  refine ⟨⟨perm.trans chosen, forward⟩, fun other sorts => ?_⟩
  have placed := orderWithin_eq_ok_iff.mp sorted
  have ascending : ((graph.waitingWithin within).map Waiting.node).Pairwise (· < ·) := by
    rw [nodes_waitingWithin]
    exact ThreadedGraph.sorted_chosen graph within
  have least := place_le_of_ordered ascending (sorts.ordered chosen) (by rw [placed])
  rwa [placed] at least

/-! ## Graphs with the same edges between the nodes of a set -/

section Agreement

open ThreadedGraph

variable {β : Type} {first : Graph α} {second : Graph β} {left : List Nat}

/-- The same edges lead from one node of the set to another one in both graphs. -/
def AgreeOn (first : Graph α) (second : Graph β) (left : List Nat) : Prop :=
  ∀ source ∈ left, ∀ target ∈ left, (first.Edge source target ↔ second.Edge source target)

theorem AgreeOn.mono {part : List Nat} (agree : first.AgreeOn second left) (subset : part ⊆ left) :
    first.AgreeOn second part :=
  fun source source_mem target target_mem => agree source (subset source_mem) target (subset target_mem)

/-- A node waits for the same nodes in both graphs. -/
theorem AgreeOn.mem_unmet_iff (agree : first.AgreeOn second left) {node before : Nat} (member : node ∈ left) :
    before ∈ (first.predecessors node).filter left.contains ↔
      before ∈ (second.predecessors node).filter left.contains := by
  simp only [List.mem_filter, mem_predecessors_iff_edge, List.contains_iff_mem]
  exact and_congr_left fun isLeft => agree before isLeft node member

theorem unmetCount_eq_zero_iff {plain : Graph α} {node : Nat} :
    unmetCount plain left node = 0 ↔ ∀ before, before ∉ (plain.predecessors node).filter left.contains :=
  List.length_eq_zero_iff.trans List.eq_nil_iff_forall_not_mem

/-- The same node comes first in both graphs, and so on, until the same nodes are stuck. -/
theorem AgreeOn.exists_place {left : List Nat} (agree : first.AgreeOn second left) :
    ∃ order stuck, stuck.Sublist left ∧ place (waitingAmong first left) = (order, waitingAmong first stuck) ∧
      place (waitingAmong second left) = (order, waitingAmong second stuck) := by
  have ready : (left.find? fun node => unmetCount first left node == 0) =
      left.find? fun node => unmetCount second left node == 0 := by
    refine List.find?_congr fun node member => ?_
    rw [Bool.eq_iff_iff, beq_iff_eq, beq_iff_eq, unmetCount_eq_zero_iff, unmetCount_eq_zero_iff]
    simp only [agree.mem_unmet_iff member]
  cases found : left.find? fun node => unmetCount first left node == 0 with
  | none => exact ⟨[], left, .refl _, place_waitingAmong_of_none found, place_waitingAmong_of_none (ready ▸ found)⟩
  | some node =>
    have sublist : (left.filter fun other => other != node).Sublist left := List.filter_sublist
    obtain ⟨order, stuck, part, placed, placed'⟩ := (agree.mono sublist.subset).exists_place
    refine ⟨node :: order, stuck, part.trans sublist, ?_, ?_⟩
    · rw [place_waitingAmong_of_some found, placed]
    · rw [place_waitingAmong_of_some (ready ▸ found), placed']
termination_by left.length
decreasing_by
  exact List.length_filter_lt_length_iff_exists.mpr ⟨node, List.mem_of_find?_eq_some found, by simp⟩

theorem unmetOf_waitingAmong_of_not_mem {plain : Graph α} {node : Nat} (absent : node ∉ left) :
    unmetOf (waitingAmong plain left) node = [] := by
  have unfit : (left.find? fun other => other == node) = none :=
    List.find?_eq_none.mpr fun other member same => absent (beq_iff_eq.mp same ▸ member)
  rw [unmetOf, waitingAmong, List.find?_map]
  simp [unfit]

/-- The lowest node that a node waits for is the same in both graphs. -/
theorem AgreeOn.min?_unmetOf (agree : first.AgreeOn second left) (node : Nat) :
    (unmetOf (waitingAmong first left) node).min? = (unmetOf (waitingAmong second left) node).min? := by
  by_cases member : node ∈ left
  · rw [unmetOf_waitingAmong member, unmetOf_waitingAmong member]
    refine Option.ext fun lowest => ?_
    simp only [List.min?_eq_some_iff, agree.mem_unmet_iff member]
  · rw [unmetOf_waitingAmong_of_not_mem member, unmetOf_waitingAmong_of_not_mem member]

/-- A search for a cycle looks at the lowest node that each node waits for and at nothing else. -/
theorem followUnmet_congr {waiting waiting' : List Waiting}
    (same : ∀ node, (unmetOf waiting node).min? = (unmetOf waiting' node).min?) (unvisited path : List Nat)
    (current : Nat) : followUnmet waiting unvisited path current = followUnmet waiting' unvisited path current := by
  induction unvisited, path, current using followUnmet.induct waiting with
  | case1 unvisited path current nothing =>
    rw [followUnmet, followUnmet, ← same, nothing]
  | case2 unvisited path current node lowest fresh ih =>
    rw [followUnmet, followUnmet, ← same, lowest]
    simpa only [dif_pos fresh] using ih
  | case3 unvisited path current node lowest visited =>
    rw [followUnmet, followUnmet, ← same, lowest]
    simp only [dif_neg visited]

theorem AgreeOn.cycleAmong_eq (agree : first.AgreeOn second left) :
    cycleAmong (waitingAmong first left) = cycleAmong (waitingAmong second left) := by
  cases left with
  | nil => rfl
  | cons node rest =>
    simp only [waitingAmong, List.map_cons, cycleAmong, List.map_map, Function.comp_def, List.map_id']
    exact followUnmet_congr agree.min?_unmetOf rest [node] node

/-- The order of a set, or the cycle in its place, depends on the set and the edges in it only. -/
theorem AgreeOn.orderWithin_eq {within' : List Nat} (agree : first.AgreeOn second within)
    (same : second.chosen within' = first.chosen within) :
    second.orderWithin within' = first.orderWithin within := by
  have subset : first.chosen within ⊆ within := fun node member => (mem_chosen.mp member).2
  obtain ⟨order, stuck, part, placed, placed'⟩ := (agree.mono subset).exists_place
  have cycle := (agree.mono fun _ member => subset (part.subset member)).cycleAmong_eq
  change place (first.waitingWithin within) = _ at placed
  have placed' : place (second.waitingWithin within') = (order, waitingAmong second stuck) := by
    rw [← placed', waitingWithin, same]
    rfl
  rw [orderWithin, orderWithin, placed, placed']
  cases stuck with
  | nil => rfl
  | cons node rest => exact congrArg Except.error cycle.symm

end Agreement

end Graph

namespace ThreadedGraph

variable {α β : Type} {graph : ThreadedGraph α} {history : List (Nat × Nat)} {within : List Nat}

theorem mem_nodes_plain (inside : ∀ node ∈ within, node < graph.size) : ∀ node ∈ within, node ∈ graph.plain.nodes :=
  fun node member => Graph.mem_nodes.mpr (size_plain ▸ inside node member)

/-- Graphs with the same edges in a set of nodes have the same result, whichever way the set is listed. -/
theorem Holds.orderWithin_eq_of_agreeOn (holds : graph.Holds history) {graph' : ThreadedGraph β}
    {history' : List (Nat × Nat)} (holds' : graph'.Holds history') {within' : List Nat} (listed : within'.Perm within)
    (unique : within.Nodup) (inside : ∀ node ∈ within, node < graph.size)
    (inside' : ∀ node ∈ within, node < graph'.size) (agree : graph.plain.AgreeOn graph'.plain within) :
    graph'.orderWithin within' = graph.orderWithin within := by
  have unique' : within'.Nodup := listed.nodup_iff.mpr unique
  have inside' (node : Nat) (member : node ∈ within') : node < graph'.size := inside' node (listed.mem_iff.mp member)
  have perm := Graph.perm_chosen unique (mem_nodes_plain inside)
  have perm' := Graph.perm_chosen unique' (mem_nodes_plain inside')
  have same : graph'.plain.chosen within' = graph.plain.chosen within :=
    List.Pairwise.eq_of_mem_iff (sorted_chosen _ _) (sorted_chosen _ _) fun node => by
      rw [perm'.mem_iff, listed.mem_iff, perm.mem_iff]
  rw [holds'.orderWithin_eq unique' inside', holds.orderWithin_eq unique inside, agree.orderWithin_eq same]

/-- After any calls that add nodes and edges, a set of nodes can be sorted exactly if the edges between them form no
cycle, and then its order is the least of all orders of the set. After other calls, and however the set is listed, the
result is the same if the same edges lead between the nodes of the set. -/
theorem orderWithin_isLeast (calls : List (Call α)) (calls' : List (Call β)) :
    ∃ graph history, performAll calls = some (graph, history) ∧
      ∀ within : List Nat, within.Nodup → (∀ node ∈ within, node < graph.size) →
        graph.orderWithin within = some ((Graph.ofCalls calls).orderWithin within) ∧
        ((∃ order, (Graph.ofCalls calls).orderWithin within = .ok order) ↔
          Acyclic ((Graph.ofCalls calls).EdgeWithin within)) ∧
        (∀ order, (Graph.ofCalls calls).orderWithin within = .ok order →
          IsLeast {other | (Graph.ofCalls calls).Sorts within other} order) ∧
        ∀ graph' history' within', performAll calls' = some (graph', history') → within'.Perm within →
          (∀ node ∈ within, node < graph'.size) →
          (Graph.ofCalls calls).AgreeOn (Graph.ofCalls calls') within →
          graph'.orderWithin within' = graph.orderWithin within := by
  obtain ⟨graph, history, performed, holds, plain⟩ := exists_performAll calls
  obtain ⟨other, history', performed', holds', plain'⟩ := exists_performAll calls'
  refine ⟨graph, history, performed, fun within unique inside => ?_⟩
  rw [Graph.ofCalls, Graph.ofCalls, ← plain, ← plain', performed']
  refine ⟨holds.orderWithin_eq unique inside, Graph.exists_orderWithin_iff holds.simple,
    fun order => Graph.isLeast_of_orderWithin_eq_ok holds.simple unique (mem_nodes_plain inside), ?_⟩
  intro _ _ within' same listed inside' agree
  obtain ⟨rfl, rfl⟩ := Prod.mk.inj (Option.some.inj same)
  exact holds.orderWithin_eq_of_agreeOn holds' listed unique inside inside' agree

namespace Crossed

/-- Five nodes, of which the fourth comes before the first and the fifth before the second. -/
def nodes : List (Call Unit) := List.replicate 5 (.node ())

def calls : List (Call Unit) := nodes ++ [.edge 3 0, .edge 4 1]

/-- The same edges the other way round. -/
def reversed : List (Call Unit) := nodes ++ [.edge 4 1, .edge 3 0]

theorem order_calls : (Graph.ofCalls calls).orderWithin [0, 1, 2, 3, 4] = .ok [2, 3, 0, 4, 1] := by decide +kernel

theorem agreeOn_reversed : (Graph.ofCalls calls).AgreeOn (Graph.ofCalls reversed) [0, 1, 2, 3, 4] := by
  unfold Graph.AgreeOn Graph.Edge
  decide

end Crossed

/-- The lowest ready node is placed first, also if the edges are added the other way round and the set is listed
backwards. -/
theorem orderWithin_isLeast_crossed :
    [0, 1, 2, 3, 4].Nodup ∧
      IsLeast {other | (Graph.ofCalls Crossed.calls).Sorts [0, 1, 2, 3, 4] other} [2, 3, 0, 4, 1] ∧
      ∃ graph history, performAll Crossed.reversed = some (graph, history) ∧
        graph.orderWithin [4, 3, 2, 1, 0] = some (.ok [2, 3, 0, 4, 1]) := by
  obtain ⟨graph', history', performed', -⟩ := exists_performAll Crossed.reversed
  obtain ⟨graph, history, performed, sorts⟩ := orderWithin_isLeast Crossed.calls Crossed.reversed
  have inside : ∀ node ∈ [0, 1, 2, 3, 4], node < graph.size := size_of_performAll performed ▸ by decide
  have inside' : ∀ node ∈ [0, 1, 2, 3, 4], node < graph'.size := size_of_performAll performed' ▸ by decide
  obtain ⟨sorted, -, least, agree⟩ := sorts [0, 1, 2, 3, 4] (by decide) inside
  refine ⟨by decide, least _ Crossed.order_calls, graph', history', performed', ?_⟩
  rw [agree graph' history' [4, 3, 2, 1, 0] performed' (by decide) inside' Crossed.agreeOn_reversed, sorted,
    Crossed.order_calls]

end ThreadedGraph

end VhdlOrder
