import Mathlib.Data.List.Chain
import VhdlOrder.Proofs.Graph.Order

/-! # What a reported cycle is

Where everything that waits does so for something that waits too, following what is waited for comes back to
a node passed before. The path so far and the nodes not yet visited are together all that wait, each of them
once, so the node that ends the search is on the path, and the path from there is a cycle. Where no order
exists, the cycle in its place is therefore one of edges among the chosen nodes.
-/

namespace VhdlOrder.Graph

variable {α : Type} {graph : Graph α} {within : List Nat} {waiting : List Waiting} {node before : Nat}

theorem exists_of_mem_unmetOf (waits : before ∈ unmetOf waiting node) :
    ∃ entry ∈ waiting, entry.node = node ∧ before ∈ entry.unmet := by
  unfold unmetOf at waits
  cases found : waiting.find? fun entry => entry.node == node with
  | none => simp [found] at waits
  | some entry =>
    have same : entry.node = node := by simpa using List.find?_some found
    exact ⟨entry, List.mem_of_find?_eq_some found, same, by simpa [found] using waits⟩

/-- Everything that waits does so for something, and only for what waits too. -/
structure Stuck (waiting : List Waiting) : Prop where
  unmet_ne_nil : ∀ entry ∈ waiting, entry.unmet ≠ []
  mem_nodes : ∀ entry ∈ waiting, ∀ before ∈ entry.unmet, before ∈ waiting.map Waiting.node

theorem Stuck.unmetOf_ne_nil (stuck : Stuck waiting) (member : node ∈ waiting.map Waiting.node) :
    unmetOf waiting node ≠ [] := by
  obtain ⟨entry, entryMember, rfl⟩ := List.mem_map.mp member
  unfold unmetOf
  cases found : waiting.find? fun other => other.node == entry.node with
  | none => exact absurd (List.find?_eq_none.mp found entry entryMember) (by simp)
  | some other => simpa using stuck.unmet_ne_nil other (List.mem_of_find?_eq_some found)

theorem Stuck.mem_of_mem_unmetOf (stuck : Stuck waiting) (waits : before ∈ unmetOf waiting node) :
    before ∈ waiting.map Waiting.node := by
  obtain ⟨entry, member, -, unmet⟩ := exists_of_mem_unmetOf waits
  exact stuck.mem_nodes entry member before unmet

/-- The numbers form a closed walk that begins and ends at one of them and passes no other twice. -/
inductive IsCycle (step : Nat → Nat → Prop) : List Nat → Prop
  | intro {node : Nat} {passed : List Nat} : (node :: passed).Nodup →
      (node :: (passed ++ [node])).IsChain step → IsCycle step (node :: passed ++ [node])

theorem IsCycle.mono {step further : Nat → Nat → Prop} {cycle : List Nat} (isCycle : IsCycle step cycle)
    (weaker : ∀ {source target}, step source target → further source target) : IsCycle further cycle := by
  obtain ⟨unique, chain⟩ := isCycle
  exact .intro unique (chain.imp fun _ _ => weaker)

theorem exists_step_of_isChain {step : Nat → Nat → Prop} {first : Nat} {rest : List Nat}
    (chain : (first :: rest).IsChain step) (member : node ∈ rest) : ∃ source, step source node := by
  induction rest generalizing first with
  | nil => exact absurd member List.not_mem_nil
  | cons second rest ih =>
    obtain ⟨here, behind⟩ := List.isChain_cons_cons.mp chain
    rcases List.mem_cons.mp member with rfl | later
    · exact ⟨first, here⟩
    · exact ih behind later

/-- A step leads to every node of a cycle. -/
theorem IsCycle.exists_step {step : Nat → Nat → Prop} {cycle : List Nat} (isCycle : IsCycle step cycle)
    (member : node ∈ cycle) : ∃ source, step source node := by
  obtain @⟨first, passed, -, chain⟩ := isCycle
  apply exists_step_of_isChain chain
  rcases List.mem_cons.mp member with rfl | later
  · exact List.mem_append_right _ List.mem_cons_self
  · exact later

/-- The path of a search that has come to `current`: the last node is in front, each node is one that the node
passed before it waits for, and the path and the unvisited nodes are all that waits. -/
structure Follows (waiting : List Waiting) (unvisited passed : List Nat) (current : Nat) : Prop where
  chain : (current :: passed).IsChain fun later earlier => later ∈ unmetOf waiting earlier
  perm : (current :: passed ++ unvisited).Perm (waiting.map Waiting.node)

namespace Follows

variable {unvisited passed : List Nat} {current : Nat}

theorem step (follows : Follows waiting unvisited passed current) (waits : node ∈ unmetOf waiting current)
    (fresh : node ∈ unvisited) : Follows waiting (unvisited.erase node) (current :: passed) node := by
  refine ⟨follows.chain.cons_cons waits, List.Perm.trans ?_ follows.perm⟩
  exact List.perm_middle.symm.trans ((List.perm_cons_erase fresh).symm.append_left (current :: passed))

/-- A node that is waited for and has been visited closes the cycle. -/
theorem isCycle (stuck : Stuck waiting) (distinct : Waiting.Distinct waiting)
    (follows : Follows waiting unvisited passed current) (waits : node ∈ unmetOf waiting current)
    (visited : node ∉ unvisited) :
    IsCycle (fun earlier later => later ∈ unmetOf waiting earlier)
      (node :: ((current :: passed).takeWhile fun other => other != node).reverse ++ [node]) := by
  have onPath : node ∈ current :: passed := by
    have member := follows.perm.mem_iff.mpr (stuck.mem_of_mem_unmetOf waits)
    exact (List.mem_append.mp member).resolve_right visited
  have unique : (current :: passed).Nodup :=
    (List.nodup_append'.mp (follows.perm.nodup_iff.mpr distinct)).1
  have chain := follows.chain.cons_cons waits
  obtain ⟨middle, rest, split, fresh⟩ := List.eq_append_cons_of_mem onPath
  rw [split] at unique chain ⊢
  have before : (middle ++ node :: rest).takeWhile (fun other => other != node) = middle := by
    rw [List.takeWhile_append_of_pos, List.takeWhile_cons_of_neg (by simp), List.append_nil]
    intro other member
    rw [bne_iff_ne]
    rintro rfl
    exact fresh member
  have closed : (node :: (middle.reverse ++ [node])).reverse.IsChain
      fun later earlier => later ∈ unmetOf waiting earlier := by
    have around : ((node :: middle ++ [node]) ++ rest).IsChain fun later earlier => later ∈ unmetOf waiting earlier := by
      simpa using chain
    simpa using around.left_of_append
  rw [before]
  refine .intro ?_ (List.isChain_reverse.mp closed)
  rw [List.nodup_cons, List.mem_reverse, List.nodup_reverse]
  exact ⟨fresh, (List.nodup_append'.mp unique).1⟩

end Follows

/-- A search among what is stuck ends with a cycle. -/
theorem isCycle_followUnmet (stuck : Stuck waiting) (distinct : Waiting.Distinct waiting)
    {unvisited path passed : List Nat} {current : Nat} (isPath : path = current :: passed)
    (follows : Follows waiting unvisited passed current) :
    IsCycle (fun earlier later => later ∈ unmetOf waiting earlier)
      (followUnmet waiting unvisited path current) := by
  induction unvisited, path, current using followUnmet.induct waiting generalizing passed with
  | case1 unvisited path current nothing =>
    have member : current ∈ waiting.map Waiting.node := follows.perm.mem_iff.mp List.mem_cons_self
    exact absurd (List.min?_eq_none_iff.mp nothing) (stuck.unmetOf_ne_nil member)
  | case2 unvisited path current node lowest fresh ih =>
    have waits := List.min?_mem lowest
    rw [followUnmet]
    simp only [lowest, dif_pos fresh]
    exact ih (isPath ▸ rfl) (follows.step waits fresh)
  | case3 unvisited path current node lowest visited =>
    rw [followUnmet]
    simp only [lowest, dif_neg visited, isPath]
    exact follows.isCycle stuck distinct (List.min?_mem lowest) visited

theorem isCycle_cycleAmong (stuck : Stuck waiting) (distinct : Waiting.Distinct waiting)
    (nonempty : waiting ≠ []) :
    IsCycle (fun earlier later => later ∈ unmetOf waiting earlier) (cycleAmong waiting) := by
  cases waiting with
  | nil => exact absurd rfl nonempty
  | cons entry rest => exact isCycle_followUnmet stuck distinct rfl ⟨.singleton _, .refl _⟩

/-- What is left over when nothing more can be placed is stuck. -/
theorem stuck_place : Stuck (place (graph.waitingWithin within)).2 :=
  ⟨fun _ member => unmet_ne_nil_of_mem_stuck member, fun _ member _ waits => (edge_of_mem_unmet member waits).1⟩

/-- Without an order there is a cycle, which leads from each node to one of its predecessors. -/
theorem isCycle_of_orderWithin_eq_error {cycle : List Nat} (failed : graph.orderWithin within = .error cycle) :
    IsCycle (fun later earlier => graph.EdgeWithin within earlier later) cycle := by
  unfold orderWithin at failed
  split at failed
  · contradiction
  · rename_i order stuck nonempty placed
    obtain rfl := Except.error.inj failed
    have isLeft : stuck = (place (graph.waitingWithin within)).2 := by rw [placed]
    have distinct : Waiting.Distinct stuck := by
      have all := (perm_place (distinct_waitingWithin graph within)).nodup_iff.mpr
        (distinct_waitingWithin graph within)
      rw [isLeft]
      exact (List.nodup_append'.mp all).2.1
    subst isLeft
    refine (isCycle_cycleAmong stuck_place distinct nonempty).mono ?_
    intro later earlier waits
    obtain ⟨entry, member, rfl, unmet⟩ := exists_of_mem_unmetOf waits
    exact (edge_of_mem_unmet member unmet).2

/-- A cycle of edges in a set, against their direction: it ends where it begins, has at least two nodes and passes none
of them twice, and each node behind the first is a predecessor of the one in front of it. -/
structure CycleWithin (graph : Graph α) (within cycle : List Nat) : Prop where
  length : 3 ≤ cycle.length
  closed : cycle.head? = cycle.getLast?
  unique : cycle.dropLast.Nodup
  inside : ∀ node ∈ cycle, node ∈ within
  backward : cycle.IsChain fun later earlier => earlier ∈ graph.predecessors later

/-- Since no edge leads from a node to itself, a closed walk passes another node. -/
theorem IsCycle.cycleWithin {cycle : List Nat} (simple : graph.Simple)
    (isCycle : IsCycle (fun later earlier => graph.EdgeWithin within earlier later) cycle) :
    graph.CycleWithin within cycle := by
  have inside (node : Nat) (member : node ∈ cycle) : node ∈ within := by
    obtain ⟨_, -, isWithin, -⟩ := isCycle.exists_step member
    exact isWithin
  obtain @⟨first, passed, unique, chain⟩ := isCycle
  refine ⟨?_, by rw [List.getLast?_concat]; rfl, by rwa [List.dropLast_concat], inside,
    chain.imp fun _ _ edge => mem_predecessors.mpr edge.1⟩
  cases passed with
  | nil => exact absurd rfl (simple.ne (List.isChain_cons_cons.mp chain).1.1)
  | cons second rest => simp

/-- In place of an order there is a cycle among the nodes of the set. -/
theorem cycleWithin_of_orderWithin_eq_error (simple : graph.Simple) {cycle : List Nat}
    (failed : graph.orderWithin within = .error cycle) : graph.CycleWithin within cycle :=
  (isCycle_of_orderWithin_eq_error failed).cycleWithin simple

end VhdlOrder.Graph
