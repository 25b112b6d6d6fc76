import Mathlib.Data.List.Sort
import VhdlOrder.Proofs.Graph.Order
import VhdlOrder.Proofs.Graph.Reach
import VhdlOrder.Proofs.Graph.Threading
import VhdlOrder.Stepwise.Ordering

/-! # Searching and sorting within bounds

Edges lead between nodes only, so whatever is found along a thread has a place among the nodes. The count that a sort
keeps for a node is the number of its predecessors that wait themselves. When a node is placed it is taken out of what
waits, and each of its edges takes one from a count that is one at least, because the node has been counted there. So
no count falls below nothing, and a sort by counts does what placing the first node that waits for nothing does.
-/

namespace VhdlOrder

variable {α : Type}

namespace ThreadedGraph

open Stepwise

variable {graph : ThreadedGraph α} {history : List (Nat × Nat)}

/-! ## What leads to a node -/

/-- A visited node is no longer among the others. -/
theorem erase_others (plain : Graph α) (visited : List Nat) (node : Nat) :
    (plain.others visited).erase node = plain.others (node :: visited) := by
  rw [Graph.others, Graph.nodes, (List.nodup_range.filter _).erase_eq_filter, List.filter_filter]
  refine List.filter_congr fun other _ => ?_
  by_cases same : other = node <;> simp [same]

theorem mem_others {plain : Graph α} {visited : List Nat} {node : Nat} :
    node ∈ plain.others visited ↔ node < plain.size ∧ node ∉ visited := by
  simp [Graph.others, Graph.mem_nodes]

/-- The edges into unvisited nodes are those into the node and those into nodes that are unvisited behind it. -/
theorem countP_edges {edges : List (Nat × Nat)} {node : Nat} {visited : List Nat} (fresh : node ∉ visited) :
    edges.countP (fun edge => !visited.contains edge.2) =
      edges.countP (fun edge => edge.2 == node) + edges.countP fun edge => !(node :: visited).contains edge.2 := by
  induction edges with
  | nil => rfl
  | cons edge rest ih =>
    simp only [List.countP_cons, ih]
    by_cases same : edge.2 = node
    · simp [same, fresh]
      omega
    · simp [same, Nat.add_assoc]

/-- What a search that goes back from the nodes of a stack visits. -/
def visitBack (plain : Graph α) (visited stack : List Nat) : List Nat :=
  (Graph.visit (fun node => (plain.predecessors node).reverse) (plain.others visited) stack).reverse ++ visited

theorem Holds.loop_ancestorsRound (holds : graph.Holds history) {visited stack : List Nat}
    (inside : ∀ node ∈ stack, node < graph.size) {rounds : Nat}
    (enough : stack.length + graph.plain.edges.countP (fun edge => !visited.contains edge.2) < rounds) :
    loop graph.ancestorsRound rounds (visited, stack) = some (visitBack graph.plain visited stack) := by
  refine loop_eq (fun (state : List Nat × List Nat) => ∀ node ∈ state.2, node < graph.size)
    (fun state => state.2.length + graph.plain.edges.countP fun edge => !state.1.contains edge.2)
    (fun state => visitBack graph.plain state.1 state.2) ?_ inside enough
  rintro ⟨visited, stack⟩ inside
  cases stack with
  | nil => exact .inl (by simp [ancestorsRound, visitBack, Graph.visit])
  | cons node stack =>
    obtain ⟨here, others⟩ := List.forall_mem_cons.mp inside
    rw [ancestorsRound]
    by_cases seen : node ∈ visited
    · refine .inr ⟨(visited, stack), by simp [seen], others, ?_, by simp⟩
      have absent : node ∉ graph.plain.others visited := fun member => (mem_others.mp member).2 seen
      dsimp only [visitBack]
      conv_rhs => rw [Graph.visit, dif_neg absent]
    · refine .inr ⟨(node :: visited, (graph.plain.predecessors node).reverse ++ stack), ?_, ?_, ?_, ?_⟩
      · simp [seen, predecessors_eq holds.consistent here]
      · refine List.forall_mem_append.mpr ⟨fun before member => ?_, others⟩
        have edge := Graph.mem_predecessors.mp (List.mem_reverse.mp member)
        rw [← size_plain]
        exact Graph.mem_nodes.mp (holds.simple.source_mem edge)
      · have fresh : node ∈ graph.plain.others visited := mem_others.mpr ⟨by rwa [size_plain], seen⟩
        dsimp only [visitBack]
        conv_rhs => rw [Graph.visit, dif_pos fresh, erase_others]
        simp
      · have split := @countP_edges graph.plain.edges node visited seen
        simp only [List.length_append, List.length_reverse, List.length_cons, Graph.predecessors, List.length_map,
          ← List.countP_eq_length_filter]
        omega

/-- The order in which the predecessors of a node are looked at does not matter for what is visited. -/
theorem mem_visitBack_iff {plain : Graph α} (simple : plain.Simple) {node other : Nat} (inside : node ∈ plain.nodes)
    (isNode : other ∈ plain.nodes) :
    other ∈ visitBack plain [] [node] ↔ other ∈ Graph.visit plain.predecessors plain.nodes [node] := by
  have closed : ∀ passed ∈ plain.nodes, ∀ before ∈ plain.predecessors passed, before ∈ plain.nodes :=
    fun _ _ _ member => simple.source_mem (Graph.mem_predecessors.mp member)
  have forward := @Graph.mem_reach_iff _ plain plain.predecessors node other closed inside
  have backward := @Graph.mem_reach_iff _ plain (fun passed => (plain.predecessors passed).reverse) node other
    (fun passed member before isBefore => closed passed member before (List.mem_reverse.mp isBefore)) inside
  rw [Graph.reach, Graph.mem_chosen, and_iff_right isNode] at forward backward
  have all : plain.others [] = plain.nodes := by simp [Graph.others]
  rw [visitBack, List.append_nil, List.mem_reverse, all, backward, forward]
  simp only [List.mem_reverse]

theorem Holds.ancestors_eq (holds : graph.Holds history) {node : Nat} (inside : node < graph.size) :
    graph.ancestors node = some (graph.plain.ancestors node) := by
  have start : ∀ other ∈ [node], other < graph.size := by simpa using inside
  have enough : [node].length + graph.plain.edges.countP (fun edge => !([] : List Nat).contains edge.2) <
      graph.edges.length + 2 := by
    have few := @List.countP_le_length _ (fun edge => !([] : List Nat).contains edge.2) graph.plain.edges
    have same : graph.plain.edges.length = graph.edges.length := by simp [plain]
    simp only [List.length_singleton]
    omega
  have member : node ∈ graph.plain.nodes := Graph.mem_nodes.mpr (by rwa [size_plain])
  rw [ancestors, holds.loop_ancestorsRound start enough, ← size_plain]
  refine congrArg some (List.filter_congr fun other isNode => ?_)
  rw [Bool.eq_iff_iff, List.contains_iff_mem, List.contains_iff_mem]
  exact mem_visitBack_iff holds.simple member isNode

/-! ## What waits -/

/-- The nodes that are left, each with its predecessors among them. -/
def waitingAmong (plain : Graph α) (left : List Nat) : List Graph.Waiting :=
  left.map fun node => ⟨node, (plain.predecessors node).filter left.contains⟩

/-- How many predecessors of a node are left. -/
def unmetCount (plain : Graph α) (left : List Nat) (node : Nat) : Nat :=
  ((plain.predecessors node).filter left.contains).length

theorem release_waitingAmong (plain : Graph α) (left : List Nat) (node : Nat) :
    Graph.Waiting.release node (waitingAmong plain left) =
      waitingAmong plain (left.filter fun other => other != node) := by
  rw [Graph.Waiting.release, waitingAmong, waitingAmong, List.filter_map, List.map_map]
  refine List.map_congr_left fun other member => ?_
  simp only [Function.comp_apply, List.filter_filter]
  refine congrArg (Graph.Waiting.mk other) (List.filter_congr fun before _ => ?_)
  by_cases same : before = node <;> simp [same]

theorem find?_waitingAmong (plain : Graph α) (left : List Nat) :
    ((waitingAmong plain left).find? fun entry => entry.unmet.isEmpty) =
      (left.find? fun node => unmetCount plain left node == 0).map fun node =>
        ⟨node, (plain.predecessors node).filter left.contains⟩ := by
  have same (nodes : List Nat) : nodes.isEmpty = (nodes.length == 0) := by cases nodes <;> rfl
  rw [waitingAmong, List.find?_map]
  simp only [Function.comp_def, unmetCount, same]

theorem place_waitingAmong_of_none {plain : Graph α} {left : List Nat}
    (none : (left.find? fun node => unmetCount plain left node == 0) = none) :
    Graph.place (waitingAmong plain left) = ([], waitingAmong plain left) :=
  Graph.place_of_none (by rw [find?_waitingAmong, none]; rfl)

theorem place_waitingAmong_of_some {plain : Graph α} {left : List Nat} {node : Nat}
    (first : (left.find? fun node => unmetCount plain left node == 0) = some node) :
    Graph.place (waitingAmong plain left) =
      (node :: (Graph.place (waitingAmong plain (left.filter fun other => other != node))).1,
        (Graph.place (waitingAmong plain (left.filter fun other => other != node))).2) := by
  have found := find?_waitingAmong plain left
  rw [first] at found
  rw [Graph.place_of_some found, release_waitingAmong]

/-- The lowest of some nodes is the first one that has their property in increasing order. -/
theorem min?_eq_find? {left ready : List Nat} {fits : Nat → Bool} (sorted : left.Pairwise (· < ·))
    (same : ∀ node, node ∈ ready ↔ node ∈ left ∧ fits node = true) : ready.min? = left.find? fits := by
  cases found : left.find? fits with
  | none =>
    rw [List.min?_eq_none_iff]
    refine List.eq_nil_iff_forall_not_mem.mpr fun node member => ?_
    obtain ⟨isLeft, fitting⟩ := (same node).mp member
    exact List.find?_eq_none.mp found node isLeft fitting
  | some node =>
    obtain ⟨fitting, front, back, rfl, unfit⟩ := List.find?_eq_some_iff_append.mp found
    refine List.min?_eq_some_iff.mpr ⟨(same node).mpr ⟨by simp, fitting⟩, fun other member => ?_⟩
    obtain ⟨isLeft, otherFits⟩ := (same other).mp member
    rcases List.mem_append.mp isLeft with before | behind
    · exact absurd otherFits (by simpa using unfit other before)
    · rcases List.mem_cons.mp behind with rfl | later
      · exact Nat.le_refl _
      · have ascending := (List.pairwise_append.mp sorted).2.1
        exact Nat.le_of_lt ((List.pairwise_cons.mp ascending).1 other later)

/-- When a node is placed, exactly the nodes behind it wait for one predecessor less. -/
theorem Holds.unmetCount_filter (holds : graph.Holds history) {left : List Nat} {node : Nat} (member : node ∈ left)
    (other : Nat) :
    unmetCount graph.plain (left.filter fun before => before != node) other =
      unmetCount graph.plain left other - if other ∈ graph.plain.successors node then 1 else 0 := by
  have filtered : (graph.plain.predecessors other).filter (left.filter fun before => before != node).contains =
      ((graph.plain.predecessors other).filter left.contains).erase node := by
    rw [((holds.nodup_predecessors other).filter _).erase_eq_filter, List.filter_filter]
    refine List.filter_congr fun before _ => ?_
    by_cases same : before = node <;> simp [same]
  have waits : node ∈ (graph.plain.predecessors other).filter left.contains ↔
      other ∈ graph.plain.successors node := by
    rw [List.mem_filter, Graph.mem_predecessors, Graph.mem_successors]
    simp [member]
  rw [unmetCount, filtered, List.length_erase, unmetCount]
  simp only [waits]
  split <;> rfl

/-- A node behind one that is left waits for it. -/
theorem unmetCount_pos {plain : Graph α} {left : List Nat} {node other : Nat} (member : node ∈ left)
    (behind : other ∈ plain.successors node) : 0 < unmetCount plain left other := by
  have edge := Graph.mem_successors.mp behind
  refine List.length_pos_of_mem (List.mem_filter.mpr ⟨Graph.mem_predecessors.mpr edge, ?_⟩)
  simpa using member

/-! ## Sorting -/

/-- The nodes of `within` behind a node that wait for nothing else, the last one first. -/
def freed (plain : Graph α) (within left : List Nat) (node : Nat) : List Nat :=
  ((plain.successors node).filter fun other => within.contains other && unmetCount plain left other == 1).reverse

theorem mem_freed {plain : Graph α} {within left : List Nat} {node other : Nat} :
    other ∈ freed plain within left node ↔
      other ∈ plain.successors node ∧ other ∈ within ∧ unmetCount plain left other = 1 := by
  simp [freed]

/-- The edges from a node take one from each count that they lead to. -/
theorem foldlM_release {within after remaining ready : List Nat} {count : Nat → Nat} (nodup : after.Nodup)
    (counted : ∀ other ∈ after, other ∈ within → remaining[other]? = some (count other) ∧ 0 < count other) :
    ∃ remaining' ready', after.foldlM (release within) (remaining, ready) = some (remaining', ready') ∧
      (∀ other, remaining'[other]? =
        if other ∈ after ∧ other ∈ within then some (count other - 1) else remaining[other]?) ∧
      ready' = (after.filter fun other => within.contains other && count other == 1).reverse ++ ready := by
  induction after generalizing remaining ready with
  | nil => exact ⟨remaining, ready, rfl, by simp, rfl⟩
  | cons node rest ih =>
    obtain ⟨fresh, nodup⟩ := List.nodup_cons.mp nodup
    rw [List.foldlM_cons, release]
    by_cases chosen : node ∈ within
    · obtain ⟨found, positive⟩ := counted node List.mem_cons_self chosen
      have inside : node < remaining.length := (List.getElem?_eq_some_iff.mp found).1
      have others (other : Nat) (member : other ∈ rest) (isChosen : other ∈ within) :
          (remaining.modify node fun _ => count node - 1)[other]? = some (count other) ∧ 0 < count other := by
        have differs : node ≠ other := fun same => fresh (same ▸ member)
        obtain ⟨present, positive⟩ := counted other (List.mem_cons_of_mem _ member) isChosen
        exact ⟨by simp [differs, present], positive⟩
      obtain ⟨remaining', ready', ran, changed, added⟩ :=
        @ih (remaining.modify node fun _ => count node - 1) (if count node - 1 = 0 then node :: ready else ready)
          nodup others
      refine ⟨remaining', ready', ?_, fun other => ?_, ?_⟩
      · simp [chosen, found, subtract?_of_le (Nat.succ_le_of_lt positive), update?_of_lt inside, ran]
      · rw [changed]
        by_cases same : other = node
        · subst same
          simp [fresh, chosen, inside]
        · have differs : node ≠ other := Ne.symm same
          simp [same, differs]
      · rw [added]
        by_cases last : count node = 1
        · simp [chosen, last]
        · have more : count node - 1 ≠ 0 := by omega
          simp [chosen, last, more]
    · obtain ⟨remaining', ready', ran, changed, added⟩ := @ih remaining ready nodup
        fun other member => counted other (List.mem_cons_of_mem _ member)
      refine ⟨remaining', ready', by simp [chosen, ran], fun other => ?_, ?_⟩
      · rw [changed]
        by_cases same : other = node
        · subst same
          simp [chosen]
        · simp [same]
      · rw [added]
        simp [chosen]

/-- The nodes in `left` are those of `within` that have not been placed: each count is what a node waits for, what has
been placed waits for nothing, and what is ready are the nodes left that wait for nothing. -/
structure Sorting.Waits (plain : Graph α) (within left : List Nat) (sorting : Sorting) : Prop where
  sublist : left.Sublist within
  counts : ∀ node ∈ within, sorting.remaining[node]? = some (unmetCount plain left node)
  placed : ∀ node ∈ within, node ∉ left → unmetCount plain left node = 0
  ready : ∀ node, node ∈ sorting.ready ↔ node ∈ left ∧ unmetCount plain left node = 0
  nodup : sorting.ready.Nodup
  length : sorting.order.length + left.length = within.length

variable {within left : List Nat} {sorting : Sorting}

theorem Sorting.Waits.min?_ready {plain : Graph α} (waits : sorting.Waits plain within left)
    (sorted : within.Pairwise (· < ·)) :
    sorting.ready.min? = left.find? fun node => unmetCount plain left node == 0 :=
  min?_eq_find? (sorted.sublist waits.sublist) fun node => by rw [waits.ready, beq_iff_eq]

/-- A node that waits for something is left. -/
theorem Sorting.Waits.mem_left {plain : Graph α} (waits : sorting.Waits plain within left) {node : Nat}
    (chosen : node ∈ within) (waiting : 0 < unmetCount plain left node) : node ∈ left := by
  by_contra gone
  have nothing := waits.placed node chosen gone
  omega

/-- When a node is placed, the nodes that are ready are those that it frees and those that were ready before. -/
theorem Holds.mem_freed_append_iff (holds : graph.Holds history) (waits : sorting.Waits graph.plain within left)
    {node : Nat} (isLeft : node ∈ left) (unmet : unmetCount graph.plain left node = 0) (other : Nat) :
    other ∈ freed graph.plain within left node ++ sorting.ready.erase node ↔
      other ∈ (left.filter fun other => other != node) ∧
        unmetCount graph.plain (left.filter fun other => other != node) other = 0 := by
  rw [List.mem_append, mem_freed, waits.nodup.mem_erase_iff, waits.ready, holds.unmetCount_filter isLeft,
    List.mem_filter, bne_iff_ne]
  by_cases behind : other ∈ graph.plain.successors node
  · have positive := unmetCount_pos isLeft behind
    have differs : other ≠ node := by
      rintro rfl
      omega
    rw [if_pos behind]
    constructor
    · rintro (⟨-, chosen, one⟩ | ⟨-, -, none⟩)
      · exact ⟨⟨waits.mem_left chosen positive, differs⟩, by omega⟩
      · omega
    · rintro ⟨⟨member, -⟩, one⟩
      exact .inl ⟨behind, waits.sublist.subset member, by omega⟩
  · rw [if_neg behind, Nat.sub_zero]
    constructor
    · rintro (⟨isBehind, -⟩ | ⟨differs, member, none⟩)
      · exact absurd isBehind behind
      · exact ⟨⟨member, differs⟩, none⟩
    · rintro ⟨⟨member, differs⟩, none⟩
      exact .inr ⟨differs, member, none⟩

/-- No node is made ready twice. -/
theorem Holds.nodup_freed_append (holds : graph.Holds history) (waits : sorting.Waits graph.plain within left)
    (node : Nat) : (freed graph.plain within left node ++ sorting.ready.erase node).Nodup := by
  rw [List.nodup_append]
  refine ⟨List.nodup_reverse.mpr ((holds.nodup_successors node).filter _), waits.nodup.erase _, ?_⟩
  rintro other new _ old rfl
  have one := (mem_freed.mp new).2.2
  have none := ((waits.ready other).mp (List.mem_of_mem_erase old)).2
  omega

/-- When a node is placed, the others wait as they should. -/
theorem Holds.waits_placed (holds : graph.Holds history) (sorted : within.Pairwise (· < ·))
    (waits : sorting.Waits graph.plain within left) {node : Nat} (isLeft : node ∈ left)
    (unmet : unmetCount graph.plain left node = 0) {remaining : List Nat}
    (changed : ∀ other, remaining[other]? = if other ∈ graph.plain.successors node ∧ other ∈ within then
      some (unmetCount graph.plain left other - 1) else sorting.remaining[other]?) :
    Sorting.Waits graph.plain within (left.filter fun other => other != node)
      ⟨sorting.order ++ [node], remaining, freed graph.plain within left node ++ sorting.ready.erase node⟩ := by
  have unmetAfter := holds.unmetCount_filter isLeft
  constructor
  · exact List.filter_sublist.trans waits.sublist
  · intro other chosen
    rw [changed, unmetAfter]
    by_cases behind : other ∈ graph.plain.successors node
    · simp [behind, chosen]
    · simpa [behind] using waits.counts other chosen
  · intro other chosen gone
    have nothing : unmetCount graph.plain left other = 0 := by
      by_cases same : other = node
      · exact same ▸ unmet
      · exact waits.placed other chosen fun member => gone (by simp [member, same])
    rw [unmetAfter, nothing, Nat.zero_sub]
  · exact holds.mem_freed_append_iff waits isLeft unmet
  · exact holds.nodup_freed_append waits node
  · have nodup : left.Nodup := (sorted.sublist waits.sublist).imp Nat.ne_of_lt
    have counted := waits.length
    have some := List.length_pos_of_mem isLeft
    rw [← nodup.erase_eq_filter, List.length_erase_of_mem isLeft, List.length_append, List.length_singleton]
    omega

/-- A round places the lowest node that is ready. -/
theorem Holds.exists_sortRound (holds : graph.Holds history) (sorted : within.Pairwise (· < ·))
    (inside : ∀ node ∈ within, node < graph.size) (waits : sorting.Waits graph.plain within left) {node : Nat}
    (first : (left.find? fun node => unmetCount graph.plain left node == 0) = some node) :
    ∃ next, graph.sortRound within sorting = some (.again next) ∧ next.order = sorting.order ++ [node] ∧
      next.Waits graph.plain within (left.filter fun other => other != node) := by
  have lowest := (waits.min?_ready sorted).trans first
  have isLeft : node ∈ left := List.mem_of_find?_eq_some first
  have unmet : unmetCount graph.plain left node = 0 := by simpa using List.find?_some first
  have here : node < graph.size := inside node (waits.sublist.subset isLeft)
  obtain ⟨remaining, ready, released, changed, rfl⟩ :=
    @foldlM_release within (graph.plain.successors node) sorting.remaining (sorting.ready.erase node)
      (unmetCount graph.plain left) (holds.nodup_successors node) fun other behind chosen =>
        ⟨waits.counts other chosen, unmetCount_pos isLeft behind⟩
  refine ⟨_, ?_, rfl, holds.waits_placed sorted waits isLeft unmet changed⟩
  rw [sortRound, lowest]
  simp only [successors_eq holds.consistent here, Option.bind_eq_bind, Option.bind_some, released]
  rfl

/-- The rounds of a sort place what can be placed, and at the end the counts are those of what is left over. -/
theorem Holds.exists_loop_sortRound (holds : graph.Holds history) (sorted : within.Pairwise (· < ·))
    (inside : ∀ node ∈ within, node < graph.size) (waits : sorting.Waits graph.plain within left)
    (start : sorting.order = []) {rounds : Nat} (enough : within.length < rounds) :
    ∃ (last : Sorting) (stuck : List Nat),
      loop (graph.sortRound within) rounds sorting = some (last.order, last.remaining) ∧
      last.Waits graph.plain within stuck ∧
      (stuck.find? fun node => unmetCount graph.plain stuck node == 0) = none ∧
      Graph.place (waitingAmong graph.plain left) = (last.order, waitingAmong graph.plain stuck) := by
  have ran := @exists_loop _ _ (graph.sortRound within)
    (fun now => ∃ later, now.Waits graph.plain within later ∧ Graph.place (waitingAmong graph.plain left) =
      (now.order ++ (Graph.place (waitingAmong graph.plain later)).1,
        (Graph.place (waitingAmong graph.plain later)).2))
    (fun now => within.length - now.order.length)
    (fun answer => ∃ last : Sorting, ∃ stuck, answer = (last.order, last.remaining) ∧
      last.Waits graph.plain within stuck ∧
      (stuck.find? fun node => unmetCount graph.plain stuck node == 0) = none ∧
      Graph.place (waitingAmong graph.plain left) = (last.order, waitingAmong graph.plain stuck))
    ?_ rounds sorting ⟨left, waits, by simp [start]⟩ (by omega)
  · obtain ⟨_, ran, last, stuck, rfl, stays⟩ := ran
    exact ⟨last, stuck, ran, stays⟩
  · rintro now ⟨later, stays, placed⟩
    cases first : later.find? fun node => unmetCount graph.plain later node == 0 with
    | none =>
      rw [place_waitingAmong_of_none first, List.append_nil] at placed
      refine .inl ⟨(now.order, now.remaining), ?_, now, later, rfl, stays, first, placed⟩
      rw [sortRound, stays.min?_ready sorted, first]
    | some node =>
      obtain ⟨next, went, order, goesOn⟩ := holds.exists_sortRound sorted inside stays first
      rw [place_waitingAmong_of_some first] at placed
      refine .inr ⟨next, went, ⟨_, goesOn, by simpa [order] using placed⟩, ?_⟩
      have counted := goesOn.length
      rw [order, List.length_append, List.length_singleton] at counted ⊢
      omega

/-! ## A cycle among what is left -/

theorem unmetOf_waitingAmong {plain : Graph α} {left : List Nat} {node : Nat} (member : node ∈ left) :
    Graph.unmetOf (waitingAmong plain left) node = (plain.predecessors node).filter left.contains := by
  obtain ⟨front, back, rfl, fresh⟩ := List.eq_append_cons_of_mem member
  have unfit : (front.find? fun other => other == node) = none :=
    List.find?_eq_none.mpr fun other isBefore same => fresh (beq_iff_eq.mp same ▸ isBefore)
  rw [Graph.unmetOf, waitingAmong, List.find?_map]
  simp [Function.comp_def, List.find?_append, unfit]

/-- On a path without repeats, the place of a node is the number of those before it. -/
theorem findIdx?_append_cons {front : List Nat} {node : Nat} (fresh : node ∉ front) (back : List Nat) :
    ((front ++ node :: back).findIdx? fun other => other == node) = some front.length := by
  have unfit : (front.findIdx? fun other => other == node) = none :=
    List.findIdx?_eq_none_iff.mpr fun other isBefore => by
      simpa using fun same : other = node => fresh (same ▸ isBefore)
  simp [List.findIdx?_append, unfit, List.findIdx?_cons]

/-- Back from the end of a path without repeats, what comes before a node is what lies behind it. -/
theorem takeWhile_reverse_append_cons {back : List Nat} {node : Nat} (fresh : node ∉ back) (front : List Nat) :
    (front ++ node :: back).reverse.takeWhile (fun other => other != node) = back.reverse := by
  rw [List.reverse_append, List.reverse_cons, List.append_assoc, List.takeWhile_append_of_pos]
  · simp
  · intro other member
    simpa using fun same : other = node => fresh (same ▸ List.mem_reverse.mp member)

theorem erase_filter_not_contains (nodup : left.Nodup) (path : List Nat) (node : Nat) :
    (left.filter fun other => !path.contains other).erase node =
      left.filter fun other => !(path ++ [node]).contains other := by
  rw [(nodup.filter _).erase_eq_filter, List.filter_filter]
  refine List.filter_congr fun other _ => ?_
  by_cases same : other = node <;> simp [same]

/-- The path back from a node that is left ends in the cycle that the search for one finds. -/
theorem Holds.loop_cycleRound (holds : graph.Holds history) (nodup : left.Nodup)
    (inside : ∀ node ∈ left, node < graph.size) {path : List Nat} {current : Nat} (path_nodup : path.Nodup)
    (current_mem : current ∈ left) {rounds : Nat}
    (enough : (left.filter fun node => !path.contains node).length < rounds) :
    loop (graph.cycleRound left) rounds (path, current) =
      some (Graph.followUnmet (waitingAmong graph.plain left) (left.filter fun node => !path.contains node)
        path.reverse current) := by
  refine loop_eq (fun (state : List Nat × Nat) => state.1.Nodup ∧ state.2 ∈ left)
    (fun state => (left.filter fun node => !state.1.contains node).length)
    (fun state => Graph.followUnmet (waitingAmong graph.plain left)
      (left.filter fun node => !state.1.contains node) state.1.reverse state.2) ?_ ⟨path_nodup, current_mem⟩ enough
  rintro ⟨path, current⟩ ⟨path_nodup, current_mem⟩
  have before := predecessors_eq holds.consistent (inside current current_mem)
  have unmet := @unmetOf_waitingAmong _ graph.plain left current current_mem
  simp only [cycleRound, before, Option.bind_eq_bind, Option.bind_some]
  cases lowest : ((graph.plain.predecessors current).filter left.contains).min? with
  | none =>
    refine .inl ?_
    rw [Graph.followUnmet]
    simp [unmet, lowest]
  | some node =>
    have isLeft : node ∈ left := by simpa using (List.mem_filter.mp (List.min?_mem lowest)).2
    by_cases passed : node ∈ path
    · refine .inl ?_
      obtain ⟨front, back, rfl, fresh⟩ := List.eq_append_cons_of_mem passed
      obtain ⟨-, back_nodup, -⟩ := List.nodup_append.mp path_nodup
      have place := findIdx?_append_cons fresh back
      have taken := takeWhile_reverse_append_cons (List.nodup_cons.mp back_nodup).1 front
      have visited : node ∉ left.filter fun other => !(front ++ node :: back).contains other := by simp
      have cut : slice? (front ++ node :: back) front.length (front ++ node :: back).length = some (node :: back) := by
        rw [slice?_length (by simp), List.drop_left]
      rw [Graph.followUnmet]
      simp only [unmet, lowest, dif_neg visited, place, cut, taken]
      simp
    · have fresh : node ∈ left.filter fun other => !path.contains other := by simp [isLeft, passed]
      have place : (path.findIdx? fun other => other == node) = none :=
        List.findIdx?_eq_none_iff.mpr fun other onPath => by
          simpa using fun same : other = node => passed (same ▸ onPath)
      have erased := erase_filter_not_contains nodup path node
      refine .inr ⟨(path ++ [node], node), by simp [place], ⟨?_, isLeft⟩, ?_, ?_⟩
      · rw [List.nodup_append]
        have apart (other : Nat) (onPath : other ∈ path) : other ≠ node := fun same => passed (same ▸ onPath)
        exact ⟨path_nodup, by simp, by simpa using apart⟩
      · dsimp only
        conv_rhs => rw [Graph.followUnmet]
        simp only [unmet, lowest, dif_pos fresh, erased, List.reverse_append, List.reverse_singleton,
          List.singleton_append]
      · dsimp only
        rw [← erased]
        exact Graph.length_erase_lt fresh

theorem Holds.findCycle_eq (holds : graph.Holds history) (sorted : left.Pairwise (· < ·))
    (inside : ∀ node ∈ left, node < graph.size) :
    graph.findCycle left = some (Graph.cycleAmong (waitingAmong graph.plain left)) := by
  cases left with
  | nil => rfl
  | cons node rest =>
    have ascending := (List.pairwise_cons.mp sorted).1
    have nodup : (node :: rest).Nodup := sorted.imp Nat.ne_of_lt
    have fresh := (List.nodup_cons.mp nodup).1
    have lowest : (node :: rest).min? = some node := by
      refine List.min?_eq_some_iff.mpr ⟨List.mem_cons_self, fun other member => ?_⟩
      rcases List.mem_cons.mp member with rfl | later
      · exact Nat.le_refl _
      · exact Nat.le_of_lt (ascending other later)
    have others : ((node :: rest).filter fun other => !([node] : List Nat).contains other) = rest := by
      rw [List.filter_cons_of_neg (by simp), List.filter_eq_self]
      exact fun other later => by simpa using fun same : other = node => fresh (same ▸ later)
    have found := @holds.loop_cycleRound _ _ _ (node :: rest) nodup inside [node] node (by simp) List.mem_cons_self
      ((node :: rest).length + 1) (Nat.lt_succ_of_le (List.length_filter_le _ _))
    rw [others] at found
    rw [findCycle, lowest]
    simp only [found, waitingAmong, List.map_cons, Graph.cycleAmong, List.map_map, Function.comp_def, List.map_id',
      List.reverse_singleton]

/-! ## Orders -/

theorem withCount_eq {remaining within : List Nat} {count : Nat → Nat} (wanted : Nat → Bool)
    (counts : ∀ node ∈ within, remaining[node]? = some (count node)) :
    withCount remaining within wanted = some (within.filter fun node => wanted (count node)) := by
  have each : ∀ node ∈ within, (do return if wanted (← remaining[node]?) then some node else none) =
      some (if wanted (count node) then some node else none) :=
    fun node member => by simp [counts node member]
  rw [withCount, filterMap?_eq each, ← List.filterMap_eq_filter]
  congr

theorem Holds.exists_counts (holds : graph.Holds history) (within : List Nat) :
    ∃ remaining, graph.counts within = some remaining ∧
      ∀ node ∈ within, node < graph.size → remaining[node]? = some (unmetCount graph.plain within node) := by
  have each : ∀ node ∈ List.range graph.size, (do
      if within.contains node then return ((← graph.predecessors node).filter within.contains).length
      else return 0) = some (if within.contains node then unmetCount graph.plain within node else 0) := by
    intro node member
    rw [predecessors_eq holds.consistent (List.mem_range.mp member)]
    split <;> rfl
  exact ⟨_, mapM_eq_map each, fun node chosen inside => by simp [inside, chosen]⟩

theorem sorted_chosen (plain : Graph α) (within : List Nat) : (plain.chosen within).Pairwise (· < ·) :=
  List.pairwise_lt_range.filter _

/-- In what order the nodes of a set are listed does not matter for whether it has a node. -/
theorem contains_eq_of_perm (listed : within.Perm left) : within.contains = left.contains :=
  funext fun node => by rw [Bool.eq_iff_iff, List.contains_iff_mem, List.contains_iff_mem, listed.mem_iff]

theorem sortRound_eq_of_perm (listed : within.Perm left) : graph.sortRound within = graph.sortRound left := by
  have released : release within = release left := by
    funext ⟨remaining, ready⟩ node
    rw [release, release, contains_eq_of_perm listed]
  funext sorting
  rw [sortRound, sortRound, released]

/-- Nor does it matter for the cycle that is found among them. -/
theorem findCycle_eq_of_perm (listed : within.Perm left) : graph.findCycle within = graph.findCycle left := by
  have lowest : within.min? = left.min? :=
    Option.ext fun node => by simp only [List.min?_eq_some_iff, listed.mem_iff]
  have round : graph.cycleRound within = graph.cycleRound left := by
    funext ⟨path, node⟩
    rw [cycleRound, cycleRound, contains_eq_of_perm listed]
  rw [findCycle, findCycle, lowest, round, listed.length_eq]

/-- A sort by counts has the order, or the cycle, that placing one node after the other comes to, in whichever order
the nodes are listed. -/
theorem Holds.orderWithin_eq (holds : graph.Holds history) (unique : within.Nodup)
    (inside : ∀ node ∈ within, node < graph.size) :
    graph.orderWithin within = some (graph.plain.orderWithin within) := by
  -- the sort is followed on the listing in increasing order
  obtain ⟨ascending, isChosen⟩ : ∃ ascending, ascending = graph.plain.chosen within := ⟨_, rfl⟩
  have listed : within.Perm ascending := isChosen ▸
    (Graph.perm_chosen unique fun node member => Graph.mem_nodes.mpr (size_plain ▸ inside node member)).symm
  have sorted : ascending.Pairwise (· < ·) := isChosen ▸ sorted_chosen graph.plain within
  have count (node : Nat) : unmetCount graph.plain within node = unmetCount graph.plain ascending node := by
    rw [unmetCount, unmetCount, contains_eq_of_perm listed]
  obtain ⟨remaining, counted, counts⟩ := holds.exists_counts within
  have counts (node : Nat) (member : node ∈ within) := counts node member (inside node member)
  have waits : Sorting.Waits graph.plain ascending ascending
      ⟨[], remaining, within.filter fun node => unmetCount graph.plain within node == 0⟩ :=
    { sublist := .refl _
      counts := fun node member => count node ▸ counts node (listed.mem_iff.mpr member)
      placed := fun _ member gone => absurd member gone
      ready := fun node => by simp [listed.mem_iff, count]
      nodup := unique.filter _
      length := Nat.zero_add _ }
  obtain ⟨last, stuck, ran, stays, nothing, placed⟩ := holds.exists_loop_sortRound sorted
    (fun node member => inside node (listed.mem_iff.mpr member)) waits rfl (Nat.lt_succ_self _)
  have isStuck : (ascending.filter fun node => unmetCount graph.plain stuck node != 0) = stuck := by
    refine List.Pairwise.eq_of_mem_iff (sorted.filter _) (sorted.sublist stays.sublist) fun node => ?_
    rw [List.mem_filter, bne_iff_ne]
    constructor
    · rintro ⟨member, waits⟩
      by_contra gone
      exact waits (stays.placed node member gone)
    · intro isLeft
      exact ⟨stays.sublist.subset isLeft, by simpa using List.find?_eq_none.mp nothing node isLeft⟩
  have cycle : graph.findCycle (within.filter fun node => unmetCount graph.plain stuck node != 0) =
      some (Graph.cycleAmong (waitingAmong graph.plain stuck)) := by
    rw [findCycle_eq_of_perm (listed.filter _), isStuck]
    exact holds.findCycle_eq (sorted.sublist stays.sublist) fun node member =>
      inside node (listed.mem_iff.mpr (stays.sublist.subset member))
  have countsLeft (node : Nat) (member : node ∈ within) := stays.counts node (listed.mem_iff.mp member)
  have waiting : graph.plain.waitingWithin within = waitingAmong graph.plain ascending := by
    rw [Graph.waitingWithin, ← isChosen]
    rfl
  have total := stays.length
  rw [orderWithin, counted]
  simp only [Option.bind_eq_bind, Option.bind_some, withCount_eq _ counts, sortRound_eq_of_perm listed,
    listed.length_eq, ran, withCount_eq _ countsLeft, cycle]
  rw [Graph.orderWithin, waiting, placed]
  cases stuck with
  | nil =>
    rw [if_pos (by simpa using total)]
    rfl
  | cons node rest =>
    rw [if_neg (by simp at total; omega)]
    rfl

/-! ## Trees -/

theorem mem_of_mem_below {twig step : Twig} {nodes : List Nat} {next : Nat}
    (member : (step, next) ∈ twig.below nodes) : next ∈ nodes := by
  induction nodes using Twig.below.induct with
  | case1 => simp [Twig.below] at member
  | case2 node => simp_all [Twig.below]
  | case3 node rest some ih =>
    rw [Twig.below] at member
    · rcases List.mem_cons.mp member with same | later
      · obtain ⟨-, rfl⟩ := Prod.mk.inj same
        exact List.mem_cons_self
      · exact List.mem_cons_of_mem _ (ih later)
    · exact some

/-- A node that is on the branch already is not followed again. -/
theorem treeFrom_of_mem {branch : List Nat} {twig : Twig} {node : Nat} (onBranch : node ∈ branch) (steps : Nat) :
    graph.treeFrom steps branch twig node = some (graph.plain.treeFrom (graph.plain.others branch) twig node) := by
  rw [Graph.treeFrom, dif_neg fun fresh => (mem_others.mp fresh).2 onBranch]
  cases steps <;> exact if_pos (by simpa using onBranch)

/-- A branch holds what has been visited, so it grows no longer than there are nodes. -/
theorem Holds.treeFrom_eq (holds : graph.Holds history) {branch : List Nat} {steps : Nat} {twig : Twig} {node : Nat}
    (inside : node < graph.size) (enough : (graph.plain.others branch).length ≤ steps) :
    graph.treeFrom steps branch twig node = some (graph.plain.treeFrom (graph.plain.others branch) twig node) := by
  induction steps generalizing branch twig node with
  | zero =>
    have onBranch : node ∈ branch := by
      by_contra fresh
      have some := List.length_pos_of_mem (mem_others.mpr ⟨@size_plain _ graph ▸ inside, fresh⟩)
      omega
    exact treeFrom_of_mem onBranch 0
  | succ steps ih =>
    by_cases onBranch : node ∈ branch
    · exact treeFrom_of_mem onBranch (steps + 1)
    · have fresh : node ∈ graph.plain.others branch :=
        mem_others.mpr ⟨@size_plain _ graph ▸ inside, onBranch⟩
      have longer : graph.plain.others (branch ++ [node]) = (graph.plain.others branch).erase node := by
        rw [erase_others, Graph.others, Graph.others]
        refine List.filter_congr fun other _ => ?_
        simp [or_comm]
      have fewer := Graph.length_erase_lt fresh
      rw [treeFrom, if_neg (by simpa using onBranch), predecessors_eq holds.consistent inside, Graph.treeFrom,
        dif_pos fresh]
      have each (part : Twig × Nat)
          (member : part ∈ twig.below ((graph.plain.predecessors node).mergeSort (· ≤ ·))) :
          graph.treeFrom steps (branch ++ [node]) part.1 part.2 =
            some (graph.plain.treeFrom ((graph.plain.others branch).erase node) part.1 part.2) := by
        have before := (List.mergeSort_perm _ _).mem_iff.mp (mem_of_mem_below member)
        have edge := Graph.mem_predecessors.mp before
        have isNode := Graph.mem_nodes.mp (holds.simple.source_mem edge)
        rw [← longer]
        exact ih (@size_plain _ graph ▸ isNode) (by rw [longer]; omega)
      simp only [Option.bind_eq_bind, Option.bind_some, mapM_eq_map each]
      rfl

theorem Holds.tree_eq (holds : graph.Holds history) {node : Nat} (inside : node < graph.size) :
    graph.tree node = some (graph.plain.tree node) := by
  have all : graph.plain.others [] = graph.plain.nodes := by simp [Graph.others]
  have enough : (graph.plain.others []).length ≤ graph.size := by
    rw [all, Graph.nodes, List.length_range, size_plain]
  rw [tree, holds.treeFrom_eq inside enough, all]
  rfl

end ThreadedGraph

namespace Graph

variable {graph : Graph α}

theorem chosen_chosen (graph : Graph α) (within : List Nat) :
    graph.chosen (graph.chosen within) = graph.chosen within := by
  rw [chosen, chosen]
  refine List.filter_congr fun node isNode => ?_
  by_cases member : node ∈ within <;> simp [isNode, member]

/-- What is completed stays a list of nodes in increasing order. -/
theorem chosen_complete {companions : Nat → List Nat} {members : List Nat} (sorted : graph.chosen members = members) :
    graph.chosen (graph.complete companions members) = graph.complete companions members := by
  induction members using complete.induct graph companions with
  | case1 members whole => rwa [complete_of_nil whole]
  | case2 members lacking ih =>
    rw [complete_of_ne_nil lacking]
    exact ih (chosen_chosen _ _)

/-- The lines of a tree stand for nodes of the graph. -/
theorem mem_nodes_of_mem_treeFrom (simple : graph.Simple) {unvisited : List Nat} {twig : Twig} {node : Nat}
    (isNode : node ∈ graph.nodes) {line : Twig × Nat} (isLine : line ∈ graph.treeFrom unvisited twig node) :
    line.2 ∈ graph.nodes := by
  induction unvisited, twig, node using treeFrom.induct with
  | case1 unvisited twig node fresh ih =>
    rw [treeFrom, dif_pos fresh, List.mem_cons, List.mem_flatMap] at isLine
    rcases isLine with rfl | ⟨⟨step, next⟩, below, isLine⟩
    · exact isNode
    · have before := (List.mergeSort_perm _ _).mem_iff.mp (ThreadedGraph.mem_of_mem_below below)
      exact ih step next (simple.source_mem (mem_predecessors.mp before)) isLine
  | case2 unvisited twig node visited =>
    rw [treeFrom, dif_neg visited, List.mem_singleton] at isLine
    exact isLine ▸ isNode

end Graph

end VhdlOrder
