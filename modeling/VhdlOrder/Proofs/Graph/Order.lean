import VhdlOrder.Graph.Order
import VhdlOrder.Proofs.Graph.Edges
import VhdlOrder.Proofs.Graph.Precedence

/-! # What an order of nodes guarantees

Placing nodes one after the other takes the placed ones out of what the others wait for. Every step
therefore keeps two facts: the nodes placed and those left over are together the ones at the beginning, and
a placed node stands behind all that it waited for. What is left over waits for something that is left
over, which cannot go on for ever without a cycle. So there is an order exactly when the edges among the
chosen nodes form no cycle, and leaving out nodes that no chosen node waits for changes nothing about the
others.
-/

namespace VhdlOrder.Graph

variable {α : Type} {graph : Graph α} {within : List Nat}

namespace Waiting

variable {waiting : List Waiting}

/-- No node waits twice. -/
def Distinct (waiting : List Waiting) : Prop := (waiting.map node).Nodup

theorem mem_release {placed : Nat} {entry : Waiting} :
    entry ∈ release placed waiting ↔
      ∃ old ∈ waiting, old.node ≠ placed ∧
        entry = ⟨old.node, old.unmet.filter fun node => node != placed⟩ := by
  simp only [release, List.mem_map, List.mem_filter, bne_iff_ne, and_assoc]
  exact exists_congr fun _ => and_congr_right fun _ => and_congr_right fun _ => eq_comm

theorem nodes_release (placed : Nat) :
    (release placed waiting).map node = (waiting.map node).filter fun other => other != placed := by
  rw [release, List.map_map, List.filter_map]
  rfl

theorem Distinct.release (distinct : Distinct waiting) (placed : Nat) :
    Distinct (release placed waiting) := by
  rw [Distinct, nodes_release]
  exact distinct.filter _

/-- What is waiting is known by its node. -/
theorem Distinct.eq_of_node_eq (distinct : Distinct waiting) {first second : Waiting}
    (first_mem : first ∈ waiting) (second_mem : second ∈ waiting) (same : first.node = second.node) :
    first = second :=
  List.inj_on_of_nodup_map distinct first_mem second_mem same

end Waiting

open Waiting

section Place

variable {waiting : List Waiting}

theorem place_of_none (stuck : waiting.find? (fun entry => entry.unmet.isEmpty) = none) :
    place waiting = ([], waiting) := by
  rw [place]
  split
  · rfl
  · rename_i found
    rw [stuck] at found
    contradiction

theorem place_of_some {entry : Waiting}
    (ready : waiting.find? (fun entry => entry.unmet.isEmpty) = some entry) :
    place waiting =
      (entry.node :: (place (release entry.node waiting)).1, (place (release entry.node waiting)).2) := by
  rw [place]
  split
  · rename_i missing
    rw [ready] at missing
    contradiction
  · rename_i found
    obtain rfl := Option.some.inj (found.symm.trans ready)
    rfl

/-- Placing proves a fact if it holds when nothing can be placed and each step passes it on. -/
theorem place_induction {motive : List Waiting → Prop}
    (stop : ∀ waiting, waiting.find? (fun entry => entry.unmet.isEmpty) = none → motive waiting)
    (step : ∀ waiting entry, waiting.find? (fun entry => entry.unmet.isEmpty) = some entry →
      motive (release entry.node waiting) → motive waiting) (waiting : List Waiting) :
    motive waiting := by
  induction waiting using place.induct with
  | case1 waiting stuck => exact stop waiting stuck
  | case2 waiting entry ready _ _ _ ih => exact step waiting entry ready ih

/-- The nodes placed and the nodes left over are all there were. -/
theorem perm_place (distinct : Distinct waiting) :
    ((place waiting).1 ++ (place waiting).2.map node).Perm (waiting.map node) := by
  induction waiting using place_induction with
  | stop waiting stuck =>
    rw [place_of_none stuck]
    exact .refl _
  | step waiting entry ready ih =>
    have member : entry.node ∈ waiting.map node :=
      List.mem_map_of_mem (List.mem_of_find?_eq_some ready)
    have rest := ih (distinct.release entry.node)
    rw [nodes_release, ← List.Nodup.erase_eq_filter distinct] at rest
    rw [place_of_some ready]
    exact (rest.cons entry.node).trans (List.perm_cons_erase member).symm

/-- A placed node stands behind everything that it waited for. -/
theorem precedes_place (distinct : Distinct waiting) {entry : Waiting} (member : entry ∈ waiting)
    (placed : entry.node ∈ (place waiting).1) {before : Nat} (unmet : before ∈ entry.unmet) :
    Precedes (place waiting).1 before entry.node := by
  induction waiting using place_induction generalizing entry with
  | stop waiting stuck =>
    rw [place_of_none stuck] at placed
    exact absurd placed List.not_mem_nil
  | step waiting next ready ih =>
    rw [place_of_some ready] at placed ⊢
    have nextReady : next.unmet = [] := by simpa using List.find?_some ready
    by_cases same : entry.node = next.node
    · obtain rfl := distinct.eq_of_node_eq member (List.mem_of_find?_eq_some ready) same
      exact absurd unmet (nextReady ▸ List.not_mem_nil)
    · have later : entry.node ∈ (place (release next.node waiting)).1 :=
        (List.mem_cons.mp placed).resolve_left same
      by_cases first : before = next.node
      · subst before
        exact Precedes.cons_self later
      · have released := mem_release.mpr ⟨entry, member, same, rfl⟩
        have still : before ∈ entry.unmet.filter fun node => node != next.node := by
          simp [unmet, first]
        exact (ih (distinct.release next.node) released later still).cons next.node

/-- What is left over waits for what it waited for and has not been placed. -/
theorem unmet_of_mem_stuck {entry : Waiting} (member : entry ∈ (place waiting).2) :
    ∃ old ∈ waiting, old.node = entry.node ∧
      entry.unmet = old.unmet.filter fun node => !(place waiting).1.contains node := by
  induction waiting using place_induction with
  | stop waiting stuck =>
    rw [place_of_none stuck] at member ⊢
    exact ⟨entry, member, rfl, by simp⟩
  | step waiting next ready ih =>
    rw [place_of_some ready] at member ⊢
    obtain ⟨released, releasedMember, same, unmet⟩ := ih member
    obtain ⟨old, oldMember, -, rfl⟩ := mem_release.mp releasedMember
    refine ⟨old, oldMember, same, ?_⟩
    rw [unmet, List.filter_filter]
    apply List.filter_congr
    intro node _
    by_cases first : node = next.node <;> simp [first]

/-- What is left over waits for something. -/
theorem unmet_ne_nil_of_mem_stuck {entry : Waiting} (member : entry ∈ (place waiting).2) :
    entry.unmet ≠ [] := by
  induction waiting using place_induction with
  | stop waiting stuck =>
    rw [place_of_none stuck] at member
    simpa using List.find?_eq_none.mp stuck entry member
  | step waiting next ready ih =>
    rw [place_of_some ready] at member
    exact ih member

/-- Whatever one of the chosen nodes waits for is chosen. -/
def KeepsUnmet (keep : Nat → Bool) (waiting : List Waiting) : Prop :=
  ∀ entry ∈ waiting, keep entry.node = true → ∀ before ∈ entry.unmet, keep before = true

theorem KeepsUnmet.release {keep : Nat → Bool} (closed : KeepsUnmet keep waiting) (placed : Nat) :
    KeepsUnmet keep (release placed waiting) := by
  intro entry member kept before unmet
  obtain ⟨old, oldMember, -, rfl⟩ := mem_release.mp member
  exact closed old oldMember kept before (List.mem_of_mem_filter unmet)

/-- Choosing some of what waits and releasing a node commute. -/
theorem filter_release (keep : Nat → Bool) (placed : Nat) :
    (release placed waiting).filter (fun entry => keep entry.node) =
      release placed (waiting.filter fun entry => keep entry.node) := by
  rw [release, release, List.filter_map, List.filter_filter, List.filter_filter]
  congr 1
  apply List.filter_congr
  intro entry _
  exact Bool.and_comm ..

/-- A node that is not chosen is not waited for by those that are. -/
theorem release_filter_of_not_keep {keep : Nat → Bool} (closed : KeepsUnmet keep waiting) {placed : Nat}
    (dropped : keep placed = false) :
    release placed (waiting.filter fun entry => keep entry.node) =
      waiting.filter fun entry => keep entry.node := by
  have others : ∀ entry ∈ waiting.filter (fun entry => keep entry.node), (entry.node != placed) = true := by
    intro entry member
    have kept := (List.mem_filter.mp member).2
    rw [bne_iff_ne]
    rintro rfl
    exact absurd kept (by simp [dropped])
  rw [release, List.filter_eq_self.mpr others]
  refine (List.map_congr_left ?_).trans (List.map_id _)
  intro entry member
  obtain ⟨inWaiting, kept⟩ := List.mem_filter.mp member
  have same : (entry.unmet.filter fun node => node != placed) = entry.unmet := by
    apply List.filter_eq_self.mpr
    intro before unmet
    rw [bne_iff_ne]
    rintro rfl
    exact absurd (closed entry inWaiting kept _ unmet) (by simp [dropped])
  rw [same]
  rfl

/-- The first entry that is ready is the first one among the chosen ones too. -/
theorem find?_filter_of_keep {keep : Nat → Bool} {entry : Waiting} (kept : keep entry.node = true)
    (ready : waiting.find? (fun entry => entry.unmet.isEmpty) = some entry) :
    (waiting.filter fun entry => keep entry.node).find? (fun entry => entry.unmet.isEmpty) =
      some entry := by
  obtain ⟨empty, front, back, rfl, blocked⟩ := List.find?_eq_some_iff_append.mp ready
  refine List.find?_eq_some_iff_append.mpr
    ⟨empty, front.filter fun entry => keep entry.node, back.filter fun entry => keep entry.node, ?_, ?_⟩
  · rw [List.filter_append, List.filter_cons_of_pos (by exact kept)]
  · intro other member
    exact blocked other (List.mem_filter.mp member).1

/-- The nodes that are left out never change which of the chosen ones comes next. -/
theorem place_filter {keep : Nat → Bool} (closed : KeepsUnmet keep waiting) :
    place (waiting.filter fun entry => keep entry.node) =
      ((place waiting).1.filter keep, (place waiting).2.filter fun entry => keep entry.node) := by
  induction waiting using place_induction with
  | stop waiting stuck =>
    have none_ready :
        (waiting.filter fun entry => keep entry.node).find? (fun entry => entry.unmet.isEmpty) = none := by
      apply List.find?_eq_none.mpr
      intro entry member
      exact List.find?_eq_none.mp stuck entry (List.mem_filter.mp member).1
    rw [place_of_none stuck, place_of_none none_ready]
    rfl
  | step waiting next ready ih =>
    have rest := ih (closed.release next.node)
    rw [filter_release] at rest
    rw [place_of_some ready]
    cases kept : keep next.node with
    | true =>
      rw [place_of_some (find?_filter_of_keep kept ready), rest, List.filter_cons_of_pos kept]
    | false =>
      rw [release_filter_of_not_keep closed kept] at rest
      rw [rest, List.filter_cons_of_neg (by simp [kept])]

end Place

/-- An edge between two nodes of a set. -/
def EdgeWithin (graph : Graph α) (within : List Nat) (source target : Nat) : Prop :=
  graph.Edge source target ∧ source ∈ within ∧ target ∈ within

theorem chosen_nodes : graph.chosen graph.nodes = graph.nodes := by simp [chosen]

theorem nodup_chosen : (graph.chosen within).Nodup := List.nodup_range.filter _

/-- The nodes of a set in increasing order are a listing of the set. -/
theorem perm_chosen (unique : within.Nodup) (inside : ∀ node ∈ within, node ∈ graph.nodes) :
    (graph.chosen within).Perm within := by
  rw [List.perm_ext_iff_of_nodup nodup_chosen unique]
  exact fun node => ⟨fun chosen => (mem_chosen.mp chosen).2, fun member => mem_chosen.mpr ⟨inside node member, member⟩⟩

theorem nodes_waitingWithin (graph : Graph α) (within : List Nat) :
    (graph.waitingWithin within).map Waiting.node = graph.chosen within := by
  simp only [waitingWithin, List.map_map]
  exact List.map_id' _

theorem distinct_waitingWithin (graph : Graph α) (within : List Nat) :
    Waiting.Distinct (graph.waitingWithin within) := by
  rw [Waiting.Distinct, nodes_waitingWithin]
  exact nodup_chosen

theorem mem_waitingWithin {entry : Waiting} :
    entry ∈ graph.waitingWithin within ↔
      entry.node ∈ graph.chosen within ∧
        entry.unmet = (graph.predecessors entry.node).filter (graph.chosen within).contains := by
  simp only [waitingWithin, List.mem_map]
  constructor
  · rintro ⟨node, member, rfl⟩
    exact ⟨member, rfl⟩
  · rintro ⟨member, unmet⟩
    exact ⟨entry.node, member, unmet ▸ rfl⟩

/-- There is an order exactly if nothing is left over. -/
theorem orderWithin_eq_ok_iff {order : List Nat} :
    graph.orderWithin within = .ok order ↔ place (graph.waitingWithin within) = (order, []) := by
  unfold orderWithin
  split
  · rename_i placed equation
    rw [equation]
    simp
  · rename_i placed stuck nonempty equation
    rw [equation]
    constructor
    · intro impossible
      contradiction
    · intro same
      exact absurd (Prod.mk.inj same).2 nonempty

/-- An order has all chosen nodes once and each of them behind its predecessors. -/
theorem orderWithin_ok (simple : graph.Simple) {order : List Nat}
    (sorted : graph.orderWithin within = .ok order) :
    order.Perm (graph.chosen within) ∧
      ∀ {source target}, graph.EdgeWithin within source target → Precedes order source target := by
  have placed := orderWithin_eq_ok_iff.mp sorted
  have perm : order.Perm (graph.chosen within) := by
    have all := perm_place (distinct_waitingWithin graph within)
    rwa [placed, nodes_waitingWithin, List.map_nil, List.append_nil] at all
  refine ⟨perm, ?_⟩
  rintro source target ⟨edge, sourceWithin, targetWithin⟩
  have target_mem := mem_chosen.mpr ⟨simple.target_mem edge, targetWithin⟩
  have source_mem := mem_chosen.mpr ⟨simple.source_mem edge, sourceWithin⟩
  have waits : source ∈ (graph.predecessors target).filter (graph.chosen within).contains := by
    simp [mem_predecessors_iff_edge, edge, source_mem]
  have entry : ⟨target, (graph.predecessors target).filter (graph.chosen within).contains⟩ ∈
      graph.waitingWithin within := mem_waitingWithin.mpr ⟨target_mem, rfl⟩
  have precedes := precedes_place (distinct_waitingWithin graph within) entry
    (by rw [placed]; exact perm.mem_iff.mpr target_mem) waits
  rwa [placed] at precedes

/-- What something that is left over waits for is left over too, and an edge leads from there. -/
theorem edge_of_mem_unmet {entry : Waiting} (member : entry ∈ (place (graph.waitingWithin within)).2)
    {before : Nat} (waits : before ∈ entry.unmet) :
    before ∈ (place (graph.waitingWithin within)).2.map Waiting.node ∧
      graph.EdgeWithin within before entry.node := by
  obtain ⟨old, oldMember, same, unmet⟩ := unmet_of_mem_stuck member
  obtain ⟨chosenNode, oldUnmet⟩ := mem_waitingWithin.mp oldMember
  rw [unmet, oldUnmet] at waits
  simp only [List.mem_filter, mem_predecessors_iff_edge, Bool.not_eq_true', List.contains_eq_mem,
    decide_eq_false_iff_not, decide_eq_true_eq] at waits
  obtain ⟨⟨edge, beforeChosen⟩, notPlaced⟩ := waits
  have all := (perm_place (distinct_waitingWithin graph within)).mem_iff (a := before)
  rw [nodes_waitingWithin, List.mem_append] at all
  rw [same] at edge chosenNode
  exact ⟨(all.mpr beforeChosen).resolve_left notPlaced, edge, (mem_chosen.mp beforeChosen).2,
    (mem_chosen.mp chosenNode).2⟩

/-- What is left over has a predecessor that is left over. -/
theorem exists_edge_of_mem_stuck {entry : Waiting}
    (member : entry ∈ (place (graph.waitingWithin within)).2) :
    ∃ other ∈ (place (graph.waitingWithin within)).2, graph.EdgeWithin within other.node entry.node := by
  obtain ⟨before, waits⟩ := List.exists_mem_of_ne_nil _ (unmet_ne_nil_of_mem_stuck member)
  obtain ⟨left, edge⟩ := edge_of_mem_unmet member waits
  obtain ⟨other, otherMember, rfl⟩ := List.mem_map.mp left
  exact ⟨other, otherMember, edge⟩

/-- Without a cycle among the chosen nodes there is an order of them. -/
theorem exists_orderWithin (acyclic : Acyclic (graph.EdgeWithin within)) :
    ∃ order, graph.orderWithin within = .ok order := by
  have nothing : (place (graph.waitingWithin within)).2 = [] := by
    by_contra stuck
    have nonempty : (place (graph.waitingWithin within)).2.map Waiting.node ≠ [] := by simpa using stuck
    obtain ⟨node, member, minimal⟩ := acyclic.exists_minimal nonempty
    obtain ⟨entry, entryMember, rfl⟩ := List.mem_map.mp member
    obtain ⟨other, otherMember, edge⟩ := exists_edge_of_mem_stuck entryMember
    exact minimal other.node (List.mem_map_of_mem otherMember) (.single edge)
  exact ⟨_, orderWithin_eq_ok_iff.mpr (Prod.ext rfl nothing)⟩

/-- There is an order exactly if the edges among the chosen nodes form no cycle. -/
theorem exists_orderWithin_iff (simple : graph.Simple) :
    (∃ order, graph.orderWithin within = .ok order) ↔ Acyclic (graph.EdgeWithin within) := by
  constructor
  · rintro ⟨order, sorted⟩
    obtain ⟨perm, respects⟩ := orderWithin_ok simple sorted
    exact .of_precedes (perm.nodup_iff.mpr nodup_chosen) respects
  · exact exists_orderWithin

/-- Every predecessor of a member is a member. -/
def ClosedUnderPredecessors (graph : Graph α) (within : List Nat) : Prop :=
  ∀ {source target}, graph.Edge source target → target ∈ within → source ∈ within

theorem waitingWithin_eq_filter (closed : graph.ClosedUnderPredecessors within) :
    graph.waitingWithin within =
      (graph.waitingWithin graph.nodes).filter fun entry => within.contains entry.node := by
  change (graph.chosen within).map _ = ((graph.chosen graph.nodes).map _).filter _
  rw [chosen_nodes, List.filter_map]
  apply List.map_congr_left
  intro node member
  congr 1
  apply List.filter_congr
  intro before isBefore
  have edge := mem_predecessors_iff_edge.mp isBefore
  have inside := closed edge (mem_chosen.mp member).2
  simp [mem_chosen, inside]

/-- The order of a set that is closed under predecessors is the order of all nodes without the others. -/
theorem orderWithin_of_closed (closed : graph.ClosedUnderPredecessors within) {full : List Nat}
    (sorted : graph.order = .ok full) :
    graph.orderWithin within = .ok (full.filter within.contains) := by
  have placed := orderWithin_eq_ok_iff.mp sorted
  have keeps : KeepsUnmet within.contains (graph.waitingWithin graph.nodes) := by
    intro entry member kept before unmet
    rw [(mem_waitingWithin.mp member).2] at unmet
    have edge := mem_predecessors_iff_edge.mp (List.mem_of_mem_filter unmet)
    simpa using closed edge (by simpa using kept)
  rw [orderWithin_eq_ok_iff, waitingWithin_eq_filter closed, place_filter keeps, placed]
  rfl

end VhdlOrder.Graph
