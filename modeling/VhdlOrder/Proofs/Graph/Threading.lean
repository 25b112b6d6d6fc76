import Mathlib.Data.List.Nodup
import Mathlib.Tactic.SplitIfs
import VhdlOrder.Proofs.Graph.Edges
import VhdlOrder.Stepwise.Threaded

/-! # What the threads of a graph hold

A thread leads from the newest edge at a node to the oldest one and misses none. That is kept when an edge is put
in front of two threads at once: on every other thread nothing changes, and the links inside both threads stay.
So following the threads of a graph that was built call by call ends, never leaves the list of edges, and finds
what the graph as a plain list of edges has; and this list is the history of the calls that succeeded.
-/

namespace VhdlOrder

variable {α : Type}

namespace ThreadedGraph

open Stepwise

/-- The place of the first edge at the node in a list of edges with the newest first. -/
def latest (direction : Direction) (node : Nat) : List ThreadedEdge → Option Nat
  | [] => none
  | edge :: older => if edge.near direction = node then some older.length else latest direction node older

/-- Every link leads to the newest of the older edges at the same node. -/
structure Consistent (graph : ThreadedGraph α) : Prop where
  nodes : ∀ place node, graph.nodes[place]? = some node → ∀ direction,
    node.newest direction = latest direction place graph.edges.reverse
  edges : ∀ newer edge older, graph.edges.reverse = newer ++ edge :: older → ∀ direction,
    edge.older direction = latest direction (edge.near direction) older

/-- The graph as a plain list of edges, the newest first. -/
def plain (graph : ThreadedGraph α) : Graph α :=
  ⟨graph.nodes.map ThreadedNode.label, graph.edges.reverse.map fun edge => (edge.source, edge.target)⟩

section

variable {graph after : ThreadedGraph α} {source target : Nat}

@[simp] theorem size_plain : graph.plain.size = graph.size := List.length_map _

theorem hasNode_plain (node : Nat) : graph.plain.hasNode node = graph.hasNode node := by
  rw [Graph.hasNode, size_plain, hasNode]

/-! ## Following a thread -/

/-- From its newest edge at a node among the older edges, a thread has all of these edges at the node. -/
theorem follow_latest (consistent : graph.Consistent) (direction : Direction) (node : Nat)
    {newer older : List ThreadedEdge} (split : graph.edges.reverse = newer ++ older) {steps : Nat}
    (enough : older.length ≤ steps) :
    graph.follow direction steps (latest direction node older) =
      some ((older.filter fun edge => edge.near direction = node).map (ThreadedEdge.far direction)) := by
  induction older generalizing newer steps with
  | nil => rw [latest, follow, List.filter_nil, List.map_nil]
  | cons edge older ih =>
    rw [List.length_cons] at enough
    have shorter : (newer ++ [edge]) ++ older = newer ++ edge :: older := by simp
    by_cases isNear : edge.near direction = node
    · have placed : graph.edges[older.length]? = some edge := by
        have order : graph.edges = older.reverse ++ edge :: newer.reverse := by
          simpa using congrArg List.reverse split
        simp [order]
      obtain ⟨left, rfl⟩ : ∃ left, steps = left + 1 := Nat.exists_eq_add_one_of_ne_zero (by omega)
      have rest := ih (split.trans shorter.symm) (Nat.le_of_succ_le_succ enough)
      rw [latest, if_pos isNear, follow, placed]
      simp [consistent.edges newer edge older split direction, isNear, rest]
    · rw [latest, if_neg isNear, ih (split.trans shorter.symm) (Nat.le_of_succ_le enough)]
      simp [isNear]

theorem neighbours_eq (consistent : graph.Consistent) (direction : Direction) {node : Nat}
    (inside : node < graph.size) : graph.neighbours direction node =
      some ((graph.edges.reverse.filter fun edge => edge.near direction = node).map (ThreadedEdge.far direction)) := by
  have found : graph.nodes[node]? = some graph.nodes[node] := List.getElem?_eq_getElem inside
  rw [neighbours, found, Option.bind_eq_bind, Option.bind_some, consistent.nodes node _ found direction]
  exact follow_latest consistent direction node (List.nil_append _).symm (Nat.le_of_eq List.length_reverse)

/-- The successors on the thread are those of the plain graph. -/
theorem successors_eq (consistent : graph.Consistent) (inside : source < graph.size) :
    graph.successors source = some (graph.plain.successors source) := by
  rw [successors, neighbours_eq consistent .out inside, Graph.successors, plain, List.filter_map, List.map_map]
  rfl

/-- The predecessors on the thread are those of the plain graph. -/
theorem predecessors_eq (consistent : graph.Consistent) (inside : target < graph.size) :
    graph.predecessors target = some (graph.plain.predecessors target) := by
  rw [predecessors, neighbours_eq consistent .into inside, Graph.predecessors, plain, List.filter_map, List.map_map]
  rfl

theorem neighbours_eq_none (direction : Direction) {node : Nat} (outside : graph.size ≤ node) :
    graph.neighbours direction node = none := by
  rw [neighbours, List.getElem?_eq_none outside]
  rfl

theorem hasEdge_eq (consistent : graph.Consistent) (inside : source < graph.size) :
    graph.hasEdge source target = some (graph.plain.hasEdge source target) := by
  have same : (graph.plain.successors source).contains target = graph.plain.hasEdge source target := by
    rw [Bool.eq_iff_iff, List.contains_iff_mem, Graph.mem_successors, Graph.hasEdge, List.contains_iff_mem]
  rw [hasEdge, successors_eq consistent inside, ← same]
  rfl

/-- A thread of edges out of a node is empty where nothing is found on it. -/
theorem roots_eq (consistent : graph.Consistent) : graph.roots = graph.plain.roots := by
  rw [roots, Graph.roots, Graph.nodes, size_plain]
  refine List.filter_congr fun node member => ?_
  have inside : node < graph.size := List.mem_range.mp member
  have found : graph.nodes[node]? = some graph.nodes[node] := List.getElem?_eq_getElem inside
  have followed := successors_eq consistent inside
  rw [successors, neighbours, found, Option.bind_eq_bind, Option.bind_some] at followed
  rw [found, Option.any_some]
  change (graph.nodes[node].newest .out).isNone = _
  generalize graph.edges.length = steps at followed
  cases newest : graph.nodes[node].newest .out with
  | none =>
    rw [newest, follow] at followed
    rw [← Option.some.inj followed]
    rfl
  | some place =>
    cases steps with
    | zero => cases newest ▸ followed
    | succ steps =>
      rw [newest, follow, Option.bind_eq_bind, Option.bind_eq_some_iff] at followed
      obtain ⟨edge, -, followed⟩ := followed
      obtain ⟨rest, -, followed⟩ := Option.bind_eq_some_iff.mp followed
      rw [← Option.some.inj followed]
      rfl

/-! ## Adding nodes and edges -/

theorem consistent_empty : (empty : ThreadedGraph α).Consistent := by
  constructor
  · intro place node found
    cases found
  · intro newer edge older split
    simp [empty] at split

/-- A node that is not there yet has no edges. -/
theorem latest_size (simple : graph.plain.Simple) (direction : Direction) :
    latest direction graph.size graph.edges.reverse = none := by
  have absent : ∀ edge ∈ graph.edges.reverse, edge.near direction ≠ graph.size := by
    intro edge member
    have isEdge : graph.plain.Edge edge.source edge.target := List.mem_map.mpr ⟨edge, member, rfl⟩
    have source_mem := Graph.mem_nodes.mp (simple.source_mem isEdge)
    have target_mem := Graph.mem_nodes.mp (simple.target_mem isEdge)
    rw [size_plain] at source_mem target_mem
    cases direction with
    | out => exact Nat.ne_of_lt source_mem
    | into => exact Nat.ne_of_lt target_mem
  generalize graph.edges.reverse = edges at absent
  induction edges with
  | nil => rfl
  | cons edge rest ih =>
    obtain ⟨first, others⟩ := List.forall_mem_cons.mp absent
    rw [latest, if_neg first, ih others]

theorem plain_addNode (label : α) : (graph.addNode label).plain = graph.plain.addNode label := by
  simp [plain, addNode, Graph.addNode]

theorem consistent_addNode (consistent : graph.Consistent) (simple : graph.plain.Simple) (label : α) :
    (graph.addNode label).Consistent := by
  refine ⟨fun place node found direction => ?_, consistent.edges⟩
  change (graph.nodes ++ [⟨label, none, none⟩])[place]? = some node at found
  change node.newest direction = latest direction place graph.edges.reverse
  rcases Nat.lt_trichotomy place graph.size with old | rfl | beyond
  · rw [List.getElem?_append_left old] at found
    exact consistent.nodes place node found direction
  · have added : (graph.nodes ++ [(⟨label, none, none⟩ : ThreadedNode α)])[graph.size]? = some ⟨label, none, none⟩ :=
      List.getElem?_concat_length
    obtain rfl := Option.some.inj (added.symm.trans found)
    rw [latest_size simple]
    cases direction <;> rfl
  · have outside : (graph.nodes ++ [(⟨label, none, none⟩ : ThreadedNode α)]).length ≤ place := by
      rw [List.length_append]
      exact beyond
    rw [List.getElem?_eq_none outside] at found
    cases found

/-- The graph with an edge between two nodes put in front of their threads; `first` and `second` are the nodes before
that. -/
def pushed (graph : ThreadedGraph α) (source target : Nat) (first second : ThreadedNode α) : ThreadedGraph α where
  nodes := (graph.nodes.modify source fun node => { node with newestOut := some graph.edges.length }).modify target
    fun node => { node with newestInto := some graph.edges.length }
  edges := graph.edges ++ [⟨source, target, first.newestOut, second.newestInto⟩]

section Pushing

variable {first second : ThreadedNode α} (isFirst : graph.nodes[source]? = some first)
  (isSecond : graph.nodes[target]? = some second)

include isFirst isSecond

theorem pushEdge_eq : graph.pushEdge source target = some (graph.pushed source target first second) := by
  have source_mem : source < graph.nodes.length := (List.getElem?_eq_some_iff.mp isFirst).1
  have target_mem : target < graph.nodes.length := (List.getElem?_eq_some_iff.mp isSecond).1
  have stillThere : target < (graph.nodes.modify source fun node =>
      { node with newestOut := some graph.edges.length }).length := by rwa [List.length_modify]
  simp only [pushEdge, isFirst, isSecond, update?_of_lt source_mem, update?_of_lt stillThere, Option.bind_eq_bind,
    Option.bind_some, Option.pure_def]
  rfl

/-- All threads stay as they should be. -/
theorem consistent_pushed (consistent : graph.Consistent) :
    (graph.pushed source target first second).Consistent := by
  constructor
  · intro place node found direction
    rw [pushed, List.reverse_append, List.reverse_singleton, List.singleton_append, latest, List.length_reverse]
    simp only [pushed, List.getElem?_modify, Option.map_eq_map, Option.map_map, Option.map_eq_some_iff,
      Function.comp_apply] at found
    obtain ⟨old, placed, rfl⟩ := found
    have before := consistent.nodes place old placed direction
    -- the only thread of the node that changes begins with the new edge
    cases direction with
    | out => by_cases same : source = place <;> split_ifs <;> simp_all [ThreadedEdge.near, ThreadedNode.newest]
    | into => by_cases same : target = place <;> split_ifs <;> simp_all [ThreadedEdge.near, ThreadedNode.newest]
  · intro newer other older split direction
    rw [pushed, List.reverse_append, List.reverse_singleton, List.singleton_append] at split
    cases newer with
    | nil =>
      obtain ⟨rfl, rfl⟩ := List.cons.inj split
      cases direction with
      | out => exact consistent.nodes source first isFirst .out
      | into => exact consistent.nodes target second isSecond .into
    | cons head newer => exact consistent.edges newer other older (List.cons.inj split).2 direction

end Pushing

theorem plain_pushed (first second : ThreadedNode α) : (graph.pushed source target first second).plain =
    { graph.plain with edges := (source, target) :: graph.plain.edges } := by
  have labels : (graph.pushed source target first second).nodes.map ThreadedNode.label =
      graph.nodes.map ThreadedNode.label := by
    refine List.ext_getElem? fun place => ?_
    simp only [pushed, List.getElem?_map, List.getElem?_modify, Option.map_eq_map, Option.map_map]
    refine congrArg (Option.map · _) (funext fun node => ?_)
    simp only [Function.comp_apply]
    split_ifs <;> rfl
  rw [plain, labels]
  simp [pushed, plain]

/-- An edge between two nodes is put in front of their threads, and all threads stay as they should be. -/
theorem exists_pushEdge (consistent : graph.Consistent) (source_mem : source < graph.size)
    (target_mem : target < graph.size) :
    ∃ after, graph.pushEdge source target = some after ∧ after.Consistent ∧
      after.plain = { graph.plain with edges := (source, target) :: graph.plain.edges } := by
  have isFirst : graph.nodes[source]? = some graph.nodes[source] := List.getElem?_eq_getElem source_mem
  have isSecond : graph.nodes[target]? = some graph.nodes[target] := List.getElem?_eq_getElem target_mem
  exact ⟨_, pushEdge_eq isFirst isSecond, consistent_pushed isFirst isSecond consistent, plain_pushed _ _⟩

/-- Adding an edge gives the status, and the edges, that it gives in the plain graph. -/
theorem exists_addEdge (consistent : graph.Consistent) (source target : Nat) :
    ∃ after, graph.addEdge source target = some ((graph.plain.addEdge source target).1, after) ∧ after.Consistent ∧
      after.plain = (graph.plain.addEdge source target).2 ∧
        ((graph.plain.addEdge source target).1 ≠ .success → after = graph) := by
  unfold addEdge Graph.addEdge
  rw [hasNode_plain, hasNode_plain]
  by_cases noSource : graph.hasNode source = false
  · exact ⟨graph, by simp [noSource], consistent, by simp [noSource], fun _ => rfl⟩
  by_cases noTarget : graph.hasNode target = false
  · exact ⟨graph, by simp [noSource, noTarget], consistent, by simp [noSource, noTarget], fun _ => rfl⟩
  by_cases loop : source = target
  · exact ⟨graph, by simp [noTarget, loop], consistent, by simp [noTarget, loop], fun _ => rfl⟩
  have source_mem : source < graph.size := by simpa [hasNode] using noSource
  have target_mem : target < graph.size := by simpa [hasNode] using noTarget
  have joined : graph.hasEdge source target = some (graph.plain.hasEdge source target) :=
    hasEdge_eq consistent source_mem
  by_cases old : graph.plain.hasEdge source target = true
  · exact ⟨graph, by simp [noSource, noTarget, loop, joined, old], consistent,
      by simp [noSource, noTarget, loop, old], fun _ => rfl⟩
  · obtain ⟨after, pushed, stays, plain⟩ := exists_pushEdge consistent source_mem target_mem
    exact ⟨after, by simp [noSource, noTarget, loop, joined, old, pushed], stays,
      by simp [noSource, noTarget, loop, old, plain],
      fun failed => absurd (by simp [noSource, noTarget, loop, old]) failed⟩

end

end ThreadedGraph

/-! ## Histories -/

/-- A call that extends a graph. -/
inductive Call (α : Type) where
  | node (label : α)
  | edge (source target : Nat)

/-- The graph after a call. -/
def Graph.after (graph : Graph α) : Call α → Graph α
  | .node label => graph.addNode label
  | .edge source target => (graph.addEdge source target).2

/-- The graph after some calls, beginning without nodes. -/
def Graph.ofCalls (calls : List (Call α)) : Graph α := calls.foldl Graph.after .empty

namespace Graph

variable {graph : Graph α} {source target : Nat}

theorem addEdge_eq_success_iff : (graph.addEdge source target).1 = .success ↔
    source < graph.size ∧ target < graph.size ∧ source ≠ target ∧ (source, target) ∉ graph.edges := by
  unfold addEdge hasNode hasEdge
  split_ifs with noSource noTarget loop old
  · exact ⟨nofun, fun edge => absurd edge.1 (by simpa using noSource)⟩
  · exact ⟨nofun, fun edge => absurd edge.2.1 (by simpa using noTarget)⟩
  · exact ⟨nofun, fun edge => absurd loop edge.2.2.1⟩
  · exact ⟨nofun, fun edge => absurd (by simpa using old) edge.2.2.2⟩
  · exact ⟨fun _ => ⟨by simpa using noSource, by simpa using noTarget, loop, by simpa using old⟩, fun _ => rfl⟩

theorem edges_addEdge : (graph.addEdge source target).2.edges =
    if (graph.addEdge source target).1 = .success then (source, target) :: graph.edges else graph.edges := by
  unfold addEdge
  split_ifs <;> simp_all

end Graph

namespace ThreadedGraph

/-- Performs a call; with the graph goes the list of the edges for which a call succeeded, the newest first. -/
def perform (state : ThreadedGraph α × List (Nat × Nat)) : Call α → Option (ThreadedGraph α × List (Nat × Nat))
  | .node label => some (state.1.addNode label, state.2)
  | .edge source target => do
      let (status, graph) ← state.1.addEdge source target
      return (graph, if status = .success then (source, target) :: state.2 else state.2)

/-- Performs calls one after the other, beginning without nodes. -/
def performAll (calls : List (Call α)) : Option (ThreadedGraph α × List (Nat × Nat)) :=
  calls.foldlM perform (empty, [])

/-- The graph is well linked, and its edges are those of a history without repeats. -/
structure Holds (graph : ThreadedGraph α) (history : List (Nat × Nat)) : Prop where
  consistent : graph.Consistent
  simple : graph.plain.Simple
  edges : graph.plain.edges = history
  nodup : history.Nodup

variable {graph : ThreadedGraph α} {history : List (Nat × Nat)}

theorem holds_empty : (empty : ThreadedGraph α).Holds [] :=
  ⟨consistent_empty, Graph.simple_ofLabels [], rfl, List.nodup_nil⟩

/-- One call leads to a graph that is well linked again, and does to the plain graph what it should. -/
theorem Holds.exists_perform (holds : graph.Holds history) (call : Call α) :
    ∃ after longer, perform (graph, history) call = some (after, longer) ∧ after.Holds longer ∧
      after.plain = graph.plain.after call := by
  cases call with
  | node label =>
    have plain : (graph.addNode label).plain = graph.plain.addNode label := plain_addNode label
    refine ⟨_, _, rfl, ⟨consistent_addNode holds.consistent holds.simple label, ?_, ?_, holds.nodup⟩, plain⟩
    · rw [plain]
      have grown {node : Nat} (member : node ∈ graph.plain.nodes) : node ∈ (graph.plain.addNode label).nodes := by
        rw [Graph.mem_nodes] at member ⊢
        have longer : (graph.plain.addNode label).size = graph.plain.size + 1 := List.length_append
        omega
      exact ⟨fun edge => grown (holds.simple.source_mem edge), fun edge => grown (holds.simple.target_mem edge),
        fun edge => holds.simple.ne edge⟩
    · rw [plain]
      exact holds.edges
  | edge source target =>
    obtain ⟨after, added, consistent, plain, -⟩ := exists_addEdge holds.consistent source target
    refine ⟨after, _, by rw [perform, added]; rfl, ⟨consistent, ?_, ?_, ?_⟩, plain⟩
    · rw [plain]
      exact Graph.simple_addEdges holds.simple [(source, target)]
    · rw [plain, Graph.edges_addEdge, holds.edges]
    · split_ifs with success
      · obtain ⟨-, -, -, fresh⟩ := Graph.addEdge_eq_success_iff.mp success
        exact List.nodup_cons.mpr ⟨holds.edges ▸ fresh, holds.nodup⟩
      · exact holds.nodup

theorem exists_performAll (calls : List (Call α)) :
    ∃ graph history, performAll calls = some (graph, history) ∧ graph.Holds history ∧
      graph.plain = calls.foldl Graph.after .empty := by
  have each (calls : List (Call α)) (graph : ThreadedGraph α) (history : List (Nat × Nat))
      (holds : graph.Holds history) :
      ∃ after longer, calls.foldlM perform (graph, history) = some (after, longer) ∧ after.Holds longer ∧
        after.plain = calls.foldl Graph.after graph.plain := by
    induction calls generalizing graph history with
    | nil => exact ⟨graph, history, rfl, holds, rfl⟩
    | cons call rest ih =>
      obtain ⟨next, longer, performed, stays, plain⟩ := holds.exists_perform call
      obtain ⟨after, whole, ran, ends, same⟩ := ih next longer stays
      refine ⟨after, whole, ?_, ends, ?_⟩
      · rw [List.foldlM_cons, performed]
        exact ran
      · rw [same, plain, List.foldl_cons]
  exact each calls empty [] holds_empty

theorem size_of_performAll {calls : List (Call α)} (performed : performAll calls = some (graph, history)) :
    graph.size = (Graph.ofCalls calls).size := by
  obtain ⟨same, longer, performed', -, plain⟩ := exists_performAll calls
  obtain ⟨rfl, rfl⟩ := Prod.mk.inj (Option.some.inj (performed.symm.trans performed'))
  rw [Graph.ofCalls, ← plain, size_plain]

theorem Holds.addNode (holds : graph.Holds history) (label : α) :
    (graph.addNode label).Holds history ∧ (graph.addNode label).plain = graph.plain.addNode label := by
  obtain ⟨after, longer, performed, stays, plain⟩ := holds.exists_perform (.node label)
  obtain ⟨rfl, rfl⟩ := Prod.mk.inj (Option.some.inj performed)
  exact ⟨stays, plain⟩

/-- Edges are added one after the other. -/
theorem Holds.exists_addEdges (holds : graph.Holds history) {β : Type} (edge : β → Nat × Nat) (items : List β) :
    ∃ after longer, items.foldlM (fun graph item => do
        return (← graph.addEdge (edge item).1 (edge item).2).2) graph = some after ∧ after.Holds longer ∧
      after.plain = graph.plain.addEdges (items.map edge) := by
  induction items generalizing graph history with
  | nil => exact ⟨graph, history, rfl, holds, rfl⟩
  | cons item rest ih =>
    obtain ⟨next, longer, performed, stays, plain⟩ := holds.exists_perform (.edge (edge item).1 (edge item).2)
    obtain ⟨⟨status, grown⟩, added, same⟩ := Option.bind_eq_some_iff.mp performed
    obtain ⟨rfl, rfl⟩ := Prod.mk.inj (Option.some.inj same)
    obtain ⟨after, history, ran, ends, whole⟩ := ih stays
    refine ⟨after, history, ?_, ends, ?_⟩
    · rw [List.foldlM_cons, added]
      exact ran
    · rw [whole, plain]
      rfl

/-- The threads of the graph show the history of its edges: following them ends and gives the neighbours, newest
edge first and each of them once, the two directions agree, and only edges that are new and lead from a node to a
different one can be added. -/
structure Shows (graph : ThreadedGraph α) (history : List (Nat × Nat)) : Prop where
  successors : ∀ source < graph.size,
    graph.successors source = some ((history.filter fun edge => edge.1 == source).map Prod.snd) ∧
      ((history.filter fun edge => edge.1 == source).map Prod.snd).Nodup
  predecessors : ∀ target < graph.size,
    graph.predecessors target = some ((history.filter fun edge => edge.2 == target).map Prod.fst) ∧
      ((history.filter fun edge => edge.2 == target).map Prod.fst).Nodup
  agree : ∀ source target outgoing incoming, graph.successors source = some outgoing →
    graph.predecessors target = some incoming → (target ∈ outgoing ↔ source ∈ incoming)
  loopless : ∀ node neighbours, graph.successors node = some neighbours → node ∉ neighbours
  roots : graph.roots = (List.range graph.size).filter fun node => graph.successors node = some []
  adding : ∀ source target, ∃ status after, graph.addEdge source target = some (status, after) ∧
    (status = .success ↔
      source < graph.size ∧ target < graph.size ∧ source ≠ target ∧ (source, target) ∉ history) ∧
    (status ≠ .success → after = graph)

theorem lt_size_of_neighbours {direction : Direction} {node : Nat} {found : List Nat}
    (some : graph.neighbours direction node = some found) : node < graph.size := by
  by_contra outside
  rw [neighbours_eq_none direction (Nat.le_of_not_lt outside)] at some
  cases some

theorem Holds.nodup_predecessors (holds : graph.Holds history) (node : Nat) :
    (graph.plain.predecessors node).Nodup :=
  Graph.nodup_predecessors (holds.edges ▸ holds.nodup) node

theorem Holds.nodup_successors (holds : graph.Holds history) (node : Nat) : (graph.plain.successors node).Nodup :=
  Graph.nodup_successors (holds.edges ▸ holds.nodup) node

theorem Holds.shows (holds : graph.Holds history) : graph.Shows history where
  successors source inside := by
    have neighbours : graph.plain.successors source = (history.filter fun edge => edge.1 == source).map Prod.snd := by
      rw [Graph.successors, holds.edges]
    rw [successors_eq holds.consistent inside, ← neighbours]
    exact ⟨rfl, holds.nodup_successors source⟩
  predecessors target inside := by
    have neighbours : graph.plain.predecessors target = (history.filter fun edge => edge.2 == target).map Prod.fst := by
      rw [Graph.predecessors, holds.edges]
    rw [predecessors_eq holds.consistent inside, ← neighbours]
    exact ⟨rfl, holds.nodup_predecessors target⟩
  agree source target outgoing incoming out into := by
    have source_mem := lt_size_of_neighbours out
    have target_mem := lt_size_of_neighbours into
    rw [successors_eq holds.consistent source_mem] at out
    rw [predecessors_eq holds.consistent target_mem] at into
    rw [← Option.some.inj out, ← Option.some.inj into, Graph.mem_successors, Graph.mem_predecessors]
  loopless node neighbours out member := by
    rw [successors_eq holds.consistent (lt_size_of_neighbours out)] at out
    rw [← Option.some.inj out] at member
    exact holds.simple.ne (Graph.mem_successors.mp member) rfl
  roots := by
    rw [roots_eq holds.consistent, Graph.roots, Graph.nodes, size_plain]
    refine List.filter_congr fun node member => ?_
    rw [successors_eq holds.consistent (List.mem_range.mp member), Bool.eq_iff_iff]
    simp
  adding source target := by
    obtain ⟨after, added, -, -, unchanged⟩ := exists_addEdge holds.consistent source target
    refine ⟨_, after, added, ?_, unchanged⟩
    rw [Graph.addEdge_eq_success_iff, size_plain, holds.edges]

/-- After any calls that add nodes and edges, the threads show the history of the edges that were added, which are
the edges of the plain graph after the same calls. -/
theorem threads_show_history (calls : List (Call α)) :
    ∃ graph history, performAll calls = some (graph, history) ∧ graph.Shows history ∧
      graph.plain = calls.foldl Graph.after .empty ∧ (calls.foldl Graph.after .empty).edges = history := by
  obtain ⟨graph, history, performed, holds, plain⟩ := exists_performAll calls
  exact ⟨graph, history, performed, holds.shows, plain, plain ▸ holds.edges⟩

end ThreadedGraph

end VhdlOrder
