import Mathlib.Data.List.Chain
import Mathlib.Data.List.Lex
import Mathlib.Data.List.Permutation
import VhdlOrder.Graph.Tree
import VhdlOrder.Proofs.Graph.Ordering

/-! # The walks that a tree shows

A branch of a tree is a walk backwards from the root that passes no node twice, except that its last node may have
been passed before. The nodes that are unvisited while the tree is drawn are those that are not on the branch, so the
lines below a node are the walks that go on through unvisited nodes. A walk stands before those that continue it, and
of two walks that part the one stands first that goes on to the lower node; that is the lexicographic order of walks.
Cutting a walk off where it first comes to its last node leaves one that can go on to every predecessor, so every
ancestor ends some branch.
-/

namespace VhdlOrder

namespace Graph

open Relation

variable {α : Type} {graph : Graph α} {node next : Nat} {walk rest unvisited : List Nat}

/-- A walk back from a node: each node behind the first is a predecessor of the one in front of it, and no node is
passed twice before the last one, which may have been passed. -/
structure WalkBack (graph : Graph α) (node : Nat) (walk : List Nat) : Prop where
  start : walk.head? = some node
  backward : walk.IsChain fun later earlier => earlier ∈ graph.predecessors later
  unique : walk.dropLast.Nodup

/-- A walk that goes on is a walk from a predecessor that does not pass the node again before its last one. -/
theorem walkBack_cons_cons_iff {first second : Nat} : graph.WalkBack node (first :: second :: rest) ↔
    first = node ∧ second ∈ graph.predecessors node ∧ node ∉ (second :: rest).dropLast ∧
      graph.WalkBack second (second :: rest) := by
  constructor
  · rintro ⟨start, chain, distinct⟩
    obtain rfl := Option.some.inj start
    obtain ⟨before, chain⟩ := List.isChain_cons_cons.mp chain
    obtain ⟨fresh, distinct⟩ := List.nodup_cons.mp (List.dropLast_cons_cons ▸ distinct)
    exact ⟨rfl, before, fresh, rfl, chain, distinct⟩
  · rintro ⟨rfl, before, fresh, -, chain, distinct⟩
    exact ⟨rfl, chain.cons_cons before, List.dropLast_cons_cons ▸ distinct.cons fresh⟩

/-! ## Listing walks -/

/-- The walks back from a node that go on at unvisited nodes only: first the one that ends at once, then those that go
on, by increasing predecessors. -/
def walksFrom (graph : Graph α) (unvisited : List Nat) (node : Nat) : List (List Nat) :=
  if _ : node ∈ unvisited then
    [node] :: ((graph.predecessors node).mergeSort (· ≤ ·)).flatMap fun next =>
      (walksFrom graph (unvisited.erase node) next).map (node :: ·)
  else [[node]]
termination_by unvisited.length
decreasing_by exact length_erase_lt ‹_›

/-- A walk of the list ends at once, or goes on to a predecessor with a walk from there. -/
theorem cons_mem_walksFrom_iff {first : Nat} : first :: rest ∈ graph.walksFrom unvisited node ↔
    first = node ∧ (rest = [] ∨
      node ∈ unvisited ∧ ∃ next ∈ graph.predecessors node, rest ∈ graph.walksFrom (unvisited.erase node) next) := by
  by_cases fresh : node ∈ unvisited
  · rw [walksFrom, dif_pos fresh]
    simp only [List.mem_cons, List.cons.injEq, List.mem_flatMap, List.mem_mergeSort, List.mem_map]
    constructor
    · rintro (⟨rfl, rfl⟩ | ⟨next, before, walk, member, rfl, rfl⟩)
      · exact ⟨rfl, .inl rfl⟩
      · exact ⟨rfl, .inr ⟨fresh, next, before, member⟩⟩
    · rintro ⟨rfl, rfl | ⟨-, next, before, member⟩⟩
      · exact .inl ⟨rfl, rfl⟩
      · exact .inr ⟨next, before, rest, member, rfl, rfl⟩
  · rw [walksFrom, dif_neg fresh]
    simp [fresh]

/-- Every walk of the list begins with the node. -/
theorem exists_cons_of_mem_walksFrom (member : walk ∈ graph.walksFrom unvisited node) :
    ∃ rest, walk = node :: rest := by
  rw [walksFrom] at member
  split at member
  · rcases List.mem_cons.mp member with rfl | goesOn
    · exact ⟨[], rfl⟩
    · obtain ⟨next, -, isNext⟩ := List.mem_flatMap.mp goesOn
      obtain ⟨rest, -, rfl⟩ := List.mem_map.mp isNext
      exact ⟨rest, rfl⟩
  · exact ⟨[], List.mem_singleton.mp member⟩

/-- The walks of the list are the walks back from the node that go on at unvisited nodes only. -/
theorem mem_walksFrom_iff (unique : unvisited.Nodup) : walk ∈ graph.walksFrom unvisited node ↔
    graph.WalkBack node walk ∧ ∀ passed ∈ walk.dropLast, passed ∈ unvisited := by
  induction walk generalizing unvisited node with
  | nil =>
    constructor
    · intro member
      obtain ⟨rest, unequal⟩ := exists_cons_of_mem_walksFrom member
      cases unequal
    · rintro ⟨⟨start, -, -⟩, -⟩
      cases start
  | cons first rest ih =>
    rw [cons_mem_walksFrom_iff]
    cases rest with
    | nil =>
      constructor
      · rintro ⟨rfl, -⟩
        exact ⟨⟨rfl, .singleton _, List.nodup_nil⟩, by simp⟩
      · rintro ⟨⟨start, -, -⟩, -⟩
        exact ⟨Option.some.inj start, .inl rfl⟩
    | cons second rest =>
      simp only [walkBack_cons_cons_iff, List.dropLast_cons_cons, List.forall_mem_cons, reduceCtorEq, false_or,
        ih (unique.erase node), unique.mem_erase_iff]
      constructor
      · rintro ⟨rfl, fresh, next, before, walks, inside⟩
        obtain rfl := Option.some.inj walks.start
        exact ⟨⟨rfl, before, fun again => (inside first again).1 rfl, walks⟩, fresh, fun passed member =>
          (inside passed member).2⟩
      · rintro ⟨⟨rfl, before, fresh, walks⟩, here, inside⟩
        exact ⟨rfl, here, second, before, walks, fun passed member =>
          ⟨fun same => fresh (same ▸ member), inside passed member⟩⟩

/-- The list begins with the least walk and goes up. -/
theorem pairwise_walksFrom (unique : graph.edges.Nodup) (unvisited : List Nat) (node : Nat) :
    (graph.walksFrom unvisited node).Pairwise (· < ·) := by
  induction unvisited, node using walksFrom.induct with
  | case1 unvisited node fresh ih =>
    rw [walksFrom, dif_pos fresh, List.pairwise_cons, List.pairwise_flatMap]
    refine ⟨fun walk member => ?_, fun next _ => ?_, ?_⟩
    · obtain ⟨next, -, isNext⟩ := List.mem_flatMap.mp member
      obtain ⟨rest, goesOn, rfl⟩ := List.mem_map.mp isNext
      obtain ⟨tail, rfl⟩ := exists_cons_of_mem_walksFrom goesOn
      exact .cons .nil
    · rw [List.pairwise_map]
      exact (ih next).imp fun less => .cons less
    · -- walks that go on to different predecessors part there
      refine (pairwise_lt_mergeSort (nodup_predecessors unique node)).imp fun less walk isWalk other isOther => ?_
      obtain ⟨rest, goesOn, rfl⟩ := List.mem_map.mp isWalk
      obtain ⟨rest', goesOn', rfl⟩ := List.mem_map.mp isOther
      obtain ⟨tail, rfl⟩ := exists_cons_of_mem_walksFrom goesOn
      obtain ⟨tail', rfl⟩ := exists_cons_of_mem_walksFrom goesOn'
      exact .cons (.rel less)
  | case2 unvisited node visited =>
    rw [walksFrom, dif_neg visited]
    exact List.pairwise_singleton _ _

/-! ## Twigs -/

/-- How a walk is drawn that goes on from a node: is there a higher node to which it could go on? -/
def stepTo (graph : Graph α) (later earlier : Nat) : Branch :=
  if (graph.predecessors later).any (earlier < ·) then .middle else .last

/-- The twig of a walk. -/
def twigOf (graph : Graph α) : List Nat → Twig
  | later :: earlier :: rest => graph.stepTo later earlier :: graph.twigOf (earlier :: rest)
  | _ => []

theorem stepTo_eq_middle_iff {later earlier : Nat} :
    graph.stepTo later earlier = .middle ↔ ∃ sibling ∈ graph.predecessors later, earlier < sibling := by
  simp [stepTo]

/-- A twig has a step for each node behind the first. -/
theorem length_twigOf (walk : List Nat) : (graph.twigOf walk).length = walk.length - 1 := by
  induction walk with
  | nil => rfl
  | cons later rest ih =>
    cases rest with
    | nil => rfl
    | cons earlier rest => simpa [twigOf] using ih

theorem twigOf_append {later earlier : Nat} (front : List Nat) :
    graph.twigOf (front ++ [later, earlier]) = graph.twigOf (front ++ [later]) ++ [graph.stepTo later earlier] := by
  induction front with
  | nil => rfl
  | cons first rest ih =>
    cases rest with
    | nil => rfl
    | cons second rest => simpa [twigOf] using ih

/-- Below a twig, only the highest node has the last branch. -/
theorem below_eq_map {twig : Twig} {nodes : List Nat} (ascending : nodes.Pairwise (· < ·)) :
    twig.below nodes =
      nodes.map fun node => (twig ++ [if nodes.any (node < ·) then .middle else .last], node) := by
  induction nodes with
  | nil => rfl
  | cons first rest ih =>
    obtain ⟨above, ascending⟩ := List.pairwise_cons.mp ascending
    cases rest with
    | nil => simp [Twig.below]
    | cons second rest =>
      have higher : (first :: second :: rest).any (first < ·) = true := by simp [above second]
      rw [List.map_cons, if_pos higher, Twig.below, ih ascending]
      · refine congrArg _ (List.map_congr_left fun node member => ?_)
        rw [List.any_cons (a := first), decide_eq_false (Nat.not_lt_of_lt (above node member)), Bool.false_or]
      · exact List.cons_ne_nil _ _

/-- The lines below a twig are the walks from there, each with its own twig and its last node. -/
theorem treeFrom_eq_map (unique : graph.edges.Nodup) (unvisited : List Nat) (twig : Twig) (node : Nat) :
    graph.treeFrom unvisited twig node =
      (graph.walksFrom unvisited node).map fun walk => (twig ++ graph.twigOf walk, walk.getLastD node) := by
  induction unvisited, twig, node using treeFrom.induct with
  | case1 unvisited twig node fresh ih =>
    rw [treeFrom, walksFrom, dif_pos fresh, dif_pos fresh, List.map_cons, List.map_flatMap,
      below_eq_map (pairwise_lt_mergeSort (nodup_predecessors unique node)), List.flatMap_map]
    refine congrArg₂ _ (by simp [twigOf]) (List.flatMap_congr fun next _ => ?_)
    rw [List.map_map]
    refine (ih _ next).trans (List.map_congr_left fun walk member => ?_)
    obtain ⟨rest, rfl⟩ := exists_cons_of_mem_walksFrom member
    have higher : ((graph.predecessors node).mergeSort (· ≤ ·)).any (next < ·) =
        (graph.predecessors node).any (next < ·) := (List.mergeSort_perm _ _).any_eq
    simp [twigOf, stepTo, higher, List.getLast?_cons]
  | case2 unvisited twig node visited =>
    rw [treeFrom, walksFrom, dif_neg visited, dif_neg visited]
    simp [twigOf]

/-! ## Walks and ancestors -/

namespace WalkBack

variable {front : List Nat} {later earlier : Nat}

/-- From every node of a walk there is a path to the node where the walk begins. -/
theorem path (walks : graph.WalkBack node walk) {passed : Nat} (member : passed ∈ walk) :
    ReflTransGen graph.Edge passed node := by
  refine walks.backward.induction (ReflTransGen graph.Edge · node) walk ?_ ?_ passed member
  · intro later earlier before path
    exact .head (mem_predecessors_iff_edge.mp before) path
  · intro nonempty
    have start : walk.head nonempty = node := Option.some.inj ((List.head?_eq_some_head nonempty).symm.trans walks.start)
    exact start ▸ .refl

theorem mem_nodes (walks : graph.WalkBack node walk) (simple : graph.Simple) (inside : node ∈ graph.nodes)
    {passed : Nat} (member : passed ∈ walk) : passed ∈ graph.nodes :=
  (mem_chosen.mp ((mem_ancestors_iff simple inside).mpr (walks.path member))).1

theorem nodup (walks : graph.WalkBack node (front ++ [later])) (fresh : later ∉ front) :
    (front ++ [later]).Nodup := by
  have distinct := walks.unique
  rw [List.dropLast_concat] at distinct
  simpa using distinct.concat fresh

/-- A walk that goes on did not pass the node before. -/
theorem fresh (walks : graph.WalkBack node (front ++ [later, earlier])) : later ∉ front := by
  have distinct := walks.unique
  rw [List.append_cons, List.dropLast_concat, List.nodup_append_comm] at distinct
  exact (List.nodup_cons.mp distinct).1

/-- A walk can go on to exactly the predecessors of its last node, if it did not pass that node before. -/
theorem goesOn_iff (walks : graph.WalkBack node (front ++ [later])) (fresh : later ∉ front) :
    graph.WalkBack node (front ++ [later, earlier]) ↔ earlier ∈ graph.predecessors later := by
  rw [List.append_cons]
  constructor
  · intro further
    exact (List.isChain_append.mp further.backward).2.2 later (by simp) earlier (by simp)
  · intro before
    refine ⟨?_, List.isChain_append.mpr ⟨walks.backward, .singleton _, by simpa using before⟩, ?_⟩
    · rw [List.head?_append, walks.start, Option.some_or]
    · rw [List.dropLast_concat]
      exact walks.nodup fresh

/-- A walk can end at any node that it passes. -/
theorem stop (walks : graph.WalkBack node (front ++ later :: rest)) : graph.WalkBack node (front ++ [later]) := by
  have cut : front ++ later :: rest = (front ++ [later]) ++ rest := by simp
  refine ⟨?_, ?_, ?_⟩
  · rw [← walks.start, cut, List.head?_append (l := front ++ [later])]
    simp
  · exact (cut ▸ walks.backward).left_of_append
  · have distinct := walks.unique
    rw [List.dropLast_append_of_ne_nil (List.cons_ne_nil _ _)] at distinct
    rw [List.dropLast_concat]
    exact distinct.sublist (List.sublist_append_left _ _)

end WalkBack

/-- From where a path leads to a node, a walk ends that did not pass its last node before. -/
theorem exists_walkBack {other : Nat} (path : ReflTransGen graph.Edge other node) :
    ∃ front, graph.WalkBack node (front ++ [other]) ∧ other ∉ front := by
  induction path using ReflTransGen.head_induction_on with
  | refl => exact ⟨[], ⟨rfl, .singleton _, List.nodup_nil⟩, List.not_mem_nil⟩
  | @head earlier later step _ ih =>
    obtain ⟨front, walks, fresh⟩ := ih
    have distinct := walks.nodup fresh
    by_cases passed : earlier ∈ front ++ [later]
    · -- the walk came to the node before, so it can end there
      obtain ⟨before, after, split⟩ := List.append_of_mem passed
      rw [split] at walks distinct
      exact ⟨before, walks.stop, fun again => (List.nodup_append.mp distinct).2.2 earlier again earlier (by simp) rfl⟩
    · refine ⟨front ++ [later], ?_, passed⟩
      rw [← List.append_cons]
      exact (walks.goesOn_iff fresh).mpr (mem_predecessors_iff_edge.mpr step)

/-- All walks back from a node, drawn by lines: a walk stands before those that go on from it, and of walks that part
the one that goes on to the lower node stands first; a line shows where its walk ends. A walk that goes on has a step
more, which is a middle branch exactly if a walk that goes on to a higher node follows beside it. -/
structure Drawn (graph : Graph α) (node : Nat) (walks : List (List Nat)) (twig : List Nat → Twig)
    (lines : List (Twig × Nat)) : Prop where
  preorder : walks.Pairwise (· < ·)
  exact : ∀ walk, walk ∈ walks ↔ graph.WalkBack node walk
  shown : lines = walks.map fun walk => (twig walk, walk.getLastD node)
  depth : ∀ walk ∈ walks, walk.length = (twig walk).length + 1
  root : twig [node] = []
  branch : ∀ front later next, front ++ [later, next] ∈ walks → ∃ branch,
    twig (front ++ [later, next]) = twig (front ++ [later]) ++ [branch] ∧
      (branch = .middle ↔ ∃ sibling, next < sibling ∧ front ++ [later, sibling] ∈ walks)

/-- The tree draws the walks back from its node. -/
theorem drawn_tree (simple : graph.Simple) (unique : graph.edges.Nodup) (inside : node ∈ graph.nodes) :
    graph.Drawn node (graph.walksFrom graph.nodes node) graph.twigOf (graph.tree node) := by
  have exact (walk : List Nat) : walk ∈ graph.walksFrom graph.nodes node ↔ graph.WalkBack node walk := by
    have nodes : graph.nodes.Nodup := List.nodup_range
    rw [mem_walksFrom_iff nodes, and_iff_left_iff_imp]
    exact fun walks passed member => walks.mem_nodes simple inside (List.dropLast_subset _ member)
  refine ⟨pairwise_walksFrom unique _ _, exact, ?_, ?_, rfl, ?_⟩
  · rw [tree, treeFrom_eq_map unique]
    simp only [List.nil_append]
  · intro walk member
    obtain ⟨rest, rfl⟩ := exists_cons_of_mem_walksFrom member
    rw [length_twigOf]
    rfl
  · intro front later next member
    have walks := (exact _).mp member
    refine ⟨_, twigOf_append front, stepTo_eq_middle_iff.trans (exists_congr fun sibling => ?_)⟩
    rw [exact, walks.stop.goesOn_iff walks.fresh, and_comm]

/-- The tree shows exactly the ancestors of its node. -/
theorem mem_ancestors_iff_exists_line (simple : graph.Simple) (unique : graph.edges.Nodup) (inside : node ∈ graph.nodes)
    {other : Nat} : other ∈ graph.ancestors node ↔ ∃ line ∈ graph.tree node, line.2 = other := by
  have drawn := drawn_tree simple unique inside
  rw [mem_ancestors_iff simple inside, drawn.shown]
  constructor
  · intro path
    obtain ⟨front, walks, -⟩ := exists_walkBack path
    exact ⟨_, List.mem_map_of_mem ((drawn.exact _).mpr walks), by simp⟩
  · rintro ⟨line, member, rfl⟩
    obtain ⟨walk, isWalk, rfl⟩ := List.mem_map.mp member
    obtain ⟨rest, rfl⟩ := exists_cons_of_mem_walksFrom isWalk
    refine ((drawn.exact _).mp isWalk).path ?_
    rw [List.getLastD_cons]
    exact List.getLastD_mem_cons

end Graph

namespace ThreadedGraph

variable {α : Type}

/-- After any calls that add nodes and edges, the tree of a node draws the walks back from it, and the nodes in it are
its ancestors. -/
theorem tree_draws_walks (calls : List (Call α)) :
    ∃ graph history, performAll calls = some (graph, history) ∧ ∀ node < graph.size, ∃ lines members,
      graph.tree node = some lines ∧ (Graph.ofCalls calls).tree node = lines ∧
        (∃ walks twig, (Graph.ofCalls calls).Drawn node walks twig lines) ∧
        graph.ancestors node = some members ∧ (Graph.ofCalls calls).ancestors node = members ∧
        ∀ other, other ∈ members ↔ ∃ line ∈ lines, line.2 = other := by
  obtain ⟨graph, history, performed, holds, plain⟩ := exists_performAll calls
  refine ⟨graph, history, performed, fun node inside => ?_⟩
  rw [Graph.ofCalls, ← plain]
  have isNode : node ∈ graph.plain.nodes := Graph.mem_nodes.mpr (size_plain ▸ inside)
  have unique : graph.plain.edges.Nodup := holds.edges ▸ holds.nodup
  exact ⟨_, _, holds.tree_eq inside, rfl, ⟨_, _, Graph.drawn_tree holds.simple unique isNode⟩,
    holds.ancestors_eq inside, rfl, fun _ => Graph.mem_ancestors_iff_exists_line holds.simple unique isNode⟩

namespace Twisted

/-- Two nodes that come before each other, and a third one that comes before the first. -/
def calls : List (Call Unit) := List.replicate 3 (.node ()) ++ [.edge 2 0, .edge 0 1, .edge 1 0]

/-- The node that is met again is drawn again and not followed. -/
def lines : List (Twig × Nat) := [([], 0), ([.middle], 1), ([.middle, .last], 0), ([.last], 2)]

end Twisted

/-- The walks back from the first node, drawn step by step. -/
theorem tree_draws_walks_twisted :
    ∃ graph history, performAll Twisted.calls = some (graph, history) ∧ graph.tree 0 = some Twisted.lines ∧
      (∃ walks twig, (Graph.ofCalls Twisted.calls).Drawn 0 walks twig Twisted.lines) ∧
      ∃ members, graph.ancestors 0 = some members ∧ 2 ∈ members := by
  have drawing : (performAll Twisted.calls).bind (fun state => state.1.tree 0) = some Twisted.lines := by cbv
  obtain ⟨graph, history, performed, draws⟩ := tree_draws_walks Twisted.calls
  have inside : 0 < graph.size := size_of_performAll performed ▸ by decide
  rw [performed, Option.bind_some] at drawing
  obtain ⟨lines, members, found, -, drawn, ancestors, -, shown⟩ := draws 0 inside
  obtain rfl := Option.some.inj (drawing.symm.trans found)
  exact ⟨graph, history, performed, found, drawn, members, ancestors, (shown 2).mpr ⟨([.last], 2), by decide, rfl⟩⟩

end ThreadedGraph

end VhdlOrder
