/-! # Directed graphs

A graph is a list of labelled nodes, numbered from 0 in the order in which they were added, and a list
of edges, the newest first. Between two nodes there is at most one edge in each direction, and no edge
leads from a node to itself: `Graph.addEdge` refuses such edges and says why.
-/

namespace VhdlOrder

/-- Labelled nodes, and edges `(source, target)` with the newest first. -/
structure Graph (α : Type) where
  labels : List α
  edges : List (Nat × Nat)

/-- What became of an edge that was to be added. -/
inductive EdgeStatus where
  | missingSource | missingTarget | selfLoop | alreadyExists | success
deriving DecidableEq

namespace Graph

variable {α : Type}

/-- The graph without nodes. -/
def empty : Graph α := ⟨[], []⟩

/-- The graph with a node for each label and no edges. -/
def ofLabels (labels : List α) : Graph α := ⟨labels, []⟩

/-- The number of nodes. -/
def size (graph : Graph α) : Nat := graph.labels.length

/-- All nodes in increasing order. -/
def nodes (graph : Graph α) : List Nat := List.range graph.size

def hasNode (graph : Graph α) (node : Nat) : Bool := node < graph.size

def hasEdge (graph : Graph α) (source target : Nat) : Bool := graph.edges.contains (source, target)

/-- The label of a node. -/
def label? (graph : Graph α) (node : Nat) : Option α := graph.labels[node]?

/-- Adds a node behind the others; its number is the old size. -/
def addNode (graph : Graph α) (label : α) : Graph α := { graph with labels := graph.labels ++ [label] }

/-- Adds the edge from `source` to `target` unless there is a reason not to. -/
def addEdge (graph : Graph α) (source target : Nat) : EdgeStatus × Graph α :=
  if !graph.hasNode source then (.missingSource, graph)
  else if !graph.hasNode target then (.missingTarget, graph)
  else if source = target then (.selfLoop, graph)
  else if graph.hasEdge source target then (.alreadyExists, graph)
  else (.success, { graph with edges := (source, target) :: graph.edges })

/-- Adds several edges one after the other, each unless there is a reason not to. -/
def addEdges (graph : Graph α) (edges : List (Nat × Nat)) : Graph α :=
  edges.foldl (fun graph edge => (graph.addEdge edge.1 edge.2).2) graph

/-- The nodes that an edge leads to from `node`, newest edge first. -/
def successors (graph : Graph α) (node : Nat) : List Nat :=
  (graph.edges.filter fun edge => edge.1 == node).map Prod.snd

/-- The nodes that an edge leads from to `node`, newest edge first. -/
def predecessors (graph : Graph α) (node : Nat) : List Nat :=
  (graph.edges.filter fun edge => edge.2 == node).map Prod.fst

/-- The nodes that no edge leads from, in increasing order. -/
def roots (graph : Graph α) : List Nat :=
  graph.nodes.filter fun node => (graph.successors node).isEmpty

/-- The nodes of the graph that are in `within`, in increasing order. -/
def chosen (graph : Graph α) (within : List Nat) : List Nat := graph.nodes.filter within.contains

theorem mem_nodes {graph : Graph α} {node : Nat} : node ∈ graph.nodes ↔ node < graph.size := by
  simp [nodes]

theorem mem_chosen {graph : Graph α} {within : List Nat} {node : Nat} :
    node ∈ graph.chosen within ↔ node ∈ graph.nodes ∧ node ∈ within := by
  simp [chosen]

theorem mem_successors {graph : Graph α} {source target : Nat} :
    target ∈ graph.successors source ↔ (source, target) ∈ graph.edges := by
  simp [successors]

theorem mem_predecessors {graph : Graph α} {source target : Nat} :
    source ∈ graph.predecessors target ↔ (source, target) ∈ graph.edges := by
  simp [predecessors]

/-- Taking a member out of a list leaves a shorter list. -/
theorem length_erase_lt {node : Nat} {nodes : List Nat} (member : node ∈ nodes) :
    (nodes.erase node).length < nodes.length := by
  have shorter := List.length_erase_of_mem member
  have nonempty := List.length_pos_of_mem member
  omega

end Graph

end VhdlOrder
