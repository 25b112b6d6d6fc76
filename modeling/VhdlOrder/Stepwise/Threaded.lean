import VhdlOrder.Graph.Basic
import VhdlOrder.Stepwise.Bounds

/-! # Graphs with threaded edges

The edges of a graph stand in one list in the order in which they were added, and two threads run through each of
them: one to the next older edge with the same source, one to the next older edge with the same target. Every
node holds the beginnings of its two threads. The neighbours of a node are found by following a thread, and an
edge is added in front of both of its threads.
-/

namespace VhdlOrder

/-- Along its edges out of a node, or along those into it. -/
inductive Direction where
  | out | into
deriving DecidableEq

/-- An edge, and the places of the next older edges with the same source and with the same target. -/
structure ThreadedEdge where
  source : Nat
  target : Nat
  olderOut : Option Nat
  olderInto : Option Nat
deriving DecidableEq

namespace ThreadedEdge

/-- The node whose thread the edge is on. -/
def near : Direction → ThreadedEdge → Nat
  | .out, edge => edge.source
  | .into, edge => edge.target

/-- The neighbour of that node. -/
def far : Direction → ThreadedEdge → Nat
  | .out, edge => edge.target
  | .into, edge => edge.source

/-- The place of the next edge on the thread. -/
def older : Direction → ThreadedEdge → Option Nat
  | .out, edge => edge.olderOut
  | .into, edge => edge.olderInto

end ThreadedEdge

/-- A labelled node, and the places of the newest edges out of it and into it. -/
structure ThreadedNode (α : Type) where
  label : α
  newestOut : Option Nat
  newestInto : Option Nat
deriving DecidableEq

/-- The place of the newest edge on the thread of a node. -/
def ThreadedNode.newest {α : Type} : Direction → ThreadedNode α → Option Nat
  | .out, node => node.newestOut
  | .into, node => node.newestInto

/-- Nodes and edges, each in the order in which they were added. -/
structure ThreadedGraph (α : Type) where
  nodes : List (ThreadedNode α)
  edges : List ThreadedEdge
deriving DecidableEq

namespace ThreadedGraph

open Stepwise

variable {α : Type}

/-- The graph without nodes. -/
def empty : ThreadedGraph α := ⟨[], []⟩

/-- The number of nodes. -/
def size (graph : ThreadedGraph α) : Nat := graph.nodes.length

def hasNode (graph : ThreadedGraph α) (node : Nat) : Bool := node < graph.size

/-- Follows a thread from a place on it to its end, which is to come within a number of steps, and collects the
neighbours. -/
def follow (graph : ThreadedGraph α) (direction : Direction) : Nat → Option Nat → Option (List Nat)
  | _, none => some []
  | 0, some _ => none
  | steps + 1, some place => do
      let edge ← graph.edges[place]?
      let rest ← follow graph direction steps (edge.older direction)
      return edge.far direction :: rest

/-- The neighbours of a node, newest edge first. No thread is longer than the list of edges. -/
def neighbours (graph : ThreadedGraph α) (direction : Direction) (node : Nat) : Option (List Nat) := do
  let node ← graph.nodes[node]?
  graph.follow direction graph.edges.length (node.newest direction)

/-- The nodes that an edge leads to from a node, newest edge first. -/
def successors (graph : ThreadedGraph α) (node : Nat) : Option (List Nat) := graph.neighbours .out node

/-- The nodes that an edge leads from to a node, newest edge first. -/
def predecessors (graph : ThreadedGraph α) (node : Nat) : Option (List Nat) := graph.neighbours .into node

def hasEdge (graph : ThreadedGraph α) (source target : Nat) : Option Bool :=
  return (← graph.successors source).contains target

/-- Adds a node behind the others; its threads are empty. -/
def addNode (graph : ThreadedGraph α) (label : α) : ThreadedGraph α :=
  { graph with nodes := graph.nodes ++ [⟨label, none, none⟩] }

/-- Adds an edge in front of the threads of both nodes. -/
def pushEdge (graph : ThreadedGraph α) (source target : Nat) : Option (ThreadedGraph α) := do
  let place := graph.edges.length
  let first ← graph.nodes[source]?
  let second ← graph.nodes[target]?
  let edges := graph.edges ++ [⟨source, target, first.newestOut, second.newestInto⟩]
  let nodes ← update? graph.nodes source fun node => { node with newestOut := some place }
  let nodes ← update? nodes target fun node => { node with newestInto := some place }
  return ⟨nodes, edges⟩

/-- Adds the edge from `source` to `target` unless there is a reason not to. -/
def addEdge (graph : ThreadedGraph α) (source target : Nat) : Option (EdgeStatus × ThreadedGraph α) := do
  if !graph.hasNode source then return (.missingSource, graph)
  else if !graph.hasNode target then return (.missingTarget, graph)
  else if source = target then return (.selfLoop, graph)
  else if ← graph.hasEdge source target then return (.alreadyExists, graph)
  else return (.success, ← graph.pushEdge source target)

/-- The nodes with an empty thread of edges out of them, in increasing order. -/
def roots (graph : ThreadedGraph α) : List Nat :=
  (List.range graph.size).filter fun node => (graph.nodes[node]?).any fun node => node.newestOut.isNone

end ThreadedGraph

end VhdlOrder
