import VhdlOrder.Graph.Order
import VhdlOrder.Graph.Reach
import VhdlOrder.Graph.Tree
import VhdlOrder.Visibility.Resolution

/-! # Elaboration orders

A unit is elaborated after the units that it depends on. The dependency graph of a library has its
units as nodes and an edge from each unit to those that depend on it. A plan for a target orders the
target, what it depends on, and the bodies and architectures that complete those units, with what they
depend on in turn.
-/

namespace VhdlOrder

/-- A library with its resolution. -/
structure Elaboration where
  library : Library
  resolution : Resolution

namespace Elaboration

/-- The elaboration of a library. -/
def ofLibrary (library : Library) (checks : Checks) : Elaboration :=
  ⟨library, library.resolve checks⟩

/-- The edges for the dependencies of all units, in the order in which they are found. -/
def edges (elaboration : Elaboration) : List (Nat × Nat) :=
  (List.range elaboration.library.size).flatMap fun index =>
    (elaboration.resolution.dependencies index).map fun dependency => (dependency.unit, index)

/-- The dependency graph. -/
def graph (elaboration : Elaboration) : Graph DesignUnit :=
  (Graph.ofLabels (elaboration.library.units.map LibraryUnit.unit)).addEdges elaboration.edges

/-- The fault of a cycle, which names the units on it. -/
def cycleFault (elaboration : Elaboration) (cycle : List Nat) : OrderFault :=
  .cycle (cycle.map elaboration.library.display)

/-- The order of all units. -/
def order (elaboration : Elaboration) : Except OrderFault (List Nat) :=
  elaboration.graph.order.mapError elaboration.cycleFault

/-- The units that complete a unit: the body of a package, the architectures of an entity. -/
def secondaries (library : Library) (index : Nat) : List Nat :=
  match library.unit? index with
  | some unit =>
      match unit.kind with
      | .package => (library.body? unit.name).toList.map Entry.index
      | .entity => (library.architectures unit.name).map Entry.index
      | _ => []
  | none => []

/-- The units that a plan for `target` has, in increasing order: what leads to the target, completed
by the secondary units of its members. -/
def needed (elaboration : Elaboration) (target : Nat) : List Nat :=
  let graph := elaboration.graph
  graph.complete (secondaries elaboration.library) (graph.ancestors target)

/-- The order of the units that a plan for `target` has. -/
def plan (elaboration : Elaboration) (target : Nat) : Except OrderFault (List Nat) :=
  (elaboration.graph.orderWithin (elaboration.needed target)).mapError elaboration.cycleFault

/-- The unit that a target names. -/
def find (elaboration : Elaboration) (name : SelectedName) : Except OrderFault Nat :=
  match elaboration.library.find? name with
  | some entry => .ok entry.index
  | none => .error (.unknownTarget name elaboration.library.name)

/-- The plan for the unit that a name means. -/
def planFor (elaboration : Elaboration) (name : SelectedName) : Except OrderFault (List Nat) :=
  match elaboration.find name with
  | .ok target => elaboration.plan target
  | .error fault => .error fault

/-- The diagnostics at the units of an order. -/
def diagnosticsOf (elaboration : Elaboration) (order : List Nat) : List Diagnostic :=
  order.flatMap elaboration.resolution.diagnostics

/-- The units that no other unit depends on. -/
def roots (elaboration : Elaboration) : List Nat := elaboration.graph.roots

/-- The units that a unit depends on directly, in increasing order. -/
def dependenciesOf (elaboration : Elaboration) (index : Nat) : List Nat :=
  (elaboration.graph.predecessors index).mergeSort (· ≤ ·)

/-- The units that depend on a unit directly, in increasing order. -/
def dependentsOf (elaboration : Elaboration) (index : Nat) : List Nat :=
  (elaboration.graph.successors index).mergeSort (· ≤ ·)

/-- The lines of the tree of what a unit depends on: the place in the drawing and the unit. -/
def tree (elaboration : Elaboration) (index : Nat) : List (Twig × String) :=
  (elaboration.graph.tree index).map fun (twig, node) => (twig, elaboration.library.display node)

end Elaboration

end VhdlOrder
