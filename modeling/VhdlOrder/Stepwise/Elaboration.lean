import VhdlOrder.Elaboration.PragmaReport
import VhdlOrder.Stepwise.Ordering
import VhdlOrder.Stepwise.Resolution

/-! # Elaboration by numbers

The units of a library are the nodes of a graph with threaded edges, under the same numbers. Orders, plans and trees
are made of numbers, and the units and files that they stand for are fetched by these numbers, as are the file of a
pragma and the diagnostics at a unit.
-/

namespace VhdlOrder

open Stepwise

/-- A library with its resolution and the graph of the dependencies. -/
structure ThreadedElaboration where
  catalog : Catalog
  resolution : Resolution
  graph : ThreadedGraph DesignUnit

namespace ThreadedElaboration

/-! ## The dependency graph -/

/-- Adds a node for a unit. -/
def addUnit? (catalog : Catalog) (graph : ThreadedGraph DesignUnit) (number : Nat) :
    Option (ThreadedGraph DesignUnit) := do
  return graph.addNode (← catalog.library.unit? number)

/-- Adds an edge for each dependency of a unit. -/
def addDependencies? (resolution : Resolution) (graph : ThreadedGraph DesignUnit) (number : Nat) :
    Option (ThreadedGraph DesignUnit) := do
  let unit ← resolution.units[number]?
  unit.dependencies.foldlM (fun graph dependency => do return (← graph.addEdge dependency.unit number).2) graph

/-- The elaboration of a library. -/
def ofCatalog? (catalog : Catalog) (checks : Checks) : Option ThreadedElaboration := do
  let numbers := List.range catalog.library.size
  let resolution ← catalog.resolve? checks
  let graph ← numbers.foldlM (addUnit? catalog) .empty
  return ⟨catalog, resolution, ← numbers.foldlM (addDependencies? resolution) graph⟩

/-! ## Orders and plans -/

/-- The fault of a cycle, which names the units on it. -/
def cycleFault? (elaboration : ThreadedElaboration) (cycle : List Nat) : Option OrderFault := do
  return .cycle (← cycle.mapM elaboration.catalog.library.display?)

/-- An order of the units in `within`, or the fault of a cycle among them. -/
def orderWithin? (elaboration : ThreadedElaboration) (within : List Nat) : Option (Except OrderFault (List Nat)) := do
  match ← elaboration.graph.orderWithin within with
  | .ok order => return .ok order
  | .error cycle => return .error (← elaboration.cycleFault? cycle)

/-- The order of all units. -/
def order? (elaboration : ThreadedElaboration) : Option (Except OrderFault (List Nat)) :=
  elaboration.orderWithin? (List.range elaboration.graph.size)

/-- The units that complete a unit: the body of a package, the architectures of an entity. -/
def secondaries? (elaboration : ThreadedElaboration) (number : Nat) : Option (List Nat) := do
  let unit ← elaboration.catalog.library.unit? number
  match unit.kind with
  | .package => return (elaboration.catalog.tables.body? unit.name).toList
  | .entity => return elaboration.catalog.tables.architecturesOf unit.name
  | _ => return []

/-- Adds the units that complete members and are missing, with all that leads to them, unless there are none. -/
def completeRound (elaboration : ThreadedElaboration) (members : List Nat) : Option (Round (List Nat) (List Nat)) := do
  let companions ← members.mapM elaboration.secondaries?
  let missing := companions.flatten.filter fun number => !members.contains number
  if missing.isEmpty then return .done members
  else
    let further ← missing.mapM elaboration.graph.ancestors
    return .again ((List.range elaboration.graph.size).filter (members ++ further.flatten).contains)

/-- The units that a plan for `target` has, in increasing order. -/
def needed? (elaboration : ThreadedElaboration) (target : Nat) : Option (List Nat) := do
  loop elaboration.completeRound (elaboration.graph.size + 1) (← elaboration.graph.ancestors target)

/-- The order of the units that a plan for `target` has. -/
def plan? (elaboration : ThreadedElaboration) (target : Nat) : Option (Except OrderFault (List Nat)) := do
  elaboration.orderWithin? (← elaboration.needed? target)

/-! ## Reports -/

/-- A unit as a step of an order. -/
def step? (elaboration : ThreadedElaboration) (number : Nat) : Option Step := do
  let unit ← elaboration.catalog.library.unit? number
  return ⟨unit.name.render, unit.kind, ← elaboration.catalog.library.fileOf? number⟩

/-- The steps of an order. -/
def steps? (elaboration : ThreadedElaboration) (order : List Nat) : Option (List Step) :=
  order.mapM elaboration.step?

/-- The diagnostics at a unit. -/
def diagnostics? (elaboration : ThreadedElaboration) (number : Nat) : Option (List Diagnostic) := do
  return (← elaboration.resolution.units[number]?).diagnostics

/-- The diagnostics at the units of an order. -/
def diagnosticsOf? (elaboration : ThreadedElaboration) (order : List Nat) : Option (List Diagnostic) := do
  return (← order.mapM elaboration.diagnostics?).flatten

/-- The plan for the unit that a name means. -/
def planFor? (elaboration : ThreadedElaboration) (name : SelectedName) :
    Option (Except OrderFault (List Nat)) := do
  match ← elaboration.catalog.find? name with
  | some target => elaboration.plan? target
  | none => return .error (.unknownTarget name elaboration.catalog.library.name)

/-- The report on a pragma, which is none if the pragma has no target. -/
def runPragma? (elaboration : ThreadedElaboration) (item : LibraryPragma) : Option (Option PragmaReport) :=
  match item.pragma.target with
  | none => some none
  | some target => do
      let file ← elaboration.catalog.library.files[item.source]?
      let position := item.pragma.position
      match ← elaboration.planFor? target with
      | .ok order =>
          return some ⟨target, file, position, none, ← elaboration.steps? order, ← elaboration.diagnosticsOf? order⟩
      | .error fault =>
          return some ⟨target, file, position, some (.place .error (.order fault) file position), [], []⟩

/-- The reports on all pragmas in order. -/
def runPragmas? (elaboration : ThreadedElaboration) : Option (List PragmaReport) :=
  filterMap? elaboration.runPragma? elaboration.catalog.library.pragmas

/-! ## Neighbours and trees -/

/-- The units that a unit depends on directly, in increasing order. -/
def dependenciesOf? (elaboration : ThreadedElaboration) (number : Nat) : Option (List Nat) := do
  return (← elaboration.graph.predecessors number).mergeSort (· ≤ ·)

/-- The units that depend on a unit directly, in increasing order. -/
def dependentsOf? (elaboration : ThreadedElaboration) (number : Nat) : Option (List Nat) := do
  return (← elaboration.graph.successors number).mergeSort (· ≤ ·)

/-- The lines of the tree of what a unit depends on: the place in the drawing and the unit. -/
def tree? (elaboration : ThreadedElaboration) (number : Nat) : Option (List (Twig × String)) := do
  let lines ← elaboration.graph.tree number
  lines.mapM fun (twig, node) => do return (twig, ← elaboration.catalog.library.display? node)

end ThreadedElaboration

end VhdlOrder
