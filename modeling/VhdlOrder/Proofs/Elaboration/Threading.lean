import VhdlOrder.Proofs.Elaboration.Dependents
import VhdlOrder.Proofs.Elaboration.Plan
import VhdlOrder.Proofs.Graph.Ordering
import VhdlOrder.Proofs.Visibility.Resolving
import VhdlOrder.Stepwise.Elaboration

/-! # Numbers in an elaboration

The numbers that orders, plans, trees and reports are made of are those of units: the graph has a node for each unit,
an edge leads between nodes only, and the units that complete another one are entries of the library. So whatever is
fetched by such a number is there, and orders, plans, trees and reports by numbers are those of the definitions that
know no places.
-/

namespace VhdlOrder

open Stepwise

theorem Elaboration.lt_of_mem_secondaries {library : Library} {index unit : Nat}
    (listed : unit ∈ secondaries library index) : unit < library.size := by
  obtain ⟨primary, member, rfl⟩ := exists_entry_of_mem_secondaries listed
  obtain ⟨secondary, completes, rfl⟩ := (mem_secondaries_iff member).mp listed
  exact Library.index_lt completes.mem_entries

/-- The units that complete members without being members are what is missing. -/
theorem Elaboration.mem_companions_iff {library : Library} {checks : Checks} {members : List Nat} (unit : Nat) :
    unit ∈ ((members.map (secondaries library)).flatten.filter fun unit => !members.contains unit) ↔
      unit ∈ (ofLibrary library checks).graph.missing (secondaries library) members := by
  rw [Graph.mem_missing, List.mem_filter, List.mem_flatten]
  simp only [List.mem_map, exists_exists_and_eq_and, Bool.not_eq_true', List.contains_eq_mem, decide_eq_false_iff_not]
  constructor
  · rintro ⟨⟨member, isMember, listed⟩, absent⟩
    exact ⟨mem_nodes_graph.mpr (lt_of_mem_secondaries listed), ⟨member, isMember, listed⟩, absent⟩
  · rintro ⟨-, missing⟩
    exact missing

theorem Elaboration.lt_of_mem_planFor {library : Library} {checks : Checks} {name : SelectedName} {order : List Nat}
    (planned : (ofLibrary library checks).planFor name = .ok order) : ∀ number ∈ order, number < library.size := by
  unfold planFor at planned
  split at planned
  · intro number member
    have perm := (Graph.orderWithin_ok (simple_graph _) (plan_eq_ok_iff.mp planned)).1
    exact mem_nodes_graph.mp (Graph.mem_chosen.mp (perm.mem_iff.mp member)).1
  · cases planned

namespace ThreadedElaboration

variable {catalog : Catalog} {checks : Checks}

/-! ## The dependency graph -/

theorem exists_foldlM_addUnit? {entries : List Entry} (present : ∀ entry ∈ entries, entry ∈ catalog.library.entries)
    {graph : ThreadedGraph DesignUnit} {history : List (Nat × Nat)} (holds : graph.Holds history) :
    ∃ after, (entries.map Entry.index).foldlM (addUnit? catalog) graph = some after ∧ after.Holds history ∧
      after.plain = ⟨graph.plain.labels ++ entries.map Entry.unit, graph.plain.edges⟩ := by
  induction entries generalizing graph with
  | nil => exact ⟨graph, rfl, holds, by simp⟩
  | cons entry rest ih =>
    obtain ⟨here, others⟩ := List.forall_mem_cons.mp present
    obtain ⟨stays, plain⟩ := holds.addNode entry.unit
    obtain ⟨after, ran, ends, whole⟩ := ih others stays
    refine ⟨after, ?_, ends, ?_⟩
    · rw [List.map_cons, List.foldlM_cons, addUnit?, Library.mem_entries_iff.mp here]
      exact ran
    · rw [whole, plain]
      simp [Graph.addNode]

/-- The edges for the dependencies of a unit. -/
def edgesOf (resolution : Resolution) (number : Nat) : List (Nat × Nat) :=
  (resolution.dependencies number).map fun dependency => (dependency.unit, number)

theorem exists_foldlM_addDependencies? {resolution : Resolution} {numbers : List Nat}
    (present : ∀ number ∈ numbers, number < resolution.units.length) {graph : ThreadedGraph DesignUnit}
    {history : List (Nat × Nat)} (holds : graph.Holds history) :
    ∃ after longer, numbers.foldlM (addDependencies? resolution) graph = some after ∧ after.Holds longer ∧
      after.plain = graph.plain.addEdges (numbers.flatMap (edgesOf resolution)) := by
  induction numbers generalizing graph history with
  | nil => exact ⟨graph, history, rfl, holds, rfl⟩
  | cons number rest ih =>
    obtain ⟨here, others⟩ := List.forall_mem_cons.mp present
    have unit := List.getElem?_eq_getElem here
    obtain ⟨next, longer, added, stays, plain⟩ := holds.exists_addEdges
      (fun dependency : Dependency => (dependency.unit, number)) resolution.units[number].dependencies
    obtain ⟨after, history, ran, ends, whole⟩ := ih others stays
    refine ⟨after, history, ?_, ends, ?_⟩
    · rw [List.foldlM_cons, addDependencies?, unit]
      exact (congrArg (Option.bind · fun graph => rest.foldlM (addDependencies? resolution) graph) added).trans ran
    · rw [whole, plain, List.flatMap_cons, edgesOf, Resolution.dependencies, unit]
      simp [Graph.addEdges, List.foldl_append]

/-- The elaboration is that of the library: its tables and numbers are sound, and its graph is the dependency graph,
well linked. -/
structure Shows (elaboration : ThreadedElaboration) (library : Library) (checks : Checks) : Prop where
  sound : elaboration.catalog.Sound
  isLibrary : elaboration.catalog.library = library
  isResolution : elaboration.resolution = library.resolve checks
  linked : ∃ history, elaboration.graph.Holds history
  plain : elaboration.graph.plain = (Elaboration.ofLibrary library checks).graph

theorem length_resolve (library : Library) (checks : Checks) :
    (library.resolve checks).units.length = library.size := by
  rw [Resolution.resolve_eq, List.length_map, ← List.length_map Entry.index, Library.map_index_entries,
    List.length_range]

theorem exists_ofCatalog? (sound : catalog.Sound) (checks : Checks) :
    ∃ elaboration, ofCatalog? catalog checks = some elaboration ∧ elaboration.Shows catalog.library checks := by
  obtain ⟨nodes, added, holds, labelled⟩ := exists_foldlM_addUnit?
    (fun entry (member : entry ∈ catalog.library.entries) => member) ThreadedGraph.holds_empty
  obtain ⟨graph, history, joined, stays, plain⟩ := exists_foldlM_addDependencies? (fun number member => by
    rw [length_resolve catalog.library checks]
    exact List.mem_range.mp member) holds
  rw [Library.map_index_entries] at added
  refine ⟨⟨catalog, catalog.library.resolve checks, graph⟩, ?_, sound, rfl, rfl, ⟨history, stays⟩, ?_⟩
  · rw [ofCatalog?, sound.resolve?_eq]
    simp only [Option.bind_eq_bind, Option.bind_some, added, joined]
    rfl
  · have labels : nodes.plain = Graph.ofLabels (catalog.library.units.map LibraryUnit.unit) := by
      rw [labelled, Library.map_unit_entries]
      rfl
    rw [plain, labels]
    rfl

namespace Shows

variable {elaboration : ThreadedElaboration} {library : Library} {number : Nat}

theorem size_graph (shows : elaboration.Shows library checks) : elaboration.graph.size = library.size := by
  rw [← ThreadedGraph.size_plain, shows.plain, Elaboration.size_graph]

theorem exists_unit? (shows : elaboration.Shows library checks) (inside : number < library.size) :
    ∃ entry ∈ library.entries, entry.index = number ∧
      elaboration.catalog.library.unit? number = some entry.unit := by
  obtain ⟨entry, member, rfl⟩ := Library.exists_entry inside
  exact ⟨entry, member, rfl, shows.isLibrary ▸ Library.mem_entries_iff.mp member⟩

/-! ## Orders and plans -/

theorem orderWithin?_eq (shows : elaboration.Shows library checks) {within : List Nat}
    (chosen : (Elaboration.ofLibrary library checks).graph.chosen within = within) :
    elaboration.orderWithin? within = some (((Elaboration.ofLibrary library checks).graph.orderWithin within).mapError
      (Elaboration.ofLibrary library checks).cycleFault) := by
  obtain ⟨history, holds⟩ := shows.linked
  have inside (node : Nat) (member : node ∈ within) : node < elaboration.graph.size := by
    rw [← chosen, Graph.mem_chosen, Elaboration.mem_nodes_graph] at member
    exact shows.size_graph ▸ member.1
  rw [orderWithin?, holds.orderWithin_eq (chosen ▸ Graph.nodup_chosen) inside, shows.plain]
  cases ordered : (Elaboration.ofLibrary library checks).graph.orderWithin within with
  | ok order => rfl
  | error cycle =>
    have names : cycle.mapM library.display? = some (cycle.map library.display) := mapM_eq_map fun number onCycle => by
      obtain ⟨entry, member, rfl, -⟩ := Elaboration.exists_primary_of_mem_cycle ordered onCycle
      exact Library.display?_eq (Library.index_lt member)
    simp only [Option.bind_eq_bind, Option.bind_some, cycleFault?, shows.isLibrary, names]
    rfl

theorem order?_eq (shows : elaboration.Shows library checks) :
    elaboration.order? = some (Elaboration.ofLibrary library checks).order := by
  rw [order?, shows.size_graph, ← Elaboration.size_graph]
  exact shows.orderWithin?_eq Graph.chosen_nodes

theorem secondaries?_eq (shows : elaboration.Shows library checks) (inside : number < library.size) :
    elaboration.secondaries? number = some (Elaboration.secondaries library number) := by
  obtain ⟨entry, member, rfl, present⟩ := shows.exists_unit? inside
  have inStep := shows.sound.inStep
  rw [secondaries?, present, Elaboration.secondaries, Library.mem_entries_iff.mp member]
  simp only [Option.bind_eq_bind, Option.bind_some, inStep.body, inStep.architectures, shows.isLibrary]
  cases entry.unit.kind with
  | package => cases library.body? entry.unit.name <;> rfl
  | entity | packageBody | architecture | configuration | context => rfl

/-- What is missing does not depend on the order in which the members name it. -/
theorem extend_eq (shows : elaboration.Shows library checks) (members : List Nat) {missing absent : List Nat}
    (same : ∀ node, node ∈ missing ↔ node ∈ absent) :
    (List.range elaboration.graph.size).filter
        (members ++ (missing.map (Elaboration.ofLibrary library checks).graph.ancestors).flatten).contains =
      (Elaboration.ofLibrary library checks).graph.extend members absent := by
  rw [Graph.extend, Graph.chosen, Graph.nodes, Elaboration.size_graph, shows.size_graph]
  refine List.filter_congr fun node _ => ?_
  rw [Bool.eq_iff_iff]
  simp [same]

/-- A round adds what completing the members adds, or finds that nothing is missing. -/
theorem completeRound_eq (shows : elaboration.Shows library checks) {members : List Nat}
    (inside : ∀ member ∈ members, member < library.size) : elaboration.completeRound members =
      some (if (Elaboration.ofLibrary library checks).graph.missing (Elaboration.secondaries library) members = [] then
        .done members
      else .again ((Elaboration.ofLibrary library checks).graph.extend members
        ((Elaboration.ofLibrary library checks).graph.missing (Elaboration.secondaries library) members))) := by
  obtain ⟨history, holds⟩ := shows.linked
  have companions : members.mapM elaboration.secondaries? = some (members.map (Elaboration.secondaries library)) :=
    mapM_eq_map fun member isMember => shows.secondaries?_eq (inside member isMember)
  have same := @Elaboration.mem_companions_iff library checks members
  have bound (node : Nat) (absent : node ∈
      (Elaboration.ofLibrary library checks).graph.missing (Elaboration.secondaries library) members) :
      node < library.size := Elaboration.mem_nodes_graph.mp (Graph.mem_missing.mp absent).1
  rw [completeRound, companions]
  simp only [Option.bind_eq_bind, Option.bind_some]
  generalize (members.map (Elaboration.secondaries library)).flatten.filter
    (fun number => !members.contains number) = missing at same ⊢
  generalize (Elaboration.ofLibrary library checks).graph.missing (Elaboration.secondaries library) members = absent
    at same bound ⊢
  by_cases whole : absent = []
  · have nothing : missing = [] := List.eq_nil_iff_forall_not_mem.mpr fun node lacking => by
      rw [same, whole] at lacking
      exact List.not_mem_nil lacking
    rw [if_pos whole, nothing]
    rfl
  · have lacking : missing.isEmpty = false := by
      obtain ⟨node, isAbsent⟩ := List.exists_mem_of_ne_nil _ whole
      exact List.isEmpty_eq_false_iff.mpr (List.ne_nil_of_mem ((same node).mpr isAbsent))
    have further : missing.mapM elaboration.graph.ancestors =
        some (missing.map (Elaboration.ofLibrary library checks).graph.ancestors) :=
      mapM_eq_map fun node isMissing => by
        rw [holds.ancestors_eq (shows.size_graph ▸ bound node ((same node).mp isMissing)), shows.plain]
    rw [if_neg whole, lacking]
    simp only [further, Bool.false_eq_true, if_false, Option.bind_some, shows.extend_eq members same]
    rfl

theorem needed?_eq (shows : elaboration.Shows library checks) (inside : number < library.size) :
    elaboration.needed? number = some ((Elaboration.ofLibrary library checks).needed number) := by
  obtain ⟨history, holds⟩ := shows.linked
  have start (node : Nat) (ancestor : node ∈ (Elaboration.ofLibrary library checks).graph.ancestors number) :
      node < library.size := Elaboration.mem_nodes_graph.mp (Graph.mem_chosen.mp ancestor).1
  rw [needed?, holds.ancestors_eq (shows.size_graph ▸ inside), shows.plain]
  refine loop_eq (fun members => ∀ member ∈ members, member < library.size)
    (fun members => ((Elaboration.ofLibrary library checks).graph.others members).length)
    ((Elaboration.ofLibrary library checks).graph.complete (Elaboration.secondaries library)) ?_ start ?_
  · intro members isMember
    rw [shows.completeRound_eq isMember]
    by_cases whole : (Elaboration.ofLibrary library checks).graph.missing (Elaboration.secondaries library) members = []
    · exact .inl (by rw [if_pos whole, Graph.complete_of_nil whole])
    · refine .inr ⟨_, by rw [if_neg whole], fun node added => ?_, (Graph.complete_of_ne_nil whole).symm,
        Graph.length_others_extend_lt whole⟩
      exact Elaboration.mem_nodes_graph.mp (Graph.mem_extend.mp added).1
  · refine Nat.lt_succ_of_le ((List.length_filter_le _ _).trans (Nat.le_of_eq ?_))
    rw [Graph.nodes, List.length_range, Elaboration.size_graph, shows.size_graph]

theorem plan?_eq (shows : elaboration.Shows library checks) (inside : number < library.size) :
    elaboration.plan? number = some ((Elaboration.ofLibrary library checks).plan number) := by
  rw [plan?, shows.needed?_eq inside]
  exact shows.orderWithin?_eq (Graph.chosen_complete (Graph.chosen_chosen _ _))

/-! ## Reports -/

theorem step?_eq (shows : elaboration.Shows library checks) (inside : number < library.size) :
    elaboration.step? number = Elaboration.step? library number := by
  have filed := shows.sound.filed
  rw [shows.isLibrary] at filed
  obtain ⟨unit, present⟩ := Library.unit?_isSome inside
  rw [step?, shows.isLibrary, Elaboration.step?, present, filed.fileOf?_eq inside]
  rfl

theorem steps?_eq (shows : elaboration.Shows library checks) {order : List Nat}
    (inside : ∀ number ∈ order, number < library.size) :
    elaboration.steps? order = some ((Elaboration.ofLibrary library checks).steps order) := by
  have each (number : Nat) (member : number ∈ order) : (elaboration.step? number).isSome := by
    obtain ⟨unit, present⟩ := Library.unit?_isSome (inside number member)
    rw [shows.step?_eq (inside number member), Elaboration.step?, present]
    rfl
  rw [steps?, mapM_eq_filterMap each]
  exact congrArg some (List.filterMap_congr fun number member => shows.step?_eq (inside number member))

theorem diagnostics?_eq (shows : elaboration.Shows library checks) (inside : number < library.size) :
    elaboration.diagnostics? number = some ((library.resolve checks).diagnostics number) := by
  have present := List.getElem?_eq_getElem (length_resolve library checks ▸ inside)
  rw [diagnostics?, shows.isResolution, Resolution.diagnostics, present]
  rfl

theorem diagnosticsOf?_eq (shows : elaboration.Shows library checks) {order : List Nat}
    (inside : ∀ number ∈ order, number < library.size) :
    elaboration.diagnosticsOf? order = some ((Elaboration.ofLibrary library checks).diagnosticsOf order) := by
  rw [diagnosticsOf?, mapM_eq_map fun number member => shows.diagnostics?_eq (inside number member)]
  rfl

theorem planFor?_eq (shows : elaboration.Shows library checks) (name : SelectedName) :
    elaboration.planFor? name = some ((Elaboration.ofLibrary library checks).planFor name) := by
  have found := shows.sound.inStep.find?_eq name
  rw [shows.isLibrary] at found
  have whole : (Elaboration.ofLibrary library checks).library = library := rfl
  rw [planFor?, found, Elaboration.planFor, Elaboration.find, whole, shows.isLibrary]
  cases meant : library.find? name with
  | none => rfl
  | some entry => exact shows.plan?_eq (Library.index_lt (Catalog.mem_of_find? meant))

theorem runPragma?_eq (shows : elaboration.Shows library checks) {item : LibraryPragma}
    (member : item ∈ library.pragmas) :
    elaboration.runPragma? item = some ((Elaboration.ofLibrary library checks).runPragma item) := by
  have filed := shows.sound.filed
  rw [shows.isLibrary] at filed
  have file := Library.getElem?_files (filed.pragmas item member)
  unfold runPragma? Elaboration.runPragma
  cases item.pragma.target with
  | none => rfl
  | some target =>
    simp only [shows.isLibrary, file, shows.planFor?_eq, Option.bind_eq_bind, Option.bind_some, Option.map_some]
    cases planned : (Elaboration.ofLibrary library checks).planFor target with
    | error fault => rfl
    | ok order =>
      have inside := Elaboration.lt_of_mem_planFor planned
      simp only [shows.steps?_eq inside, shows.diagnosticsOf?_eq inside, Option.bind_some]
      rfl

theorem runPragmas?_eq (shows : elaboration.Shows library checks) :
    elaboration.runPragmas? = some (Elaboration.ofLibrary library checks).runPragmas := by
  rw [runPragmas?, shows.isLibrary]
  exact filterMap?_eq fun item member => shows.runPragma?_eq member

/-! ## Neighbours and trees -/

theorem roots_eq (shows : elaboration.Shows library checks) :
    elaboration.graph.roots = (Elaboration.ofLibrary library checks).roots := by
  obtain ⟨history, holds⟩ := shows.linked
  rw [ThreadedGraph.roots_eq holds.consistent, shows.plain]
  rfl

theorem dependenciesOf?_eq (shows : elaboration.Shows library checks) (inside : number < library.size) :
    elaboration.dependenciesOf? number = some ((Elaboration.ofLibrary library checks).dependenciesOf number) := by
  obtain ⟨history, holds⟩ := shows.linked
  rw [dependenciesOf?, ThreadedGraph.predecessors_eq holds.consistent (shows.size_graph ▸ inside), shows.plain]
  rfl

theorem dependentsOf?_eq (shows : elaboration.Shows library checks) (inside : number < library.size) :
    elaboration.dependentsOf? number = some ((Elaboration.ofLibrary library checks).dependentsOf number) := by
  obtain ⟨history, holds⟩ := shows.linked
  rw [dependentsOf?, ThreadedGraph.successors_eq holds.consistent (shows.size_graph ▸ inside), shows.plain]
  rfl

theorem tree?_eq (shows : elaboration.Shows library checks) (inside : number < library.size) :
    elaboration.tree? number = some ((Elaboration.ofLibrary library checks).tree number) := by
  obtain ⟨history, holds⟩ := shows.linked
  have isNode : number ∈ (Elaboration.ofLibrary library checks).graph.nodes := Elaboration.mem_nodes_graph.mpr inside
  have named : ∀ line ∈ (Elaboration.ofLibrary library checks).graph.tree number,
      (do return (line.1, ← library.display? line.2)) = some (line.1, library.display line.2) := by
    intro line isLine
    have drawn := Graph.mem_nodes_of_mem_treeFrom (Elaboration.simple_graph _) isNode isLine
    rw [Library.display?_eq (Elaboration.mem_nodes_graph.mp drawn)]
    rfl
  rw [tree?, holds.tree_eq (shows.size_graph ▸ inside), shows.plain, shows.isLibrary]
  exact mapM_eq_map named

end Shows

end ThreadedElaboration

end VhdlOrder
