import VhdlOrder.Proofs.Elaboration.Threading

/-! # Direct dependencies and dependents

However often one unit is recorded as a dependency of another one, the graph has one edge for it, and the edge is put
on the threads of both units at once. Every recorded number is that of a unit and never that of the unit itself, so no
edge is refused but repeated ones. What is listed for a unit is therefore what is recorded for it, read in either
direction, and a unit is a root exactly if it is recorded nowhere.
-/

namespace VhdlOrder

namespace Elaboration

variable {library : Library} {checks : Checks} {unit other : Nat}

theorem nodup_edges_graph (elaboration : Elaboration) : elaboration.graph.edges.Nodup :=
  Graph.nodup_addEdges List.nodup_nil elaboration.edges

theorem mem_dependenciesOf_iff :
    other ∈ (ofLibrary library checks).dependenciesOf unit ↔ (library.resolve checks).Needs unit other := by
  rw [dependenciesOf, List.mem_mergeSort, Graph.mem_predecessors_iff_edge, edge_graph_iff]

theorem mem_dependentsOf_iff :
    other ∈ (ofLibrary library checks).dependentsOf unit ↔ (library.resolve checks).Needs other unit := by
  rw [dependentsOf, List.mem_mergeSort, Graph.mem_successors]
  exact edge_graph_iff

theorem mem_roots_iff : unit ∈ (ofLibrary library checks).roots ↔
    unit < library.size ∧ ∀ other, ¬ (library.resolve checks).Needs other unit := by
  rw [roots, Graph.roots, List.mem_filter, mem_nodes_graph, List.isEmpty_iff, List.eq_nil_iff_forall_not_mem]
  refine and_congr_right fun _ => forall_congr' fun other => not_congr ?_
  exact Graph.mem_successors.trans edge_graph_iff

/-- What an elaboration lists as dependencies and dependents of its units, and as roots, is what is recorded as
dependencies of units, in strictly increasing order. -/
structure Mirrors (dependencies dependents : Nat → List Nat) (roots : List Nat) (size : Nat)
    (recorded : Nat → List Dependency) : Prop where
  mem_dependencies : ∀ unit other,
    other ∈ dependencies unit ↔ ∃ dependency ∈ recorded unit, dependency.unit = other
  mem_dependents : ∀ unit other, unit ∈ dependents other ↔ other ∈ dependencies unit
  increasing_dependencies : ∀ unit, (dependencies unit).Pairwise (· < ·)
  increasing_dependents : ∀ unit, (dependents unit).Pairwise (· < ·)
  mem_roots : ∀ unit, unit ∈ roots ↔ unit < size ∧ ∀ other, ∀ dependency ∈ recorded other, dependency.unit ≠ unit
  increasing_roots : roots.Pairwise (· < ·)

theorem mirrors_ofLibrary (library : Library) (checks : Checks) :
    Mirrors (ofLibrary library checks).dependenciesOf (ofLibrary library checks).dependentsOf
      (ofLibrary library checks).roots library.size (library.resolve checks).dependencies where
  mem_dependencies _ _ := mem_dependenciesOf_iff
  mem_dependents _ _ := mem_dependentsOf_iff.trans mem_dependenciesOf_iff.symm
  increasing_dependencies _ :=
    Graph.pairwise_lt_mergeSort (Graph.nodup_predecessors (nodup_edges_graph _) _)
  increasing_dependents _ :=
    Graph.pairwise_lt_mergeSort (Graph.nodup_successors (nodup_edges_graph _) _)
  mem_roots unit := by
    rw [mem_roots_iff]
    simp [Resolution.Needs]
  increasing_roots := List.pairwise_lt_range.filter _

/-- For every library the lists of neighbours are those that the resolution records; and for a library that sources
have been read into and that has been linked, the graph with threads answers for every unit with these lists. -/
theorem neighbours_mirror_dependencies :
    (∀ library checks, Mirrors (ofLibrary library checks).dependenciesOf (ofLibrary library checks).dependentsOf
      (ofLibrary library checks).roots library.size (library.resolve checks).dependencies) ∧
    ∀ name steps checks, ∃ catalog elaboration, Catalog.run? name steps = some catalog ∧
      ThreadedElaboration.ofCatalog? catalog checks = some elaboration ∧
      elaboration.resolution = (Library.run name steps).resolve checks ∧
      elaboration.graph.roots = (ofLibrary (Library.run name steps) checks).roots ∧
      ∀ unit < (Library.run name steps).size,
        elaboration.dependenciesOf? unit = some ((ofLibrary (Library.run name steps) checks).dependenciesOf unit) ∧
          elaboration.dependentsOf? unit = some ((ofLibrary (Library.run name steps) checks).dependentsOf unit) := by
  refine ⟨mirrors_ofLibrary, fun name steps checks => ?_⟩
  obtain ⟨ran, sound⟩ := Catalog.run?_eq name steps
  have same : (Catalog.run name steps).library = Library.run name steps := (Catalog.inStep_run name steps).1
  obtain ⟨elaboration, elaborated, shows⟩ := ThreadedElaboration.exists_ofCatalog? sound checks
  rw [same] at shows
  exact ⟨_, elaboration, ran, elaborated, shows.isResolution, shows.roots_eq,
    fun unit inside => ⟨shows.dependenciesOf?_eq inside, shows.dependentsOf?_eq inside⟩⟩

/-- The body of a package depends on the package and on what the package uses, whose dependents have the body, and
nothing depends on the body; the graph with threads answers for an architecture. -/
theorem neighbours_mirror_dependencies_knotted :
    (ofLibrary Knotted.library .standard).dependenciesOf 2 = [0, 1] ∧
      2 ∈ (ofLibrary Knotted.library .standard).dependentsOf 1 ∧ 2 ∈ (ofLibrary Knotted.library .standard).roots ∧
      ∃ catalog elaboration, Catalog.run? .work Library.Sample.steps = some catalog ∧
        ThreadedElaboration.ofCatalog? catalog .standard = some elaboration ∧
        elaboration.dependenciesOf? 1 =
          some ((ofLibrary (Library.run .work Library.Sample.steps) .standard).dependenciesOf 1) := by
  obtain ⟨mirrors, threaded⟩ := neighbours_mirror_dependencies
  have knotted := mirrors Knotted.library .standard
  have body (other : Nat) : other ∈ (ofLibrary Knotted.library .standard).dependenciesOf 2 ↔ other ∈ [0, 1] := by
    rw [knotted.mem_dependencies, Knotted.dependencies_body]
    simp [eq_comm]
  have alone : ∀ other, ∀ dependency ∈ (Knotted.library.resolve .standard).dependencies other, dependency.unit ≠ 2 := by
    intro other dependency recorded isBody
    obtain ⟨-, -, target, member, isPrimary, same⟩ := Library.of_needs_resolve ⟨dependency, recorded, isBody⟩
    obtain rfl := Library.eq_of_index_eq member Knotted.body_mem same.symm
    exact absurd isPrimary (by decide)
  obtain ⟨catalog, elaboration, ran, elaborated, -, -, answers⟩ := threaded .work Library.Sample.steps .standard
  exact ⟨List.Pairwise.eq_of_mem_iff (knotted.increasing_dependencies 2) (by decide) body,
    (knotted.mem_dependents 2 1).mpr ((body 1).mpr (by decide)), (knotted.mem_roots 2).mpr ⟨by decide, alone⟩,
    catalog, elaboration, ran, elaborated, (answers 1 (by decide +kernel)).1⟩

end Elaboration

end VhdlOrder
