import Mathlib
import VhdlOrder.Elaboration.Plan
import VhdlOrder.Proofs.Graph.Order
import VhdlOrder.Proofs.Visibility.Resolution

/-! # Orders of whole libraries

The dependency graph of a library has an edge wherever one unit needs another, and no others, however
often the dependency is recorded. A library therefore has an order exactly if no unit needs itself through
others, and the order places every unit behind all that it needs.
-/

namespace VhdlOrder

namespace Elaboration

variable {library : Library} {checks : Checks}

theorem mem_edges_iff {elaboration : Elaboration} {source target : Nat} :
    (source, target) ∈ elaboration.edges ↔
      target < elaboration.library.size ∧ elaboration.resolution.Needs target source := by
  simp [edges, Resolution.Needs]

@[simp] theorem size_graph : (ofLibrary library checks).graph.size = library.size := by
  rw [graph, Graph.size_addEdges]
  exact List.length_map _

theorem mem_nodes_graph {unit : Nat} :
    unit ∈ (ofLibrary library checks).graph.nodes ↔ unit < library.size := by
  rw [Graph.mem_nodes, size_graph]

theorem simple_graph (elaboration : Elaboration) : elaboration.graph.Simple :=
  Graph.simple_addEdges (Graph.simple_ofLabels _) _

/-- The edges of the graph are the needs of the units. -/
theorem edge_graph_iff {unit other : Nat} :
    (ofLibrary library checks).graph.Edge other unit ↔ (library.resolve checks).Needs unit other := by
  have noEdge : ¬ (Graph.ofLabels (library.units.map LibraryUnit.unit)).Edge other unit :=
    List.not_mem_nil
  have size : (Graph.ofLabels (library.units.map LibraryUnit.unit)).size = library.size :=
    List.length_map _
  change ((Graph.ofLabels (library.units.map LibraryUnit.unit)).addEdges _).Edge other unit ↔ _
  rw [Graph.edge_addEdges, mem_edges_iff, size]
  constructor
  · rintro (old | ⟨⟨-, needs⟩, -⟩)
    · exact absurd old noEdge
    · exact needs
  · intro needs
    obtain ⟨bound, ne, target, member, -, rfl⟩ := Library.of_needs_resolve needs
    exact .inr ⟨⟨bound, needs⟩, Library.index_lt member, bound, ne⟩

theorem order_eq_ok_iff {elaboration : Elaboration} {order : List Nat} :
    elaboration.order = .ok order ↔ elaboration.graph.order = .ok order := by
  unfold Elaboration.order
  cases elaboration.graph.order <;> simp [Except.mapError]

theorem perm_order {order : List Nat} (sorted : (ofLibrary library checks).order = .ok order) :
    order.Perm (List.range library.size) := by
  have perm := (Graph.orderWithin_ok (simple_graph _) (order_eq_ok_iff.mp sorted)).1
  rwa [Graph.chosen_nodes, Graph.nodes, size_graph] at perm

theorem precedes_of_edge {elaboration : Elaboration} {order : List Nat}
    (sorted : elaboration.order = .ok order) {source target : Nat}
    (edge : elaboration.graph.Edge source target) : Precedes order source target := by
  have simple := simple_graph elaboration
  exact (Graph.orderWithin_ok simple (order_eq_ok_iff.mp sorted)).2
    ⟨edge, simple.source_mem edge, simple.target_mem edge⟩

/-- Following edges is following needs backwards. -/
theorem acyclic_edgeWithin_iff {units : List Nat} :
    Acyclic ((ofLibrary library checks).graph.EdgeWithin units) ↔
      Acyclic fun unit other =>
        unit ∈ units ∧ other ∈ units ∧ (library.resolve checks).Needs unit other := by
  constructor
  · intro acyclic
    apply acyclic.swap.mono
    rintro unit other ⟨unitMember, otherMember, needs⟩
    exact ⟨edge_graph_iff.mpr needs, otherMember, unitMember⟩
  · intro acyclic
    apply acyclic.swap.mono
    rintro other unit ⟨edge, otherMember, unitMember⟩
    exact ⟨unitMember, otherMember, edge_graph_iff.mp edge⟩

end Elaboration

/-- `owner` is the unit that `entry` completes or configures: the package of a package body, the entity of
an architecture or of a configuration. -/
inductive Library.Completes (library : Library) (entry owner : Entry) : Prop
  | body {declarations : List Declaration} :
      entry.unit.contents = .packageBody declarations →
        library.package? entry.unit.name = some owner → Completes library entry owner
  | architecture {entity : Identifier} :
      entry.unit.contents = .architecture entity →
        library.primary? entity = some owner → owner.isEntity = true → Completes library entry owner
  | configuration {entity : Identifier} :
      entry.unit.contents = .configuration entity →
        library.primary? entity = some owner → owner.isEntity = true → Completes library entry owner

namespace Library

variable {library : Library} {checks : Checks} {entry owner : Entry}

theorem Completes.ownerOf? (completes : library.Completes entry owner) :
    Resolution.ownerOf? library entry.unit = some owner := by
  cases completes with
  | body contents found => simpa [Resolution.ownerOf?, contents] using found
  | architecture contents found isEntity =>
    simp [Resolution.ownerOf?, contents, found, isEntity]
  | configuration contents found isEntity =>
    simp [Resolution.ownerOf?, contents, found, isEntity]

theorem Completes.of_ownerOf? (found : Resolution.ownerOf? library entry.unit = some owner) :
    library.Completes entry owner := by
  unfold Resolution.ownerOf? at found
  split at found
  · rename_i contents
    exact .body contents found
  · rename_i contents
    obtain ⟨named, isEntity⟩ := Option.filter_eq_some_iff.mp found
    exact .architecture contents named isEntity
  · rename_i contents
    obtain ⟨named, isEntity⟩ := Option.filter_eq_some_iff.mp found
    exact .configuration contents named isEntity
  · contradiction

theorem Completes.unit_ne (completes : library.Completes entry owner) : entry.unit ≠ owner.unit := by
  intro same
  cases completes with
  | body contents found =>
    have isPackage := (of_package? found).2
    simp [Entry.isPackage, ← same, DesignUnit.kind, contents] at isPackage
  | architecture contents _ isEntity =>
    simp [Entry.isEntity, ← same, DesignUnit.kind, contents] at isEntity
  | configuration contents _ isEntity =>
    simp [Entry.isEntity, ← same, DesignUnit.kind, contents] at isEntity

theorem Completes.index_ne (completes : library.Completes entry owner) (member : entry ∈ library.entries) :
    owner.index ≠ entry.index := by
  intro same
  obtain ⟨name, primary⟩ := Resolution.exists_primary?_of_ownerOf? completes.ownerOf?
  rw [eq_of_index_eq (of_primary? primary).1 member same] at completes
  exact completes.unit_ne rfl

/-- A unit needs the unit that it completes. -/
theorem needs_of_completes (member : entry ∈ library.entries) (completes : library.Completes entry owner) :
    (library.resolve checks).Needs entry.index owner.index :=
  needs_resolve member (Resolution.exists_dependency_of_owner _ completes.ownerOf?) (completes.index_ne member)

end Library

namespace Layered

/-- A declaration of the package `b`. -/
def item : Declaration := .simple ⟨⟨7, 19⟩, .basic "i"⟩ .subtype

/-- A declaration of the package `t`, which refers to the one of `b`. -/
def limit : Declaration :=
  .withReferences ⟨⟨3, 12⟩, .basic "l"⟩ .constant [⟨.ofIdentifier (.basic "i"), ⟨3, 20⟩⟩]

/-- The package `t`, with `use work.c.all` in front of it. -/
def top : DesignUnit :=
  ⟨.basic "t", ⟨2, 1⟩, ⟨[], [⟨⟨.work, [.basic "c"]⟩, true, ⟨1, 5⟩⟩], []⟩, [], .package [] [limit] none⟩

/-- The package `c`, an instance of the package `b`. -/
def copy : DesignUnit :=
  ⟨.basic "c", ⟨5, 1⟩, .empty, [], .package [] [] (some ⟨⟨.work, [.basic "b"]⟩, ⟨5, 21⟩⟩)⟩

def base : DesignUnit := ⟨.basic "b", ⟨6, 1⟩, .empty, [], .package [] [item] none⟩

def body : DesignUnit := ⟨.basic "b", ⟨9, 1⟩, .empty, [], .packageBody []⟩

/-- A library in which every unit but the last stands in front of what it needs. -/
def library : Library :=
  ⟨.basic "lib", ["layered.vhd"], [⟨top, 0⟩, ⟨copy, 0⟩, ⟨base, 0⟩, ⟨body, 0⟩], [], []⟩

theorem order_library : (Elaboration.ofLibrary library .standard).order = .ok [2, 1, 0, 3] := by cbv

theorem needs_top : (library.resolve .standard).Needs 0 1 := by
  have recorded : (library.resolve .standard).dependencies 0 = [⟨1, .use, "work.c.all", ⟨1, 5⟩⟩] := by
    cbv
  exact ⟨_, recorded ▸ List.mem_cons_self, rfl⟩

end Layered

namespace Elaboration

/-- A library has an order exactly if its needs have no cycle. The order has every unit once and behind all
that it needs, and so behind the unit that it completes. -/
theorem order_sorts_needs (library : Library) (checks : Checks) :
    ((∃ order, (ofLibrary library checks).order = .ok order) ↔
        Acyclic (library.resolve checks).Needs) ∧
      ∀ order, (ofLibrary library checks).order = .ok order →
        order.Perm (List.range library.size) ∧
        (∀ unit other, (library.resolve checks).Needs unit other → Precedes order other unit) ∧
        ∀ entry ∈ library.entries, ∀ owner, library.Completes entry owner →
          Precedes order owner.index entry.index := by
  have respects {order : List Nat} (sorted : (ofLibrary library checks).order = .ok order)
      {unit other : Nat} (needs : (library.resolve checks).Needs unit other) :
      Precedes order other unit :=
    precedes_of_edge sorted (edge_graph_iff.mpr needs)
  refine ⟨?_, fun order sorted => ⟨perm_order sorted, fun unit other => respects sorted, ?_⟩⟩
  · simp only [order_eq_ok_iff]
    rw [Graph.order, Graph.exists_orderWithin_iff (simple_graph _), acyclic_edgeWithin_iff]
    constructor
    · intro acyclic
      apply acyclic.mono
      intro unit other needs
      obtain ⟨bound, -, target, member, -, rfl⟩ := Library.of_needs_resolve needs
      exact ⟨mem_nodes_graph.mpr bound, mem_nodes_graph.mpr (Library.index_lt member), needs⟩
    · intro acyclic
      exact acyclic.mono fun within => within.2.2
  · intro entry member owner completes
    exact respects sorted (Library.needs_of_completes member completes)

/-- The order of the units: the one that uses another comes after it, the body after its package. -/
theorem order_sorts_needs_layered :
    (ofLibrary Layered.library .standard).order = .ok [2, 1, 0, 3] ∧
      Precedes [2, 1, 0, 3] 1 0 ∧ Precedes [2, 1, 0, 3] 2 3 := by
  have member : ⟨3, Layered.body⟩ ∈ Layered.library.entries := Library.mem_entries_iff.mpr rfl
  have completes : Layered.library.Completes ⟨3, Layered.body⟩ ⟨2, Layered.base⟩ := .body rfl (by cbv)
  obtain ⟨-, behind, behindOwner⟩ :=
    (order_sorts_needs Layered.library .standard).2 [2, 1, 0, 3] Layered.order_library
  exact ⟨Layered.order_library, behind 0 1 Layered.needs_top, behindOwner _ member _ completes⟩

end Elaboration

end VhdlOrder
