import VhdlOrder.Proofs.Elaboration.Order
import VhdlOrder.Proofs.Graph.Cycle
import VhdlOrder.Proofs.Visibility.Dependencies

/-! # Units that nothing depends on

Whatever a unit depends on is a primary unit: the one that it completes, a context declaration, the package
that it is an instance of, or a unit that it uses or names. So nothing depends on a package body or an
architecture. They are roots of the dependency graph, and they lie on no cycle, for on a cycle every unit is
one that another unit depends on.
-/

namespace VhdlOrder

theorem DesignUnit.isPrimary_iff {unit : DesignUnit} :
    unit.isPrimary = true ↔ unit.kind ∈ [UnitKind.package, .entity, .configuration, .context] := by
  unfold isPrimary
  cases unit.kind <;> decide

namespace Library

variable {library : Library} {checks : Checks}

/-- A unit that is needed is a primary unit. -/
theorem isPrimary_of_needs {unit : Nat} {entry : Entry} (member : entry ∈ library.entries)
    (needs : (library.resolve checks).Needs unit entry.index) : entry.unit.isPrimary = true := by
  obtain ⟨-, -, target, targetMember, isPrimary, same⟩ := of_needs_resolve needs
  rwa [eq_of_index_eq member targetMember same]

/-- What is recorded for a unit is apt for it. -/
theorem apt_of_mem_dependencies {entry : Entry} (member : entry ∈ library.entries) {dependency : Dependency}
    (recorded : dependency ∈ (library.resolve checks).dependencies entry.index) :
    dependency.Apt library entry.unit := by
  rw [dependencies_resolve member] at recorded
  exact Resolution.apt_findings library _ entry dependency (List.mem_filter.mp recorded).1

/-- A dependency leads from a unit to another one, which is of the kind that it asks for. -/
theorem exists_target_of_mem_dependencies {index : Nat} {dependency : Dependency}
    (recorded : dependency ∈ (library.resolve checks).dependencies index) :
    ∃ entry ∈ library.entries, entry.index = index ∧
      ∃ target ∈ library.entries, target.index = dependency.unit ∧ target.index ≠ index ∧
        target.unit.isPrimary = true ∧
        (dependency.kind = .primary → library.Completes entry target) ∧
        (dependency.kind = .context → target.unit.kind = .context) ∧
        (dependency.kind = .instantiation → target.unit.kind = .package) := by
  obtain ⟨bound, ne, target, targetMember, isPrimary, same⟩ := of_needs_resolve ⟨dependency, recorded, rfl⟩
  obtain ⟨entry, member, rfl⟩ := exists_entry bound
  have apt := apt_of_mem_dependencies member recorded
  refine ⟨entry, member, rfl, target, targetMember, same.symm, same ▸ ne, isPrimary, ?_, ?_, ?_⟩
  · intro isKind
    obtain ⟨owner, completed, sameOwner⟩ := apt.primary isKind
    obtain ⟨name, named⟩ := Resolution.exists_primary?_of_ownerOf? completed
    obtain rfl := eq_of_index_eq targetMember (of_primary? named).1 (same.symm.trans sameOwner)
    exact .of_ownerOf? completed
  · intro isKind
    obtain ⟨other, otherMember, isContext, sameOther⟩ := apt.context isKind
    rwa [eq_of_index_eq targetMember otherMember (same.symm.trans sameOther)]
  · intro isKind
    obtain ⟨other, otherMember, isPackage, sameOther⟩ := apt.instantiation isKind
    rwa [eq_of_index_eq targetMember otherMember (same.symm.trans sameOther)]

end Library

namespace Elaboration

variable {library : Library} {checks : Checks} {entry : Entry}

theorem successors_eq_nil (member : entry ∈ library.entries) (secondary : entry.unit.isPrimary = false) :
    (ofLibrary library checks).graph.successors entry.index = [] := by
  apply List.eq_nil_iff_forall_not_mem.mpr
  intro unit successor
  have needs := edge_graph_iff.mp (Graph.mem_successors.mp successor)
  rw [Library.isPrimary_of_needs member needs] at secondary
  cases secondary

/-- A cycle has primary units only. -/
theorem exists_primary_of_mem_cycle {within cycle : List Nat}
    (failed : (ofLibrary library checks).graph.orderWithin within = .error cycle) {unit : Nat}
    (onCycle : unit ∈ cycle) : ∃ entry ∈ library.entries, entry.index = unit ∧ entry.unit.isPrimary = true := by
  obtain ⟨dependent, edge, -, -⟩ := (Graph.isCycle_of_orderWithin_eq_error failed).exists_step onCycle
  obtain ⟨-, -, target, member, isPrimary, same⟩ := Library.of_needs_resolve (edge_graph_iff.mp edge)
  exact ⟨target, member, same.symm, isPrimary⟩

/-- What is reported in place of an order of some units is a cycle that a sort of them finds. -/
theorem exists_cycle_of_error {elaboration : Elaboration} {within : List Nat} {fault : OrderFault}
    (failed : (elaboration.graph.orderWithin within).mapError elaboration.cycleFault = .error fault) :
    ∃ cycle, elaboration.graph.orderWithin within = .error cycle ∧ fault = elaboration.cycleFault cycle := by
  cases found : elaboration.graph.orderWithin within with
  | ok order =>
    rw [found] at failed
    cases failed
  | error cycle =>
    rw [found] at failed
    cases failed
    exact ⟨cycle, rfl, rfl⟩

end Elaboration

namespace Knotted

/-- The package `a`, with `use work.b.all` in front of it. -/
def first : DesignUnit :=
  ⟨.basic "a", ⟨2, 1⟩, ⟨[], [⟨⟨.work, [.basic "b"]⟩, true, ⟨1, 5⟩⟩], []⟩, [], .package [] [] none⟩

/-- The package `b`, with `use work.a.all` in front of it. -/
def second : DesignUnit :=
  ⟨.basic "b", ⟨5, 1⟩, ⟨[], [⟨⟨.work, [.basic "a"]⟩, true, ⟨4, 5⟩⟩], []⟩, [], .package [] [] none⟩

def body : Entry := ⟨2, ⟨.basic "a", ⟨7, 1⟩, .empty, [], .packageBody []⟩⟩

/-- A library without an order: two packages use each other. -/
def library : Library :=
  ⟨.basic "lib", ["knotted.vhd"], [⟨first, 0⟩, ⟨second, 0⟩, ⟨body.unit, 0⟩], [], []⟩

theorem order_library : (Elaboration.ofLibrary library .standard).order = .error (.cycle ["a", "b", "a"]) := by
  cbv

theorem body_mem : body ∈ library.entries := Library.mem_entries_iff.mpr rfl

theorem dependencies_body : (library.resolve .standard).dependencies 2 =
    [⟨0, .primary, "a", ⟨7, 1⟩⟩, ⟨1, .use, "work.b.all", ⟨1, 5⟩⟩] := by cbv

end Knotted

namespace Elaboration

/-- Every dependency is on another unit of the library, which is a primary unit and of the kind that the
dependency asks for. Therefore nothing depends on package bodies and architectures: they are roots, and no
cycle that is reported in place of an order or a plan has one of them. -/
theorem dependencies_on_primary_units (library : Library) (checks : Checks) :
    (∀ index, ∀ dependency ∈ (library.resolve checks).dependencies index,
      ∃ entry ∈ library.entries, entry.index = index ∧
        ∃ target ∈ library.entries, target.index = dependency.unit ∧ dependency.unit < library.size ∧
          dependency.unit ≠ index ∧
          target.unit.kind ∈ [UnitKind.package, .entity, .configuration, .context] ∧
          (dependency.kind = .primary → library.Completes entry target) ∧
          (dependency.kind = .context → target.unit.kind = .context) ∧
          (dependency.kind = .instantiation → target.unit.kind = .package)) ∧
      (∀ entry ∈ library.entries, entry.unit.kind = .packageBody ∨ entry.unit.kind = .architecture →
        (ofLibrary library checks).dependentsOf entry.index = [] ∧
          entry.index ∈ (ofLibrary library checks).roots) ∧
      (∀ fault, (ofLibrary library checks).order = .error fault →
        ∃ cycle, (ofLibrary library checks).graph.order = .error cycle ∧
          fault = (ofLibrary library checks).cycleFault cycle ∧
          ∀ unit ∈ cycle, ∃ entry ∈ library.entries, entry.index = unit ∧
            entry.unit.kind ≠ .packageBody ∧ entry.unit.kind ≠ .architecture) ∧
      ∀ target fault, (ofLibrary library checks).plan target = .error fault →
        ∃ cycle, (ofLibrary library checks).graph.orderWithin ((ofLibrary library checks).needed target) =
            .error cycle ∧
          fault = (ofLibrary library checks).cycleFault cycle ∧
          ∀ unit ∈ cycle, ∃ entry ∈ library.entries, entry.index = unit ∧
            entry.unit.kind ≠ .packageBody ∧ entry.unit.kind ≠ .architecture := by
  have cycles (within : List Nat) (fault : OrderFault)
      (failed : ((ofLibrary library checks).graph.orderWithin within).mapError
        (ofLibrary library checks).cycleFault = .error fault) :
      ∃ cycle, (ofLibrary library checks).graph.orderWithin within = .error cycle ∧
        fault = (ofLibrary library checks).cycleFault cycle ∧
        ∀ unit ∈ cycle, ∃ entry ∈ library.entries, entry.index = unit ∧
          entry.unit.kind ≠ .packageBody ∧ entry.unit.kind ≠ .architecture := by
    obtain ⟨cycle, found, rfl⟩ := exists_cycle_of_error failed
    refine ⟨cycle, found, rfl, fun unit onCycle => ?_⟩
    obtain ⟨entry, member, same, isPrimary⟩ := exists_primary_of_mem_cycle found onCycle
    exact ⟨entry, member, same, by simpa [DesignUnit.isPrimary] using isPrimary⟩
  refine ⟨?_, ?_, cycles _, fun target => cycles _⟩
  · intro index dependency recorded
    obtain ⟨entry, member, isIndex, target, targetMember, same, ne, isPrimary, kinds⟩ :=
      Library.exists_target_of_mem_dependencies recorded
    rw [same] at ne
    exact ⟨entry, member, isIndex, target, targetMember, same, same ▸ Library.index_lt targetMember, ne,
      DesignUnit.isPrimary_iff.mp isPrimary, kinds⟩
  · intro entry member kind
    have secondary : entry.unit.isPrimary = false := by
      rcases kind with kind | kind <;> simp [DesignUnit.isPrimary, kind]
    have alone : (ofLibrary library checks).graph.successors entry.index = [] :=
      successors_eq_nil member secondary
    constructor
    · rw [dependentsOf, alone, List.mergeSort_nil]
    · rw [roots, Graph.roots, List.mem_filter, alone]
      exact ⟨mem_nodes_graph.mpr (Library.index_lt member), rfl⟩

/-- The body of a package depends on the package and on what the package uses; the cycle of the two packages
leaves the body out. -/
theorem dependencies_on_primary_units_knotted :
    (∃ owner ∈ Knotted.library.entries, owner.index = 0 ∧ Knotted.library.Completes Knotted.body owner) ∧
      2 ∈ (ofLibrary Knotted.library .standard).roots ∧
      ∃ cycle, OrderFault.cycle ["a", "b", "a"] = (ofLibrary Knotted.library .standard).cycleFault cycle ∧
        ∀ unit ∈ cycle, ∃ entry ∈ Knotted.library.entries, entry.index = unit ∧
          entry.unit.kind ≠ .packageBody ∧ entry.unit.kind ≠ .architecture := by
  obtain ⟨onPrimaries, alone, ordered, -⟩ := dependencies_on_primary_units Knotted.library .standard
  have recorded : ⟨0, .primary, "a", ⟨7, 1⟩⟩ ∈ (Knotted.library.resolve .standard).dependencies 2 :=
    Knotted.dependencies_body ▸ List.mem_cons_self
  obtain ⟨entry, member, isIndex, owner, ownerMember, same, -, -, -, completes, -⟩ := onPrimaries 2 _ recorded
  obtain rfl := Library.eq_of_index_eq member Knotted.body_mem isIndex
  obtain ⟨cycle, -, isCycle, primaries⟩ := ordered _ Knotted.order_library
  exact ⟨⟨owner, ownerMember, same, completes rfl⟩, (alone Knotted.body Knotted.body_mem (.inl rfl)).2,
    cycle, isCycle, primaries⟩

end Elaboration

end VhdlOrder
