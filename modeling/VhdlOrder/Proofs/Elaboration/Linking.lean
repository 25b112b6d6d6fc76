import VhdlOrder.Library.Source
import VhdlOrder.Proofs.Elaboration.Dependents

/-! # Linking and primary units

A package body completes a package, an architecture completes an entity, and a configuration is of an entity.
Linking looks whether that unit is in the library and reports those for which it is not; resolution looks for it
again and records a dependency on it. Both find the same, so each of these units is either reported once or depends
on its primary unit.
-/

namespace VhdlOrder

/-- Whether the unit is one that completes or configures another unit. -/
def DesignUnit.asksForOwner (unit : DesignUnit) : Bool :=
  [UnitKind.packageBody, .architecture, .configuration].contains unit.kind

/-- What is wrong with a unit that completes or configures a unit that is missing. -/
def DesignUnit.ownerMissing (unit : DesignUnit) : Problem :=
  match unit.contents with
  | .architecture entity | .configuration entity => .missingEntity unit.kind unit.name entity
  | _ => .bodyWithoutPackage unit.name

/-- Whether the resolution has a dependency of the unit on its primary unit. -/
def Resolution.recordsOwner (resolution : Resolution) (entry : Entry) : Bool :=
  (resolution.dependencies entry.index).any fun dependency => dependency.kind == .primary

namespace Library

variable {library : Library} {checks : Checks} {entry : Entry}

/-- The report that the primary unit of a unit is missing, at the place of the unit. -/
def ownerReport (library : Library) (entry : Entry) : Diagnostic :=
  .place .error entry.unit.ownerMissing (library.fileOf entry.index) entry.unit.position

/-- Linking finds fault with the units that ask for a primary unit where resolution finds none. -/
theorem linkProblem?_eq (unit : DesignUnit) :
    library.linkProblem? unit =
      if unit.asksForOwner && (Resolution.ownerOf? library unit).isNone then some unit.ownerMissing else none := by
  have filtered (entity : Identifier) : ((library.primary? entity).filter Entry.isEntity).isNone =
      !(library.primary? entity).any Entry.isEntity := by
    rw [← Option.not_isSome, Option.isSome_filter]
  unfold linkProblem? Resolution.ownerOf? DesignUnit.asksForOwner DesignUnit.ownerMissing DesignUnit.kind
  cases unit.contents with
  | package | entity | context => rfl
  | packageBody => cases library.package? unit.name <;> rfl
  | architecture entity | configuration entity =>
    dsimp only
    rw [filtered]
    cases (library.primary? entity).any Entry.isEntity <;> rfl

/-- What linking reports, by the entries of the library. -/
theorem linkDiagnostics_eq :
    library.linkDiagnostics =
      (library.entries.filter fun entry =>
        entry.unit.asksForOwner && (Resolution.ownerOf? library entry.unit).isNone).map library.ownerReport := by
  have joined := library.filterMap_units fun unit file =>
    (library.linkProblem? unit).map fun problem => Diagnostic.place .error problem file unit.position
  rw [← List.filterMap_eq_map, List.filterMap_filter]
  refine joined.trans (List.filterMap_congr fun entry _ => ?_)
  simp only [linkProblem?_eq]
  split <;> rfl

/-- A dependency on the primary unit is recorded exactly for the units that have one. -/
theorem recordsOwner_resolve (member : entry ∈ library.entries) :
    (library.resolve checks).recordsOwner entry = (Resolution.ownerOf? library entry.unit).isSome := by
  rw [Bool.eq_iff_iff, Resolution.recordsOwner, List.any_eq_true, Option.isSome_iff_exists]
  constructor
  · rintro ⟨dependency, recorded, isPrimary⟩
    obtain ⟨owner, found, -⟩ := (apt_of_mem_dependencies member recorded).primary (by simpa using isPrimary)
    exact ⟨owner, found⟩
  · rintro ⟨owner, found⟩
    obtain ⟨dependency, recorded, isPrimary, same⟩ := Resolution.exists_primary_of_owner checks.deferredConstants found
    refine ⟨dependency, ?_, by simp [isPrimary]⟩
    rw [dependencies_resolve member, List.mem_filter, bne_iff_ne, same]
    exact ⟨recorded, (Completes.of_ownerOf? found).index_ne member⟩

end Library

namespace Orphaned

/-- An entity, with the name of a package that is missing. -/
def entity : DesignUnit := ⟨.basic "p", ⟨1, 1⟩, .empty, [], .entity [] []⟩

def body : DesignUnit := ⟨.basic "p", ⟨2, 1⟩, .empty, [], .packageBody []⟩

/-- A configuration that is its own entity by name. -/
def configuration : DesignUnit := ⟨.basic "c", ⟨3, 1⟩, .empty, [], .configuration (.basic "c")⟩

def architecture : Entry := ⟨3, ⟨.basic "a", ⟨4, 1⟩, .empty, [], .architecture (.basic "P")⟩⟩

/-- A library in which only the architecture has the unit that it asks for. -/
def library : Library :=
  ⟨.work, ["o.vhd"], [⟨entity, 0⟩, ⟨body, 0⟩, ⟨configuration, 0⟩, ⟨architecture.unit, 0⟩], [], []⟩

theorem architecture_mem : architecture ∈ library.entries := Library.mem_entries_iff.mpr rfl

theorem dependencies_architecture : (library.link.resolve .standard).dependencies 3 =
    [⟨0, .primary, "P", ⟨4, 1⟩⟩] := by cbv

theorem unowned_library : (library.entries.filter fun entry =>
    entry.unit.asksForOwner && !(library.link.resolve .standard).recordsOwner entry) =
      [⟨1, body⟩, ⟨2, configuration⟩] := by cbv

end Orphaned

namespace Library

/-- Linking adds one report for each package body, architecture and configuration for which the resolution records
no dependency on its primary unit, in order, and nothing else. Where such a dependency is recorded, it is on the
package of the name of the body, or on the entity that the architecture or configuration names. -/
theorem link_reports_unowned (library : Library) (checks : Checks) :
    library.link.diagnostics = library.diagnostics ++
        (library.entries.filter fun entry =>
          entry.unit.asksForOwner && !(library.link.resolve checks).recordsOwner entry).map library.ownerReport ∧
      ∀ entry ∈ library.entries, ∀ dependency ∈ (library.link.resolve checks).dependencies entry.index,
        dependency.kind = .primary →
          ∃ owner ∈ library.entries, owner.index = dependency.unit ∧ library.Completes entry owner := by
  constructor
  · change library.diagnostics ++ library.linkDiagnostics = _
    rw [linkDiagnostics_eq]
    congr 2
    refine List.filter_congr fun entry member => ?_
    -- linking changes diagnostics only, so the linked library has the same units
    have linked : entry ∈ library.link.entries := member
    rw [recordsOwner_resolve linked, Option.not_isSome]
    rfl
  · intro entry member dependency recorded isPrimary
    obtain ⟨source, sourceMember, sameSource, owner, ownerMember, sameOwner, -, -, completes, -⟩ :=
      exists_target_of_mem_dependencies recorded
    obtain rfl := eq_of_index_eq sourceMember member sameSource
    exact ⟨owner, ownerMember, sameOwner, .of_ownerOf? (completes isPrimary).ownerOf?⟩

/-- The body and the configuration are reported, the architecture depends on the entity. -/
theorem link_reports_unowned_namesake :
    Orphaned.library.link.diagnostics =
        [.place .error (.bodyWithoutPackage (.basic "p")) "o.vhd" ⟨2, 1⟩,
          .place .error (.missingEntity .configuration (.basic "c") (.basic "c")) "o.vhd" ⟨3, 1⟩] ∧
      ∃ owner ∈ Orphaned.library.entries, owner.index = 0 ∧
        Orphaned.library.Completes Orphaned.architecture owner := by
  obtain ⟨reports, completes⟩ := link_reports_unowned Orphaned.library .standard
  refine ⟨?_, ?_⟩
  · rw [reports, Orphaned.unowned_library]
    rfl
  · exact completes _ Orphaned.architecture_mem ⟨0, .primary, "P", ⟨4, 1⟩⟩
      (Orphaned.dependencies_architecture ▸ List.mem_cons_self) rfl

end Library

end VhdlOrder
