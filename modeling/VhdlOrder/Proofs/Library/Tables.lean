import VhdlOrder.Proofs.Library.Additions

/-! # Tables of names

A library need not be searched from its beginning for every name. It can be kept with three tables: the numbers of
its primary units and of its package bodies by their names, and those of its architectures by their entities. A unit
is entered when it is added, and the tables tell whether its name is taken. Whatever is read in this way, the library
is the one that is read without tables, and the tables answer what a search does.
-/

namespace VhdlOrder

open Std (HashMap)

/-- Keys are hashed by the numbers of their characters. -/
instance hashableKey : Hashable (Bool × List Char) := ⟨fun (extended, text) => hash (extended, text.map Char.toNat)⟩

/-- The numbers of units by the keys of names. -/
structure Tables where
  primaries : HashMap (Bool × List Char) Nat
  bodies : HashMap (Bool × List Char) Nat
  architectures : HashMap (Bool × List Char) (List Nat)

namespace Tables

def empty : Tables := ⟨∅, ∅, ∅⟩

/-- The number of the primary unit of a name. -/
def primary? (tables : Tables) (name : Identifier) : Option Nat := tables.primaries[name.key]?

/-- The number of the body of the package of a name. -/
def body? (tables : Tables) (name : Identifier) : Option Nat := tables.bodies[name.key]?

/-- The numbers of the architectures of an entity. -/
def architecturesOf (tables : Tables) (entity : Identifier) : List Nat := tables.architectures.getD entity.key []

/-- Enters the unit with the number. -/
def enter (tables : Tables) (number : Nat) (unit : DesignUnit) : Tables :=
  match unit.contents with
  | .packageBody _ => { tables with bodies := tables.bodies.insert unit.name.key number }
  | .architecture entity =>
      let numbers := tables.architecturesOf entity ++ [number]
      { tables with architectures := tables.architectures.insert entity.key numbers }
  | _ => { tables with primaries := tables.primaries.insert unit.name.key number }

variable (tables : Tables) (number : Nat) (unit : DesignUnit) (name entity : Identifier)

theorem primary?_enter : (tables.enter number unit).primary? name =
    if (unit.isPrimary && unit.name.same name) = true then some number else tables.primary? name := by
  unfold enter DesignUnit.isPrimary DesignUnit.kind
  cases unit.contents <;> simp [primary?, Identifier.same, Std.HashMap.getElem?_insert]

theorem body?_enter : (tables.enter number unit).body? name =
    if (unit.kind == .packageBody && unit.name.same name) = true then some number else tables.body? name := by
  unfold enter DesignUnit.kind
  cases unit.contents <;> simp [body?, Identifier.same, Std.HashMap.getElem?_insert]

theorem architecturesOf_enter : (tables.enter number unit).architecturesOf entity =
    if Library.isArchitectureOf entity unit = true then tables.architecturesOf entity ++ [number]
    else tables.architecturesOf entity := by
  unfold enter Library.isArchitectureOf
  cases unit.contents with
  | architecture owner =>
    by_cases same : owner.key = entity.key <;>
      simp [architecturesOf, Identifier.same, Std.HashMap.getD_insert, same]
  | package | packageBody | entity | configuration | context => simp [architecturesOf]

end Tables

/-- A library with the tables of its names. -/
structure Catalog where
  library : Library
  tables : Tables

namespace Catalog

/-- The number of the unit that has the name of `unit` already. -/
def holder? (catalog : Catalog) (unit : DesignUnit) : Option Nat :=
  match unit.contents with
  | .packageBody _ => catalog.tables.body? unit.name
  | .architecture entity => (catalog.tables.architecturesOf entity).find? fun number =>
      (catalog.library.unit? number).any fun other => other.name.same unit.name
  | _ => catalog.tables.primary? unit.name

/-- Adds a unit of the source `source` and enters it, unless its name is taken. -/
def addUnit (catalog : Catalog) (source : Nat) (unit : DesignUnit) : Catalog :=
  match catalog.holder? unit with
  | some first =>
      let problem := .duplicateUnit unit.kind (Library.duplicateName unit) (catalog.library.locate first)
      { catalog with
        library := catalog.library.report (.place .error problem (catalog.library.path source) unit.position) }
  | none =>
      { library := { catalog.library with units := catalog.library.units ++ [⟨unit, source⟩] }
        tables := catalog.tables.enter catalog.library.size unit }

/-- Adds the units and pragmas of a source. -/
def addSource (catalog : Catalog) (file text directive : String) : Catalog :=
  let source := catalog.library.files.length
  (Library.parsed text).foldl (fun catalog => catalog.addUnit source)
    { catalog with library := catalog.library.opened file text directive }

/-- The catalog after a step. -/
def step (catalog : Catalog) : Library.Step → Catalog
  | .add file text directive => catalog.addSource file text directive
  | .link => { catalog with library := catalog.library.link }

/-- The catalog after some steps from the empty one on. -/
def run (name : Identifier) (steps : List Library.Step) : Catalog := steps.foldl step ⟨.empty name, .empty⟩

/-- The tables answer the numbers of the units that a search of the library finds. -/
structure InStep (catalog : Catalog) : Prop where
  primary : ∀ name, catalog.tables.primary? name = (catalog.library.primary? name).map Entry.index
  body : ∀ name, catalog.tables.body? name = (catalog.library.body? name).map Entry.index
  architectures : ∀ entity,
    catalog.tables.architecturesOf entity = (catalog.library.architectures entity).map Entry.index

variable {catalog : Catalog}

/-- The tables are in step with every library that has the same units. -/
theorem InStep.congr (inStep : catalog.InStep) {library : Library} (same : library.units = catalog.library.units) :
    InStep ⟨library, catalog.tables⟩ := by
  have entries : library.entries = catalog.library.entries := by rw [Library.entries, same, Library.entries]
  constructor
  · simpa [Library.primary?, entries] using inStep.primary
  · simpa [Library.body?, entries] using inStep.body
  · simpa [Library.architectures, entries] using inStep.architectures

/-- The tables tell who has a name. -/
theorem InStep.holder?_eq (inStep : catalog.InStep) (unit : DesignUnit) :
    catalog.holder? unit = (catalog.library.holder? unit).map Entry.index := by
  unfold holder? Library.holder?
  cases unit.contents with
  | packageBody => exact inStep.body unit.name
  | architecture entity =>
    have named : ∀ entry ∈ catalog.library.architectures entity,
        ((catalog.library.unit? entry.index).any fun other => other.name.same unit.name) =
          entry.unit.name.same unit.name := by
      intro entry member
      rw [Library.mem_entries_iff.mp (Library.mem_of_mem_architectures member), Option.any_some]
    dsimp only
    rw [inStep.architectures, List.find?_map, Library.architecture?, ← List.head?_filter, ← List.head?_filter]
    congr 2
    exact List.filter_congr named
  | package | entity | configuration | context => exact inStep.primary unit.name

/-- Behind entries that do not fit, the first one that fits is found. -/
theorem map_index_find?_append {entries : List Entry} (fits : DesignUnit → Bool) {unit : DesignUnit}
    (others : fits unit = true → ∀ entry ∈ entries, fits entry.unit = false) (number : Nat) :
    ((entries ++ [(⟨number, unit⟩ : Entry)]).find? fun entry => fits entry.unit).map Entry.index =
      if fits unit = true then some number else (entries.find? fun entry => fits entry.unit).map Entry.index := by
  rw [List.find?_append]
  split
  · rename_i fitting
    have missed : (entries.find? fun entry => fits entry.unit) = none := by
      simpa using others fitting
    simp [missed, fitting]
  · rename_i unfit
    simp [unfit]

/-- A unit with a free name is entered when it is put behind the others. -/
theorem InStep.enter (inStep : catalog.InStep) {unit : DesignUnit}
    (free : unit.designation ∉ catalog.library.designations) {source : Nat} {extended : Library}
    (units : extended.units = catalog.library.units ++ [⟨unit, source⟩]) :
    InStep ⟨extended, catalog.tables.enter catalog.library.size unit⟩ := by
  have entries : extended.entries = catalog.library.entries ++ [⟨catalog.library.size, unit⟩] := by
    rw [Library.entries, units, Library.numbered_append, Nat.zero_add]
    rfl
  have differs (entry : Entry) (member : entry ∈ catalog.library.entries) :
      entry.unit.designation ≠ unit.designation := by
    intro same
    rw [← same, Library.designations_eq_map_entries] at free
    exact free (List.mem_map_of_mem member)
  constructor
  · intro name
    have others (fits : (unit.isPrimary && unit.name.same name) = true) :
        ∀ entry ∈ catalog.library.entries, (entry.unit.isPrimary && entry.unit.name.same name) = false := by
      intro entry member
      rw [Bool.and_eq_true, ← DesignUnit.designation_eq_primary_iff] at fits
      rw [Bool.eq_false_iff, ne_eq, Bool.and_eq_true, ← DesignUnit.designation_eq_primary_iff, ← fits]
      exact differs entry member
    rw [Tables.primary?_enter, inStep.primary, Library.primary?, Library.primary?, entries]
    exact (map_index_find?_append (fun unit => unit.isPrimary && unit.name.same name) others _).symm
  · intro name
    have others (fits : (unit.kind == .packageBody && unit.name.same name) = true) :
        ∀ entry ∈ catalog.library.entries, (entry.unit.kind == .packageBody && entry.unit.name.same name) = false := by
      intro entry member
      rw [Bool.and_eq_true, beq_iff_eq, ← DesignUnit.designation_eq_body_iff] at fits
      rw [Bool.eq_false_iff, ne_eq, Bool.and_eq_true, beq_iff_eq, ← DesignUnit.designation_eq_body_iff, ← fits]
      exact differs entry member
    rw [Tables.body?_enter, inStep.body, Library.body?, Library.body?, entries]
    exact (map_index_find?_append (fun unit => unit.kind == .packageBody && unit.name.same name) others _).symm
  · intro entity
    rw [Tables.architecturesOf_enter, inStep.architectures, Library.architectures, Library.architectures, entries,
      List.filter_append, List.map_append]
    cases isOf : Library.isArchitectureOf entity unit <;> simp [isOf]

/-- A unit is added with tables as it is without them. -/
theorem InStep.addUnit (inStep : catalog.InStep) (source : Nat) (unit : DesignUnit) :
    (catalog.addUnit source unit).library = (catalog.library.addUnit source unit).2 ∧
      (catalog.addUnit source unit).InStep := by
  unfold Catalog.addUnit Library.addUnit
  rw [inStep.holder?_eq]
  cases holder : catalog.library.holder? unit with
  | some first => exact ⟨rfl, inStep.congr rfl⟩
  | none => exact ⟨rfl, inStep.enter (Library.holder?_eq_none_iff.mp holder) rfl⟩

theorem InStep.addUnits (inStep : catalog.InStep) (source : Nat) (units : List DesignUnit) :
    (units.foldl (fun catalog => catalog.addUnit source) catalog).library = (catalog.library.addUnits source units).2 ∧
      (units.foldl (fun catalog => catalog.addUnit source) catalog).InStep := by
  induction units generalizing catalog with
  | nil => exact ⟨rfl, inStep⟩
  | cons unit rest ih =>
    obtain ⟨library, inStep'⟩ := inStep.addUnit source unit
    obtain ⟨all, inStep''⟩ := ih inStep'
    rw [library] at all
    exact ⟨all, inStep''⟩

/-- A step is taken with tables as it is without them. -/
theorem InStep.step (inStep : catalog.InStep) (next : Library.Step) :
    (catalog.step next).library = catalog.library.step next ∧ (catalog.step next).InStep := by
  cases next with
  | link => exact ⟨rfl, inStep.congr rfl⟩
  | add file text directive =>
    have units : (catalog.library.opened file text directive).units = catalog.library.units := List.append_nil _
    obtain ⟨library, inStep'⟩ := (inStep.congr units).addUnits catalog.library.files.length (Library.parsed text)
    refine ⟨library.trans ?_, inStep'⟩
    rw [Library.step, Library.addSource_eq_addUnits]
    rfl

theorem inStep_run (name : Identifier) (steps : List Library.Step) :
    (run name steps).library = Library.run name steps ∧ (run name steps).InStep := by
  have after (catalog : Catalog) (inStep : catalog.InStep) :
      (steps.foldl step catalog).library = steps.foldl Library.step catalog.library ∧
        (steps.foldl step catalog).InStep := by
    induction steps generalizing catalog with
    | nil => exact ⟨rfl, inStep⟩
    | cons next rest ih =>
      obtain ⟨library, inStep'⟩ := inStep.step next
      obtain ⟨all, inStep''⟩ := ih (catalog.step next) inStep'
      rw [library] at all
      exact ⟨all, inStep''⟩
  refine after ⟨.empty name, .empty⟩ ⟨fun _ => ?_, fun _ => ?_, fun _ => ?_⟩
  · exact Std.HashMap.getElem?_empty
  · exact Std.HashMap.getElem?_empty
  · exact Std.HashMap.getD_empty

end Catalog

/-- The tables know the units of the library: the number of a primary unit or of a body under each spelling of its
name, which no other unit of the kind has, and those of the architectures of an entity, the names of which differ, in
ascending order; and they hold no other numbers. -/
structure Tables.Describe (tables : Tables) (library : Library) : Prop where
  primary_iff : ∀ name number, tables.primary? name = some number ↔ ∃ bound : number < library.units.length,
    library.units[number].unit.isPrimary = true ∧ library.units[number].unit.name.same name = true
  body_iff : ∀ name number, tables.body? name = some number ↔ ∃ bound : number < library.units.length,
    library.units[number].unit.kind = .packageBody ∧ library.units[number].unit.name.same name = true
  architecture_iff : ∀ entity number, number ∈ tables.architecturesOf entity ↔
    ∃ bound : number < library.units.length, Library.isArchitectureOf entity library.units[number].unit = true
  ascending : ∀ entity, (tables.architecturesOf entity).Pairwise (· < ·)
  distinct : ∀ entity, ∀ first ∈ tables.architecturesOf entity, ∀ second ∈ tables.architecturesOf entity,
    ∀ unit unit', library.unit? first = some unit → library.unit? second = some unit' →
      unit.name.same unit'.name = true → first = second

namespace Library

/-- The units that entries stand for are those under their numbers. -/
theorem exists_entry_iff (library : Library) {number : Nat} (fits : DesignUnit → Prop) :
    (∃ entry ∈ library.entries, fits entry.unit ∧ entry.index = number) ↔
      ∃ bound : number < library.units.length, fits library.units[number].unit := by
  constructor
  · rintro ⟨⟨number, unit⟩, member, holds, rfl⟩
    obtain ⟨item, found, same⟩ := Option.map_eq_some_iff.mp (mem_entries_iff.mp member)
    obtain ⟨bound, rfl⟩ := List.getElem?_eq_some_iff.mp found
    exact ⟨bound, same ▸ holds⟩
  · rintro ⟨bound, holds⟩
    obtain ⟨entry, member, rfl⟩ := exists_entry bound
    have present := mem_entries_iff.mp member
    rw [unit?, List.getElem?_eq_getElem bound] at present
    exact ⟨entry, member, Option.some.inj present ▸ holds, rfl⟩

theorem ascending_architectures (library : Library) (entity : Identifier) :
    ((library.architectures entity).map Entry.index).Pairwise (· < ·) := by
  have all : (library.entries.map Entry.index).Pairwise (· < ·) := map_index_entries library ▸ List.pairwise_lt_range
  exact all.sublist (List.filter_sublist.map Entry.index)

end Library

/-- Tables that are in step with an unambiguous library know its units. -/
theorem Catalog.InStep.describe {catalog : Catalog} (inStep : catalog.InStep)
    (unambiguous : catalog.library.Unambiguous) : catalog.tables.Describe catalog.library where
  primary_iff := by
    intro name number
    rw [inStep.primary, Option.map_eq_some_iff]
    simp only [unambiguous.primary?_eq_some_iff, and_assoc]
    simpa only [and_assoc] using catalog.library.exists_entry_iff
      (fun unit => unit.isPrimary = true ∧ unit.name.same name = true)
  body_iff := by
    intro name number
    rw [inStep.body, Option.map_eq_some_iff]
    simp only [unambiguous.body?_eq_some_iff, and_assoc]
    simpa only [and_assoc] using catalog.library.exists_entry_iff
      (fun unit => unit.kind = .packageBody ∧ unit.name.same name = true)
  architecture_iff := by
    intro entity number
    rw [inStep.architectures, List.mem_map]
    simp only [Library.architectures, List.mem_filter, and_assoc]
    exact catalog.library.exists_entry_iff (fun unit => Library.isArchitectureOf entity unit = true)
  ascending := by
    intro entity
    rw [inStep.architectures]
    exact catalog.library.ascending_architectures entity
  distinct := by
    intro entity first isOf second isOf' unit unit' present present' same
    rw [inStep.architectures, List.mem_map] at isOf isOf'
    obtain ⟨entry, among, rfl⟩ := isOf
    obtain ⟨entry', among', rfl⟩ := isOf'
    obtain ⟨member, fits⟩ := List.mem_filter.mp among
    obtain ⟨member', fits'⟩ := List.mem_filter.mp among'
    obtain rfl : entry.unit = unit := Option.some.inj ((Library.mem_entries_iff.mp member).symm.trans present)
    obtain rfl : entry'.unit = unit' := Option.some.inj ((Library.mem_entries_iff.mp member').symm.trans present')
    have known := DesignUnit.designation_eq_architecture_iff.mpr ⟨fits, same⟩
    have known' := DesignUnit.designation_eq_architecture_iff.mpr ⟨fits', Identifier.same_refl entry'.unit.name⟩
    exact congrArg Entry.index (unambiguous.eq_of_designation_eq member member' (known.trans known'.symm))

/-- Whatever was done to a library, the tables kept with it are in step with it and know its units, and the units
stand in the order of the sources and of their places there. -/
theorem Catalog.run_describes (name : Identifier) (steps : List Library.Step) :
    (run name steps).library = Library.run name steps ∧ (run name steps).InStep ∧
      (run name steps).tables.Describe (Library.run name steps) ∧
      (∀ item ∈ (Library.run name steps).units, item.source < (Library.run name steps).files.length) ∧
      (Library.run name steps).units.Pairwise LibraryUnit.Before := by
  obtain ⟨library, inStep⟩ := inStep_run name steps
  have wellFormed := Library.wellFormed_run name steps
  refine ⟨library, inStep, ?_, wellFormed.sources, wellFormed.ordered⟩
  rw [← library] at wellFormed ⊢
  exact inStep.describe wellFormed.unambiguous

/-- The tables of a library with an entity and its architecture, and a package and its body. -/
theorem Catalog.run_describes_secondary :
    (run .work Library.Sample.steps).tables.architecturesOf (.basic "e") = [1] ∧
      (run .work Library.Sample.steps).tables.body? (.basic "p") = some 3 ∧
      (run .work Library.Sample.steps).tables.primary? (.basic "RTL") = none := by
  obtain ⟨library, inStep, -⟩ := run_describes .work Library.Sample.steps
  rw [inStep.architectures, inStep.body, inStep.primary, library]
  decide +kernel

end VhdlOrder
