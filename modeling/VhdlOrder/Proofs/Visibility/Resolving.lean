import VhdlOrder.Proofs.Visibility.Fetching
import VhdlOrder.Proofs.Visibility.Unused
import VhdlOrder.Proofs.Visibility.VisibleLocals

/-! # Resolving by numbers

What is found by the numbers of units is what is found by the units themselves. The units that imports and prefixes come
from are entries of the library because the scope of a unit is backed, and a watched import stands in a unit of the
library.
-/

namespace VhdlOrder

open Stepwise

namespace Catalog

variable {catalog : Catalog} {recorded : List Dependency} {scope : Scope} {entry : Entry}

/-! ## Names -/

theorem selectedOrigin?_eq {item : SelectedImport} (member : item.source ∈ catalog.library.entries) :
    catalog.selectedOrigin? item = some (Lookup.selectedOrigin catalog.library item) := by
  rw [selectedOrigin?, Library.mem_entries_iff.mp member]
  rfl

theorem selected?_eq (backed : scope.Backed catalog.library recorded) (name : Identifier) (position : Position)
    {items : List SelectedImport} (imported : ∀ item ∈ items, item ∈ scope.selected) :
    catalog.selected? scope name position items =
      some (Lookup.selected catalog.library scope name position items) := by
  have origins : items.mapM catalog.selectedOrigin? = some (items.map (Lookup.selectedOrigin catalog.library)) :=
    mapM_eq_map fun item member => selectedOrigin?_eq (backed.selected item (imported item member)).member
  rw [selected?, origins]
  rfl

theorem InStep.inUnit?_eq (inStep : catalog.InStep) (reference : Reference)
    (member : entry ∈ catalog.library.entries) (rest : List Identifier) :
    catalog.inUnit? reference entry.index rest = some (Lookup.inUnit catalog.library reference entry rest) := by
  simp only [inUnit?, Lookup.inUnit, fetch_of_mem member, inStep.packageItems?_eq member, Option.bind_eq_bind,
    Option.bind_some]
  cases rest.head? with
  | none => rfl
  | some item =>
    dsimp only
    cases entry.isPackage with
    | false => rfl
    | true => cases Declaration.declares (catalog.library.packageItems entry) item <;> rfl

theorem InStep.inWorking?_eq (inStep : catalog.InStep) (reference : Reference) (parts : List Identifier) :
    catalog.inWorking? reference parts = some (Lookup.inWorking catalog.library reference parts) := by
  cases parts with
  | nil => rfl
  | cons name rest =>
    have cut : slice? (name :: rest) 1 (name :: rest).length = some rest := slice?_length (Nat.le_add_left 1 _)
    simp only [inWorking?, Lookup.inWorking, List.head?_cons, inStep.primary?_eq, cut, Option.bind_eq_bind,
      Option.bind_some]
    cases found : catalog.library.primary? name with
    | none => rfl
    | some entry => exact inStep.inUnit?_eq reference (Library.of_primary? found).1 rest

theorem InStep.expanded?_eq (inStep : catalog.InStep) (backed : scope.Backed catalog.library recorded)
    (reference : Reference) :
    catalog.expanded? scope reference = some (Lookup.expanded catalog.library scope reference) := by
  simp only [expanded?, Lookup.expanded, getElem?_parts_zero, slice?_parts_one, inStep.inWorking?_eq,
    Option.bind_eq_bind, Option.bind_some]
  split
  · rfl
  · split
    · rfl
    · cases found : scope.prefixed? reference.name.first with
      | some entry =>
        exact inStep.inUnit?_eq reference (Library.of_primary? (backed.prefixed found)).1 _
      | none =>
        dsimp only
        split <;> rfl

theorem InStep.imported?_eq (inStep : catalog.InStep) (backed : scope.Backed catalog.library recorded)
    (reference : Reference) :
    catalog.imported? scope reference = some (Lookup.imported catalog.library scope reference) := by
  simp only [imported?, Lookup.imported, getElem?_parts_zero, inStep.expanded?_eq backed, Option.bind_eq_bind,
    Option.bind_some]
  cases candidates : Lookup.candidates scope reference.name.first with
  | cons item items =>
    refine selected?_eq backed _ _ fun other member => ?_
    rw [← candidates] at member
    exact (List.mem_filter.mp member).1
  | nil =>
    dsimp only
    split
    · rfl
    · cases Lookup.providers scope reference.name.first <;> rfl

theorem InStep.lookup?_eq (inStep : catalog.InStep) (backed : scope.Backed catalog.library recorded)
    (member : entry ∈ catalog.library.entries) (locals : List Declaration) (reference : Reference) :
    catalog.lookup? scope entry.index locals reference =
      some (Lookup.find catalog.library scope entry.unit locals reference) := by
  simp only [lookup?, Lookup.find, getElem?_parts_zero, Library.mem_entries_iff.mp member, inStep.imported?_eq backed,
    Option.bind_eq_bind, Option.bind_some]
  split
  · rfl
  · split <;> rfl

theorem InStep.lookupAll?_eq (inStep : catalog.InStep) (backed : scope.Backed catalog.library recorded)
    (member : entry ∈ catalog.library.entries) (locals : List Declaration) (references : List Reference) :
    catalog.lookupAll? scope entry.index locals references =
      some (Lookup.findAll catalog.library scope entry.unit locals references) := by
  rw [lookupAll?, mapM_eq_map fun reference _ => inStep.lookup?_eq backed member locals reference]
  rfl

/-! ## Declarations -/

theorem InStep.lookAt?_eq (inStep : catalog.InStep) (backed : scope.Backed catalog.library recorded)
    (member : entry ∈ catalog.library.entries) (visible : List Declaration) (declaration : Declaration) :
    catalog.lookAt? scope entry.index visible declaration =
      some (Lookup.findAll catalog.library scope entry.unit visible declaration.references
        ++ Lookup.mentioned scope visible declaration) := by
  rw [lookAt?, inStep.lookupAll?_eq backed member]
  rfl

theorem InStep.declarations?_eq (inStep : catalog.InStep) (backed : scope.Backed catalog.library recorded)
    (member : entry ∈ catalog.library.entries) (locals declarations : List Declaration) :
    catalog.declarations? scope entry.index locals declarations = some (locals ++ declarations,
      Lookup.declarations catalog.library scope entry.unit locals declarations) := by
  rw [declarations?_eq_walk, walk_eq, mapM_eq_map fun turn _ => inStep.lookAt?_eq backed member turn.1 turn.2,
    Lookup.declarations_eq_flatten]
  rfl

/-! ## Units -/

theorem InStep.template?_eq (inStep : catalog.InStep) (backed : scope.Backed catalog.library recorded)
    (name : SelectedName) : catalog.template? scope name = some (if name.isExpanded then catalog.library.workUnit? name
      else (scope.prefixed? name.first).or (catalog.library.primary? name.first)) := by
  obtain ⟨first, suffix⟩ := name
  cases suffix with
  | cons second rest => exact inStep.workUnit?_eq _
  | nil =>
    simp only [template?, SelectedName.parts, inStep.primary?_eq]
    cases found : scope.prefixed? first with
    | none => rfl
    | some entry =>
      dsimp only
      rw [fetch_of_mem (Library.of_primary? (backed.prefixed found)).1]
      rfl

theorem InStep.templateFindings?_eq (inStep : catalog.InStep) (backed : scope.Backed catalog.library recorded)
    (template : Reference) : catalog.templateFindings? scope template =
      some (Resolution.templateFindings catalog.library scope template) := by
  simp only [templateFindings?, Resolution.templateFindings, inStep.template?_eq backed, getElem?_parts_zero,
    Option.bind_eq_bind, Option.bind_some]
  generalize (if template.name.isExpanded then catalog.library.workUnit? template.name else _) = target
  cases target with
  | none =>
    dsimp only
    split <;> rfl
  | some entry =>
    dsimp only
    split <;> rfl

theorem InStep.constants?_eq (inStep : catalog.InStep) (member : entry ∈ catalog.library.entries) (level : Level) :
    catalog.constants? level entry.index = some (Constant.ofPackage catalog.library level entry.unit) := by
  simp only [constants?, Library.mem_entries_iff.mp member, inStep.body?_eq, Option.bind_eq_bind, Option.bind_some]
  rfl

theorem InStep.inside?_eq (inStep : catalog.InStep) (backed : scope.Backed catalog.library recorded)
    (member : entry ∈ catalog.library.entries) (level : Level) : catalog.inside? level scope entry.index =
      some (Resolution.inside catalog.library level scope entry) := by
  have lookups := inStep.lookupAll?_eq backed member
  have resolved := inStep.declarations?_eq backed member
  unfold inside? Resolution.inside
  simp only [Library.mem_entries_iff.mp member, Option.bind_eq_bind, Option.bind_some]
  cases entry.unit.contents with
  | entity | architecture | configuration => exact lookups _ _
  | context clause =>
    simp only [inStep.enter?_eq backed, Option.bind_some]
    rfl
  | packageBody declarations =>
    simp only [insideBody?, inStep.primary?_eq, resolved, lookups, Option.bind_eq_bind, Option.bind_some]
    rfl
  | package generics declarations template =>
    cases template with
    | some template =>
      simp only [inStep.templateFindings?_eq backed, lookups, Option.bind_some]
      rfl
    | none =>
      simp only [insidePackage?, resolved, lookups, inStep.constants?_eq member, Option.bind_eq_bind,
        Option.bind_some, List.nil_append]
      rfl

theorem InStep.findings?_eq (inStep : catalog.InStep) (member : entry ∈ catalog.library.entries) (level : Level) :
    catalog.findings? level entry.index = some (Resolution.findings catalog.library level entry) := by
  have backed := (Resolution.grounded_scopeOf catalog.library entry).scope
  simp only [findings?, Resolution.findings, fetch_of_mem member, inStep.scopeOf?_eq, inStep.inside?_eq backed member,
    Option.bind_eq_bind, Option.bind_some]
  rfl

/-! ## Unused imports -/

/-- An unused import stands in a unit of the library. -/
theorem owner_lt_of_mem_unused {library : Library} {checks : Checks} {item : WatchedImport}
    (member : item ∈ Resolution.unused library checks) : item.key.owner < library.size := by
  obtain ⟨-, found, -⟩ := Resolution.mem_unused_iff.mp member
  obtain ⟨entry, isEntry, here⟩ := Resolution.mem_imports_allFindings_iff.mp found
  obtain ⟨-, -, -, clause, isClause, -⟩ := (Resolution.mem_imports_findings_iff isEntry).mp here
  obtain ⟨unit, present, -⟩ := Option.bind_eq_some_iff.mp isClause
  obtain ⟨item, isUnit, -⟩ := Option.map_eq_some_iff.mp present
  exact (List.getElem?_eq_some_iff.mp isUnit).1

/-- The resolution of a unit, with reports on the unused imports that stand in it. -/
def withReports (library : Library) (unused : List WatchedImport) (entry : Entry) (resolution : UnitResolution) :
    UnitResolution :=
  let reports := (unused.filter fun item => item.key.owner == entry.index).map fun item =>
    Diagnostic.place .warning (.unusedImport item.name) (library.fileOf entry.index) item.position
  { resolution with diagnostics := resolution.diagnostics ++ reports }

/-- A report is added to the unit that the import stands in. -/
theorem Sound.reportUnused?_eq (sound : catalog.Sound) {item : WatchedImport}
    (inside : item.key.owner < catalog.library.size) (resolution : Entry → UnitResolution) :
    catalog.reportUnused? (catalog.library.entries.map resolution) item =
      some (catalog.library.entries.map fun entry => withReports catalog.library [item] entry (resolution entry)) := by
  have long : item.key.owner < (catalog.library.entries.map resolution).length := by
    rwa [List.length_map, ← List.length_map Entry.index, Library.map_index_entries, List.length_range]
  rw [reportUnused?, sound.filed.fileOf?_eq inside]
  simp only [Option.bind_eq_bind, Option.bind_some, update?_of_lt long]
  refine congrArg some (List.ext_getElem? fun place => ?_)
  rw [List.getElem?_modify, List.getElem?_map, List.getElem?_map, Library.getElem?_entries]
  cases catalog.library.unit? place with
  | none => simp
  | some unit =>
    by_cases here : item.key.owner = place
    · subst here
      simp [withReports]
    · simp [withReports, here]

/-- Each report is added to the unit that its import stands in. -/
theorem Sound.foldlM_reportUnused? (sound : catalog.Sound) {unused : List WatchedImport}
    (inside : ∀ item ∈ unused, item.key.owner < catalog.library.size) (resolution : Entry → UnitResolution) :
    unused.foldlM catalog.reportUnused? (catalog.library.entries.map resolution) =
      some (catalog.library.entries.map fun entry => withReports catalog.library unused entry (resolution entry)) := by
  induction unused generalizing resolution with
  | nil => simp [withReports]
  | cons item rest ih =>
    obtain ⟨here, behind⟩ := List.forall_mem_cons.mp inside
    rw [List.foldlM_cons, sound.reportUnused?_eq here]
    simp only [Option.bind_eq_bind, Option.bind_some, ih behind]
    refine congrArg some (List.map_congr_left fun entry _ => ?_)
    by_cases own : item.key.owner = entry.index <;> simp [withReports, own]

theorem Sound.unitResolution?_eq (sound : catalog.Sound) (member : entry ∈ catalog.library.entries)
    (found : Findings) : catalog.unitResolution? entry.index found =
      some (Resolution.ofFindings catalog.library [] entry found) := by
  rw [unitResolution?, sound.filed.fileOf?_eq (Library.index_lt member)]
  simp [Resolution.ofFindings]

/-- All units are resolved by their numbers as they are without them. -/
theorem Sound.resolve?_eq (sound : catalog.Sound) (checks : Checks) :
    catalog.resolve? checks = some (catalog.library.resolve checks) := by
  have found : (List.range catalog.library.size).mapM (catalog.findings? checks.deferredConstants) =
      some (catalog.library.entries.map (Resolution.findings catalog.library checks.deferredConstants)) := by
    rw [← Library.map_index_entries, List.mapM_map]
    exact mapM_eq_map fun entry member => sound.inStep.findings?_eq member checks.deferredConstants
  have paired : (List.range catalog.library.size).zip
      (catalog.library.entries.map (Resolution.findings catalog.library checks.deferredConstants)) =
        catalog.library.entries.map fun entry =>
          (entry.index, Resolution.findings catalog.library checks.deferredConstants entry) := by
    rw [← Library.map_index_entries, List.zip_map']
  have resolved : (catalog.library.entries.map fun entry =>
      (entry.index, Resolution.findings catalog.library checks.deferredConstants entry)).mapM
        (fun item => catalog.unitResolution? item.1 item.2) = some (catalog.library.entries.map fun entry =>
          Resolution.ofFindings catalog.library [] entry
            (Resolution.findings catalog.library checks.deferredConstants entry)) := by
    rw [List.mapM_map]
    exact mapM_eq_map fun entry member => sound.unitResolution?_eq member _
  have reported := @foldlM_reportUnused? _ sound (Resolution.unused catalog.library checks)
    (fun item member => owner_lt_of_mem_unused member) fun entry => Resolution.ofFindings catalog.library [] entry
      (Resolution.findings catalog.library checks.deferredConstants entry)
  rw [resolve?]
  simp only [found, paired, resolved, Option.bind_eq_bind, Option.bind_some]
  refine (congrArg (fun units : Option (List UnitResolution) => units.bind fun units => some (Resolution.mk units))
    reported).trans ?_
  rw [Option.bind_some, Resolution.resolve_eq]
  refine congrArg (fun units => some (Resolution.mk units)) (List.map_congr_left fun entry _ => ?_)
  simp [withReports, Resolution.ofFindings]

end Catalog

end VhdlOrder
