import Mathlib
import VhdlOrder.Design.File
import VhdlOrder.Proofs.Visibility.Uses

/-! # Imports that are not used

The diagnostics at a unit are the problems found for it and warnings for its use clauses that no unit uses. Such
a warning is about a use clause of the unit itself, which imports an item by name. A package or package body is
warned of a use clause if and only if the imported name occurs neither in the unit nor in a body of it. What
occurs are references and the names that statements mention; of a nested package body only the references are
kept, so that the statements in it do not count. The use clauses of an entity are watched too as soon as the
entity has an architecture.
-/

namespace VhdlOrder

namespace Resolution

variable {library : Library} {checks : Checks} {entry reader : Entry} {level : Level} {item : WatchedImport}

theorem mem_of_mem_distinctImports {imports : List WatchedImport} (member : item ∈ distinctImports imports) :
    item ∈ imports := by
  induction imports with
  | nil => exact absurd member List.not_mem_nil
  | cons first rest ih =>
    rcases List.mem_cons.mp member with rfl | later
    · exact List.mem_cons_self
    · exact List.mem_cons_of_mem _ (ih (List.mem_filter.mp later).1)

/-- Every use clause with a watched import has one that is kept. -/
theorem exists_mem_distinctImports {imports : List WatchedImport} (member : item ∈ imports) :
    ∃ other ∈ distinctImports imports, other.key = item.key := by
  induction imports with
  | nil => exact absurd member List.not_mem_nil
  | cons first rest ih =>
    by_cases same : first.key = item.key
    · exact ⟨first, List.mem_cons_self, same⟩
    · rcases List.mem_cons.mp member with rfl | later
      · exact absurd rfl same
      · obtain ⟨other, kept, otherKey⟩ := ih later
        refine ⟨other, List.mem_cons_of_mem _ (List.mem_filter.mpr ⟨kept, ?_⟩), otherKey⟩
        rw [otherKey, bne_iff_ne]
        exact Ne.symm same

/-- An item in the scope of a unit that has a key is imported by the use clause of that key, which is watched for
the unit. -/
theorem of_mem_selected (member : entry ∈ library.entries) {selected : SelectedImport}
    (inScope : selected ∈ (scopeOf library entry).1.selected) {key : ClauseKey} (isKey : selected.key = some key) :
    Watches library entry key.owner ∧ ∃ clause, library.useClause? key = some clause ∧
      clause.all = false ∧ selected.name = clause.name.last := by
  obtain ⟨added, grown, -, keyed⟩ := (grows_scopeOf member).selected
  have isAdded : (scopeOf library entry).1.selected = added := grown
  exact keyed selected (isAdded ▸ inScope) key isKey

/-- A watched import that is found for a unit is of a use clause by which an item is in its scope. -/
theorem mem_imports_findings_iff (member : entry ∈ library.entries) :
    item ∈ (findings library level entry).imports ↔
      ∃ selected ∈ (scopeOf library entry).1.selected, selected.key = some item.key ∧
        ∃ clause, library.useClause? item.key = some clause ∧ item = clause.watch item.key := by
  rw [imports_findings member, List.mem_filterMap]
  constructor
  · rintro ⟨selected, inScope, watched⟩
    obtain ⟨key, isKey, isWatch⟩ := Option.bind_eq_some_iff.mp watched
    obtain ⟨clause, isClause, rfl⟩ := Option.map_eq_some_iff.mp isWatch
    exact ⟨selected, inScope, isKey, clause, isClause, rfl⟩
  · rintro ⟨selected, inScope, isKey, clause, isClause, same⟩
    refine ⟨selected, inScope, ?_⟩
    simp [SelectedImport.watch?, isKey, isClause, same.symm]

/-- All that is found when a library is resolved. -/
def allFindings (library : Library) (checks : Checks) : Findings :=
  .flatten (library.entries.map (findings library checks.deferredConstants))

/-- The imports that are reported because no unit uses them. -/
def unused (library : Library) (checks : Checks) : List WatchedImport :=
  if checks.unusedImports then unusedImports (allFindings library checks) else []

theorem mem_imports_allFindings_iff :
    item ∈ (allFindings library checks).imports ↔
      ∃ entry ∈ library.entries, item ∈ (findings library checks.deferredConstants entry).imports := by
  simp [allFindings, Findings.additive_imports.flatten, List.flatMap_map]

theorem mem_used_allFindings_iff {key : ClauseKey} :
    key ∈ (allFindings library checks).used ↔
      ∃ entry ∈ library.entries, key ∈ (findings library checks.deferredConstants entry).used := by
  simp [allFindings, Findings.additive_used.flatten, List.flatMap_map]

/-- Watched imports of one use clause are the same. -/
theorem eq_of_key_eq {other : WatchedImport} (left : item ∈ (allFindings library checks).imports)
    (right : other ∈ (allFindings library checks).imports) (same : item.key = other.key) : item = other := by
  obtain ⟨entry, member, found⟩ := mem_imports_allFindings_iff.mp left
  obtain ⟨entry', member', found'⟩ := mem_imports_allFindings_iff.mp right
  obtain ⟨-, -, -, clause, isClause, isItem⟩ := (mem_imports_findings_iff member).mp found
  obtain ⟨-, -, -, clause', isClause', isOther⟩ := (mem_imports_findings_iff member').mp found'
  rw [← same, isClause] at isClause'
  rw [isItem, isOther, ← same, Option.some.inj isClause']

/-- What is reported is watched, and no unit uses it. -/
theorem mem_unused_iff :
    item ∈ unused library checks ↔
      checks.unusedImports = true ∧ item ∈ (allFindings library checks).imports ∧
        item.key ∉ (allFindings library checks).used := by
  unfold unused
  split
  · rename_i enabled
    simp only [enabled, true_and, unusedImports, List.mem_filter, Bool.not_eq_true', List.contains_eq_mem,
      decide_eq_false_iff_not]
    constructor
    · exact fun both => ⟨mem_of_mem_distinctImports both.1, both.2⟩
    · rintro ⟨found, notUsed⟩
      obtain ⟨other, kept, same⟩ := exists_mem_distinctImports found
      obtain rfl := eq_of_key_eq (mem_of_mem_distinctImports kept) found same
      exact ⟨kept, notUsed⟩
  · rename_i disabled
    simp [disabled]

theorem resolve_eq :
    library.resolve checks = ⟨library.entries.map fun entry =>
      ofFindings library (unused library checks) entry (findings library checks.deferredConstants entry)⟩ := by
  simp only [Library.resolve, unused, allFindings, List.map_map, Function.comp_def]

/-- The warning of an import that is not used. -/
def warning (name : SelectedName) (position : Position) : Finding := ⟨.warning, .unusedImport name, position⟩

/-- The problems found for a unit, and the warnings for its own use clauses. -/
def reported (library : Library) (checks : Checks) (entry : Entry) : List Finding :=
  (findings library checks.deferredConstants entry).problems
    ++ ((unused library checks).filter fun item => item.key.owner == entry.index).map fun item =>
      warning item.name item.position

/-- The diagnostics at a unit are the problems found for it and the warnings for its own use clauses. -/
theorem diagnostics_resolve (member : entry ∈ library.entries) :
    (library.resolve checks).diagnostics entry.index = (reported library checks entry).map fun finding =>
      .place finding.severity finding.problem (library.fileOf entry.index) finding.position := by
  simp [diagnostics, resolve_eq, Library.getElem?_entries, Library.mem_entries_iff.mp member, reported, ofFindings,
    warning]

/-- Only the units of a library have diagnostics. -/
theorem diagnostics_resolve_of_size_le {index : Nat} (outside : library.size ≤ index) :
    (library.resolve checks).diagnostics index = [] := by
  have none : library.unit? index = none := by
    rw [Library.unit?, List.getElem?_eq_none outside, Option.map_none]
  simp [diagnostics, resolve_eq, Library.getElem?_entries, none]

theorem mem_diagnostics_iff (member : entry ∈ library.entries) {diagnostic : Diagnostic} :
    diagnostic ∈ (library.resolve checks).diagnostics entry.index ↔
      ∃ finding, (finding ∈ (findings library checks.deferredConstants entry).problems ∨
          ∃ item ∈ unused library checks, item.key.owner = entry.index ∧ finding = warning item.name item.position) ∧
        diagnostic = .place finding.severity finding.problem (library.fileOf entry.index) finding.position := by
  rw [diagnostics_resolve member]
  simp only [reported, List.mem_map, List.mem_append, List.mem_filter, beq_iff_eq]
  constructor
  · rintro ⟨finding, found | ⟨item, ⟨isUnused, owned⟩, rfl⟩, rfl⟩
    · exact ⟨finding, .inl found, rfl⟩
    · exact ⟨_, .inr ⟨item, isUnused, owned, rfl⟩, rfl⟩
  · rintro ⟨finding, found | ⟨item, isUnused, owned, rfl⟩, rfl⟩
    · exact ⟨finding, .inl found, rfl⟩
    · exact ⟨_, .inr ⟨item, ⟨isUnused, owned⟩, rfl⟩, rfl⟩

theorem exists_entry_of_mem_diagnostics {index : Nat} {diagnostic : Diagnostic}
    (member : diagnostic ∈ (library.resolve checks).diagnostics index) :
    ∃ entry ∈ library.entries, entry.index = index := by
  apply Library.exists_entry
  apply Nat.lt_of_not_le
  intro outside
  rw [diagnostics_resolve_of_size_le outside] at member
  exact List.not_mem_nil member

/-! ## Units that are warned -/

/-- A warning at a unit is about a use clause of that unit that imports an item by name, and some unit is watched
for it. -/
theorem exists_watched_of_mem_diagnostics {name : SelectedName} {diagnostic : Diagnostic}
    (member : entry ∈ library.entries) (reported : diagnostic ∈ (library.resolve checks).diagnostics entry.index)
    (isUnused : diagnostic.problem = .unusedImport name) :
    ∃ item ∈ unused library checks, item.key.owner = entry.index ∧ item.name = name ∧
      diagnostic = .place .warning (.unusedImport name) (library.fileOf entry.index) item.position := by
  obtain ⟨finding, found | ⟨item, present, owned, rfl⟩, rfl⟩ := (mem_diagnostics_iff member).mp reported
  · obtain ⟨writer, name, offence⟩ := exists_offence found
    have notUnused := offence.allAt.2
    have same : finding.problem = .unusedImport _ := isUnused
    rw [same] at notUnused
    cases notUnused
  · obtain rfl : item.name = name := Problem.unusedImport.inj isUnused
    exact ⟨item, present, owned, rfl, rfl⟩

/-- An import that is not used is of a use clause that its unit writes, and some unit is watched for it. -/
theorem exists_clause_of_mem_unused (member : entry ∈ library.entries) (present : item ∈ unused library checks)
    (owned : item.key.owner = entry.index) :
    ∃ clause ∈ entry.unit.context.uses, clause.all = false ∧ item = clause.watch item.key ∧
      ∃ reader ∈ library.entries, Watches library reader entry.index := by
  obtain ⟨-, found, -⟩ := mem_unused_iff.mp present
  obtain ⟨reader, reader_mem, isFound⟩ := mem_imports_allFindings_iff.mp found
  obtain ⟨selected, inScope, isKey, clause, isClause, same⟩ := (mem_imports_findings_iff reader_mem).mp isFound
  obtain ⟨watches, other, isOther, notAll, -⟩ := of_mem_selected reader_mem inScope isKey
  obtain rfl := Option.some.inj (isClause.symm.trans isOther)
  rw [Library.useClause?, owned, Library.mem_entries_iff.mp member] at isClause
  exact ⟨clause, List.mem_of_getElem? isClause, notAll, same, reader, reader_mem, owned ▸ watches⟩

/-- An import that is not used is reported at the unit that it stands in, with the place of the use clause, which
imports an item by name. The unit is a package, a package body, or an entity with an architecture; architectures,
configurations and context declarations are never warned. -/
theorem unused_import_of_own_clause {index : Nat} {name : SelectedName} {diagnostic : Diagnostic}
    (reported : diagnostic ∈ (library.resolve checks).diagnostics index)
    (isUnused : diagnostic.problem = .unusedImport name) :
    checks.unusedImports = true ∧ ∃ entry ∈ library.entries, entry.index = index ∧
      (∃ clause ∈ entry.unit.context.uses, clause.all = false ∧ clause.name = name ∧
        diagnostic = .place .warning (.unusedImport name) (library.fileOf index) clause.position) ∧
      (entry.unit.kind = .package ∨ entry.unit.kind = .packageBody ∨
        (entry.unit.kind = .entity ∧ ∃ architecture ∈ library.entries,
          architecture.unit.kind = .architecture ∧ ownerOf? library architecture.unit = some entry)) := by
  obtain ⟨entry, member, rfl⟩ := exists_entry_of_mem_diagnostics reported
  obtain ⟨item, present, owned, rfl, rfl⟩ := exists_watched_of_mem_diagnostics member reported isUnused
  obtain ⟨clause, written, notAll, same, reader, reader_mem, watches⟩ :=
    exists_clause_of_mem_unused member present owned
  refine ⟨(mem_unused_iff.mp present).1, entry, member, rfl, ⟨clause, written, notAll, ?_, ?_⟩, ?_⟩
  · rw [same]
    rfl
  · rw [same]
    rfl
  · rcases watches.eq_or_ownerOf? member reader_mem with ⟨rfl, watched⟩ | ⟨completes, notConfiguration⟩
    · rcases kind_of_watchesContext watched with isPackage | isBody
      · exact .inl isPackage
      · exact .inr (.inl isBody)
    · rcases kind_of_ownerOf? completes with ⟨-, isPackage⟩ | ⟨isArchitecture, isEntity⟩
      · exact .inl isPackage
      · exact .inr (.inr ⟨isEntity, reader, reader_mem, isArchitecture.resolve_right notConfiguration, completes⟩)

namespace Sample

/-- A package that declares the procedure `k`. -/
def declaring : DesignUnit :=
  ⟨.basic "q", ⟨1, 1⟩, .empty, [], .package [] [.simple ⟨⟨1, 24⟩, .basic "k"⟩ .procedure] none⟩

/-- The clause `use work.q.k` at the beginning of a file. -/
def clause : UseClause := ⟨⟨.basic "work", [.basic "q", .basic "k"]⟩, false, ⟨1, 5⟩⟩

/-- An entity behind that clause. -/
def entity : Entry := ⟨1, ⟨.basic "e", ⟨1, 15⟩, ⟨[], [clause], []⟩, [], .entity [] []⟩⟩

/-- The architecture `architecture a of e is begin k; end;`, which calls the procedure. -/
def architecture : Entry := ⟨2, ⟨.basic "a", ⟨1, 32⟩, .empty, [], .architecture (.basic "e")⟩⟩

def entityLibrary : Library :=
  ⟨.work, ["q.vhd", "e.vhd"], [⟨declaring, 0⟩, ⟨entity.unit, 1⟩, ⟨architecture.unit, 1⟩], [], []⟩

theorem entity_mem : entity ∈ entityLibrary.entries := List.mem_cons_of_mem _ List.mem_cons_self

/-- The warning that the clause is not used. -/
def warned (file : String) : Diagnostic := .place .warning (.unusedImport clause.name) file clause.position

theorem warned_entity : warned "e.vhd" ∈ (entityLibrary.resolve .standard).diagnostics 1 := by
  have isUnused : unused entityLibrary .standard = [clause.watch ⟨1, 0⟩] := by cbv
  exact (mem_diagnostics_iff entity_mem).mpr
    ⟨_, .inr ⟨clause.watch ⟨1, 0⟩, isUnused ▸ List.mem_cons_self, rfl, rfl⟩, rfl⟩

end Sample

/-- An entity is warned of a clause that its architecture may use. -/
theorem unused_import_of_own_clause_entity :
    Sample.warned "e.vhd" ∈ (Sample.entityLibrary.resolve .standard).diagnostics 1 ∧
      ∃ entry ∈ Sample.entityLibrary.entries, entry.index = 1 ∧
        ∃ clause ∈ entry.unit.context.uses, Sample.warned "e.vhd" =
          .place .warning (.unusedImport Sample.clause.name) (Sample.entityLibrary.fileOf 1) clause.position := by
  obtain ⟨-, entry, member, isIndex, ⟨clause, inUses, -, -, isPlace⟩, -⟩ :=
    unused_import_of_own_clause Sample.warned_entity rfl
  exact ⟨Sample.warned_entity, entry, member, isIndex, clause, inUses, isPlace⟩

/-- Not only packages and package bodies are warned. -/
theorem exists_warned_entity :
    ¬ ∀ (library : Library) (checks : Checks) (index : Nat) (name : SelectedName),
      ∀ diagnostic ∈ (library.resolve checks).diagnostics index, diagnostic.problem = .unusedImport name →
        ∃ entry ∈ library.entries, entry.index = index ∧ watchesContext entry.unit = true := by
  intro onlyPackages
  obtain ⟨entry, member, isIndex, watched⟩ := onlyPackages _ _ _ _ _ Sample.warned_entity rfl
  have isEntity : Sample.entityLibrary.unit? 1 = some Sample.entity.unit := rfl
  have present := Library.mem_entries_iff.mp member
  rw [isIndex, isEntity] at present
  rw [← Option.some.inj present] at watched
  cases watched

/-! ## Clauses that are reported -/

/-- The use clause with the number `number` of the unit imports an item into its scope. -/
def Resolves (library : Library) (entry : Entry) (number : Nat) : Prop :=
  ∃ item ∈ (scopeOf library entry).1.selected, item.key = some ⟨entry.index, number⟩

/-- The unit is the package or package body `entry`, or a body of the package `entry`. -/
def IsPart (library : Library) (entry reader : Entry) : Prop :=
  reader = entry ∨ ownerOf? library reader.unit = some entry

/-- All parts of a package see the same items by the use clauses of the package; of a package body, only it sees
its own. -/
theorem mem_selected_iff_of_isPart (member : entry ∈ library.entries) (reader_mem : reader ∈ library.entries)
    (watched : watchesContext entry.unit = true) (isPart : IsPart library entry reader) {item : SelectedImport}
    {key : ClauseKey} (isKey : item.key = some key) (owned : key.owner = entry.index) :
    item ∈ (scopeOf library reader).1.selected ↔ item ∈ (scopeOf library entry).1.selected := by
  rcases isPart with rfl | completes
  · exact Iff.rfl
  · refine mem_selected_iff_of_body reader_mem completes ?_ isKey owned
    rcases kind_of_ownerOf? completes with ⟨-, isPackage⟩ | ⟨-, isEntity⟩
    · exact isPackage
    · rcases kind_of_watchesContext watched with isPackage | isBody
      · exact isPackage
      · rw [isEntity] at isBody
        cases isBody

theorem Watches.isPart (watches : Watches library reader entry.index) (member : entry ∈ library.entries)
    (reader_mem : reader ∈ library.entries) : IsPart library entry reader := by
  rcases watches.eq_or_ownerOf? member reader_mem with ⟨same, -⟩ | ⟨completes, -⟩
  · exact .inl same
  · exact .inr completes

section

variable {number : Nat} {clause : UseClause}

/-- A watched import of a package or package body is of a use clause that imports an item into its scope. -/
theorem exists_resolves_of_mem_imports (member : entry ∈ library.entries) (watched : watchesContext entry.unit = true)
    (found : item ∈ (allFindings library checks).imports) (owned : item.key.owner = entry.index) :
    ∃ number clause, library.useClause? ⟨entry.index, number⟩ = some clause ∧ Resolves library entry number ∧
      item = clause.watch ⟨entry.index, number⟩ := by
  obtain ⟨reader, reader_mem, isFound⟩ := mem_imports_allFindings_iff.mp found
  obtain ⟨selected, inScope, isKey, clause, isClause, same⟩ := (mem_imports_findings_iff reader_mem).mp isFound
  have watches := (of_mem_selected reader_mem inScope isKey).1
  rw [owned] at watches
  have isPart := watches.isPart member reader_mem
  have atHome := (mem_selected_iff_of_isPart member reader_mem watched isPart isKey owned).mp inScope
  have key : item.key = ⟨entry.index, item.key.number⟩ := by rw [← owned]
  rw [key] at isKey isClause
  exact ⟨item.key.number, clause, isClause, ⟨selected, atHome, isKey⟩, key ▸ same⟩

/-- A use clause that imports an item is watched. -/
theorem watch_mem_imports (member : entry ∈ library.entries)
    (isClause : library.useClause? ⟨entry.index, number⟩ = some clause) (resolves : Resolves library entry number) :
    clause.watch ⟨entry.index, number⟩ ∈ (allFindings library checks).imports := by
  obtain ⟨selected, inScope, isKey⟩ := resolves
  exact mem_imports_allFindings_iff.mpr ⟨entry, member, (mem_imports_findings_iff member).mpr
    ⟨selected, inScope, isKey, clause, isClause, rfl⟩⟩

/-- A use clause of a package or package body that imports an item is of use where the name of the item occurs in
a part of the unit. -/
theorem mem_used_iff_of_resolves (member : entry ∈ library.entries) (watched : watchesContext entry.unit = true)
    (isClause : library.useClause? ⟨entry.index, number⟩ = some clause) (resolves : Resolves library entry number) :
    ⟨entry.index, number⟩ ∈ (allFindings library checks).used ↔
      ∃ reader ∈ library.entries, IsPart library entry reader ∧
        ∃ name, Occurs library reader.unit name ∧ clause.name.last.same name = true := by
  -- whatever unit has the item in its scope, the clause of the key gives its name
  have named {reader : Entry} (reader_mem : reader ∈ library.entries) {selected : SelectedImport}
      (inScope : selected ∈ (scopeOf library reader).1.selected)
      (isKey : selected.key = some ⟨entry.index, number⟩) :
      IsPart library entry reader ∧ selected.name = clause.name.last := by
    obtain ⟨watches, other, isOther, -, isLast⟩ := of_mem_selected reader_mem inScope isKey
    obtain rfl := Option.some.inj (isClause.symm.trans isOther)
    exact ⟨watches.isPart member reader_mem, isLast⟩
  rw [mem_used_allFindings_iff]
  constructor
  · rintro ⟨reader, reader_mem, isUsed⟩
    obtain ⟨selected, inScope, isKey, name, occurs, same⟩ := (mem_used_findings_iff reader_mem).mp isUsed
    obtain ⟨isPart, isLast⟩ := named reader_mem inScope isKey
    exact ⟨reader, reader_mem, isPart, name, occurs, isLast ▸ same⟩
  · rintro ⟨reader, reader_mem, isPart, name, occurs, same⟩
    obtain ⟨selected, atHome, isKey⟩ := resolves
    have inScope := (mem_selected_iff_of_isPart member reader_mem watched isPart isKey rfl).mpr atHome
    refine ⟨reader, reader_mem, (mem_used_findings_iff reader_mem).mpr ⟨selected, inScope, isKey, name, occurs, ?_⟩⟩
    rw [(named reader_mem inScope isKey).2]
    exact same

end

/-- A use clause of a package or package body that imports an item by name is reported if and only if the name
occurs in no part of the unit: neither as the first name of a reference nor in statements at any depth, each time
where no declaration of the unit hides it. -/
theorem unused_import_iff {number : Nat} {clause : UseClause} (member : entry ∈ library.entries)
    (enabled : checks.unusedImports = true) (watched : watchesContext entry.unit = true)
    (written : entry.unit.context.uses[number]? = some clause) (resolves : Resolves library entry number) :
    .place .warning (.unusedImport clause.name) (library.fileOf entry.index) clause.position
        ∈ (library.resolve checks).diagnostics entry.index ↔
      ∀ reader ∈ library.entries, IsPart library entry reader →
        ∀ name, Occurs library reader.unit name → clause.name.last.same name = false := by
  constructor
  · intro reported reader reader_mem isPart name occurs
    obtain ⟨item, present, owned, isName, -⟩ := exists_watched_of_mem_diagnostics member reported rfl
    obtain ⟨-, found, notUsed⟩ := mem_unused_iff.mp present
    -- the clause that is reported may be another one of the unit, but it imports the same name
    obtain ⟨reportedNumber, other, isOther, otherResolves, rfl⟩ :=
      exists_resolves_of_mem_imports member watched found owned
    have sameName : other.name = clause.name := isName
    rw [Bool.eq_false_iff, ← sameName]
    exact fun same => notUsed ((mem_used_iff_of_resolves member watched isOther otherResolves).mpr
      ⟨reader, reader_mem, isPart, name, occurs, same⟩)
  · intro absent
    have isClause : library.useClause? ⟨entry.index, number⟩ = some clause := by
      simp [Library.useClause?, Library.mem_entries_iff.mp member, written]
    have notUsed : (⟨entry.index, number⟩ : ClauseKey) ∉ (allFindings library checks).used := by
      rw [mem_used_iff_of_resolves member watched isClause resolves]
      rintro ⟨reader, reader_mem, isPart, name, occurs, same⟩
      rw [absent reader reader_mem isPart name occurs] at same
      cases same
    exact (mem_diagnostics_iff member).mpr ⟨warning clause.name clause.position, .inr ⟨_, mem_unused_iff.mpr
      ⟨enabled, watch_mem_imports member isClause resolves, notUsed⟩, rfl, rfl⟩, rfl⟩

namespace Sample

/-- The package `package p is package n is end; end;` behind the clause. -/
def outer : Entry :=
  ⟨1, ⟨.basic "p", ⟨1, 15⟩, ⟨[], [clause], []⟩, [], .package [] [.simple ⟨⟨1, 36⟩, .basic "n"⟩ .package] none⟩⟩

def outerBody : Entry := ⟨2, ⟨.basic "p", ⟨1, 1⟩, .empty, [], .packageBody []⟩⟩

def bodyLibrary : Library :=
  ⟨.work, ["q.vhd", "p.vhd", "b.vhd"], [⟨declaring, 0⟩, ⟨outer.unit, 1⟩, ⟨outerBody.unit, 2⟩], [], []⟩

/-- Tokens of the first line, each with its column. -/
def line (tokens : List (Nat × Token)) : List PlacedToken := tokens.map fun token => ⟨⟨1, token.1⟩, token.2⟩

/-- The tokens of `package body p is package body n is procedure f is`. -/
def before : List PlacedToken :=
  line [(1, .keyword .package), (9, .keyword .body), (14, .identifier (.basic "p")), (16, .keyword .is),
    (19, .keyword .package), (27, .keyword .body), (32, .identifier (.basic "n")), (34, .keyword .is),
    (37, .keyword .procedure), (47, .identifier (.basic "f")), (49, .keyword .is)]

/-- The call of the procedure. -/
def statements : List PlacedToken := line [(58, .identifier (.basic "k")), (59, .delimiter .semicolon)]

/-- The tokens behind the first `end` of `end; end; end;`. -/
def after : List PlacedToken :=
  line [(64, .delimiter .semicolon), (66, .keyword .end), (69, .delimiter .semicolon), (71, .keyword .end),
    (74, .delimiter .semicolon), (75, .endOfFile)]

theorem outer_mem : outer ∈ bodyLibrary.entries := List.mem_cons_of_mem _ List.mem_cons_self

theorem outerBody_mem : outerBody ∈ bodyLibrary.entries :=
  List.mem_cons_of_mem _ (List.mem_cons_of_mem _ List.mem_cons_self)

theorem resolves_outer : Resolves bodyLibrary outer 0 := by
  have selected : (scopeOf bodyLibrary outer).1.selected.map (·.key) = [some ⟨1, 0⟩] := by cbv
  exact List.mem_map.mp (selected ▸ List.mem_cons_self)

theorem warned_outer : warned "p.vhd" ∈ (bodyLibrary.resolve .standard).diagnostics 1 := by
  have isUnused : unused bodyLibrary .standard = [clause.watch ⟨1, 0⟩] := by cbv
  exact (mem_diagnostics_iff outer_mem).mpr
    ⟨_, .inr ⟨clause.watch ⟨1, 0⟩, isUnused ▸ List.mem_cons_self, rfl, rfl⟩, rfl⟩

/-- The body is read without a trace of the nested body. -/
theorem units_outerBody :
    DesignFile.units (before ++ ⟨⟨1, 52⟩, .keyword .begin⟩ :: (statements ++ ⟨⟨1, 61⟩, .keyword .end⟩ :: after)) =
      ([outerBody.unit], none) := by cbv

end Sample

/-- A clause is reported although the procedure that it imports is called in a nested package body. -/
theorem unused_import_iff_nested :
    Resolves Sample.bodyLibrary Sample.outer 0 ∧
      Sample.warned "p.vhd" ∈ (Sample.bodyLibrary.resolve .standard).diagnostics 1 ∧
      ∀ reader ∈ Sample.bodyLibrary.entries, IsPart Sample.bodyLibrary Sample.outer reader →
        ∀ name, Occurs Sample.bodyLibrary reader.unit name → Sample.clause.name.last.same name = false :=
  ⟨Sample.resolves_outer, Sample.warned_outer,
    (unused_import_iff Sample.outer_mem rfl rfl rfl Sample.resolves_outer).mp Sample.warned_outer⟩

/-- Not every call in a body makes the clause that imports the procedure count as used, even if the body has the
name nowhere else and the package does not declare it. -/
theorem exists_mention_not_counted :
    ¬ ∀ (library : Library) (checks : Checks) (entry body : Entry) (number : Nat) (clause : UseClause)
        (before statements after : List PlacedToken) (start stop : Position),
      entry ∈ library.entries → checks.unusedImports = true → watchesContext entry.unit = true →
        entry.unit.context.uses[number]? = some clause → Resolves library entry number →
        body ∈ library.entries → IsPart library entry body →
        DesignFile.units (before ++ ⟨start, .keyword .begin⟩ :: (statements ++ ⟨stop, .keyword .end⟩ :: after)) =
          ([body.unit], none) →
        clause.name.last ∈ References.mentions statements →
        (∀ token ∈ before ++ after, token.value.identifier? ≠ some clause.name.last) →
        Declaration.declares entry.unit.declarations clause.name.last = false →
          .place .warning (.unusedImport clause.name) (library.fileOf entry.index) clause.position
            ∉ (library.resolve checks).diagnostics entry.index := by
  intro counts
  have isPart : IsPart Sample.bodyLibrary Sample.outer Sample.outerBody := .inr (by cbv)
  exact counts Sample.bodyLibrary .standard Sample.outer Sample.outerBody 0 Sample.clause Sample.before
    Sample.statements Sample.after ⟨1, 52⟩ ⟨1, 61⟩ Sample.outer_mem rfl rfl rfl Sample.resolves_outer
    Sample.outerBody_mem isPart Sample.units_outerBody (by decide +kernel) (by decide +kernel) (by decide +kernel)
    Sample.warned_outer

end Resolution

end VhdlOrder
