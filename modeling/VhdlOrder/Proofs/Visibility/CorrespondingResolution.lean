import VhdlOrder.Proofs.Visibility.CorrespondingFindings
import VhdlOrder.Proofs.Visibility.Unused

/-! # Resolution of corresponding libraries

Corresponding libraries are resolved to corresponding dependencies and diagnostics. The imports that are reported
as unused need care, because all units are searched for them one after the other: the use clauses of one unit are
watched for several units, and which of these comes first depends on the numbers. But for each of these units the
watched imports are the same, in the same order.
-/

namespace VhdlOrder

/-! ## Use clauses of one unit -/

namespace Resolution

variable {library : Library} {level : Level} {entry reader owner : Entry} {index : Nat}

/-- Whether the import is by a use clause of the unit with the number `index`. -/
def isBy (index : Nat) (item : WatchedImport) : Bool := item.key.owner == index

/-- The imports by the use clauses of a unit that are watched. -/
def introduced (library : Library) (entry : Entry) : List WatchedImport :=
  ((enterOwner library entry.unit).1.enter library entry.unit.context (some entry.index)).2.imports

theorem filter_isBy_eq_self {items : List WatchedImport} (owned : ∀ item ∈ items, item.key.owner = index) :
    items.filter (isBy index) = items :=
  List.filter_eq_self.mpr fun item member => beq_iff_eq.mpr (owned item member)

theorem filter_isBy_eq_nil {items : List WatchedImport} (others : ∀ item ∈ items, item.key.owner ≠ index) :
    items.filter (isBy index) = [] :=
  List.filter_eq_nil_iff.mpr fun item member => mt beq_iff_eq.mp (others item member)

/-- A unit that is completed completes no other one. -/
theorem enterOwner_of_ownerOf? (found : ownerOf? library reader.unit = some entry) :
    enterOwner library entry.unit = (.start, .empty) := by
  have alone : ownerOf? library entry.unit = none := by
    cases owned : ownerOf? library entry.unit with
    | none => rfl
    | some other =>
      rcases kind_of_ownerOf? found with ⟨-, isKind⟩ | ⟨-, isKind⟩ <;>
        simpa [isKind] using kind_of_ownerOf? owned
  simp [enterOwner, alone]

/-- What a unit sees of the one that it completes is watched as that unit watches it. -/
theorem filter_enterOwner (member : entry ∈ library.entries) :
    (enterOwner library reader.unit).2.imports.filter (isBy entry.index) = [] ∨
      (ownerOf? library reader.unit = some entry ∧
        (enterOwner library reader.unit).2.imports.filter (isBy entry.index) = introduced library entry) := by
  have entered := entered_enterOwner library reader.unit
  generalize enterOwner library reader.unit = result at entered
  cases entered with
  | alone none => exact .inl rfl
  | configuration found isConfiguration => exact .inl rfl
  | @owner owner via found notConfiguration =>
    have belongs : ∀ index ∈ some owner.index, (library.unit? index).map DesignUnit.context = some owner.unit.context := by
      rintro index ⟨⟩
      exact context_of_mem (mem_of_ownerOf? found)
    have grows : Scope.start.Grows library (· ∈ some owner.index) _ := Scope.Grows.enter belongs
    have owned : ∀ item ∈ (Scope.start.enter library owner.unit.context (some owner.index)).2.imports,
        item.key.owner = owner.index := fun item isImport =>
      (Option.some.inj (grows.watches_of_mem_imports isImport)).symm
    by_cases same : owner.index = entry.index
    · obtain rfl := Library.eq_of_index_eq (mem_of_ownerOf? found) member same
      refine .inr ⟨found, ?_⟩
      rw [introduced, enterOwner_of_ownerOf? found]
      exact filter_isBy_eq_self owned
    · exact .inl (filter_isBy_eq_nil fun item isImport => owned item isImport ▸ same)

/-- The use clauses in front of a unit are not watched, or as its own. -/
theorem filter_own (member : entry ∈ library.entries) (reader_mem : reader ∈ library.entries) :
    ((enterOwner library reader.unit).1.enter library reader.unit.context (watcher? reader)).2.imports.filter
        (isBy entry.index) = [] ∨
      (reader = entry ∧
        ((enterOwner library reader.unit).1.enter library reader.unit.context (watcher? reader)).2.imports.filter
          (isBy entry.index) = introduced library entry) := by
  have grows := grows_own reader_mem (enterOwner library reader.unit).1
  by_cases same : reader.index = entry.index
  · obtain rfl := Library.eq_of_index_eq reader_mem member same
    by_cases watched : watchesContext reader.unit = true
    · refine .inr ⟨rfl, ?_⟩
      have isWatcher : watcher? reader = some reader.index := by simp [watcher?, watched]
      rw [isWatcher] at grows ⊢
      exact filter_isBy_eq_self fun item isImport => (grows.watches_of_mem_imports isImport).2
    · exact .inl (filter_isBy_eq_nil fun item isImport =>
        absurd (grows.watches_of_mem_imports isImport).1 watched)
  · exact .inl (filter_isBy_eq_nil fun item isImport =>
      (grows.watches_of_mem_imports isImport).2 ▸ same)

/-- Of the use clauses of a unit, either none are watched for a unit, or always the same ones. -/
theorem filter_imports_findings (member : entry ∈ library.entries) (reader_mem : reader ∈ library.entries) :
    (findings library level reader).imports.filter (isBy entry.index) = [] ∨
      (findings library level reader).imports.filter (isBy entry.index) = introduced library entry := by
  have imports : (findings library level reader).imports = (enterOwner library reader.unit).2.imports ++
      ((enterOwner library reader.unit).1.enter library reader.unit.context (watcher? reader)).2.imports := by
    obtain ⟨added, selected, found, -⟩ := (grows_scopeOf reader_mem).selected
    have isAdded : (scopeOf library reader).1.selected = added := selected
    rw [imports_findings reader_mem, isAdded, ← found, scopeOf_eq, Findings.imports_append]
  rw [imports, List.filter_append]
  rcases filter_enterOwner member with nothing | ⟨completes, first⟩
  · rcases filter_own member reader_mem with none | ⟨-, second⟩
    · exact .inl (by rw [nothing, none, List.append_nil])
    · exact .inr (by rw [nothing, second, List.nil_append])
  · rcases filter_own member reader_mem with none | ⟨rfl, -⟩
    · exact .inr (by rw [first, none, List.append_nil])
    · have kinds := kind_of_ownerOf? completes
      rcases kinds with ⟨isBody, isPackage⟩ | ⟨isPart, isEntity⟩
      · rw [isBody] at isPackage
        cases isPackage
      · rw [isEntity] at isPart
        rcases isPart with isArchitecture | isConfiguration
        · cases isArchitecture
        · cases isConfiguration

/-! ## One import for each use clause -/

theorem filter_distinctImports (index : Nat) (imports : List WatchedImport) :
    (distinctImports imports).filter (isBy index) = distinctImports (imports.filter (isBy index)) := by
  induction imports with
  | nil => rfl
  | cons item rest ih =>
    have swapped : ((distinctImports rest).filter fun other => other.key != item.key).filter (isBy index) =
        (distinctImports (rest.filter (isBy index))).filter fun other => other.key != item.key := by
      rw [List.filter_comm, ih]
    rw [distinctImports]
    by_cases own : isBy index item = true
    · rw [List.filter_cons_of_pos own, List.filter_cons_of_pos own, distinctImports, swapped]
    · rw [List.filter_cons_of_neg own, List.filter_cons_of_neg own, swapped, List.filter_eq_self]
      intro other kept
      have isOther := (List.mem_filter.mp (mem_of_mem_distinctImports kept)).2
      rw [bne_iff_ne]
      intro same
      rw [isBy, same] at isOther
      exact own isOther

theorem distinctImports_append (first second : List WatchedImport) :
    distinctImports (first ++ second) = distinctImports first ++
      (distinctImports second).filter fun item => !(first.map WatchedImport.key).contains item.key := by
  induction first with
  | nil => simp [distinctImports]
  | cons item rest ih =>
    rw [List.cons_append, distinctImports, ih, List.filter_append, distinctImports, List.filter_filter]
    rw [List.cons_append, List.map_cons]
    congr 2
    apply List.filter_congr
    intro other _
    rw [List.contains_cons, Bool.not_or]
    rfl

/-- Imports that come again are left out. -/
theorem distinctImports_flatten {all : List WatchedImport} {parts : List (List WatchedImport)}
    (each : ∀ part ∈ parts, part = [] ∨ part = all) :
    distinctImports parts.flatten = if parts.flatten = [] then [] else distinctImports all := by
  induction parts with
  | nil => rfl
  | cons part rest ih =>
    obtain ⟨here, behind⟩ := List.forall_mem_cons.mp each
    rcases here with rfl | rfl
    · exact ih behind
    · have known : ∀ item ∈ rest.flatten, item ∈ part := by
        intro item member
        obtain ⟨other, isPart, inside⟩ := List.mem_flatten.mp member
        rcases behind other isPart with rfl | rfl
        · exact absurd inside List.not_mem_nil
        · exact inside
      have again : ((distinctImports rest.flatten).filter fun item =>
          !(part.map WatchedImport.key).contains item.key) = [] := by
        rw [List.filter_eq_nil_iff]
        intro item kept
        have present := List.mem_map_of_mem (known item (mem_of_mem_distinctImports kept)) (f := WatchedImport.key)
        simp [present]
      rw [List.flatten_cons, distinctImports_append, again, List.append_nil]
      split
      · rename_i nothing
        rw [(List.append_eq_nil_iff.mp nothing).1]
        rfl
      · rfl

theorem distinctImports_map (c : Correspondence) (imports : List WatchedImport) :
    distinctImports (imports.map (WatchedImport.image c)) = (distinctImports imports).map (WatchedImport.image c) := by
  have keys (item other : WatchedImport) :
      ((other.image c).key != (item.image c).key) = (other.key != item.key) := by
    rw [Bool.eq_iff_iff, bne_iff_ne, bne_iff_ne]
    exact (ClauseKey.image_injective c).ne_iff
  induction imports with
  | nil => rfl
  | cons item rest ih =>
    simp only [List.map_cons, distinctImports, ih, List.filter_map, Function.comp_def, keys]

/-- Nor does it matter in which order they come. -/
theorem distinctImports_flatten_perm {c : Correspondence} {all : List WatchedImport}
    {parts parts' : List (List WatchedImport)} (perm : parts'.Perm (parts.map (List.map (WatchedImport.image c))))
    (each : ∀ part ∈ parts, part = [] ∨ part = all) :
    distinctImports parts'.flatten = (distinctImports parts.flatten).map (WatchedImport.image c) := by
  have each' : ∀ part ∈ parts', part = [] ∨ part = all.map (WatchedImport.image c) := by
    intro part member
    obtain ⟨old, oldMember, rfl⟩ := List.mem_map.mp (perm.mem_iff.mp member)
    rcases each old oldMember with rfl | rfl
    · exact .inl rfl
    · exact .inr rfl
  have empty : parts'.flatten = [] ↔ parts.flatten = [] := by
    rw [List.flatten_eq_nil_iff, List.flatten_eq_nil_iff]
    simp [perm.mem_iff]
  rw [distinctImports_flatten each', distinctImports_flatten each, distinctImports_map]
  simp only [empty]
  split <;> rfl

end Resolution

/-! ## Resolution -/

def Diagnostic.respell (f : Respelling) (diagnostic : Diagnostic) : Diagnostic :=
  { diagnostic with problem := diagnostic.problem.respell f }

theorem Diagnostic.respell_keep (diagnostic : Diagnostic) : diagnostic.respell .keep = diagnostic := by
  rw [respell, Problem.respell_keep]

variable {c : Correspondence} {first second : Library} {checks : Checks} {entry : Entry}

namespace Library.Corresponds

open Resolution

variable (same : first.Corresponds c second)

include same

theorem contains_used_image (key : ClauseKey) :
    (allFindings second checks).used.contains (key.image c) = (allFindings first checks).used.contains key := by
  rw [Bool.eq_iff_iff, List.contains_iff_mem, List.contains_iff_mem, mem_used_allFindings_iff,
    mem_used_allFindings_iff]
  constructor
  · rintro ⟨reader, reader_mem, isUsed⟩
    obtain ⟨old, old_mem, rfl⟩ := same.exists_image reader_mem
    rw [(corresponds_findings same _ old).used, List.mem_map_of_injective (ClauseKey.image_injective c)] at isUsed
    exact ⟨old, old_mem, isUsed⟩
  · rintro ⟨reader, reader_mem, isUsed⟩
    refine ⟨_, same.image_mem reader_mem, ?_⟩
    rw [(corresponds_findings same _ reader).used]
    exact List.mem_map_of_mem isUsed

/-- Corresponding use clauses of a unit are watched, whichever unit they are watched for first. -/
theorem distinctImports_image (member : entry ∈ first.entries) :
    distinctImports ((allFindings second checks).imports.filter (isBy (c.number entry.index))) =
      (distinctImports ((allFindings first checks).imports.filter (isBy entry.index))).map (WatchedImport.image c) := by
  have parts (library : Library) (index : Nat) : (allFindings library checks).imports.filter (isBy index) =
      (library.entries.map fun reader =>
        (findings library checks.deferredConstants reader).imports.filter (isBy index)).flatten := by
    rw [allFindings, Findings.additive_imports.flatten, List.flatMap_map, List.filter_flatMap, List.flatMap_def]
  rw [parts, parts]
  apply distinctImports_flatten_perm
  · refine (same.perm_map_entries _).trans (.of_eq ?_)
    rw [List.map_map]
    refine List.map_congr_left fun reader _ => ?_
    have images : isBy (c.number entry.index) ∘ WatchedImport.image c = isBy entry.index :=
      funext fun item => c.number_beq item.key.owner entry.index
    rw [(corresponds_findings same _ reader).imports, List.filter_map, images]
    rfl
  · intro part present
    obtain ⟨reader, reader_mem, rfl⟩ := List.mem_map.mp present
    exact filter_imports_findings member reader_mem

/-- Of each unit, the use clauses that correspond are unused, in the same order. -/
theorem filter_unused (checks : Checks) (member : entry ∈ first.entries) :
    (unused second checks).filter (isBy (c.number entry.index)) =
      ((unused first checks).filter (isBy entry.index)).map (WatchedImport.image c) := by
  unfold unused
  split
  · rw [unusedImports, List.filter_comm, filter_distinctImports, same.distinctImports_image member, List.filter_map,
      unusedImports, List.filter_comm, filter_distinctImports]
    congr 1
    apply List.filter_congr
    intro item _
    exact congrArg _ (same.contains_used_image item.key)
  · rfl

/-- What is reported at a unit is what is reported at the one that corresponds to it. -/
theorem reported_image (member : entry ∈ first.entries) :
    reported second checks (entry.image c) = (reported first checks entry).map (Finding.respell c.spelling) := by
  have own := same.filter_unused checks member
  have warnings : ((unused second checks).filter fun item => item.key.owner == (entry.image c).index) =
      ((unused first checks).filter fun item => item.key.owner == entry.index).map (WatchedImport.image c) := own
  rw [reported, reported, warnings, (corresponds_findings same _ entry).problems, List.map_append, List.map_map,
    List.map_map]
  rfl

/-- Corresponding units have corresponding diagnostics. -/
theorem diagnostics_resolve (checks : Checks) (index : Nat) :
    (second.resolve checks).diagnostics (c.number index) =
      ((first.resolve checks).diagnostics index).map (Diagnostic.respell c.spelling) := by
  by_cases bound : index < first.size
  · obtain ⟨entry, member, rfl⟩ := exists_entry bound
    have here : (second.resolve checks).diagnostics (c.number entry.index) = _ :=
      Resolution.diagnostics_resolve (same.image_mem member)
    rw [here, Resolution.diagnostics_resolve member, same.reported_image member, Entry.index_image, same.fileOf,
      List.map_map, List.map_map]
    rfl
  · rw [diagnostics_resolve_of_size_le (Nat.le_of_not_lt (mt same.lt_size_iff.mp bound)),
      diagnostics_resolve_of_size_le (Nat.le_of_not_lt bound), List.map_nil]

/-- Corresponding units have corresponding dependencies. -/
theorem dependencies_resolve (checks : Checks) (index : Nat) :
    List.Forall₂ (Dependency.Corresponds c) ((first.resolve checks).dependencies index)
      ((second.resolve checks).dependencies (c.number index)) := by
  by_cases bound : index < first.size
  · obtain ⟨entry, member, rfl⟩ := exists_entry bound
    have here : (second.resolve checks).dependencies (c.number entry.index) = _ :=
      Library.dependencies_resolve (same.image_mem member)
    rw [here, Library.dependencies_resolve member]
    refine List.rel_filter ?_ (corresponds_findings same _ entry).dependencies
    intro dependency image corresponds
    dsimp only
    rw [corresponds.unit, bne_iff_ne, bne_iff_ne]
    exact c.number.injective.ne_iff.symm
  · rw [dependencies_resolve_of_size_le (Nat.le_of_not_lt (mt same.lt_size_iff.mp bound)),
      dependencies_resolve_of_size_le (Nat.le_of_not_lt bound)]
    exact .nil

end Library.Corresponds

end VhdlOrder
