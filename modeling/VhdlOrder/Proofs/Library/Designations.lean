import Mathlib.Data.List.Nodup
import VhdlOrder.Proofs.Library.Sources

/-! # Names that units must not share

Primary units of a library have different names, and so have the bodies of packages and the architectures of
one entity. What must differ is the designation of a unit. A unit whose designation is taken is dropped when it
is read, and one diagnostic says so. So no two units of a library that is read from sources share theirs; and where
none is taken, every unit is kept.
-/

namespace VhdlOrder

/-- What a unit is known by: the key of the name of a primary unit, of the package of a body, or of an entity
together with that of its architecture. -/
inductive Designation where
  | primary (name : Bool × List Char)
  | body (package : Bool × List Char)
  | architecture (entity name : Bool × List Char)
deriving DecidableEq

namespace DesignUnit

/-- What the unit is known by. -/
def designation (unit : DesignUnit) : Designation :=
  match unit.contents with
  | .packageBody _ => .body unit.name.key
  | .architecture entity => .architecture entity.key unit.name.key
  | _ => .primary unit.name.key

variable {unit : DesignUnit} {name entity : Identifier}

theorem designation_eq_primary_iff :
    unit.designation = .primary name.key ↔ unit.isPrimary = true ∧ unit.name.same name = true := by
  unfold designation isPrimary kind
  rw [Identifier.same_iff]
  cases unit.contents <;> simp

theorem designation_eq_body_iff :
    unit.designation = .body name.key ↔ unit.kind = .packageBody ∧ unit.name.same name = true := by
  unfold designation kind
  rw [Identifier.same_iff]
  cases unit.contents <;> simp

theorem designation_eq_architecture_iff :
    unit.designation = .architecture entity.key name.key ↔
      Library.isArchitectureOf entity unit = true ∧ unit.name.same name = true := by
  unfold designation Library.isArchitectureOf
  rw [Identifier.same_iff]
  cases unit.contents <;> simp [Identifier.same_iff]

end DesignUnit

namespace Library

/-- What the units of a library are known by. -/
def designations (library : Library) : List Designation := library.units.map fun item => item.unit.designation

/-- No two units of the library share their designation. -/
def Unambiguous (library : Library) : Prop := library.designations.Nodup

variable {library : Library} {source : Nat}

theorem map_unit_entries (library : Library) :
    library.entries.map Entry.unit = library.units.map LibraryUnit.unit := by
  apply List.ext_getElem?
  intro index
  rw [List.getElem?_map, getElem?_entries, List.getElem?_map, unit?, Option.map_map]
  simp [Function.comp_def]

theorem map_index_entries (library : Library) : library.entries.map Entry.index = List.range library.size := by
  apply List.ext_getElem?
  intro index
  rw [List.getElem?_map, getElem?_entries, Option.map_map, unit?, Option.map_map]
  by_cases bound : index < library.size
  · rw [List.getElem?_range bound, List.getElem?_eq_getElem bound]
    rfl
  · rw [List.getElem?_eq_none (Nat.le_of_not_lt bound), List.getElem?_eq_none (by simpa using bound)]
    rfl

theorem nodup_entries (library : Library) : library.entries.Nodup :=
  List.Nodup.of_map Entry.index (map_index_entries library ▸ List.nodup_range)

theorem designations_eq_map_entries (library : Library) :
    library.designations = library.entries.map fun entry => entry.unit.designation := by
  calc library.designations
      = (library.units.map LibraryUnit.unit).map DesignUnit.designation := by
        rw [List.map_map]
        rfl
    _ = (library.entries.map Entry.unit).map DesignUnit.designation := by rw [map_unit_entries]
    _ = library.entries.map fun entry => entry.unit.designation := List.map_map ..

/-- The units of an unambiguous library are known by their designations. -/
theorem Unambiguous.eq_of_designation_eq (unambiguous : library.Unambiguous) {first second : Entry}
    (first_mem : first ∈ library.entries) (second_mem : second ∈ library.entries)
    (same : first.unit.designation = second.unit.designation) : first = second := by
  rw [Unambiguous, designations_eq_map_entries] at unambiguous
  exact List.inj_on_of_nodup_map unambiguous first_mem second_mem same

/-- A unit that has a name already is one with the same designation. -/
theorem holder?_eq_find? (unit : DesignUnit) :
    library.holder? unit = library.entries.find? fun entry => entry.unit.designation == unit.designation := by
  have primary : unit.designation = .primary unit.name.key → library.primary? unit.name =
      library.entries.find? fun entry => entry.unit.designation == unit.designation := by
    intro isPrimary
    rw [primary?, isPrimary]
    congr 1
    funext entry
    rw [Bool.eq_iff_iff, Bool.and_eq_true, beq_iff_eq, DesignUnit.designation_eq_primary_iff]
  unfold holder?
  cases contents : unit.contents with
  | packageBody declarations =>
    have isBody : unit.designation = .body unit.name.key := by simp [DesignUnit.designation, contents]
    dsimp only
    rw [body?, isBody]
    congr 1
    funext entry
    rw [Bool.eq_iff_iff, Bool.and_eq_true, beq_iff_eq, beq_iff_eq, DesignUnit.designation_eq_body_iff]
  | architecture entity =>
    have isArchitecture : unit.designation = .architecture entity.key unit.name.key := by
      simp [DesignUnit.designation, contents]
    dsimp only
    rw [architecture?, architectures, List.find?_filter, isArchitecture]
    congr 1
    funext entry
    rw [Bool.eq_iff_iff, decide_eq_true_iff, beq_iff_eq, DesignUnit.designation_eq_architecture_iff]
  | package | entity | configuration | context =>
    exact primary (by simp [DesignUnit.designation, contents])

theorem holder?_eq_none_iff {unit : DesignUnit} :
    library.holder? unit = none ↔ unit.designation ∉ library.designations := by
  rw [holder?_eq_find?, designations_eq_map_entries, List.find?_eq_none, List.mem_map]
  constructor
  · rintro others ⟨entry, member, same⟩
    exact others entry member (beq_iff_eq.mpr same)
  · intro fresh entry member same
    exact fresh ⟨entry, member, beq_iff_eq.mp same⟩

/-- The units whose designations are not among those taken, nor taken by an earlier one. -/
def fresh (taken : List Designation) : List DesignUnit → List DesignUnit
  | [] => []
  | unit :: rest =>
      if unit.designation ∈ taken then fresh taken rest else unit :: fresh (taken ++ [unit.designation]) rest

/-- The units whose designations are among those taken, or taken by an earlier one. -/
def repeated (taken : List Designation) : List DesignUnit → List DesignUnit
  | [] => []
  | unit :: rest =>
      if unit.designation ∈ taken then unit :: repeated taken rest else repeated (taken ++ [unit.designation]) rest

/-- The units of a text up to its first fault. -/
def parsed (text : String) : List DesignUnit := (DesignFile.units (Lexer.readUntilFault text).1).1

/-- The units of some sources with the numbers from `number` on, as far as their designations are not taken. -/
def unitsOf (number : Nat) (taken : List Designation) : List (String × String) → List LibraryUnit
  | [] => []
  | (_, text) :: rest =>
      let kept := fresh taken (parsed text)
      kept.map (LibraryUnit.mk · number) ++ unitsOf (number + 1) (taken ++ kept.map DesignUnit.designation) rest

/-- The diagnostic says that the unit, which is in the file `file`, has the name of a unit of the library. -/
def Reports (library : Library) (file : String) (unit : DesignUnit) (diagnostic : Diagnostic) : Prop :=
  ∃ holder ∈ library.entries, holder.unit.designation = unit.designation ∧
    diagnostic = .place .error (.duplicateUnit unit.kind (duplicateName unit) (library.locate holder.index)) file
      unit.position

/-- Places of units stay the same when more is put behind. -/
theorem locate_grow {index : Nat} (bound : index < library.size) (growth : Growth) :
    (library.grow growth).locate index = library.locate index := by
  have item : (library.grow growth).units[index]? = library.units[index]? := List.getElem?_append_left bound
  simp [locate, fileOf, unit?, item]

theorem mem_entries_grow {entry : Entry} (member : entry ∈ library.entries) (growth : Growth) :
    entry ∈ (library.grow growth).entries :=
  (entries_mono (List.prefix_append _ _)).subset member

theorem Reports.grow {file : String} {unit : DesignUnit} {diagnostic : Diagnostic}
    (reports : library.Reports file unit diagnostic) (growth : Growth) :
    (library.grow growth).Reports file unit diagnostic := by
  obtain ⟨holder, member, same, rfl⟩ := reports
  refine ⟨holder, mem_entries_grow member growth, same, ?_⟩
  rw [locate_grow (index_lt member)]

/-- A unit with a free name is added. -/
theorem addUnit_of_not_mem {unit : DesignUnit} (free : unit.designation ∉ library.designations) (source : Nat) :
    library.addUnit source unit = (true, library.grow ⟨[⟨unit, source⟩], [], []⟩) := by
  simp [addUnit, holder?_eq_none_iff.mpr free, grow]

/-- A unit whose name is taken is reported. -/
theorem exists_addUnit_of_mem {unit : DesignUnit} (taken : unit.designation ∈ library.designations) (source : Nat) :
    ∃ said, library.Reports (library.path source) unit said ∧
      library.addUnit source unit = (false, library.grow ⟨[], [], [said]⟩) := by
  cases holder : library.holder? unit with
  | none => exact absurd taken (holder?_eq_none_iff.mp holder)
  | some first =>
    refine ⟨_, ⟨first, ?_, ?_, rfl⟩, by simp [addUnit, holder, report_eq_grow]⟩
    · rw [holder?_eq_find?] at holder
      exact List.mem_of_find?_eq_some holder
    · rw [holder?_eq_find?] at holder
      simpa using List.find?_some holder

/-- Of several units those with free names are added and counted, and each of the others is reported once. -/
theorem exists_addUnits_eq (library : Library) (source : Nat) (units : List DesignUnit) :
    ∃ duplicates, List.Forall₂ ((library.addUnits source units).2.Reports (library.path source))
        (repeated library.designations units) duplicates ∧
      library.addUnits source units = ((fresh library.designations units).length,
        library.grow ⟨(fresh library.designations units).map (LibraryUnit.mk · source), [], duplicates⟩) := by
  induction units generalizing library with
  | nil => exact ⟨[], .nil, by simp [addUnits, fresh, grow]⟩
  | cons unit rest ih =>
    by_cases taken : unit.designation ∈ library.designations
    · obtain ⟨said, reports, added⟩ := exists_addUnit_of_mem taken source
      obtain ⟨duplicates, others, all⟩ := ih (library.grow ⟨[], [], [said]⟩)
      have same : (library.grow ⟨[], [], [said]⟩).designations = library.designations := by simp [designations, grow]
      rw [same] at others all
      refine ⟨said :: duplicates, ?_, ?_⟩
      · simp only [addUnits, added, repeated, if_pos taken]
        refine .cons ?_ others
        rw [all]
        exact (reports.grow _).grow _
      · simp only [addUnits, added, fresh, if_pos taken, all]
        simp [grow_grow]
    · have added := addUnit_of_not_mem taken source
      obtain ⟨duplicates, others, all⟩ := ih (library.grow ⟨[⟨unit, source⟩], [], []⟩)
      have more : (library.grow ⟨[⟨unit, source⟩], [], []⟩).designations =
          library.designations ++ [unit.designation] := by simp [designations, grow]
      rw [more] at others all
      refine ⟨duplicates, ?_, ?_⟩
      · simp only [addUnits, added, repeated, if_neg taken]
        exact others
      · simp only [addUnits, added, fresh, if_neg taken, all]
        simp [grow_grow]

/-- What reading a source adds, and how many units are added. -/
theorem exists_addSource_eq (library : Library) (file text directive : String) :
    ∃ duplicates, List.Forall₂ ((library.addSource file text directive).2.Reports file)
        (repeated library.designations (parsed text)) duplicates ∧
      library.addSource file text directive = ((fresh library.designations (parsed text)).length,
        (library.opened file text directive).grow
          ⟨(fresh library.designations (parsed text)).map (LibraryUnit.mk · library.files.length), [],
            duplicates⟩) := by
  have taken : (library.opened file text directive).designations = library.designations := by
    simp [opened, designations, grow, addFile]
  have path : (library.opened file text directive).path library.files.length = file := path_addFile library file
  obtain ⟨duplicates, reports, answer⟩ :=
    (library.opened file text directive).exists_addUnits_eq library.files.length (parsed text)
  rw [taken] at reports answer
  rw [path] at reports
  have whole : library.addSource file text directive =
      (library.opened file text directive).addUnits library.files.length (parsed text) :=
    library.addSource_eq_addUnits file text directive
  exact ⟨duplicates, whole ▸ reports, whole.trans answer⟩

theorem units_addSource (file text directive : String) :
    (library.addSource file text directive).2.units = library.units ++
      (fresh library.designations (parsed text)).map (LibraryUnit.mk · library.files.length) := by
  obtain ⟨duplicates, -, answer⟩ := library.exists_addSource_eq file text directive
  rw [answer]
  simp [opened, grow, addFile]

theorem files_addSource (file text directive : String) :
    (library.addSource file text directive).2.files = library.files ++ [file] := by
  obtain ⟨duplicates, -, answer⟩ := library.exists_addSource_eq file text directive
  rw [answer]
  rfl

theorem units_addSources (directive : String) (sources : List (String × String)) :
    (library.addSources directive sources).units =
      library.units ++ unitsOf library.files.length library.designations sources := by
  induction sources generalizing library with
  | nil => exact (List.append_nil _).symm
  | cons first rest ih =>
    obtain ⟨file, text⟩ := first
    have files : (library.addSource file text directive).2.files.length = library.files.length + 1 := by
      rw [files_addSource, List.length_append, List.length_singleton]
    have taken : (library.addSource file text directive).2.designations = library.designations ++
        (fresh library.designations (parsed text)).map DesignUnit.designation := by
      simp [designations, units_addSource, Function.comp_def]
    rw [addSources, ih, files, taken, units_addSource, unitsOf, List.append_assoc]

/-- The units of the linked library of some sources are those of the sources whose designations are not taken. -/
theorem units_ofSources (name : Identifier) (directive : String) (sources : List (String × String)) :
    (ofSources name directive sources).units = unitsOf 0 [] sources := by
  change ((empty name).addSources directive sources).units =
    [] ++ unitsOf (empty name).files.length (empty name).designations sources
  exact units_addSources directive sources

theorem nodup_fresh {taken : List Designation} (unique : taken.Nodup) (units : List DesignUnit) :
    (taken ++ (fresh taken units).map DesignUnit.designation).Nodup := by
  induction units generalizing taken with
  | nil => simpa [fresh] using unique
  | cons unit rest ih =>
    unfold fresh
    split
    · exact ih unique
    · rename_i notTaken
      have unique' : (taken ++ [unit.designation]).Nodup := by
        simpa [List.nodup_append', unique] using notTaken
      simpa using ih unique'

theorem nodup_unitsOf {taken : List Designation} (unique : taken.Nodup) (number : Nat)
    (sources : List (String × String)) :
    (taken ++ (unitsOf number taken sources).map fun item => item.unit.designation).Nodup := by
  induction sources generalizing taken number with
  | nil => simpa [unitsOf] using unique
  | cons first rest ih =>
    obtain ⟨file, text⟩ := first
    simpa [unitsOf, Function.comp_def] using
      ih (nodup_fresh unique (parsed text)) (number + 1)

/-- A library that is read from sources is unambiguous. -/
theorem unambiguous_ofSources (name : Identifier) (directive : String) (sources : List (String × String)) :
    (ofSources name directive sources).Unambiguous := by
  rw [Unambiguous, designations, units_ofSources]
  exact nodup_unitsOf List.nodup_nil 0 sources

/-- Where nothing is taken, nothing is left out. -/
theorem fresh_eq_self {taken : List Designation} {units : List DesignUnit}
    (unique : (taken ++ units.map DesignUnit.designation).Nodup) : fresh taken units = units := by
  induction units generalizing taken with
  | nil => rfl
  | cons unit rest ih =>
    have notTaken : unit.designation ∉ taken := by
      have distinct := (List.nodup_append'.mp unique).2.2
      exact fun isTaken => distinct isTaken List.mem_cons_self
    rw [fresh, if_neg notTaken, ih (by simpa using unique)]

end Library

end VhdlOrder
