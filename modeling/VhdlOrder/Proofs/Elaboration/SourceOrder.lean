import VhdlOrder.Proofs.Elaboration.Correspondence
import VhdlOrder.Proofs.Visibility.Located

/-! # The order of sources

Units are numbered in the order in which their sources are read. If no two units share their designation, every
unit is kept whatever the order is, and another order of the sources only gives other numbers to the units. What
is resolved is the same then: the same dependencies in the same order, the same diagnostics, and plans with the
same units.
-/

namespace VhdlOrder

/-! ## Numbers of a list in another order -/

/-- The first place stays the first one, and the places behind it are renumbered. -/
def renumberBehind (number : Equiv.Perm Nat) : Equiv.Perm Nat where
  toFun
    | 0 => 0
    | index + 1 => number index + 1
  invFun
    | 0 => 0
    | index + 1 => number.symm index + 1
  left_inv index := by cases index <;> simp
  right_inv index := by cases index <;> simp

/-- Lists with the same elements have them at places that correspond. -/
theorem exists_number_of_perm {α : Type} {first second : List α} (perm : first.Perm second) :
    ∃ number : Equiv.Perm Nat, ∀ index, second[number index]? = first[index]? := by
  induction perm with
  | nil => exact ⟨.refl _, fun _ => rfl⟩
  | cons item _ ih =>
    obtain ⟨number, agree⟩ := ih
    refine ⟨renumberBehind number, fun index => ?_⟩
    cases index with
    | zero => rfl
    | succ index => exact agree index
  | swap item other rest =>
    refine ⟨Equiv.swap 0 1, fun index => ?_⟩
    match index with
    | 0 => rw [Equiv.swap_apply_left]; rfl
    | 1 => rw [Equiv.swap_apply_right]; rfl
    | index + 2 => rw [Equiv.swap_apply_of_ne_of_ne (by omega) (by omega)]; rfl
  | trans _ _ ih ih' =>
    obtain ⟨number, agree⟩ := ih
    obtain ⟨number', agree'⟩ := ih'
    exact ⟨number.trans number', fun index => (agree' _).trans (agree index)⟩

namespace Library

/-! ## Units and their files -/

/-- The units in order, each with the path of its file. -/
def placed (library : Library) : List (DesignUnit × String) :=
  library.units.map fun item => (item.unit, library.path item.source)

variable {library first second : Library}

theorem unit?_eq_placed (index : Nat) : library.unit? index = library.placed[index]?.map Prod.fst := by
  rw [placed, List.getElem?_map, Option.map_map]
  rfl

theorem fileOf_eq_placed (index : Nat) : library.fileOf index = (library.placed[index]?.map Prod.snd).getD "" := by
  rw [placed, List.getElem?_map, Option.map_map]
  rfl

/-- Libraries with the same units in the same files correspond, if no two units share their designation. -/
theorem exists_corresponds (name : second.name = first.name) (perm : first.placed.Perm second.placed)
    (unambiguous : first.Unambiguous) : ∃ number, first.Corresponds ⟨.keep, number⟩ second := by
  obtain ⟨number, agree⟩ := exists_number_of_perm perm
  refine ⟨number, name, fun index => ?_, fun index => ?_, unambiguous⟩
  · have keeps : DesignUnit.respell .keep = id := funext DesignUnit.respell_keep
    rw [unit?_eq_placed, agree, ← unit?_eq_placed, keeps, Option.map_id_fun]
    rfl
  · rw [fileOf_eq_placed, agree, ← fileOf_eq_placed]

/-- No two units of the sources share their designation. -/
def NoDuplicates (sources : List (String × String)) : Prop :=
  (sources.flatMap fun source => (parsed source.2).map DesignUnit.designation).Nodup

theorem NoDuplicates.perm {sources sources' : List (String × String)} (unique : NoDuplicates sources)
    (perm : sources.Perm sources') : NoDuplicates sources' :=
  (perm.flatMap_right _).nodup_iff.mp unique

/-- Without duplicates, all units of the sources are kept, each with the path of its source. -/
theorem map_unitsOf {files : List String} {number : Nat} {taken : List Designation} {sources : List (String × String)}
    (rest : files.drop number = sources.map Prod.fst)
    (unique : (taken ++ sources.flatMap fun source => (parsed source.2).map DesignUnit.designation).Nodup) :
    (unitsOf number taken sources).map (fun item => (item.unit, files[item.source]?.getD "")) =
      sources.flatMap fun source => (parsed source.2).map fun unit => (unit, source.1) := by
  induction sources generalizing number taken with
  | nil => rfl
  | cons source rest' ih =>
    obtain ⟨file, text⟩ := source
    rw [List.flatMap_cons, ← List.append_assoc] at unique
    have kept : fresh taken (parsed text) = parsed text := fresh_eq_self (List.nodup_append.mp unique).1
    have path : files[number]? = some file := by
      rw [← List.head?_drop, rest]
      rfl
    have behind : files.drop (number + 1) = rest'.map Prod.fst := by
      rw [← List.tail_drop, rest]
      rfl
    rw [unitsOf, kept, List.map_append, List.flatMap_cons, ih behind unique]
    congr 1
    rw [List.map_map]
    refine List.map_congr_left fun unit _ => ?_
    simp [path]

theorem placed_ofSources {sources : List (String × String)} (unique : NoDuplicates sources) (name : Identifier)
    (directive : String) : (ofSources name directive sources).placed =
      sources.flatMap fun source => (parsed source.2).map fun unit => (unit, source.1) := by
  unfold placed path
  rw [units_ofSources, (hasRead_ofSources name directive sources).files]
  exact map_unitsOf rfl unique

end Library

/-- The dependency with its unit under another number. -/
def Dependency.renumber (number : Nat → Nat) (dependency : Dependency) : Dependency :=
  { dependency with unit := number dependency.unit }

theorem Dependency.Corresponds.eq_renumber {number : Equiv.Perm Nat} {dependency image : Dependency}
    (corresponds : dependency.Corresponds ⟨.keep, number⟩ image) : image = dependency.renumber number := by
  obtain ⟨unit, kind, via, position⟩ := corresponds
  cases image
  cases dependency
  simp_all [renumber]

theorem Library.Corresponds.dependencies_eq_map {first second : Library} {number : Equiv.Perm Nat} {checks : Checks}
    (same : first.Corresponds ⟨.keep, number⟩ second) (index : Nat) :
    (second.resolve checks).dependencies (number index) =
      ((first.resolve checks).dependencies index).map (Dependency.renumber number) := by
  have renumbered : List.Forall₂ (fun dependency image => image = dependency.renumber number)
      ((first.resolve checks).dependencies index) ((second.resolve checks).dependencies (number index)) :=
    (same.dependencies_resolve checks index).imp fun _ _ => Dependency.Corresponds.eq_renumber
  rw [← List.forall₂_eq_eq_eq, List.forall₂_map_right_iff]
  exact renumbered.flip

theorem Library.Corresponds.diagnostics_eq {first second : Library} {number : Equiv.Perm Nat} {checks : Checks}
    (same : first.Corresponds ⟨.keep, number⟩ second) (index : Nat) :
    (second.resolve checks).diagnostics (number index) = (first.resolve checks).diagnostics index := by
  have keeps : Diagnostic.respell .keep = id := funext Diagnostic.respell_keep
  have diagnostics := same.diagnostics_resolve checks index
  rwa [keeps, List.map_id] at diagnostics

namespace Resolution.Sample

theorem noDuplicates_sources : Library.NoDuplicates sources := by
  have designations : (sources.flatMap fun source => (Library.parsed source.2).map DesignUnit.designation) =
      [.primary (Identifier.basic "p").key, .body (Identifier.basic "p").key] := by
    simp only [sources, List.flatMap_cons, List.flatMap_nil, Library.parsed, read_brokenText, read_plainText,
      units_brokenTokens, units_plainTokens]
    rfl
  rw [Library.NoDuplicates, designations]
  decide

theorem dependencies_body : (twoFiles.resolve .standard).dependencies 1 = [⟨0, .primary, "p", ⟨1, 1⟩⟩] := by cbv

end Resolution.Sample

namespace Elaboration

/-- Without duplicates, the order of the sources only matters for the numbers of the units: under other numbers,
every unit stands in the same file, with the same dependencies and diagnostics. So there is an order of all units
whichever way the sources are ordered, and a plan for the same target has the same units. -/
theorem sources_in_any_order {sources sources' : List (String × String)} (perm : sources.Perm sources')
    (unique : Library.NoDuplicates sources) (name : Identifier) (directive : String) :
    ∃ number : Equiv.Perm Nat,
      (∀ index,
        (Library.ofSources name directive sources').unit? (number index) =
            (Library.ofSources name directive sources).unit? index ∧
          (Library.ofSources name directive sources').fileOf (number index) =
            (Library.ofSources name directive sources).fileOf index) ∧
      ∀ checks : Checks,
        (∀ index,
          ((Library.ofSources name directive sources').resolve checks).dependencies (number index) =
              (((Library.ofSources name directive sources).resolve checks).dependencies index).map
                (Dependency.renumber number) ∧
            ((Library.ofSources name directive sources').resolve checks).diagnostics (number index) =
              ((Library.ofSources name directive sources).resolve checks).diagnostics index) ∧
        ((∃ order, (ofLibrary (Library.ofSources name directive sources') checks).order = .ok order) ↔
          ∃ order, (ofLibrary (Library.ofSources name directive sources) checks).order = .ok order) ∧
        ∀ target,
          ((∃ plan, (ofLibrary (Library.ofSources name directive sources') checks).plan (number target) = .ok plan) ↔
            ∃ plan, (ofLibrary (Library.ofSources name directive sources) checks).plan target = .ok plan) ∧
          ∀ plan plan', (ofLibrary (Library.ofSources name directive sources) checks).plan target = .ok plan →
            (ofLibrary (Library.ofSources name directive sources') checks).plan (number target) = .ok plan' →
              plan'.Perm (plan.map number) := by
  have placed : (Library.ofSources name directive sources).placed.Perm
      (Library.ofSources name directive sources').placed := by
    rw [Library.placed_ofSources unique, Library.placed_ofSources (unique.perm perm)]
    exact perm.flatMap_right _
  have names : (Library.ofSources name directive sources').name = (Library.ofSources name directive sources).name := by
    rw [Library.name_ofSources, Library.name_ofSources]
  obtain ⟨number, same⟩ := Library.exists_corresponds names placed (Library.unambiguous_ofSources name directive sources)
  have keeps : DesignUnit.respell .keep = id := funext DesignUnit.respell_keep
  refine ⟨number, fun index => ⟨?_, same.fileOf index⟩, fun checks => ⟨fun index => ?_, same.exists_order_iff, ?_⟩⟩
  · rw [same.unit?, keeps, Option.map_id_fun, id]
  · exact ⟨same.dependencies_eq_map index, same.diagnostics_eq index⟩
  · intro target
    exact ⟨same.exists_plan_iff, fun plan plan' planned planned' => same.perm_plan planned planned'⟩

/-- A body in front of its package depends on the package all the same, and has the same diagnostics. -/
theorem sources_in_any_order_reversed :
    Library.NoDuplicates Resolution.Sample.sources ∧
      ∃ number : Equiv.Perm Nat,
        ((Library.ofSources .work "elab" Resolution.Sample.sources.reverse).resolve .standard).dependencies (number 1) =
            [⟨number 0, .primary, "p", ⟨1, 1⟩⟩] ∧
          Resolution.Sample.misplaced ∈
            ((Library.ofSources .work "elab" Resolution.Sample.sources.reverse).resolve .standard).diagnostics
              (number 1) := by
  have unique := Resolution.Sample.noDuplicates_sources
  obtain ⟨number, -, resolved⟩ :=
    sources_in_any_order (List.reverse_perm Resolution.Sample.sources).symm unique .work "elab"
  obtain ⟨dependencies, diagnostics⟩ := (resolved .standard).1 1
  refine ⟨unique, number, ?_, diagnostics ▸ Resolution.Sample.misplaced_mem⟩
  rw [dependencies, Resolution.Sample.ofSources_sources, Resolution.Sample.dependencies_body]
  rfl

end Elaboration

end VhdlOrder
