import VhdlOrder.Elaboration.Plan
import VhdlOrder.Proofs.Visibility.Unused

/-! # What the settings of the checks change

Two libraries that differ in the settings of the checks only are resolved to the same dependencies, so they
have the same orders and plans. The settings decide whether two problems are reported: imports that are not
used, and deferred constants of packages without a body, which also have the severity that the settings give
them. All other diagnostics are the same.
-/

namespace VhdlOrder

/-- The finding under another level: a deferred constant without a body is as grave as the level says, or not
reported; any other finding stays as it is. -/
def Finding.regrade? (level : Level) (finding : Finding) : Option Finding :=
  if finding.problem.isConstantWithoutBody then
    level.severity?.map fun severity => { finding with severity := severity }
  else some finding

/-- The diagnostic under another level. -/
def Diagnostic.regrade? (level : Level) (diagnostic : Diagnostic) : Option Diagnostic :=
  if diagnostic.problem.isConstantWithoutBody then
    level.severity?.map fun severity => { diagnostic with severity := severity }
  else some diagnostic

/-- Only deferred constants without a body depend on the level. -/
theorem filterMap_regrade?_eq_self {level : Level} {problems : List Finding}
    (plain : ∀ finding ∈ problems, finding.problem.isConstantWithoutBody = false) :
    problems.filterMap (Finding.regrade? level) = problems := by
  have same : ∀ finding ∈ problems, finding.regrade? level = some finding := by
    intro finding member
    simp [Finding.regrade?, plain finding member]
  rw [List.filterMap_congr same, List.filterMap_some]

/-- None of the problems found is optional. -/
def Findings.Ordinary (found : Findings) : Prop := ∀ finding ∈ found.problems, finding.problem.isOptional = false

namespace Findings

variable {first second : Findings} {level : Level}

theorem AllAt.ordinary {position : Position} (allAt : first.AllAt position) : first.Ordinary :=
  fun finding member => (allAt finding member).2

theorem Ordinary.append (left : first.Ordinary) (right : second.Ordinary) : (first ++ second).Ordinary :=
  List.forall_mem_append.mpr ⟨left, right⟩

theorem Ordinary.filterMap_regrade? (ordinary : first.Ordinary) :
    first.problems.filterMap (Finding.regrade? level) = first.problems :=
  filterMap_regrade?_eq_self fun finding member => (Bool.or_eq_false_iff.mp (ordinary finding member)).2

end Findings

section

variable {library : Library} {scope : Scope} {unit : DesignUnit} {entry : Entry} {level other : Level}

theorem Scope.ordinary_enter (clause : ContextClause) (owner : Option Nat) :
    (scope.enter library clause owner).2.Ordinary := by
  intro finding member
  obtain ⟨met, item, -, found⟩ := (ContextItem.mem_applyAll_iff Findings.additive_problems).mp member
  cases item with
  | library name => exact absurd found List.not_mem_nil
  | reference context => exact (ContextItem.remark_referenceFindings context).allAt.ordinary finding found
  | use clause key => exact (Scope.allAt_use clause key).ordinary finding found

namespace Lookup

variable {visible items : List Declaration}

theorem ordinary_findAll (references : List Reference) :
    (findAll library scope unit visible references).Ordinary := by
  intro finding member
  rw [project_findAll Findings.additive_problems] at member
  obtain ⟨site, -, found⟩ := List.mem_flatMap.mp member
  exact (allAt_atSite site).ordinary finding found

theorem ordinary_declarations : (declarations library scope unit visible items).Ordinary := by
  intro finding member
  rw [project_declarations Findings.additive_problems fun _ => rfl] at member
  obtain ⟨site, -, found⟩ := List.mem_flatMap.mp member
  exact (allAt_atSite site).ordinary finding found

end Lookup

namespace Constant

/-- What is said about a deferred constant under one level follows from what is said under any level that
reports it. -/
theorem completion_eq_bind (reports : other ≠ .allow) (package : Identifier) (body : Option DesignUnit)
    (constant : Declaration) :
    completion level package body constant = (completion other package body constant).bind (Finding.regrade? level) := by
  unfold completion
  cases body with
  | some body =>
    dsimp only
    split <;> rfl
  | none =>
    cases other with
    | allow => exact absurd rfl reports
    | warn => rfl
    | error => rfl

theorem filterMap_regrade?_misplaced (constants : List Declaration) :
    (constants.map misplaced).filterMap (Finding.regrade? level) = constants.map misplaced :=
  filterMap_regrade?_eq_self (List.forall_mem_map.mpr fun _ _ => rfl)

theorem ofPackage_eq_filterMap (reports : other ≠ .allow) :
    ofPackage library level unit = (ofPackage library other unit).filterMap (Finding.regrade? level) := by
  simp only [ofPackage, List.filterMap_append, filterMap_regrade?_misplaced, List.filterMap_filterMap]
  congr 2
  funext constant
  exact completion_eq_bind reports _ _ _

end Constant

namespace Resolution

theorem ordinary_scopeOf : (scopeOf library entry).2.Ordinary := by
  rw [scopeOf_eq]
  refine Findings.Ordinary.append ?_ (Scope.ordinary_enter _ _)
  have entered := entered_enterOwner library entry.unit
  generalize enterOwner library entry.unit = result at entered
  cases entered with
  | alone none => exact List.forall_mem_nil _
  | configuration found isConfiguration => exact List.forall_mem_nil _
  | owner found notConfiguration => exact Scope.ordinary_enter _ _

theorem problems_inside (reports : other ≠ .allow) :
    (inside library level scope entry).problems =
      (inside library other scope entry).problems.filterMap (Finding.regrade? level) := by
  cases contents : entry.unit.contents with
  | package generics declarations template =>
    cases template with
    | none =>
      simp only [inside, contents, Findings.problems_append, List.filterMap_append,
        Lookup.ordinary_declarations.filterMap_regrade?, (Lookup.ordinary_findAll _).filterMap_regrade?,
        ← Constant.ofPackage_eq_filterMap reports]
    | some template =>
      simp only [inside, contents, Findings.problems_append, List.filterMap_append,
        (remark_templateFindings _).allAt.ordinary.filterMap_regrade?, (Lookup.ordinary_findAll _).filterMap_regrade?]
  | packageBody declarations =>
    simp only [inside, contents, Findings.problems_append, List.filterMap_append, Constant.ofBody,
      Lookup.ordinary_declarations.filterMap_regrade?, (Lookup.ordinary_findAll _).filterMap_regrade?,
      Constant.filterMap_regrade?_misplaced]
  | context clause => simp only [inside, contents, (Scope.ordinary_enter _ _).filterMap_regrade?]
  | entity | architecture | configuration =>
    simp only [inside, contents, (Lookup.ordinary_findAll _).filterMap_regrade?]

theorem problems_findings (reports : other ≠ .allow) :
    (findings library level entry).problems =
      (findings library other entry).problems.filterMap (Finding.regrade? level) := by
  have split (level : Level) : (findings library level entry).problems =
      (scopeOf library entry).2.problems ++ (inside library level (scopeOf library entry).1 entry).problems := rfl
  rw [split level, split other, List.filterMap_append, ordinary_scopeOf.filterMap_regrade?,
    ← problems_inside reports]

theorem project_inside {α : Type} {project : Findings → List α}
    (blind : ∀ found problems, project { found with problems := problems } = project found) :
    project (inside library level scope entry) = project (inside library other scope entry) := by
  have same : inside library level scope entry =
      { inside library other scope entry with problems := (inside library level scope entry).problems } := by
    unfold inside
    dsimp only
    split <;> rfl
  rw [same]
  exact blind _ _

/-- Whatever else is found does not depend on the level. -/
theorem project_findings {α : Type} {project : Findings → List α} (additive : Findings.Additive project)
    (blind : ∀ found problems, project { found with problems := problems } = project found) :
    project (findings library level entry) = project (findings library other entry) := by
  have split (level : Level) : project (findings library level entry) =
      project (scopeOf library entry).2 ++ project (inside library level (scopeOf library entry).1 entry) :=
    additive.append _ _
  rw [split level, split other, project_inside blind]

variable {first second : Checks}

theorem project_allFindings {α : Type} {project : Findings → List α} (additive : Findings.Additive project)
    (blind : ∀ found problems, project { found with problems := problems } = project found) :
    project (allFindings library first) = project (allFindings library second) := by
  simp only [allFindings, additive.flatten, List.flatMap_map]
  congr 1
  funext entry
  exact project_findings additive blind

/-- Which imports are not used does not depend on the level. -/
theorem unused_eq (same : first.unusedImports = second.unusedImports) : unused library first = unused library second := by
  have imports : (allFindings library first).imports = (allFindings library second).imports :=
    project_allFindings Findings.additive_imports fun _ _ => rfl
  have used : (allFindings library first).used = (allFindings library second).used :=
    project_allFindings Findings.additive_used fun _ _ => rfl
  simp only [unused, unusedImports, same, imports, used]

/-- The problems at a unit under one level follow from those under any level that reports deferred constants. -/
theorem reported_eq_filterMap {enabled : Bool} (reports : other ≠ .allow) :
    reported library ⟨level, enabled⟩ entry =
      (reported library ⟨other, enabled⟩ entry).filterMap (Finding.regrade? level) := by
  have sameUnused : unused library ⟨level, enabled⟩ = unused library ⟨other, enabled⟩ := unused_eq rfl
  have warnings : ∀ finding ∈ ((unused library ⟨other, enabled⟩).filter fun item => item.key.owner == entry.index).map
      fun item => warning item.name item.position, finding.problem.isConstantWithoutBody = false :=
    List.forall_mem_map.mpr fun _ _ => rfl
  simp only [reported, List.filterMap_append, ← problems_findings reports, sameUnused,
    filterMap_regrade?_eq_self warnings]

/-- Without the check for unused imports the other problems are reported. -/
theorem reported_eq_filter : reported library ⟨level, false⟩ entry =
    (reported library ⟨level, true⟩ entry).filter fun finding => !finding.problem.isUnusedImport := by
  have problems : ∀ finding ∈ (findings library level entry).problems, (!finding.problem.isUnusedImport) = true := by
    intro finding member
    obtain ⟨writer, name, offence⟩ := exists_offence member
    rw [offence.allAt.2]
    rfl
  have warnings (items : List WatchedImport) :
      (items.map fun item => warning item.name item.position).filter
        (fun finding => !finding.problem.isUnusedImport) = [] := by
    apply List.filter_eq_nil_iff.mpr
    exact List.forall_mem_map.mpr fun item _ => Bool.not_eq_true _ ▸ rfl
  rw [reported, reported, List.filter_append, List.filter_eq_self.mpr problems, warnings]
  simp [unused]

theorem filter_filterMap_regrade? (problems : List Finding) :
    (problems.filterMap (Finding.regrade? level)).filter (fun finding => !finding.problem.isOptional) =
      problems.filter fun finding => !finding.problem.isOptional := by
  rw [List.filter_filterMap, ← List.filterMap_eq_filter]
  congr 1
  funext finding
  unfold Finding.regrade? Option.guard
  cases withoutBody : finding.problem.isConstantWithoutBody with
  | false => rfl
  | true => cases level.severity? <;> simp [Problem.isOptional, withoutBody]

/-- Of the problems at a unit, those that are always reported do not depend on the settings. -/
theorem filter_reported_eq :
    (reported library first entry).filter (fun finding => !finding.problem.isOptional) =
      (reported library second entry).filter fun finding => !finding.problem.isOptional := by
  have warnings (items : List WatchedImport) :
      (items.map fun item => warning item.name item.position).filter (fun finding => !finding.problem.isOptional) =
        [] := by
    apply List.filter_eq_nil_iff.mpr
    exact List.forall_mem_map.mpr fun item _ => Bool.not_eq_true _ ▸ rfl
  -- both are compared with a level that reports deferred constants
  have graded (level : Level) : ((findings library level entry).problems.filter fun finding =>
      !finding.problem.isOptional) =
        (findings library .error entry).problems.filter fun finding => !finding.problem.isOptional := by
    rw [problems_findings (show Level.error ≠ .allow by decide), filter_filterMap_regrade?]
  simp only [reported, List.filter_append, warnings, graded]

end Resolution

open Resolution

namespace Library

/-- The dependencies of a unit do not depend on the settings. -/
theorem dependencies_resolve_eq (library : Library) (first second : Checks) (unit : Nat) :
    (library.resolve first).dependencies unit = (library.resolve second).dependencies unit := by
  by_cases bound : unit < library.size
  · obtain ⟨entry, member, rfl⟩ := exists_entry bound
    rw [dependencies_resolve member, dependencies_resolve member,
      project_findings Findings.additive_dependencies fun _ _ => rfl]
  · rw [dependencies_resolve_of_size_le (Nat.le_of_not_lt bound),
      dependencies_resolve_of_size_le (Nat.le_of_not_lt bound)]

theorem exists_entry_or_diagnostics_eq_nil (library : Library) (unit : Nat) :
    (∃ entry ∈ library.entries, entry.index = unit) ∨ ∀ checks, (library.resolve checks).diagnostics unit = [] := by
  by_cases bound : unit < library.size
  · exact .inl (exists_entry bound)
  · exact .inr fun checks => diagnostics_resolve_of_size_le (Nat.le_of_not_lt bound)

variable {checks : Checks}

theorem filter_diagnostics_resolve (member : entry ∈ library.entries) (keep : Problem → Bool) :
    ((library.resolve checks).diagnostics entry.index).filter (fun diagnostic => keep diagnostic.problem) =
      ((reported library checks entry).filter fun finding => keep finding.problem).map fun finding =>
        .place finding.severity finding.problem (library.fileOf entry.index) finding.position := by
  rw [diagnostics_resolve member, List.filter_map]
  rfl

theorem regrade_diagnostics_resolve (member : entry ∈ library.entries) :
    ((library.resolve checks).diagnostics entry.index).filterMap (Diagnostic.regrade? level) =
      ((reported library checks entry).filterMap (Finding.regrade? level)).map fun finding =>
        .place finding.severity finding.problem (library.fileOf entry.index) finding.position := by
  rw [diagnostics_resolve member, List.filterMap_map, List.map_filterMap]
  congr 1
  funext finding
  change (if finding.problem.isConstantWithoutBody then _ else _) = (Option.map _ (finding.regrade? level))
  unfold Finding.regrade?
  split
  · rw [Option.map_map]
    rfl
  · rfl

end Library

namespace Elaboration

theorem graph_ofLibrary_eq (library : Library) (first second : Checks) :
    (ofLibrary library first).graph = (ofLibrary library second).graph := by
  have edges : (ofLibrary library first).edges = (ofLibrary library second).edges := by
    simp only [Elaboration.edges]
    congr 1
    funext unit
    exact congrArg _ (library.dependencies_resolve_eq first second unit)
  rw [graph, graph, edges]
  rfl

end Elaboration

end

namespace Deferring

open Resolution

/-- A package without a body whose constant has no value; nothing in it uses the procedure that it imports. -/
def package : DesignUnit :=
  ⟨.basic "p", ⟨1, 15⟩, ⟨[], [Sample.clause], []⟩, [],
    .package [] [.simple ⟨⟨1, 40⟩, .basic "c"⟩ .deferredConstant] none⟩

def library : Library := ⟨.work, ["p.vhd"], [⟨package, 0⟩, ⟨Sample.declaring, 0⟩], [], []⟩

/-- The diagnostic about the constant. -/
def constant (severity : Severity) : Diagnostic :=
  .place severity (.constantWithoutBody (.basic "c") (.basic "p")) "p.vhd" ⟨1, 40⟩

theorem diagnostics_standard : (library.resolve .standard).diagnostics 0 = [constant .warning, Sample.warned "p.vhd"] := by
  cbv

end Deferring

namespace Elaboration

open Resolution

/-- The settings of the checks do not matter for dependencies, orders and plans, nor for the diagnostics that are
not about an import that is not used or a deferred constant without a body. Without the check for unused imports
the former are left out; another level for deferred constants makes the latter come, go or change their severity,
and does nothing else. -/
theorem checks_keep_elaboration (library : Library) (first second : Checks) :
    (∀ unit, (library.resolve first).dependencies unit = (library.resolve second).dependencies unit) ∧
      (ofLibrary library first).order = (ofLibrary library second).order ∧
      (∀ target, (ofLibrary library first).plan target = (ofLibrary library second).plan target) ∧
      (∀ unit, ((library.resolve first).diagnostics unit).filter (fun diagnostic => !diagnostic.problem.isOptional) =
        ((library.resolve second).diagnostics unit).filter fun diagnostic => !diagnostic.problem.isOptional) ∧
      (∀ unit level, (library.resolve ⟨level, false⟩).diagnostics unit =
        ((library.resolve ⟨level, true⟩).diagnostics unit).filter fun diagnostic =>
          !diagnostic.problem.isUnusedImport) ∧
      ∀ unit level other enabled, other ≠ .allow →
        (library.resolve ⟨level, enabled⟩).diagnostics unit =
          ((library.resolve ⟨other, enabled⟩).diagnostics unit).filterMap (Diagnostic.regrade? level) := by
  have graph := graph_ofLibrary_eq library first second
  refine ⟨library.dependencies_resolve_eq first second, ?_, ?_, ?_, ?_, ?_⟩
  · rw [order, order, graph]
    rfl
  · intro target
    rw [plan, plan, needed, needed, graph]
    rfl
  · intro unit
    obtain ⟨entry, member, rfl⟩ | nothing := library.exists_entry_or_diagnostics_eq_nil unit
    · rw [Library.filter_diagnostics_resolve member fun problem => !problem.isOptional,
        Library.filter_diagnostics_resolve member fun problem => !problem.isOptional, filter_reported_eq]
    · rw [nothing, nothing]
  · intro unit level
    obtain ⟨entry, member, rfl⟩ | nothing := library.exists_entry_or_diagnostics_eq_nil unit
    · rw [Library.filter_diagnostics_resolve member fun problem => !problem.isUnusedImport, diagnostics_resolve member,
        reported_eq_filter]
    · rw [nothing, nothing]
      rfl
  · intro unit level other enabled reports
    obtain ⟨entry, member, rfl⟩ | nothing := library.exists_entry_or_diagnostics_eq_nil unit
    · rw [Library.regrade_diagnostics_resolve member, diagnostics_resolve member, reported_eq_filterMap reports]
    · rw [nothing, nothing]
      rfl

/-- As an error, the constant is reported with another severity; allowed, it is not reported. -/
theorem checks_keep_elaboration_deferring :
    (Deferring.library.resolve ⟨.error, true⟩).diagnostics 0 = [Deferring.constant .error, Sample.warned "p.vhd"] ∧
      (Deferring.library.resolve ⟨.allow, true⟩).diagnostics 0 = [Sample.warned "p.vhd"] ∧
      (Deferring.library.resolve ⟨.warn, false⟩).diagnostics 0 = [Deferring.constant .warning] := by
  obtain ⟨-, -, -, -, unused, levels⟩ := checks_keep_elaboration Deferring.library .standard .standard
  have standard : (Deferring.library.resolve ⟨.warn, true⟩).diagnostics 0 =
      [Deferring.constant .warning, Sample.warned "p.vhd"] := Deferring.diagnostics_standard
  refine ⟨?_, ?_, ?_⟩
  · rw [levels 0 .error .warn true (by decide), standard]
    rfl
  · rw [levels 0 .allow .warn true (by decide), standard]
    rfl
  · rw [unused 0 .warn, standard]
    rfl

end Elaboration

end VhdlOrder
