import VhdlOrder.Proofs.Visibility.Unused

/-! # Problems with constants

Whatever is found at a clause, at the template of an instance or at a reference is a problem with a name. So the
problems with constants that are reported at a unit are exactly those that are found when its constants are looked at,
in the order in which they are found.
-/

namespace VhdlOrder

/-- Whether a name is the matter, which means nothing or the wrong thing where it stands. -/
def Problem.isAboutName : Problem → Bool
  | .undeclaredLibrary _ | .undeclaredContext _ | .notContext _ | .undeclaredPackage _ | .notPackage _
  | .notInLibrary _ _ | .notInPackage _ _ | .undeclared _ | .ambiguous _ _ => true
  | _ => false

/-- Whether a deferred constant is not completed. -/
def Problem.isAboutCompletion : Problem → Bool
  | .constantWithoutBody _ _ | .constantWithoutValue _ _ => true
  | _ => false

/-- Whether a deferred constant is declared where none may be. -/
def Problem.isAboutPlace : Problem → Bool
  | .constantOutsidePackage _ => true
  | _ => false

/-- Whether a deferred constant is the matter. -/
def Problem.isAboutConstant (problem : Problem) : Bool := problem.isAboutCompletion || problem.isAboutPlace

theorem Problem.isAboutConstant_of_isAboutName {problem : Problem} (isName : problem.isAboutName = true) :
    problem.isAboutConstant = false := by
  cases problem <;> first | rfl | cases isName

/-- All problems found are problems with names. -/
def Findings.AboutNames (found : Findings) : Prop := ∀ finding ∈ found.problems, finding.problem.isAboutName = true

section

variable {library : Library} {scope : Scope} {unit : DesignUnit} {reference : Reference} {level : Level}
  {checks : Checks} {reader : Entry}

namespace Findings.AboutNames

variable {first second : Findings}

theorem of_eq_nil (none : first.problems = []) : first.AboutNames := by
  intro finding member
  exact absurd (none ▸ member) List.not_mem_nil

theorem error {problem : Problem} {position : Position} (isName : problem.isAboutName = true) :
    (Findings.error problem position).AboutNames :=
  List.forall_mem_singleton.mpr isName

theorem append (left : first.AboutNames) (right : second.AboutNames) : (first ++ second).AboutNames :=
  List.forall_mem_append.mpr ⟨left, right⟩

/-- None of them is about a constant. -/
theorem filter_eq_nil (aboutNames : first.AboutNames) :
    (first.problems.filter fun finding => finding.problem.isAboutConstant) = [] := by
  refine List.filter_eq_nil_iff.mpr fun finding member => ?_
  rw [Problem.isAboutConstant_of_isAboutName (aboutNames finding member)]
  exact Bool.false_ne_true

end Findings.AboutNames

open Findings (AboutNames)

/-! ## Clauses -/

theorem Scope.ImportOutcome.aboutNames {clause : UseClause} {key : Option ClauseKey} {entry : Entry}
    {name : Identifier} {result : Scope × Findings}
    (outcome : ImportOutcome library scope clause key entry name result) : result.2.AboutNames := by
  cases outcome with
  | unit | all | item => exact .of_eq_nil rfl
  | notPackage => exact .error rfl
  | noPackage | noItem => exact .append (.of_eq_nil rfl) (.error rfl)

theorem Scope.aboutNames_use (clause : UseClause) (key : Option ClauseKey) :
    (scope.use library clause key).2.AboutNames := by
  have outcome := useOutcome_use library scope clause key
  generalize scope.use library clause key = result at outcome ⊢
  cases outcome with
  | nothing | units | trusted => exact .of_eq_nil rfl
  | missing | undeclared => exact .error rfl
  | working _ _ imports => exact imports.aboutNames
  | prefixed _ _ imports => exact imports.aboutNames

theorem ContextItem.aboutNames_referenceFindings (context : Reference) :
    (referenceFindings library scope context).AboutNames := by
  have outcome := @outcome_referenceFindings library scope context
  generalize referenceFindings library scope context = result at outcome ⊢
  cases outcome with
  | foreign | context => exact .of_eq_nil rfl
  | undeclaredLibrary | notContext | missing => exact .error rfl

theorem Scope.aboutNames_enter (clause : ContextClause) (owner : Option Nat) :
    (scope.enter library clause owner).2.AboutNames := by
  intro finding member
  obtain ⟨met, item, -, found⟩ := (ContextItem.mem_applyAll_iff Findings.additive_problems).mp member
  cases item with
  | library name => exact absurd found List.not_mem_nil
  | reference context => exact ContextItem.aboutNames_referenceFindings context finding found
  | use clause key => exact Scope.aboutNames_use clause key finding found

/-! ## References -/

namespace Lookup

variable {visible items : List Declaration}

/-- What is found at a reference is a problem with its name. -/
theorem aboutNames_atSite (site : Site) : (atSite library scope unit site).AboutNames := by
  obtain ⟨-, same⟩ | ⟨-, found, outcome, same⟩ := @find_cases library scope unit site.visible site.reference
  · rw [atSite, same]
    exact .of_eq_nil rfl
  · rw [atSite, same]
    refine .append (.of_eq_nil rfl) ?_
    rcases outcome with (_ | _ | _ | _ | _) | _
    case accepted | unit => exact .of_eq_nil rfl
    all_goals exact .error rfl

theorem aboutNames_findAll (references : List Reference) :
    (findAll library scope unit visible references).AboutNames := by
  intro finding member
  rw [project_findAll Findings.additive_problems] at member
  obtain ⟨site, -, found⟩ := List.mem_flatMap.mp member
  exact aboutNames_atSite site finding found

theorem aboutNames_declarations : (declarations library scope unit visible items).AboutNames := by
  intro finding member
  rw [project_declarations Findings.additive_problems fun _ => rfl] at member
  obtain ⟨site, -, found⟩ := List.mem_flatMap.mp member
  exact aboutNames_atSite site finding found

end Lookup

/-! ## Units -/

namespace Resolution

theorem aboutNames_templateFindings (template : Reference) :
    (templateFindings library scope template).AboutNames := by
  have outcome := @outcome_templateFindings library scope template
  generalize templateFindings library scope template = result at outcome ⊢
  cases outcome with
  | package | foreign => exact .of_eq_nil rfl
  | notPackage | undeclared => exact .error rfl

theorem aboutNames_scopeOf (library : Library) (reader : Entry) : (scopeOf library reader).2.AboutNames := by
  rw [scopeOf_eq]
  refine .append ?_ (Scope.aboutNames_enter _ _)
  have entered := entered_enterOwner library reader.unit
  generalize enterOwner library reader.unit = result at entered
  cases entered with
  | alone none => exact .of_eq_nil rfl
  | configuration found isConfiguration => exact .of_eq_nil rfl
  | owner found notConfiguration => exact .append (.of_eq_nil rfl) (Scope.aboutNames_enter _ _)

/-- What is found about constants is about constants. -/
theorem isAboutConstant_of_mem_constantFindings :
    ∀ finding ∈ constantFindings library level reader.unit, finding.problem.isAboutConstant = true := by
  intro finding member
  obtain ⟨constant, -, about⟩ := exists_isAbout_of_mem_constantFindings member
  rcases about.problem with same | same | same <;> rw [same] <;> rfl

theorem filter_inside (scope : Scope) :
    ((inside library level scope reader).problems.filter fun finding => finding.problem.isAboutConstant) =
      constantFindings library level reader.unit := by
  have constants := List.filter_eq_self.mpr (@isAboutConstant_of_mem_constantFindings library level reader)
  unfold constantFindings at constants ⊢
  cases contents : reader.unit.contents with
  | package generics declarations template =>
    cases template with
    | none =>
      simp only [contents] at constants
      simp only [inside, contents, Findings.problems_append, List.filter_append,
        Lookup.aboutNames_declarations.filter_eq_nil, (Lookup.aboutNames_findAll _).filter_eq_nil, List.nil_append,
        constants]
    | some template =>
      simp only [inside, contents, Findings.problems_append, List.filter_append,
        (aboutNames_templateFindings _).filter_eq_nil, (Lookup.aboutNames_findAll _).filter_eq_nil, List.nil_append]
  | packageBody declarations =>
    simp only [contents] at constants
    simp only [inside, contents, Findings.problems_append, List.filter_append,
      Lookup.aboutNames_declarations.filter_eq_nil, (Lookup.aboutNames_findAll _).filter_eq_nil, List.nil_append,
      constants]
  | context clause => simp only [inside, contents, (Scope.aboutNames_enter _ _).filter_eq_nil]
  | entity | architecture | configuration =>
    simp only [inside, contents, (Lookup.aboutNames_findAll _).filter_eq_nil]

/-- The problems with constants that are found for a unit are those that are found about its constants. -/
theorem filter_problems_findings (library : Library) (level : Level) (reader : Entry) :
    ((findings library level reader).problems.filter fun finding => finding.problem.isAboutConstant) =
      constantFindings library level reader.unit := by
  have split : (findings library level reader).problems =
      (scopeOf library reader).2.problems ++ (inside library level (scopeOf library reader).1 reader).problems := rfl
  rw [split, List.filter_append, (aboutNames_scopeOf library reader).filter_eq_nil, List.nil_append, filter_inside]

/-- The diagnostic that reports the finding at the unit. -/
def placed (library : Library) (reader : Entry) (finding : Finding) : Diagnostic :=
  .place finding.severity finding.problem (library.fileOf reader.index) finding.position

/-- The problems with constants that are reported at a unit are those that are found about its constants, one
diagnostic for each of them. -/
theorem filter_diagnostics (member : reader ∈ library.entries) {keep : Problem → Bool}
    (only : ∀ problem, keep problem = true → problem.isAboutConstant = true) :
    (((library.resolve checks).diagnostics reader.index).filter fun diagnostic => keep diagnostic.problem) =
      ((constantFindings library checks.deferredConstants reader.unit).filter fun finding =>
        keep finding.problem).map (placed library reader) := by
  have narrow (found : List Finding) : (found.filter fun finding => keep finding.problem) =
      (found.filter fun finding => finding.problem.isAboutConstant).filter fun finding => keep finding.problem := by
    rw [List.filter_filter]
    refine List.filter_congr fun finding _ => ?_
    cases kept : keep finding.problem with
    | false => rfl
    | true => simp [only _ kept]
  have noWarnings (items : List WatchedImport) :
      ((items.map fun item => warning item.name item.position).filter fun finding => keep finding.problem) = [] := by
    refine List.filter_eq_nil_iff.mpr (List.forall_mem_map.mpr fun item _ kept => ?_)
    exact Bool.false_ne_true (only _ kept)
  rw [diagnostics_resolve member, List.filter_map]
  change List.map _ ((reported library checks reader).filter fun finding => keep finding.problem) = _
  rw [reported, List.filter_append, noWarnings, List.append_nil, narrow, filter_problems_findings]
  rfl

end Resolution

end

end VhdlOrder
