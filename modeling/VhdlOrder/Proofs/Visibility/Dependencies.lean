import VhdlOrder.Proofs.Visibility.Clauses
import VhdlOrder.Proofs.Visibility.Resolution

/-! # What the kind of a dependency says

A use clause records dependencies as uses only, and the look-up of a name as names only. The other kinds have
one place each that records them: the beginning of a unit that completes another one, a reference to a context
declaration, and the template of an instance. What is recorded there is what the kind promises.
-/

namespace VhdlOrder

/-- All dependencies found are of the kind. -/
def Findings.OfKind (kind : DependencyKind) (found : Findings) : Prop :=
  ∀ dependency ∈ found.dependencies, dependency.kind = kind

/-- A dependency of the unit is on a unit that its kind asks for: as primary on the unit that is completed, as
context on a context declaration, as instantiation on a package. -/
structure Dependency.Apt (library : Library) (unit : DesignUnit) (dependency : Dependency) : Prop where
  primary : dependency.kind = .primary →
    ∃ owner, Resolution.ownerOf? library unit = some owner ∧ dependency.unit = owner.index
  context : dependency.kind = .context →
    ∃ target ∈ library.entries, target.unit.kind = .context ∧ dependency.unit = target.index
  instantiation : dependency.kind = .instantiation →
    ∃ target ∈ library.entries, target.unit.kind = .package ∧ dependency.unit = target.index

/-- All dependencies found are apt for the unit. -/
def Findings.Apt (library : Library) (unit : DesignUnit) (found : Findings) : Prop :=
  ∀ dependency ∈ found.dependencies, dependency.Apt library unit

namespace Findings

variable {library : Library} {unit : DesignUnit} {kind : DependencyKind} {first second : Findings}

theorem OfKind.of_eq_nil (nothing : first.dependencies = []) : first.OfKind kind := by
  intro dependency member
  exact absurd (nothing ▸ member) List.not_mem_nil

theorem OfKind.dependency (entry : Entry) (via : String) (position : Position) :
    (Findings.dependency entry kind via position).OfKind kind :=
  List.forall_mem_singleton.mpr rfl

theorem OfKind.append (left : first.OfKind kind) (right : second.OfKind kind) : (first ++ second).OfKind kind :=
  List.forall_mem_append.mpr ⟨left, right⟩

/-- Uses and names promise nothing more. -/
theorem OfKind.apt (ofKind : first.OfKind kind) (plain : kind = .use ∨ kind = .name) : first.Apt library unit := by
  intro dependency member
  have isKind := ofKind dependency member
  constructor
  all_goals
    intro other
    rw [isKind] at other
    rcases plain with rfl | rfl <;> cases other

theorem Apt.of_eq_nil (nothing : first.dependencies = []) : first.Apt library unit := by
  intro dependency member
  exact absurd (nothing ▸ member) List.not_mem_nil

theorem Apt.append (left : first.Apt library unit) (right : second.Apt library unit) :
    (first ++ second).Apt library unit :=
  List.forall_mem_append.mpr ⟨left, right⟩

end Findings

variable {library : Library} {scope : Scope} {unit : DesignUnit}

namespace Scope

theorem ImportOutcome.ofKind {clause : UseClause} {key : Option ClauseKey} {entry : Entry} {name : Identifier}
    {result : Scope × Findings} (outcome : ImportOutcome library scope clause key entry name result) :
    result.2.OfKind .use := by
  have depend : (Findings.dependency entry .use clause.render clause.position).OfKind .use := .dependency _ _ _
  cases outcome with
  | unit | all => exact depend
  | notPackage => exact .of_eq_nil rfl
  | noPackage | noItem | item => exact depend.append (.of_eq_nil rfl)

/-- A use clause records uses. -/
theorem ofKind_use (clause : UseClause) (key : Option ClauseKey) : (scope.use library clause key).2.OfKind .use := by
  have outcome := useOutcome_use library scope clause key
  generalize scope.use library clause key = result at outcome ⊢
  cases outcome with
  | nothing | units | trusted | missing | undeclared => exact .of_eq_nil rfl
  | working _ _ imports => exact imports.ofKind
  | prefixed _ _ imports => exact imports.ofKind

end Scope

namespace ContextItem

/-- A reference to a context declaration records a context. -/
theorem ofKind_referenceFindings (context : Reference) : (referenceFindings library scope context).OfKind .context := by
  have outcome := @outcome_referenceFindings library scope context
  generalize referenceFindings library scope context = result at outcome ⊢
  cases outcome with
  | context => exact .dependency _ _ _
  | foreign | undeclaredLibrary | notContext | missing => exact .of_eq_nil rfl

theorem apt_referenceFindings (context : Reference) : (referenceFindings library scope context).Apt library unit := by
  have outcome := @outcome_referenceFindings library scope context
  generalize referenceFindings library scope context = result at outcome ⊢
  cases outcome with
  | context found isContext =>
    obtain ⟨name, primary⟩ := exists_primary?_of_target? found
    refine List.forall_mem_singleton.mpr ⟨by simp, fun _ => ?_, by simp⟩
    exact ⟨_, (Library.of_primary? primary).1, isContext, rfl⟩
  | foreign | undeclaredLibrary | notContext | missing => exact .of_eq_nil rfl

theorem apt_applyAll (items : List ContextItem) : (applyAll library scope items).2.Apt library unit := by
  induction items generalizing scope with
  | nil => exact .of_eq_nil rfl
  | cons item rest ih =>
    refine Findings.Apt.append ?_ ih
    cases item with
    | library name => exact .of_eq_nil rfl
    | reference context => exact apt_referenceFindings context
    | use clause key => exact (Scope.ofKind_use clause key).apt (.inl rfl)

end ContextItem

theorem Scope.apt_enter (clause : ContextClause) (owner : Option Nat) :
    (scope.enter library clause owner).2.Apt library unit :=
  ContextItem.apt_applyAll _

namespace Lookup

variable {visible items : List Declaration} {reference : Reference}

/-- The look-up of a reference records names. -/
theorem ofKind_find : (find library scope unit visible reference).OfKind .name := by
  obtain ⟨-, same⟩ | ⟨-, found, outcome, same⟩ := @find_cases library scope unit visible reference
  · exact same ▸ .of_eq_nil rfl
  · refine same ▸ .append (.of_eq_nil rfl) ?_
    rcases outcome with (_ | _ | _ | _ | _) | _
    case unit => exact .dependency _ _ _
    all_goals exact .of_eq_nil rfl

theorem ofKind_findAll (references : List Reference) :
    (findAll library scope unit visible references).OfKind .name := by
  intro dependency member
  rw [project_findAll Findings.additive_dependencies] at member
  obtain ⟨site, -, found⟩ := List.mem_flatMap.mp member
  exact ofKind_find dependency found

end Lookup

namespace Resolution

theorem ofKind_templateFindings (template : Reference) :
    (templateFindings library scope template).OfKind .instantiation := by
  have outcome := @outcome_templateFindings library scope template
  generalize templateFindings library scope template = result at outcome ⊢
  cases outcome with
  | package => exact .dependency _ _ _
  | notPackage | foreign | undeclared => exact .of_eq_nil rfl

theorem apt_enterOwner (library : Library) (unit : DesignUnit) : (enterOwner library unit).2.Apt library unit := by
  have depend {owner : Entry} {via : String} (found : ownerOf? library unit = some owner) :
      (Findings.dependency owner .primary via unit.position).Apt library unit :=
    List.forall_mem_singleton.mpr ⟨fun _ => ⟨owner, found, rfl⟩, by simp, by simp⟩
  have entered := entered_enterOwner library unit
  generalize enterOwner library unit = result at entered
  cases entered with
  | alone none => exact .of_eq_nil rfl
  | configuration found isConfiguration => exact depend found
  | owner found notConfiguration => exact (depend found).append (Scope.apt_enter _ _)

theorem apt_templateFindings {recorded : List Dependency} (backed : scope.Backed library recorded)
    (template : Reference) : (templateFindings library scope template).Apt library unit := by
  have outcome := @outcome_templateFindings library scope template
  generalize templateFindings library scope template = result at outcome ⊢
  cases outcome with
  | package found isPackage =>
    obtain ⟨name, primary⟩ := exists_primary?_of_templateTarget? backed found
    refine List.forall_mem_singleton.mpr ⟨by simp, by simp, fun _ => ?_⟩
    exact ⟨_, (Library.of_primary? primary).1, by simpa [Entry.isPackage] using isPackage, rfl⟩
  | notPackage | foreign | undeclared => exact .of_eq_nil rfl

theorem apt_inside {recorded : List Dependency} (backed : scope.Backed library recorded) (level : Level)
    (entry : Entry) : (inside library level scope entry).Apt library entry.unit := by
  intro dependency found
  obtain ⟨template, found⟩ | ⟨clause, -, found⟩ | ⟨site, found⟩ := mem_dependencies_inside found
  · exact apt_templateFindings backed template dependency found
  · exact Scope.apt_enter clause none dependency found
  · exact Lookup.ofKind_find.apt (.inr rfl) dependency found

/-- Every dependency that is found for a unit is on a unit that its kind asks for. -/
theorem apt_findings (library : Library) (level : Level) (entry : Entry) :
    (findings library level entry).Apt library entry.unit := by
  have backed := (grounded_scopeOf library entry).scope
  have inScope : (scopeOf library entry).2.Apt library entry.unit := by
    rw [scopeOf_eq]
    exact (apt_enterOwner library entry.unit).append (Scope.apt_enter _ _)
  exact inScope.append (apt_inside backed level entry)

end Resolution

end VhdlOrder
