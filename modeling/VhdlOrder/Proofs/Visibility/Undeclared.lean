import VhdlOrder.Proofs.Visibility.Entering
import VhdlOrder.Proofs.Visibility.Located

/-! # Names that are reported as undeclared

A name is reported as undeclared where it is looked up and nothing has it: no declaration or import, no prefix and
no predefined item. Other libraries are not read, so a scope can be open for all names: then the name may come from
outside, and it is accepted. The scope of a unit is open if and only if one of the use clauses that are entered for
the unit imports all items of a package of another library.
-/

namespace VhdlOrder

section

variable {library : Library} {scope : Scope}

/-- The use clause imports all items of a package of another library, which the scope declares. -/
structure UseClause.ImportsForeign (library : Library) (scope : Scope) (use : UseClause) : Prop where
  isForeign : library.isWorking use.name.first = false
  unprefixed : scope.prefixed? use.name.first = none
  isDeclared : scope.hasLibrary use.name.first = true
  all : use.all = true
  named : use.name.suffix ≠ []

/-- The use clause begins with a library other than the working one, which the scope declares. -/
structure UseClause.LeadsOutside (library : Library) (scope : Scope) (use : UseClause) : Prop where
  isForeign : library.isWorking use.name.first = false
  unprefixed : scope.prefixed? use.name.first = none
  isDeclared : scope.hasLibrary use.name.first = true

/-! ## Clauses that open a scope -/

namespace Scope

/-- What neither imports nor prefixes change holds behind a use clause if it held before, or if the clause leads to
another library and trusting it adds it. -/
theorem holds_use_iff_of_trust (holds : Scope → Prop) {adds : Prop} (use : UseClause) (key : Option ClauseKey)
    (imports : ∀ {entry called result}, ImportOutcome library scope use key entry called result →
      (holds result.1 ↔ holds scope))
    (prefixes : ∀ more, holds { scope with prefixes := scope.prefixes ++ more } ↔ holds scope)
    (trusts : holds (scope.trust use) ↔ holds scope ∨ adds) :
    holds (scope.use library use key).1 ↔ holds scope ∨ use.LeadsOutside library scope ∧ adds := by
  have unchanged {result : Scope × Findings} (same : holds result.1 ↔ holds scope)
      (inside : ¬ use.LeadsOutside library scope) :
      holds result.1 ↔ holds scope ∨ use.LeadsOutside library scope ∧ adds := by
    rw [same, or_iff_left fun outside => inside outside.1]
  have working (isWorking : library.isWorking use.name.first = true) : ¬ use.LeadsOutside library scope :=
    fun leads => by simp [leads.isForeign] at isWorking
  have outcome := useOutcome_use library scope use key
  generalize scope.use library use key = result at outcome ⊢
  cases outcome with
  | nothing isWorking | missing isWorking => exact unchanged Iff.rfl (working isWorking)
  | units isWorking => exact unchanged (by rw [addPrimaryUnits_eq, prefixes]) (working isWorking)
  | working isWorking _ imported => exact unchanged (imports imported) (working isWorking)
  | prefixed _ found imported =>
    exact unchanged (imports imported) fun leads => by simp [leads.unprefixed] at found
  | trusted isForeign unprefixed isDeclared => rw [trusts, and_iff_right ⟨isForeign, unprefixed, isDeclared⟩]
  | undeclared _ _ notDeclared =>
    exact unchanged Iff.rfl fun leads => by simp [leads.isDeclared] at notDeclared

theorem ImportOutcome.foreignAll {use : UseClause} {key : Option ClauseKey} {entry : Entry} {name : Identifier}
    {result : Scope × Findings} (outcome : ImportOutcome library scope use key entry name result) :
    result.1.foreignAll = scope.foreignAll := by
  cases outcome <;> rfl

theorem foreignAll_trust (use : UseClause) :
    (scope.trust use).foreignAll = true ↔ scope.foreignAll = true ∨ use.all = true ∧ use.name.suffix ≠ [] := by
  unfold trust
  split <;> simp_all

/-- A use clause opens the scope for all names if and only if it imports all items of a foreign package. -/
theorem foreignAll_use (use : UseClause) (key : Option ClauseKey) :
    (scope.use library use key).1.foreignAll = true ↔
      scope.foreignAll = true ∨ use.ImportsForeign library scope := by
  refine (holds_use_iff_of_trust (fun scope => scope.foreignAll = true) use key
    (fun imported => by rw [imported.foreignAll]) (fun _ => Iff.rfl) (foreignAll_trust use)).trans (or_congr_right ?_)
  constructor
  · rintro ⟨leads, all, named⟩
    exact ⟨leads.isForeign, leads.unprefixed, leads.isDeclared, all, named⟩
  · exact fun imports => ⟨⟨imports.isForeign, imports.unprefixed, imports.isDeclared⟩, imports.all, imports.named⟩

end Scope

/-! ## Names that nothing declares -/

namespace Lookup

variable {unit : DesignUnit} {reference : Reference} {name : Identifier} {position : Position}

/-- If the name has a prefix, the prefix is neither a library nor a unit that may stand in front of a point. -/
structure Unprefixed (library : Library) (scope : Scope) (name : SelectedName) : Prop where
  isForeign : library.isWorking name.first = false
  unit : scope.prefixed? name.first = none
  library : scope.hasLibrary name.first = false
  foreign : scope.foreignPrefixes.any name.first.same = false

/-- Nothing has the name at the site: nothing that is declared or imported, no prefix, and no predefined item. -/
structure Unanswered (library : Library) (scope : Scope) (unit : DesignUnit) (site : Site) : Prop extends
    Unhidden scope unit site.visible site.reference.name.first where
  unprefixed : site.reference.name.isExpanded = true → Unprefixed library scope site.reference.name
  predefined : Standard.declares site.reference.name.first = false

theorem mem_problems_predefined_iff {finding : Finding} :
    finding ∈ (predefined scope reference).problems ↔
      (Standard.declares reference.name.first = false ∧ scope.foreignAll = false) ∧
        finding = ⟨.error, .undeclared reference.name.first, reference.position⟩ := by
  unfold predefined
  split
  · rename_i accepted
    refine ⟨fun member => absurd member List.not_mem_nil, ?_⟩
    rintro ⟨⟨notStandard, closed⟩, -⟩
    simp [notStandard, closed] at accepted
  · rename_i refused
    rw [Bool.or_eq_true, not_or, Bool.not_eq_true, Bool.not_eq_true] at refused
    rw [Findings.problems_error, List.mem_singleton]
    exact (and_iff_right refused).symm

/-- Behind a unit, names are reported as absent from the unit. -/
theorem not_undeclared_inUnit (entry : Entry) (rest : List Identifier) :
    ⟨.error, .undeclared name, position⟩ ∉ (inUnit library reference entry rest).problems := by
  unfold inUnit
  dsimp only
  split
  · split <;> simp
  · simp

theorem not_undeclared_ambiguity {sources : List Nat} {items : List Declaration} {origins : List Origin}
    {other : Identifier} {place : Position} :
    ⟨.error, .undeclared name, position⟩ ∉ (ambiguity other place sources items origins).problems := by
  unfold ambiguity
  split <;> simp

theorem mem_problems_expanded_iff :
    ⟨.error, .undeclared name, position⟩ ∈ (expanded library scope reference).problems ↔
      (reference.name.isExpanded = true → Unprefixed library scope reference.name) ∧
        ⟨.error, .undeclared name, position⟩ ∈ (predefined scope reference).problems := by
  unfold expanded
  dsimp only
  split
  · rename_i simple
    have notExpanded : reference.name.isExpanded ≠ true := by simpa using simple
    exact (and_iff_right fun isExpanded => absurd isExpanded notExpanded).symm
  · rename_i isExpanded
    have isExpanded : reference.name.isExpanded = true := by simpa using isExpanded
    simp only [isExpanded, true_imp_iff]
    split
    · rename_i isWorking
      refine ⟨fun member => absurd member ?_, fun both => by simp [both.1.isForeign] at isWorking⟩
      unfold inWorking
      split
      · exact List.not_mem_nil
      · split
        · exact not_undeclared_inUnit _ _
        · simp
    · rename_i isForeign
      split
      · rename_i entry found
        refine ⟨fun member => absurd member (not_undeclared_inUnit _ _), fun both => ?_⟩
        simp [both.1.unit] at found
      · rename_i unprefixed
        split
        · rename_i accepted
          refine ⟨fun member => absurd member List.not_mem_nil, fun both => ?_⟩
          simp [both.1.library, both.1.foreign] at accepted
        · rename_i refused
          rw [Bool.or_eq_true, not_or, Bool.not_eq_true, Bool.not_eq_true] at refused
          exact (and_iff_right ⟨by simpa using isForeign, unprefixed, refused.1, refused.2⟩).symm

/-- A name is looked up by its prefix, or as a predefined one, only where nothing nearer has the name. -/
theorem unhidden_of_undeclared {visible : List Declaration}
    (member : ⟨.error, .undeclared name, position⟩ ∈ (find library scope unit visible reference).problems) :
    Unhidden scope unit visible reference.name.first := by
  unfold find at member
  dsimp only at member
  split at member
  · exact absurd member List.not_mem_nil
  · rename_i notVisible
    split at member
    · exact absurd member List.not_mem_nil
    · rename_i notOwn
      rw [Bool.or_eq_true, not_or, Bool.not_eq_true, Bool.not_eq_true] at notOwn
      unfold imported at member
      dsimp only at member
      split at member
      · rcases List.mem_append.mp member with used | ambiguous
        · exact absurd used List.not_mem_nil
        · exact absurd ambiguous not_undeclared_ambiguity
      · rename_i noCandidates
        split at member
        · exact absurd member List.not_mem_nil
        · rename_i notForeign
          split at member
          · exact absurd member not_undeclared_ambiguity
          · rename_i noProviders
            refine ⟨⟨by simpa using notVisible, notOwn.1, notOwn.2⟩, ?_, by simpa using notForeign, ?_⟩
            · simpa [candidates] using noCandidates
            · intro item present
              have provides := List.filterMap_eq_nil_iff.mp noProviders item present
              simpa [provider?] using provides

/-- A name is reported as undeclared if nothing has it, unless the scope is open for all names. -/
theorem mem_problems_atSite_iff {site : Site} :
    ⟨.error, .undeclared name, position⟩ ∈ (atSite library scope unit site).problems ↔
      (site.reference.name.first = name ∧ site.reference.position = position ∧
        Unanswered library scope unit site) ∧ scope.foreignAll = false := by
  constructor
  · intro member
    have unhidden := unhidden_of_undeclared member
    rw [atSite, find_eq_expanded unhidden, mem_problems_expanded_iff, mem_problems_predefined_iff] at member
    obtain ⟨unprefixed, ⟨notStandard, closed⟩, same⟩ := member
    cases same
    exact ⟨⟨rfl, rfl, unhidden, unprefixed, notStandard⟩, closed⟩
  · rintro ⟨⟨rfl, rfl, unhidden, unprefixed, notStandard⟩, closed⟩
    rw [atSite, find_eq_expanded unhidden, mem_problems_expanded_iff, mem_problems_predefined_iff]
    exact ⟨unprefixed, ⟨notStandard, closed⟩, rfl⟩

end Lookup

namespace Resolution

variable {reader : Entry} {level : Level} {checks : Checks} {name : Identifier} {position : Position}

/-! ## Scopes that are open -/

/-- For the unit, a use clause is entered that imports all items of a package of another library. -/
def ImportsOutside (library : Library) (reader : Entry) : Prop :=
  ∃ scope use key, Applies library reader scope (.use use key) ∧ use.ImportsForeign library scope

/-- For the unit, a reference is entered to a context declaration of another library, which is declared. -/
def RefersOutside (library : Library) (reader : Entry) : Prop :=
  ∃ scope context, Applies library reader scope (.reference context) ∧
    library.isWorking context.name.first = false ∧ scope.hasLibrary context.name.first = true

/-- The scope of a unit is open for all names if and only if a use clause that is entered for it opens it. -/
theorem foreignAll_scopeOf (noContext : reader.unit.clause? = none) :
    (scopeOf library reader).1.foreignAll = true ↔ ImportsOutside library reader :=
  holds_scopeOf_iff_use (fun scope => scope.foreignAll = true) (fun _ => Scope.foreignAll_use) (fun _ _ => Iff.rfl)
    Bool.false_ne_true noContext

/-! ## What is reported -/

/-- The error is reported at the unit. -/
def Reports (library : Library) (checks : Checks) (reader : Entry) (problem : Problem) (position : Position) : Prop :=
  Diagnostic.place .error problem (library.fileOf reader.index) position ∈
    (library.resolve checks).diagnostics reader.index

theorem reports_iff (member : reader ∈ library.entries) {problem : Problem} :
    Reports library checks reader problem position ↔
      ⟨.error, problem, position⟩ ∈ (findings library checks.deferredConstants reader).problems := by
  rw [Reports, mem_diagnostics_iff member]
  constructor
  · rintro ⟨⟨severity, other, place⟩, found | ⟨item, -, -, isWarning⟩, same⟩
    · cases same
      exact found
    · cases same
      cases isWarning
  · exact fun found => ⟨_, .inl found, rfl⟩

theorem clause?_eq_none_of_mem_lookups {site : Lookup.Site} (present : site ∈ lookups library reader.unit) :
    reader.unit.clause? = none := by
  unfold DesignUnit.clause?
  split
  · rename_i contents
    simp [lookups, contents] at present
  · rfl

/-- What is found at a reference that is looked up is found for the unit. -/
theorem problems_atSite_subset {site : Lookup.Site} (present : site ∈ lookups library reader.unit) :
    (Lookup.atSite library (scopeOf library reader).1 reader.unit site).problems ⊆
      (findings library level reader).problems := by
  intro finding found
  rw [findings_eq, Findings.problems_append]
  exact List.mem_append_right _ (mem_problems_inside_iff.mpr (.inr (.inl ⟨site, present, found⟩)))

/-! ## Names that are reported as undeclared -/

theorem not_undeclared_of_imports {use : UseClause} {key : Option ClauseKey} {entry : Entry} {own : Identifier}
    {result : Scope × Findings} (outcome : Scope.ImportOutcome library scope use key entry own result) :
    ⟨.error, .undeclared name, position⟩ ∉ result.2.problems := by
  cases outcome <;> simp

theorem not_undeclared_use (use : UseClause) (key : Option ClauseKey) :
    ⟨.error, .undeclared name, position⟩ ∉ (scope.use library use key).2.problems := by
  have outcome := Scope.useOutcome_use library scope use key
  generalize scope.use library use key = result at outcome ⊢
  cases outcome with
  | nothing | units | missing | trusted | undeclared => simp
  | working _ _ imports => exact not_undeclared_of_imports imports
  | prefixed _ _ imports => exact not_undeclared_of_imports imports

theorem not_undeclared_referenceFindings (context : Reference) :
    ⟨.error, .undeclared name, position⟩ ∉ (ContextItem.referenceFindings library scope context).problems := by
  have outcome := @ContextItem.outcome_referenceFindings library scope context
  generalize ContextItem.referenceFindings library scope context = result at outcome ⊢
  cases outcome <;> simp

theorem not_undeclared_templateFindings (template : Reference) :
    ⟨.error, .undeclared name, position⟩ ∉ (templateFindings library scope template).problems := by
  have outcome := @outcome_templateFindings library scope template
  generalize templateFindings library scope template = result at outcome ⊢
  cases outcome <;> simp

/-- Only references that are looked up are reported as undeclared. -/
theorem exists_site_of_undeclared
    (member : ⟨.error, .undeclared name, position⟩ ∈ (findings library level reader).problems) :
    ∃ site ∈ lookups library reader.unit,
      ⟨.error, .undeclared name, position⟩ ∈
        (Lookup.atSite library (scopeOf library reader).1 reader.unit site).problems := by
  obtain ⟨writer, construct, offence⟩ := exists_offence member
  cases offence with
  | use _ _ found => exact absurd found (not_undeclared_use _ _)
  | context _ _ found => exact absurd found (not_undeclared_referenceFindings _)
  | template _ found => exact absurd found (not_undeclared_templateFindings _)
  | name present found => exact ⟨_, present, found⟩
  | constant _ about => rcases about.problem with same | same | same <;> cases same

/-- A name is reported as undeclared if nothing has it where it is looked up, unless the unit imports all items of a
foreign package. -/
theorem reports_undeclared_iff (member : reader ∈ library.entries) :
    Reports library checks reader (.undeclared name) position ↔
      (∃ site ∈ lookups library reader.unit, site.reference.name.first = name ∧ site.reference.position = position ∧
        Lookup.Unanswered library (scopeOf library reader).1 reader.unit site) ∧
        ¬ ImportsOutside library reader := by
  rw [reports_iff member]
  constructor
  · intro found
    obtain ⟨site, present, here⟩ := exists_site_of_undeclared found
    obtain ⟨unanswered, closed⟩ := Lookup.mem_problems_atSite_iff.mp here
    refine ⟨⟨site, present, unanswered⟩, ?_⟩
    rw [← foreignAll_scopeOf (clause?_eq_none_of_mem_lookups present), closed]
    exact Bool.false_ne_true
  · rintro ⟨⟨site, present, unanswered⟩, closed⟩
    rw [← foreignAll_scopeOf (clause?_eq_none_of_mem_lookups present), Bool.not_eq_true] at closed
    exact problems_atSite_subset present (Lookup.mem_problems_atSite_iff.mpr ⟨unanswered, closed⟩)

end Resolution

end

end VhdlOrder
