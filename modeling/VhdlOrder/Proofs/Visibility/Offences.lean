import VhdlOrder.Proofs.Visibility.Clauses
import VhdlOrder.Proofs.Visibility.Resolution

/-! # What problems are about

Every problem that is found when a unit is resolved is about a construct: a use clause or a reference to a
context declaration that the unit sees, the template of an instance, a reference in the unit, or a constant
that the unit declares. The problem has the position of that construct. No finding is an import that is not
used: those are reported when all units are resolved.
-/

namespace VhdlOrder

variable {library : Library} {scope : Scope} {unit : DesignUnit} {reference : Reference} {position : Position}

/-! ## Clauses -/

namespace Scope

theorem ImportOutcome.allAt {clause : UseClause} {key : Option ClauseKey} {entry : Entry} {name : Identifier}
    {result : Scope × Findings} (outcome : ImportOutcome library scope clause key entry name result) :
    result.2.AllAt clause.position := by
  have depend : (Findings.dependency entry .use clause.render clause.position).AllAt clause.position :=
    (Findings.Remark.dependency entry .use clause.render).allAt
  have error {problem : Problem} (other : problem.isOptional = false) :
      (Findings.error problem clause.position).AllAt clause.position := (Findings.Remark.error other).allAt
  cases outcome with
  | unit => exact depend
  | notPackage => exact error rfl
  | noPackage => exact depend.append (error rfl)
  | noItem => exact depend.append (error rfl)
  | all => exact depend
  | item => exact depend.append (List.forall_mem_nil _)

/-- What is found at a use clause is at its position. -/
theorem allAt_use (clause : UseClause) (key : Option ClauseKey) :
    (scope.use library clause key).2.AllAt clause.position := by
  have outcome := useOutcome_use library scope clause key
  generalize scope.use library clause key = result at outcome ⊢
  cases outcome with
  | nothing | units | trusted => exact List.forall_mem_nil _
  | missing | undeclared => exact (Findings.Remark.error rfl).allAt
  | working _ _ imports => exact imports.allAt
  | prefixed _ _ imports => exact imports.allAt

end Scope

/-! ## References -/

namespace Lookup

theorem Outcome.remark {found : Findings} (outcome : Outcome library scope reference found) :
    found.Remark reference.position := by
  rcases outcome with (_ | _ | _ | _ | _) | _
  case accepted => exact .empty
  case unit => exact .dependency _ _ _
  all_goals exact .error rfl

/-- The clauses that import the name, if they are watched. -/
def importers (scope : Scope) (name : Identifier) : List ClauseKey :=
  (candidates scope name).filterMap SelectedImport.key

/-- What is found at a site: nothing if the name is declared nearer; else the clauses that import the name are
of use, and there may be a remark. -/
theorem atSite_cases (site : Site) :
    (¬ Undeclared unit site.visible site.reference.name.first ∧ atSite library scope unit site = .empty) ∨
      (Undeclared unit site.visible site.reference.name.first ∧
        ∃ remark : Findings, remark.Remark site.reference.position ∧
          atSite library scope unit site = .ofUse (importers scope site.reference.name.first) ++ remark) := by
  obtain nearer | ⟨undeclared, found, outcome, same⟩ := @find_cases library scope unit site.visible site.reference
  · exact .inl nearer
  · exact .inr ⟨undeclared, found, outcome.remark, same⟩

/-- What is found at a reference is at its position. -/
theorem allAt_atSite (site : Site) : (atSite library scope unit site).AllAt site.reference.position := by
  obtain ⟨-, same⟩ | ⟨-, remark, isRemark, same⟩ := @atSite_cases library scope unit site
  · rw [same]
    exact List.forall_mem_nil _
  · rw [same]
    exact Findings.AllAt.append (List.forall_mem_nil _) isRemark.allAt

theorem mem_allReferences_of_mem_sites {locals items : List Declaration} {site : Site}
    (member : site ∈ sites locals items) : site.reference ∈ Declaration.allReferences items := by
  induction items generalizing locals with
  | nil => exact absurd member List.not_mem_nil
  | cons declaration rest ih =>
    simp only [Declaration.allReferences, List.flatMap_cons]
    rcases List.mem_append.mp member with here | behind
    · obtain ⟨reference, present, rfl⟩ := List.mem_map.mp here
      exact List.mem_append_left _ present
    · exact List.mem_append_right _ (ih behind)

end Lookup

/-! ## Constants -/

namespace Constant

/-- The finding is about the constant, which the unit of the name `package` declares. -/
structure IsAbout (package : Identifier) (constant : Declaration) (finding : Finding) : Prop where
  position : finding.position = constant.position
  problem : finding.problem = .constantOutsidePackage constant.name ∨
    finding.problem = .constantWithoutValue constant.name package ∨
      finding.problem = .constantWithoutBody constant.name package

theorem IsAbout.isUnusedImport {package : Identifier} {constant : Declaration} {finding : Finding}
    (about : IsAbout package constant finding) : finding.problem.isUnusedImport = false := by
  rcases about.problem with same | same | same <;> rw [same] <;> rfl

/-- Deferred constants in subprograms are declared somewhere inside the declarations. -/
theorem within_of_mem_inSubprograms {items : List Declaration} :
    ∀ constant ∈ inSubprograms items, Declaration.Within items constant := by
  refine inSubprograms.induct (fun outer => ∀ constant ∈ inSubprogram outer, Declaration.Within outer.locals constant)
    (fun items => ∀ constant ∈ inSubprograms items, Declaration.Within items constant) ?subprogram ?other ?nil ?cons
    items
  case subprogram =>
    intro name kind position typeClass references mentions locals isSubprogram inside constant member
    rw [inSubprogram, if_pos isSubprogram] at member
    rcases List.mem_append.mp member with here | deeper
    · exact .here (List.mem_filter.mp here).1
    · exact inside constant deeper
  case other =>
    intro name kind position typeClass references mentions locals notSubprogram constant member
    rw [inSubprogram, if_neg notSubprogram] at member
    exact absurd member List.not_mem_nil
  case nil => exact List.forall_mem_nil _
  case cons =>
    intro declaration rest inside behind constant member
    rcases List.mem_append.mp member with here | later
    · exact .inside List.mem_cons_self (inside constant here)
    · exact (behind constant later).mono (List.subset_cons_self declaration rest)

/-- What is found about the constants of a package is about one that it declares. -/
theorem exists_isAbout_ofPackage {level : Level} {finding : Finding} (member : finding ∈ ofPackage library level unit) :
    ∃ constant, Declaration.Within unit.declarations constant ∧ IsAbout unit.name constant finding := by
  rcases List.mem_append.mp member with isDeferred | isMisplaced
  · obtain ⟨constant, present, said⟩ := List.mem_filterMap.mp isDeferred
    have declared : constant ∈ unit.declarations := by
      unfold DesignUnit.deferredConstants at present
      split at present
      · rename_i contents
        simp only [DesignUnit.declarations, contents]
        exact (List.mem_filter.mp present).1
      · exact absurd present List.not_mem_nil
    refine ⟨constant, .here declared, ?_⟩
    unfold completion at said
    split at said
    · split at said
      · cases said
      · cases said
        exact ⟨rfl, .inr (.inl rfl)⟩
    · obtain ⟨severity, -, rfl⟩ := Option.map_eq_some_iff.mp said
      exact ⟨rfl, .inr (.inr rfl)⟩
  · obtain ⟨constant, present, rfl⟩ := List.mem_map.mp isMisplaced
    exact ⟨constant, within_of_mem_inSubprograms constant present, rfl, .inl rfl⟩

/-- What is found about the constants of a package body is about one that it declares. -/
theorem exists_isAbout_ofBody {finding : Finding} (member : finding ∈ ofBody unit) :
    ∃ constant, Declaration.Within unit.declarations constant ∧ IsAbout unit.name constant finding := by
  obtain ⟨constant, present, rfl⟩ := List.mem_map.mp member
  refine ⟨constant, ?_, rfl, .inl rfl⟩
  rcases List.mem_append.mp present with here | deeper
  · exact .here (List.mem_filter.mp here).1
  · exact within_of_mem_inSubprograms constant deeper

end Constant

/-! ## Units -/

namespace Resolution

variable {reader writer : Entry} {level : Level} {finding : Finding}

/-- The references of a unit that are looked up, each where it stands. -/
def lookups (library : Library) (unit : DesignUnit) : List Lookup.Site :=
  match unit.contents with
  | .package _ _ none | .packageBody _ => sites library unit
  | .package _ _ (some _) => unit.references.map (Lookup.Site.mk [])
  | .context _ => []
  | _ =>
      (unit.references.filter fun reference => library.isWorking reference.name.first).map (Lookup.Site.mk [])

/-- The finding is a problem with a construct of the unit `writer`; the name is the first one of the
construct, at the position of the construct. -/
inductive Offence (library : Library) (reader : Entry) (finding : Finding) : Entry → Located Identifier → Prop
  | use {writer : Entry} {clause : ContextClause} {use : UseClause} {scope : Scope} {key : Option ClauseKey} :
      Sees library reader writer clause → use ∈ clause.uses → finding ∈ (scope.use library use key).2.problems →
        Offence library reader finding writer ⟨use.position, use.name.first⟩
  | context {writer : Entry} {clause : ContextClause} {context : Reference} {scope : Scope} :
      Sees library reader writer clause → context ∈ clause.contexts →
        finding ∈ (ContextItem.referenceFindings library scope context).problems →
          Offence library reader finding writer ⟨context.position, context.name.first⟩
  | template {template : Reference} : reader.unit.template? = some template →
      finding ∈ (templateFindings library (scopeOf library reader).1 template).problems →
        Offence library reader finding reader ⟨template.position, template.name.first⟩
  | name {site : Lookup.Site} : site ∈ lookups library reader.unit →
      finding ∈ (Lookup.atSite library (scopeOf library reader).1 reader.unit site).problems →
        Offence library reader finding reader ⟨site.reference.position, site.reference.name.first⟩
  | constant {constant : Declaration} : Declaration.Within reader.unit.declarations constant →
      Constant.IsAbout reader.unit.name constant finding →
        Offence library reader finding reader ⟨constant.position, constant.name⟩

theorem remark_templateFindings (template : Reference) :
    (templateFindings library scope template).Remark template.position := by
  have outcome := @outcome_templateFindings library scope template
  generalize templateFindings library scope template = result at outcome ⊢
  cases outcome with
  | package => exact .dependency _ _ _
  | foreign => exact .empty
  | notPackage | undeclared => exact .error rfl

/-- A problem is at the position of its construct, and it is no import that is not used. -/
theorem Offence.allAt {name : Located Identifier} (offence : Offence library reader finding writer name) :
    finding.position = name.position ∧ finding.problem.isUnusedImport = false := by
  have ordinary {found : Findings} {position : Position} (allAt : found.AllAt position)
      (member : finding ∈ found.problems) : finding.position = position ∧ finding.problem.isUnusedImport = false := by
    obtain ⟨isPosition, notOptional⟩ := allAt finding member
    exact ⟨isPosition, (Bool.or_eq_false_iff.mp notOptional).1⟩
  cases offence with
  | use _ _ found => exact ordinary (Scope.allAt_use _ _) found
  | context _ _ found => exact ordinary (ContextItem.remark_referenceFindings _).allAt found
  | template _ found => exact ordinary (remark_templateFindings _).allAt found
  | name _ found => exact ordinary (Lookup.allAt_atSite _) found
  | constant _ about => exact ⟨about.position, about.isUnusedImport⟩

/-- A problem with a clause that is seen is a problem with one of the items that are seen. -/
theorem exists_offence_of_enter {clause : ContextClause} (sees : Sees library reader writer clause)
    {owner : Option Nat} (member : finding ∈ (scope.enter library clause owner).2.problems) :
    ∃ writer name, Offence library reader finding writer name := by
  obtain ⟨met, item, meets, found⟩ := (ContextItem.mem_applyAll_iff Findings.additive_problems).mp member
  obtain ⟨writer, clause, owner, seesItem, among⟩ := sees.seesItem_of_mem_expand owner item meets.mem
  obtain ⟨name, -, rfl⟩ | ⟨context, inContexts, rfl⟩ | ⟨number, use, inUses, rfl⟩ :=
    ContextItem.mem_ofClause_iff.mp among
  · exact absurd found List.not_mem_nil
  · exact ⟨writer, _, .context seesItem inContexts found⟩
  · exact ⟨writer, _, .use seesItem (List.mem_of_getElem? inUses) found⟩

theorem exists_offence_of_scopeOf (member : finding ∈ (scopeOf library reader).2.problems) :
    ∃ writer name, Offence library reader finding writer name := by
  rw [scopeOf_eq, Findings.problems_append] at member
  rcases List.mem_append.mp member with inOwner | inOwn
  · have entered := entered_enterOwner library reader.unit
    generalize enterOwner library reader.unit = result at entered inOwner
    cases entered with
    | alone none => exact absurd inOwner List.not_mem_nil
    | configuration found isConfiguration => exact absurd inOwner List.not_mem_nil
    | owner found notConfiguration =>
      rcases List.mem_append.mp inOwner with depend | inContext
      · exact absurd depend List.not_mem_nil
      · exact exists_offence_of_enter (.owner found notConfiguration) inContext
  · exact exists_offence_of_enter .own inOwn

/-- What is found about the constants of a unit. -/
def constantFindings (library : Library) (level : Level) (unit : DesignUnit) : List Finding :=
  match unit.contents with
  | .package _ _ none => Constant.ofPackage library level unit
  | .packageBody _ => Constant.ofBody unit
  | _ => []

/-- The problems found inside a unit are those with the template of an instance, with the references that are looked
up, with the constants, and with the clause that a context declaration provides. -/
theorem mem_problems_inside_iff :
    finding ∈ (inside library level scope reader).problems ↔
      (∃ template, reader.unit.template? = some template ∧
        finding ∈ (templateFindings library scope template).problems) ∨
      (∃ site ∈ lookups library reader.unit, finding ∈ (Lookup.atSite library scope reader.unit site).problems) ∨
      finding ∈ constantFindings library level reader.unit ∨
      ∃ clause, reader.unit.clause? = some clause ∧ finding ∈ (scope.enter library clause none).2.problems := by
  have additive := Findings.additive_problems
  simp only [← List.mem_flatMap]
  cases contents : reader.unit.contents with
  | package generics declarations template =>
    cases template with
    | none =>
      simp [inside, lookups, sites, constantFindings, DesignUnit.template?, DesignUnit.clause?, contents,
        Lookup.project_declarations additive fun _ => rfl, Lookup.project_findAll additive, or_assoc]
    | some template =>
      simp [inside, lookups, constantFindings, DesignUnit.template?, DesignUnit.clause?, contents,
        Lookup.project_findAll additive]
  | packageBody declarations =>
    simp [inside, lookups, sites, declared, constantFindings, DesignUnit.template?, DesignUnit.clause?, contents,
      Lookup.project_declarations additive fun _ => rfl, Lookup.project_findAll additive, or_assoc]
  | context clause =>
    simp [inside, lookups, constantFindings, DesignUnit.template?, DesignUnit.clause?, contents]
  | entity | architecture | configuration =>
    simp [inside, lookups, constantFindings, DesignUnit.template?, DesignUnit.clause?, contents,
      Lookup.project_findAll additive]

theorem exists_isAbout_of_mem_constantFindings (member : finding ∈ constantFindings library level reader.unit) :
    ∃ constant, Declaration.Within reader.unit.declarations constant ∧
      Constant.IsAbout reader.unit.name constant finding := by
  unfold constantFindings at member
  split at member
  · exact Constant.exists_isAbout_ofPackage member
  · exact Constant.exists_isAbout_ofBody member
  · exact absurd member List.not_mem_nil

theorem exists_offence_of_inside
    (member : finding ∈ (inside library level (scopeOf library reader).1 reader).problems) :
    ∃ writer name, Offence library reader finding writer name := by
  rcases mem_problems_inside_iff.mp member with ⟨template, isTemplate, found⟩ | ⟨site, present, found⟩ |
    inConstants | ⟨clause, isContext, found⟩
  · exact ⟨reader, _, .template isTemplate found⟩
  · exact ⟨reader, _, .name present found⟩
  · obtain ⟨constant, within, about⟩ := exists_isAbout_of_mem_constantFindings inConstants
    exact ⟨reader, _, .constant within about⟩
  · exact exists_offence_of_enter (.provided isContext) found

/-- Every problem that is found when a unit is resolved is a problem with a construct. -/
theorem exists_offence (member : finding ∈ (findings library level reader).problems) :
    ∃ writer name, Offence library reader finding writer name := by
  rcases List.mem_append.mp member with inScope | isInside
  · exact exists_offence_of_scopeOf inScope
  · exact exists_offence_of_inside isInside

end Resolution

end VhdlOrder
