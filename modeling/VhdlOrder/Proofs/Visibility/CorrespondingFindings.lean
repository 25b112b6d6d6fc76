import VhdlOrder.Proofs.Visibility.CorrespondingNames
import VhdlOrder.Visibility.Resolution

/-! # Findings of corresponding units

All that is found when a unit is resolved corresponds to what is found for the unit that corresponds to it: to the
names in the unit come the template of a package instance, constants without a value, and the names that a
context declaration makes visible.
-/

namespace VhdlOrder

variable {c : Correspondence} {first second : Library} {scope scope' : Scope}

namespace Constant

section

variable (f : Respelling)

theorem deferred_map (declarations : List Declaration) :
    deferred (declarations.map (Declaration.respell f)) = (deferred declarations).map (Declaration.respell f) := by
  simp [deferred, List.filter_map, Function.comp_def]

theorem inSubprograms_eq_flatMap (declarations : List Declaration) :
    inSubprograms declarations = declarations.flatMap inSubprogram := by
  induction declarations with
  | nil => rfl
  | cons declaration rest ih => rw [inSubprograms, ih, List.flatMap_cons]

theorem inSubprogram_respell (declaration : Declaration) :
    inSubprogram (declaration.respell f) = (inSubprogram declaration).map (Declaration.respell f) := by
  induction declaration using Declaration.forall_of_locals with
  | step declaration inside =>
    have unfolded (declaration : Declaration) : inSubprogram declaration =
        if isSubprogram declaration.kind then deferred declaration.locals ++ declaration.locals.flatMap inSubprogram
        else [] := by
      cases declaration
      rw [inSubprogram, inSubprograms_eq_flatMap]
    rw [unfolded, unfolded, Declaration.kind_respell, Declaration.locals_respell, deferred_map, List.flatMap_map]
    split
    · rw [List.map_append, List.map_flatMap, List.flatMap_congr inside]
    · rfl

theorem inSubprograms_map (declarations : List Declaration) :
    inSubprograms (declarations.map (Declaration.respell f)) =
      (inSubprograms declarations).map (Declaration.respell f) := by
  rw [inSubprograms_eq_flatMap, inSubprograms_eq_flatMap, List.flatMap_map, List.map_flatMap]
  exact List.flatMap_congr fun declaration _ => inSubprogram_respell f declaration

theorem map_misplaced_map (declarations : List Declaration) :
    (declarations.map (Declaration.respell f)).map misplaced = (declarations.map misplaced).map (Finding.respell f) := by
  simp [misplaced, Finding.respell, Problem.respell, Function.comp_def]

theorem isCompleted_map (body : List Declaration) (constant : Declaration) :
    isCompleted (body.map (Declaration.respell f)) (constant.respell f) = isCompleted body constant := by
  simp [isCompleted, Function.comp_def]

theorem completion_respell (level : Level) (package : Identifier) (body : Option DesignUnit) (constant : Declaration) :
    completion level (f package) (body.map (DesignUnit.respell f)) (constant.respell f) =
      (completion level package body constant).map (Finding.respell f) := by
  cases body with
  | none => simp [completion, Finding.respell, Problem.respell, Function.comp_def]
  | some body =>
    simp only [completion, Option.map_some, DesignUnit.declarations_respell, isCompleted_map, apply_ite, Option.map_none]
    simp [Finding.respell, Problem.respell]

theorem ofBody_respell (unit : DesignUnit) : ofBody (unit.respell f) = (ofBody unit).map (Finding.respell f) := by
  simp only [ofBody, DesignUnit.declarations_respell, deferred_map, inSubprograms_map, ← List.map_append,
    map_misplaced_map]

end

theorem ofPackage_respell (same : first.Corresponds c second) (level : Level) (unit : DesignUnit) :
    ofPackage second level (unit.respell c.spelling) =
      (ofPackage first level unit).map (Finding.respell c.spelling) := by
  have body : (second.body? (c.spelling unit.name)).map Entry.unit =
      ((first.body? unit.name).map Entry.unit).map (DesignUnit.respell c.spelling) := by
    rw [same.body?, Option.map_map, Option.map_map]
    rfl
  simp only [ofPackage, DesignUnit.name_respell, body, DesignUnit.deferredConstants_respell,
    DesignUnit.declarations_respell, inSubprograms_map, map_misplaced_map, List.filterMap_map, Function.comp_def,
    completion_respell, List.map_append, List.map_filterMap]

end Constant

theorem Findings.Corresponds.ofProblems {found : List Finding} : Findings.Corresponds c
    { Findings.empty with problems := found }
    { Findings.empty with problems := found.map (Finding.respell c.spelling) } :=
  ⟨.nil, rfl, rfl, rfl⟩

namespace Resolution

variable (same : first.Corresponds c second)

include same

theorem corresponds_templateFindings (scopes : scope.Corresponds c scope') (template : Reference) :
    (templateFindings first scope template).Corresponds c
      (templateFindings second scope' (template.respell c.spelling)) := by
  have target : (if template.name.isExpanded then second.workUnit? (template.name.respell c.spelling)
      else (scope'.prefixed? (c.spelling template.name.first)).or
        (second.primary? (c.spelling template.name.first))) =
      (if template.name.isExpanded then first.workUnit? template.name
        else (scope.prefixed? template.name.first).or (first.primary? template.name.first)).map (Entry.image c) := by
    rw [same.workUnit?, scopes.prefixed?, same.primary?]
    split
    · rfl
    · cases scope.prefixed? template.name.first <;> rfl
  simp only [templateFindings, Reference.name_respell, SelectedName.isExpanded_respell, SelectedName.first_respell,
    target, scopes.hasLibrary, same.isWorking, Reference.position_respell]
  generalize (if template.name.isExpanded then first.workUnit? template.name
    else (scope.prefixed? template.name.first).or (first.primary? template.name.first)) = found
  cases found with
  | none =>
    dsimp only [Option.map_none]
    split
    · exact .empty
    · exact .error
  | some entry =>
    simp only [Option.map_some, Entry.isPackage_image]
    split
    · exact .dependency fun isKeep => SelectedName.render_respell_of_keep isKeep _
    · exact .error

/-- What a body sees of its package, spelled in another way. -/
theorem declared_respell (unit : DesignUnit) :
    ((second.package? (c.spelling unit.name)).map fun owner => owner.unit.generics ++ owner.unit.declarations).getD [] =
      (((first.package? unit.name).map fun owner => owner.unit.generics ++ owner.unit.declarations).getD []).map
        (Declaration.respell c.spelling) := by
  rw [same.package?]
  cases first.package? unit.name <;> simp

/-- What is found inside corresponding units corresponds. -/
theorem corresponds_inside (scopes : scope.Corresponds c scope') (level : Level) (entry : Entry) :
    (inside first level scope entry).Corresponds c (inside second level scope' (entry.image c)) := by
  have looked := Lookup.corresponds_findAll same scopes entry.unit
  have declared := Lookup.corresponds_declarations same scopes entry.unit
  have filtered : (entry.unit.references.map (Reference.respell c.spelling)).filter
      (fun reference => second.isWorking reference.name.first) =
        (entry.unit.references.filter fun reference => first.isWorking reference.name.first).map
          (Reference.respell c.spelling) := by
    simp [List.filter_map, Function.comp_def, same.isWorking]
  unfold inside
  simp only [Entry.unit_image, DesignUnit.contents_respell, DesignUnit.references_respell, DesignUnit.name_respell,
    filtered]
  cases entry.unit.contents with
  | package generics declarations template =>
    cases template with
    | some template => exact (corresponds_templateFindings same scopes template).append (looked [] _)
    | none =>
      simp only [UnitContents.respell, Option.map_none, Constant.ofPackage_respell same, ← List.map_append]
      exact (((declared [] generics).append (declared generics declarations)).append
        (looked (generics ++ declarations) _)).append .ofProblems
  | packageBody declarations =>
    simp only [UnitContents.respell, Constant.ofBody_respell, declared_respell same, ← List.map_append]
    exact ((declared _ declarations).append (looked _ _)).append .ofProblems
  | context clause => exact (scopes.enter same clause none).findings
  | entity generics ports => exact looked [] _
  | architecture owner => exact looked [] _
  | configuration owner => exact looked [] _

/-- What is found for corresponding units corresponds. -/
theorem corresponds_findings (level : Level) (entry : Entry) :
    (findings first level entry).Corresponds c (findings second level (entry.image c)) := by
  have scopes := corresponds_scopeOf same entry
  exact scopes.findings.append (corresponds_inside same scopes.scope level entry)

end Resolution

end VhdlOrder
