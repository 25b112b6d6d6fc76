import VhdlOrder.Proofs.Visibility.Lookup

/-! # What the resolution records

The dependencies of a unit are on primary units of the library other than the unit itself. A body or an
architecture depends on the unit that it completes, an instance on the package that it is made from, and
a unit that is looked at declaration by declaration on all that is found at its references.
-/

namespace VhdlOrder

namespace Resolution

variable {library : Library} {checks : Checks} {level : Level} {scope : Scope} {entry owner next : Entry}

/-- The declarations of a package that the unit of the same name sees if it is the body. -/
def declared (library : Library) (unit : DesignUnit) : List Declaration :=
  ((library.package? unit.name).map fun owner => owner.unit.generics ++ owner.unit.declarations).getD []

/-- The references of a unit that is looked at declaration by declaration, each where it stands: those of a
package that is no instance, and those of a package body. -/
def sites (library : Library) (unit : DesignUnit) : List Lookup.Site :=
  match unit.contents with
  | .package generics declarations none =>
      Lookup.sites [] generics ++ Lookup.sites generics declarations
        ++ unit.references.map (Lookup.Site.mk (generics ++ declarations))
  | .packageBody declarations =>
      Lookup.sites (declared library unit) declarations
        ++ unit.references.map (Lookup.Site.mk (declared library unit ++ declarations))
  | _ => []

/-- What is found in such a unit is what is found at its references. -/
theorem dependencies_inside (examined : sites library entry.unit ≠ []) :
    (inside library level scope entry).dependencies =
      (sites library entry.unit).flatMap fun site =>
        (Lookup.atSite library scope entry.unit site).dependencies := by
  have additive := Findings.additive_dependencies
  unfold sites at examined ⊢
  unfold inside
  dsimp only
  split at examined
  · rename_i generics declarations contents
    simp only [contents, Findings.dependencies_append, Lookup.project_declarations additive fun _ => rfl,
      Lookup.project_findAll additive, Findings.dependencies_empty, List.append_nil, List.flatMap_append]
  · rename_i declarations contents
    simp only [contents, Findings.dependencies_append, Lookup.project_declarations additive fun _ => rfl,
      Lookup.project_findAll additive, Findings.dependencies_empty, List.append_nil, List.flatMap_append,
      declared]
  · contradiction

/-- The unit that a template names, alone or behind a prefix. -/
def templateTarget? (library : Library) (scope : Scope) (name : SelectedName) : Option Entry :=
  if name.isExpanded then library.workUnit? name
  else (scope.prefixed? name.first).or (library.primary? name.first)

/-- What a template names is a primary unit. -/
theorem exists_primary?_of_templateTarget? {recorded : List Dependency} (backed : scope.Backed library recorded)
    {name : SelectedName} (found : templateTarget? library scope name = some next) :
    ∃ name, library.primary? name = some next := by
  unfold templateTarget? at found
  split at found
  · exact Library.exists_primary?_of_workUnit? found
  · rcases Option.or_eq_some_iff.mp found with byPrefix | ⟨-, byName⟩
    · exact ⟨_, backed.prefixed byPrefix⟩
    · exact ⟨_, byName⟩

/-- What there can be to say about the template of an instance: a dependency on the package that it names, nothing if
it is in another library, or an error. -/
inductive TemplateOutcome (library : Library) (scope : Scope) (template : Reference) : Findings → Prop
  | package {target : Entry} : templateTarget? library scope template.name = some target → target.isPackage = true →
      TemplateOutcome library scope template (.dependency target .instantiation template.name.render template.position)
  | notPackage : TemplateOutcome library scope template (.error (.notPackage template.name) template.position)
  | foreign : TemplateOutcome library scope template .empty
  | undeclared : TemplateOutcome library scope template (.error (.undeclaredPackage template.name) template.position)

theorem outcome_templateFindings (template : Reference) :
    TemplateOutcome library scope template (templateFindings library scope template) := by
  unfold templateFindings
  dsimp only
  split
  · rename_i target found
    split
    · rename_i isPackage
      exact .package found isPackage
    · exact .notPackage
  · split
    · exact .foreign
    · exact .undeclared

theorem rooted_templateFindings {recorded : List Dependency} (backed : scope.Backed library recorded)
    (template : Reference) : (templateFindings library scope template).Rooted library := by
  have outcome := @outcome_templateFindings library scope template
  generalize templateFindings library scope template = result at outcome ⊢
  cases outcome with
  | package found =>
    obtain ⟨name, primary⟩ := exists_primary?_of_templateTarget? backed found
    exact .dependency primary _ _ _
  | notPackage | foreign | undeclared => exact .of_eq_nil rfl

/-- A dependency inside a unit is found at the template of an instance, in the clause of a context declaration, or at a
name. -/
theorem mem_dependencies_inside {dependency : Dependency}
    (found : dependency ∈ (inside library level scope entry).dependencies) :
    (∃ template, dependency ∈ (templateFindings library scope template).dependencies) ∨
      (∃ clause, entry.unit.contents = .context clause ∧
        dependency ∈ (scope.enter library clause none).2.dependencies) ∨
      ∃ site, dependency ∈ (Lookup.atSite library scope entry.unit site).dependencies := by
  have names {visible : List Declaration} {references : List Reference}
      (member : dependency ∈ (Lookup.findAll library scope entry.unit visible references).dependencies) :
      ∃ site, dependency ∈ (Lookup.atSite library scope entry.unit site).dependencies := by
    rw [Lookup.project_findAll Findings.additive_dependencies] at member
    obtain ⟨site, -, present⟩ := List.mem_flatMap.mp member
    exact ⟨site, present⟩
  have declared {visible items : List Declaration}
      (member : dependency ∈ (Lookup.declarations library scope entry.unit visible items).dependencies) :
      ∃ site, dependency ∈ (Lookup.atSite library scope entry.unit site).dependencies := by
    rw [Lookup.project_declarations Findings.additive_dependencies fun _ => rfl] at member
    obtain ⟨site, -, present⟩ := List.mem_flatMap.mp member
    exact ⟨site, present⟩
  unfold inside at found
  dsimp only at found
  split at found
  · rcases List.mem_append.mp found with here | name
    · exact .inl ⟨_, here⟩
    · exact .inr (.inr (names name))
  · simp only [Findings.dependencies_append, List.mem_append] at found
    rcases found with ((generic | item) | name) | constant
    · exact .inr (.inr (declared generic))
    · exact .inr (.inr (declared item))
    · exact .inr (.inr (names name))
    · exact absurd constant List.not_mem_nil
  · simp only [Findings.dependencies_append, List.mem_append] at found
    rcases found with (item | name) | constant
    · exact .inr (.inr (declared item))
    · exact .inr (.inr (names name))
    · exact absurd constant List.not_mem_nil
  · rename_i clause contents
    exact .inr (.inl ⟨clause, contents, found⟩)
  · exact .inr (.inr (names found))

theorem rooted_inside {recorded : List Dependency} (backed : scope.Backed library recorded)
    (level : Level) (entry : Entry) : (inside library level scope entry).Rooted library := by
  intro dependency found
  obtain ⟨template, found⟩ | ⟨clause, -, found⟩ | ⟨site, found⟩ := mem_dependencies_inside found
  · exact rooted_templateFindings backed template dependency found
  · exact (backed.enter clause none).findings dependency found
  · exact Lookup.rooted_find backed dependency found

/-- All that is found for a unit are dependencies on primary units. -/
theorem rooted_findings (library : Library) (level : Level) (entry : Entry) :
    (findings library level entry).Rooted library := by
  have grounded := grounded_scopeOf library entry
  unfold findings
  exact grounded.findings.append (rooted_inside grounded.scope level entry)

/-- A body, an architecture or a configuration depends on its primary unit as such. -/
theorem exists_primary_of_owner (level : Level) (found : ownerOf? library entry.unit = some owner) :
    ∃ dependency ∈ (findings library level entry).dependencies,
      dependency.kind = .primary ∧ dependency.unit = owner.index := by
  have entered : ∃ dependency ∈ (enterOwner library entry.unit).2.dependencies,
      dependency.kind = .primary ∧ dependency.unit = owner.index := by
    unfold enterOwner
    simp only [found]
    split
    · exact ⟨_, List.mem_cons_self, rfl, rfl⟩
    · exact ⟨_, List.mem_append_left _ List.mem_cons_self, rfl, rfl⟩
  obtain ⟨dependency, member, same⟩ := entered
  refine ⟨dependency, ?_, same⟩
  unfold findings scopeOf
  simp only [Findings.dependencies_append]
  exact List.mem_append_left _ (List.mem_append_left _ member)

theorem exists_dependency_of_owner (level : Level) (found : ownerOf? library entry.unit = some owner) :
    ∃ dependency ∈ (findings library level entry).dependencies, dependency.unit = owner.index := by
  obtain ⟨dependency, member, -, same⟩ := exists_primary_of_owner level found
  exact ⟨dependency, member, same⟩

/-- What is found about the template of an instance is the dependency on the unit that the template names in the library,
whatever prefixes are in scope. -/
theorem templateFindings_eq {recorded : List Dependency} (backed : scope.Backed library recorded)
    {template : Reference} (named : library.workUnit? template.name = some next)
    (isPackage : next.isPackage = true) : templateFindings library scope template =
      .dependency next .instantiation template.name.render template.position := by
  have target : templateTarget? library scope template.name = some next := by
    unfold templateTarget?
    split
    · exact named
    · rename_i simple
      have noSuffix : template.name.suffix = [] := by simpa [SelectedName.isExpanded] using simple
      have primary : library.primary? template.name.first = some next := by
        rw [← named, Library.workUnit?, noSuffix]
      cases byPrefix : scope.prefixed? template.name.first with
      | none => rw [Option.none_or, primary]
      | some other => rw [Option.some_or, ← backed.prefixed byPrefix, primary]
  unfold templateTarget? at target
  simp only [templateFindings, target, isPackage, if_true]

/-- An instance depends on the package that it is made from. -/
theorem exists_dependency_of_instantiates (level : Level) (step : library.Instantiates entry next)
    (isPackage : next.isPackage = true) :
    ∃ dependency ∈ (findings library level entry).dependencies, dependency.unit = next.index := by
  obtain ⟨template, derived, named⟩ := step
  have found := templateFindings_eq (grounded_scopeOf library entry).scope named isPackage
  unfold DesignUnit.template? at derived
  split at derived
  · rename_i contents
    subst derived
    unfold findings inside
    simp only [contents, found, Findings.dependencies_append]
    exact ⟨_, List.mem_append_right _ (List.mem_append_left _ List.mem_cons_self), rfl⟩
  · contradiction

/-- What a name denotes in a unit is supplied by a unit that is among the dependencies found. -/
theorem supplied_of_denotes (level : Level) {site : Lookup.Site} {source : Entry}
    {items : List Declaration} (present : site ∈ sites library entry.unit)
    (denotes : Lookup.Denotes library (scopeOf library entry).1 entry.unit site source items)
    (resolved : (Lookup.atSite library (scopeOf library entry).1 entry.unit site).problems = []) :
    Supplied library (findings library level entry).dependencies source items := by
  obtain ⟨⟨dependency, found, same⟩, member, within⟩ :=
    denotes.supplied (grounded_scopeOf library entry).scope resolved
  refine ⟨⟨dependency, ?_, same⟩, member, within⟩
  unfold findings
  rw [Findings.dependencies_append]
  rcases List.mem_append.mp found with context | name
  · exact List.mem_append_left _ context
  · rw [dependencies_inside (List.ne_nil_of_mem present)]
    exact List.mem_append_right _ (List.mem_flatMap.mpr ⟨site, present, name⟩)

/-- The unit `other` is among the dependencies of `unit`. -/
def Needs (resolution : Resolution) (unit other : Nat) : Prop :=
  ∃ dependency ∈ resolution.dependencies unit, dependency.unit = other

end Resolution

open Resolution

namespace Library

variable {library : Library} {checks : Checks} {entry : Entry}

/-- What is recorded for a unit is what is found for it, without what is about the unit itself. -/
theorem dependencies_resolve (member : entry ∈ library.entries) :
    (library.resolve checks).dependencies entry.index =
      (findings library checks.deferredConstants entry).dependencies.filter
        fun dependency => dependency.unit != entry.index := by
  rw [mem_entries_iff] at member
  simp [Resolution.dependencies, Library.resolve, getElem?_entries, member, Resolution.ofFindings]

theorem dependencies_resolve_of_size_le {unit : Nat} (outside : library.size ≤ unit) :
    (library.resolve checks).dependencies unit = [] := by
  have none : library.unit? unit = none := by
    rw [unit?, List.getElem?_eq_none outside, Option.map_none]
  simp [Resolution.dependencies, Library.resolve, getElem?_entries, none]

/-- A dependency that is found is recorded unless it is on the unit itself. -/
theorem needs_resolve (member : entry ∈ library.entries) {other : Nat}
    (found : ∃ dependency ∈ (findings library checks.deferredConstants entry).dependencies,
      dependency.unit = other) (ne : other ≠ entry.index) :
    (library.resolve checks).Needs entry.index other := by
  obtain ⟨dependency, present, rfl⟩ := found
  refine ⟨dependency, ?_, rfl⟩
  rw [dependencies_resolve member]
  exact List.mem_filter.mpr ⟨present, bne_iff_ne.mpr ne⟩

/-- What a unit needs is another unit of the library, and a primary one. -/
theorem of_needs_resolve {unit other : Nat} (needs : (library.resolve checks).Needs unit other) :
    unit < library.size ∧ other ≠ unit ∧
      ∃ target ∈ library.entries, target.unit.isPrimary = true ∧ other = target.index := by
  obtain ⟨dependency, recorded, rfl⟩ := needs
  have bound : unit < library.size := by
    apply Nat.lt_of_not_le
    intro outside
    rw [dependencies_resolve_of_size_le outside] at recorded
    exact List.not_mem_nil recorded
  obtain ⟨entry, member, rfl⟩ := exists_entry bound
  rw [dependencies_resolve member] at recorded
  obtain ⟨found, ne⟩ := List.mem_filter.mp recorded
  exact ⟨bound, bne_iff_ne.mp ne, rooted_findings library _ entry dependency found⟩

end Library

end VhdlOrder
