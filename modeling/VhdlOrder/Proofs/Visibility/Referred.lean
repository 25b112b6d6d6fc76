import VhdlOrder.Proofs.Visibility.Entering

/-! # What a unit needs by its contexts

A unit depends on the context declarations that it reaches by references, from its own context clause, from the one
of the unit that it completes, and from the one that it provides. Of all clauses that are reached in this way, also
where declarations refer to each other in a circle, the use clauses count as if the unit had written them: those that
name a package of the working library make the unit depend on the package.
-/

namespace VhdlOrder

section

variable {library : Library} {checks : Checks} {scope : Scope} {entry : Entry}

namespace Resolution

/-- The unit sees a reference to the context declaration `target`. -/
def Refers (library : Library) (reader target : Entry) : Prop :=
  ∃ writer clause context, Sees library reader writer clause ∧ context ∈ clause.contexts ∧
    ContextItem.target? library context = some target ∧ target.unit.kind = .context

variable {reader target : Entry}

theorem isWorking_of_target? {context : Reference} (found : ContextItem.target? library context = some target) :
    library.isWorking context.name.first = true := by
  unfold ContextItem.target? at found
  split at found
  · split at found
    · assumption
    · contradiction
  · contradiction

/-- A reference to a context declaration records a dependency on it. -/
theorem dependencies_referenceFindings {context : Reference}
    (found : ContextItem.target? library context = some target) (isContext : target.unit.kind = .context) :
    (ContextItem.referenceFindings library scope context).dependencies =
      [⟨target.index, .context, context.name.render, context.position⟩] := by
  simp [ContextItem.referenceFindings, isWorking_of_target? found, found, isContext]

theorem exists_target_of_mem_referenceFindings {context : Reference} {dependency : Dependency}
    (member : dependency ∈ (ContextItem.referenceFindings library scope context).dependencies) :
    ∃ target, ContextItem.target? library context = some target ∧ target.unit.kind = .context ∧
      dependency.unit = target.index := by
  have outcome := @ContextItem.outcome_referenceFindings library scope context
  generalize ContextItem.referenceFindings library scope context = result at outcome member
  cases outcome with
  | context found isContext =>
    rw [List.mem_singleton.mp member]
    exact ⟨_, found, isContext, rfl⟩
  | foreign | undeclaredLibrary | notContext | missing => exact absurd member List.not_mem_nil

/-- The context declarations among the dependencies that are found are those to which the unit sees a reference. -/
theorem exists_context_dependency_iff (level : Level) {unit : Nat} :
    (∃ dependency ∈ (findings library level reader).dependencies,
        dependency.kind = .context ∧ dependency.unit = unit) ↔
      ∃ target, Refers library reader target ∧ target.index = unit := by
  constructor
  · rintro ⟨dependency, member, isContext, rfl⟩
    obtain ⟨scope, context, applies, present⟩ := exists_reference_of_context member isContext
    obtain ⟨target, found, isDeclaration, same⟩ := exists_target_of_mem_referenceFindings present
    obtain ⟨writer, clause, owner, sees, among⟩ := applies.seesItem
    have inContexts : context ∈ clause.contexts := by simpa [ContextItem.mem_ofClause_iff] using among
    exact ⟨target, ⟨writer, clause, context, sees, inContexts, found, isDeclaration⟩, same.symm⟩
  · rintro ⟨target, ⟨writer, clause, context, sees, inContexts, found, isDeclaration⟩, rfl⟩
    obtain ⟨owner, each⟩ := sees.exists_applies
    obtain ⟨scope, applies⟩ := each _ (ContextItem.mem_ofClause_iff.mpr (.inr (.inl ⟨context, inContexts, rfl⟩)))
    refine ⟨⟨target.index, .context, context.name.render, context.position⟩, ?_, rfl, rfl⟩
    apply applies.subset_findings Findings.additive_dependencies
    rw [ContextItem.apply, dependencies_referenceFindings found isDeclaration]
    exact List.mem_cons_self

end Resolution

/-! ## Use clauses -/

/-- The use clause begins with the working library and names the package behind it. -/
structure UseClause.NamesPackage (library : Library) (use : UseClause) (package : Entry) : Prop where
  isWorking : library.isWorking use.name.first = true
  named : ∃ name rest, use.name.suffix = name :: rest ∧ library.primary? name = some package
  isPackage : package.isPackage = true

/-- The dependency on a package that a use clause records. -/
def UseClause.dependency (use : UseClause) (package : Entry) : Dependency :=
  ⟨package.index, .use, use.render, use.position⟩

theorem Scope.ImportOutcome.mem_dependencies {use : UseClause} {key : Option ClauseKey} {package : Entry}
    {name : Identifier} {result : Scope × Findings}
    (outcome : ImportOutcome library scope use key package name result) (isPackage : package.isPackage = true) :
    use.dependency package ∈ result.2.dependencies := by
  cases outcome with
  | unit | noPackage | noItem | all | item => exact List.mem_cons_self
  | notPackage notPackage =>
    rw [isPackage] at notPackage
    cases notPackage

/-- Whatever else is visible, a use clause that names a package records the dependency on it, even if a name behind
the package is wrong. -/
theorem Scope.mem_dependencies_use {use : UseClause} {package : Entry} (names : use.NamesPackage library package)
    (key : Option ClauseKey) : use.dependency package ∈ (scope.use library use key).2.dependencies := by
  obtain ⟨name, rest, suffix, found⟩ := names.named
  unfold Scope.use
  simp only [names.isWorking, if_true, suffix, Scope.useWorking, found]
  exact (importOutcome_importFrom rest).mem_dependencies names.isPackage

/-- A use clause of any clause that a unit sees makes the unit depend on the package that it names. -/
theorem Library.mem_dependencies_of_sees (member : entry ∈ library.entries) {writer : Entry} {clause : ContextClause}
    (sees : Resolution.Sees library entry writer clause) {use : UseClause} (inUses : use ∈ clause.uses)
    {package : Entry} (names : use.NamesPackage library package) (ne : package.index ≠ entry.index) :
    use.dependency package ∈ (library.resolve checks).dependencies entry.index := by
  obtain ⟨scope, key, applies⟩ := sees.exists_applies_use inUses
  rw [dependencies_resolve member, List.mem_filter, bne_iff_ne]
  exact ⟨applies.subset_findings Findings.additive_dependencies (Scope.mem_dependencies_use names _), ne⟩

/-! ## A use clause written in front of a unit -/

/-- The unit with a further use clause in its own context clause. -/
def DesignUnit.writeUse (unit : DesignUnit) (use : UseClause) : DesignUnit :=
  { unit with context := unit.context.addUses [use] }

namespace Library

/-- The library with a further use clause in the context clause of the unit with the number `index`. -/
def writeUse (library : Library) (index : Nat) (use : UseClause) : Library :=
  { library with units := library.units.modify index fun item => { item with unit := item.unit.writeUse use } }

/-- An entry of the library as it is with the further use clause. -/
def written (index : Nat) (use : UseClause) (entry : Entry) : Entry :=
  if entry.index = index then { entry with unit := entry.unit.writeUse use } else entry

variable {index : Nat} {use : UseClause}

@[simp] theorem index_written : (written index use entry).index = entry.index := by
  unfold written
  split <;> rfl

@[simp] theorem name_written : (written index use entry).unit.name = entry.unit.name := by
  unfold written
  split <;> rfl

@[simp] theorem kind_written : (written index use entry).unit.kind = entry.unit.kind := by
  unfold written
  split <;> rfl

theorem entries_writeUse (library : Library) (index : Nat) (use : UseClause) :
    (library.writeUse index use).entries = library.entries.map (written index use) := by
  apply List.ext_getElem?
  intro number
  rw [getElem?_entries, List.getElem?_map, getElem?_entries, unit?, unit?, writeUse, List.getElem?_modify]
  cases library.units[number]? with
  | none => rfl
  | some item =>
    by_cases same : index = number
    · subst same
      simp [written]
    · simp [written, same, Ne.symm same]

theorem primary?_writeUse (library : Library) (index : Nat) (use : UseClause) (name : Identifier) :
    (library.writeUse index use).primary? name = (library.primary? name).map (written index use) := by
  rw [primary?, entries_writeUse, List.find?_map]
  simp only [Function.comp_def, DesignUnit.isPrimary, kind_written, name_written]
  rfl

/-- Written in front of a unit, a use clause makes the unit depend on the package as well. -/
theorem mem_dependencies_writeUse (member : entry ∈ library.entries) {use : UseClause} {package : Entry}
    (names : use.NamesPackage library package) (ne : package.index ≠ entry.index) :
    use.dependency package ∈ ((library.writeUse entry.index use).resolve checks).dependencies entry.index := by
  have present : written entry.index use entry ∈ (library.writeUse entry.index use).entries :=
    entries_writeUse library entry.index use ▸ List.mem_map_of_mem member
  have inUses : use ∈ (written entry.index use entry).unit.context.uses := by
    simp [written, DesignUnit.writeUse, ContextClause.addUses]
  have namesWritten : use.NamesPackage (library.writeUse entry.index use) (written entry.index use package) := by
    obtain ⟨isWorking, ⟨name, rest, suffix, found⟩, isPackage⟩ := names
    refine ⟨isWorking, ⟨name, rest, suffix, ?_⟩, ?_⟩
    · rw [primary?_writeUse, found, Option.map_some]
    · rwa [Entry.isPackage, kind_written]
  have recorded : _ ∈ ((library.writeUse entry.index use).resolve checks).dependencies _ :=
    mem_dependencies_of_sees present .own inUses namesWritten (by simpa using ne)
  simpa [UseClause.dependency] using recorded

end Library

end

namespace Circular

/-- The package `p`, which a context declaration uses. -/
def used : Entry := ⟨0, ⟨.basic "p", ⟨1, 1⟩, .empty, [], .package [] [] none⟩⟩

/-- The clause `use work.p.all`. -/
def use : UseClause := ⟨⟨.work, [.basic "p"]⟩, true, ⟨3, 7⟩⟩

/-- The context declaration `c`, with a reference to `d`. -/
def first : Entry := ⟨1, ⟨.basic "c", ⟨2, 1⟩, .empty, [],
  .context ⟨[], [], [⟨⟨.work, [.basic "d"]⟩, ⟨2, 24⟩⟩]⟩⟩⟩

/-- The context declaration `d`, with the use clause and a reference back to `c`. -/
def second : Entry := ⟨2, ⟨.basic "d", ⟨3, 1⟩, .empty, [],
  .context ⟨[], [use], [⟨⟨.work, [.basic "c"]⟩, ⟨3, 30⟩⟩]⟩⟩⟩

/-- The package `q`, with a reference to `c` in front of it. -/
def package : Entry :=
  ⟨3, ⟨.basic "q", ⟨5, 1⟩, ⟨[], [], [⟨⟨.work, [.basic "c"]⟩, ⟨4, 9⟩⟩]⟩, [], .package [] [] none⟩⟩

def body : Entry := ⟨4, ⟨.basic "q", ⟨6, 1⟩, .empty, [], .packageBody []⟩⟩

/-- Two context declarations that refer to each other, and a package that refers to one of them. -/
def library : Library :=
  ⟨.basic "lib", ["circular.vhd"],
    [⟨used.unit, 0⟩, ⟨first.unit, 0⟩, ⟨second.unit, 0⟩, ⟨package.unit, 0⟩, ⟨body.unit, 0⟩], [], []⟩

theorem body_mem : body ∈ library.entries := Library.mem_entries_iff.mpr rfl

/-- The body sees what the first context declaration provides, because the package refers to the declaration. -/
theorem sees_first : Resolution.Sees library body first ⟨[], [], [⟨⟨.work, [.basic "d"]⟩, ⟨2, 24⟩⟩]⟩ := by
  have owned : Resolution.ownerOf? library body.unit = some package := rfl
  have found : ContextItem.target? library ⟨⟨.work, [.basic "c"]⟩, ⟨4, 9⟩⟩ = some first := rfl
  exact .referred (.owner owned (by decide)) List.mem_cons_self found rfl

theorem target_first : ContextItem.target? library ⟨⟨.work, [.basic "d"]⟩, ⟨2, 24⟩⟩ = some second := rfl

/-- The body sees what the second context declaration provides. -/
theorem sees_second : Resolution.Sees library body second ⟨[], [use], [⟨⟨.work, [.basic "c"]⟩, ⟨3, 30⟩⟩]⟩ :=
  sees_first.referred List.mem_cons_self target_first rfl

theorem names_use : use.NamesPackage library used := ⟨rfl, ⟨.basic "p", [], rfl, rfl⟩, rfl⟩

end Circular

namespace Resolution

/-- The context declarations that a unit depends on are those, other than the unit itself, to which it sees a
reference, however they refer to each other. A use clause in any clause that the unit sees makes it depend on the
package that is named, unless that is the unit itself, with the same dependency as if the clause were written in front
of the unit. To expand a clause takes no more steps than the clause and all context declarations have items. -/
theorem contexts_expand_completely (library : Library) (checks : Checks) :
    (∀ entry ∈ library.entries, ∀ unit,
      (∃ dependency ∈ (library.resolve checks).dependencies entry.index,
          dependency.kind = .context ∧ dependency.unit = unit) ↔
        unit ≠ entry.index ∧ ∃ target, Refers library entry target ∧ target.index = unit) ∧
      (∀ entry ∈ library.entries, ∀ writer clause, Sees library entry writer clause → ∀ use ∈ clause.uses,
        ∀ package, use.NamesPackage library package → package.index ≠ entry.index →
          use.dependency package ∈ (library.resolve checks).dependencies entry.index ∧
            use.dependency package ∈ ((library.writeUse entry.index use).resolve checks).dependencies entry.index) ∧
      ∀ clause owner, (ContextItem.expand library (ContextItem.ofClause clause owner)).length ≤
        (ContextItem.ofClause clause owner).length
          + ((List.range library.size).flatMap (ContextItem.supply library)).length := by
  refine ⟨fun entry member unit => ?_, ?_, fun clause owner => ContextItem.length_expandWithin_le _ _⟩
  · rw [← exists_context_dependency_iff checks.deferredConstants, Library.dependencies_resolve member]
    constructor
    · rintro ⟨dependency, recorded, isContext, rfl⟩
      obtain ⟨found, ne⟩ := List.mem_filter.mp recorded
      exact ⟨bne_iff_ne.mp ne, dependency, found, isContext, rfl⟩
    · rintro ⟨ne, dependency, found, isContext, rfl⟩
      exact ⟨dependency, List.mem_filter.mpr ⟨found, bne_iff_ne.mpr ne⟩, isContext, rfl⟩
  · intro entry member writer clause sees use inUses package names ne
    exact ⟨Library.mem_dependencies_of_sees member sees inUses names ne,
      Library.mem_dependencies_writeUse member names ne⟩

/-- The body depends on both context declarations and on the package that the second one uses. -/
theorem contexts_expand_completely_circular :
    (∃ dependency ∈ (Circular.library.resolve .standard).dependencies Circular.body.index,
        dependency.kind = .context ∧ dependency.unit = Circular.second.index) ∧
      Circular.use.dependency Circular.used ∈
        (Circular.library.resolve .standard).dependencies Circular.body.index := by
  obtain ⟨contexts, uses, -⟩ := contexts_expand_completely Circular.library .standard
  have refers : Refers Circular.library Circular.body Circular.second :=
    ⟨_, _, _, Circular.sees_first, List.mem_cons_self, Circular.target_first, rfl⟩
  constructor
  · exact (contexts _ Circular.body_mem _).mpr ⟨by decide, _, refers, rfl⟩
  · exact (uses _ Circular.body_mem _ _ Circular.sees_second _ List.mem_cons_self _ Circular.names_use (by decide)).1

end Resolution

end VhdlOrder
