import VhdlOrder.Proofs.Visibility.Dependencies
import VhdlOrder.Proofs.Visibility.Expansion

/-! # Items that are applied

When a unit is resolved, up to two context clauses are entered, its own and that of the unit that it completes, and
for a context declaration also the one that it provides. What is applied to the scope, item by item, is what these
clauses expand to, and that is every item of every clause that the unit sees. What is found at the items is found
for the unit.
-/

namespace VhdlOrder

variable {library : Library} {scope : Scope}

namespace ContextItem

variable {holds : Scope → Prop} {adds : Scope → ContextItem → Prop}

/-- What a scope has behind some items, it had before them or one of them adds it. -/
theorem holds_applyAll_iff
    (each : ∀ scope item, holds (apply library scope item).1 ↔ holds scope ∨ adds scope item)
    (items : List ContextItem) :
    holds (applyAll library scope items).1 ↔
      holds scope ∨ ∃ met item, Meets library scope items met item ∧ adds met item := by
  induction items generalizing scope with
  | nil =>
    refine ⟨.inl, fun either => either.resolve_right ?_⟩
    rintro ⟨met, item, meets, -⟩
    exact absurd meets.mem List.not_mem_nil
  | cons item rest ih =>
    change holds (applyAll library (item.apply library scope).1 rest).1 ↔ _
    rw [ih, each, or_assoc]
    refine or_congr_right ⟨?_, ?_⟩
    · rintro (added | ⟨met, other, meets, added⟩)
      · exact ⟨scope, item, .here, added⟩
      · exact ⟨met, other, .later meets, added⟩
    · rintro ⟨met, other, meets, added⟩
      rcases meets_cons_iff.mp meets with ⟨rfl, rfl⟩ | later
      · exact .inl added
      · exact .inr ⟨met, other, later, added⟩

end ContextItem

namespace Resolution

variable {reader writer : Entry} {level : Level} {clause : ContextClause} {owner : Option Nat} {item : ContextItem}

/-- When the unit `reader` is resolved, the clause is entered in the scope; its use clauses are watched if the
number of a unit is given. -/
inductive Enters (library : Library) (reader : Entry) : Scope → ContextClause → Option Nat → Prop
  | own : Enters library reader (enterOwner library reader.unit).1 reader.unit.context (watcher? reader)
  | owner {owner : Entry} : ownerOf? library reader.unit = some owner → reader.unit.kind ≠ .configuration →
      Enters library reader .start owner.unit.context (some owner.index)
  | provided {clause : ContextClause} : reader.unit.clause? = some clause →
      Enters library reader (scopeOf library reader).1 clause none

/-- When the unit `reader` is resolved, the item is applied to the scope. -/
def Applies (library : Library) (reader : Entry) (scope : Scope) (item : ContextItem) : Prop :=
  ∃ start clause owner, Enters library reader start clause owner ∧
    ContextItem.Meets library start (ContextItem.expand library (ContextItem.ofClause clause owner)) scope item

theorem Enters.exists_sees (enters : Enters library reader scope clause owner) :
    ∃ writer, Sees library reader writer clause := by
  cases enters with
  | own => exact ⟨reader, .own⟩
  | owner found notConfiguration => exact ⟨_, .owner found notConfiguration⟩
  | provided isContext => exact ⟨reader, .provided isContext⟩

/-- An item that is applied is written in a clause that is seen. -/
theorem Applies.seesItem (applies : Applies library reader scope item) : SeesItem library reader item := by
  obtain ⟨start, clause, owner, enters, meets⟩ := applies
  obtain ⟨writer, sees⟩ := enters.exists_sees
  exact sees.seesItem_of_mem_expand owner item meets.mem

/-- Every clause that is seen is reached from one that is entered. -/
theorem Sees.exists_reached (sees : Sees library reader writer clause) :
    ∃ start root watcher owner, Enters library reader start root watcher ∧
      ∀ item ∈ ContextItem.ofClause clause owner,
        ContextItem.Reached library (ContextItem.ofClause root watcher) item := by
  induction sees with
  | own => exact ⟨_, _, _, _, .own, fun _ => .here⟩
  | owner found notConfiguration => exact ⟨_, _, _, _, .owner found notConfiguration, fun _ => .here⟩
  | provided isContext => exact ⟨_, _, _, _, .provided isContext, fun _ => .here⟩
  | @referred writer target clause provided context _ inContexts found isContext ih =>
    obtain ⟨start, root, watcher, owner, enters, reached⟩ := ih
    have refers : .reference context ∈ ContextItem.ofClause clause owner :=
      ContextItem.mem_ofClause_iff.mpr (.inr (.inl ⟨context, inContexts, rfl⟩))
    have opens : ContextItem.provided? library (.reference context) =
        some (target.index, ContextItem.ofClause provided none) := by
      simp [ContextItem.provided?, found, isContext]
    exact ⟨start, root, watcher, none, enters, fun item => .provided (reached _ refers) opens⟩

/-- All items of a clause that is seen are applied. -/
theorem Sees.exists_applies (sees : Sees library reader writer clause) :
    ∃ owner, ∀ item ∈ ContextItem.ofClause clause owner, ∃ scope, Applies library reader scope item := by
  obtain ⟨start, root, watcher, owner, enters, reached⟩ := sees.exists_reached
  refine ⟨owner, fun item member => ?_⟩
  obtain ⟨met, meets⟩ := ContextItem.exists_meets (ContextItem.mem_expand_iff.mpr (reached item member))
  exact ⟨met, start, root, watcher, enters, meets⟩

theorem Sees.exists_applies_use (sees : Sees library reader writer clause) {use : UseClause}
    (inUses : use ∈ clause.uses) : ∃ scope key, Applies library reader scope (.use use key) := by
  obtain ⟨number, present⟩ := List.mem_iff_getElem?.mp inUses
  obtain ⟨owner, each⟩ := sees.exists_applies
  obtain ⟨scope, applies⟩ := each _ (ContextItem.mem_ofClause_iff.mpr (.inr (.inr ⟨number, use, present, rfl⟩)))
  exact ⟨scope, _, applies⟩

/-- What a unit sees of the unit that it completes. -/
theorem exists_enterOwner_eq {owner : Entry} (found : ownerOf? library reader.unit = some owner)
    (notConfiguration : reader.unit.kind ≠ .configuration) :
    ∃ via, enterOwner library reader.unit =
      ((Scope.start.enter library owner.unit.context (some owner.index)).1,
        .dependency owner .primary via reader.unit.position
          ++ (Scope.start.enter library owner.unit.context (some owner.index)).2) := by
  refine ⟨(reader.unit.owner?.map Identifier.render).getD "", ?_⟩
  simp [enterOwner, found, notConfiguration]

/-! ## What is in the scope -/

/-- What the scope of a unit has, and not already the one that every unit begins with, an item adds that is applied
for the unit. -/
theorem holds_scopeOf_iff (holds : Scope → Prop) {adds : Scope → ContextItem → Prop}
    (each : ∀ scope item, holds (ContextItem.apply library scope item).1 ↔ holds scope ∨ adds scope item)
    (start : ¬ holds .start) (noContext : reader.unit.clause? = none) :
    holds (scopeOf library reader).1 ↔ ∃ scope item, Applies library reader scope item ∧ adds scope item := by
  rw [scopeOf_eq]
  dsimp only [Scope.enter]
  rw [ContextItem.holds_applyAll_iff each]
  constructor
  · rintro (owner | ⟨met, item, meets, added⟩)
    · have entered := entered_enterOwner library reader.unit
      generalize enterOwner library reader.unit = result at entered owner
      cases entered with
      | alone none => exact absurd owner start
      | configuration found isConfiguration => exact absurd owner start
      | owner found notConfiguration =>
        obtain none | ⟨met, item, meets, added⟩ := (ContextItem.holds_applyAll_iff each _).mp owner
        · exact absurd none start
        · exact ⟨met, item, ⟨_, _, _, .owner found notConfiguration, meets⟩, added⟩
    · exact ⟨met, item, ⟨_, _, _, .own, meets⟩, added⟩
  · rintro ⟨scope, item, ⟨start, clause, owner, enters, meets⟩, added⟩
    cases enters with
    | own => exact .inr ⟨scope, item, meets, added⟩
    | owner found notConfiguration =>
      obtain ⟨via, entered⟩ := exists_enterOwner_eq found notConfiguration
      rw [entered]
      exact .inl ((ContextItem.holds_applyAll_iff each _).mpr (.inr ⟨scope, item, meets, added⟩))
    | provided isContext =>
      rw [noContext] at isContext
      cases isContext

/-- What only use clauses add, the scope of a unit has by one of the use clauses that are entered for the unit. -/
theorem holds_scopeOf_iff_use (holds : Scope → Prop) {adds : Scope → UseClause → Prop}
    (each : ∀ scope use key, holds (scope.use library use key).1 ↔ holds scope ∨ adds scope use)
    (libraries : ∀ scope name, holds (Scope.addLibrary scope name) ↔ holds scope)
    (start : ¬ holds .start) (noContext : reader.unit.clause? = none) :
    holds (scopeOf library reader).1 ↔
      ∃ scope use key, Applies library reader scope (.use use key) ∧ adds scope use := by
  have item (scope : Scope) (item : ContextItem) : holds (item.apply library scope).1 ↔
      holds scope ∨ ∃ use key, item = .use use key ∧ adds scope use := by
    cases item with
    | library name => simp [ContextItem.apply, libraries]
    | reference context => simp [ContextItem.apply]
    | use clause key =>
      rw [ContextItem.apply, each]
      refine or_congr_right ⟨fun added => ⟨clause, key, rfl, added⟩, ?_⟩
      rintro ⟨other, otherKey, same, added⟩
      cases same
      exact added
  rw [holds_scopeOf_iff holds item start noContext]
  constructor
  · rintro ⟨scope, -, applies, use, key, rfl, added⟩
    exact ⟨scope, use, key, applies, added⟩
  · rintro ⟨scope, use, key, applies, added⟩
    exact ⟨scope, _, applies, use, key, rfl, added⟩

/-! ## What is found at the items -/

/-- What is found for a unit is found at its primary unit, at its own context clause, and inside it. -/
theorem findings_eq : findings library level reader = (enterOwner library reader.unit).2
    ++ ((enterOwner library reader.unit).1.enter library reader.unit.context (watcher? reader)).2
    ++ inside library level (scopeOf library reader).1 reader := rfl

theorem inside_of_clause? {clause : ContextClause} (isContext : reader.unit.clause? = some clause) :
    inside library level scope reader = (scope.enter library clause none).2 := by
  unfold DesignUnit.clause? at isContext
  split at isContext
  · rename_i contents
    cases isContext
    simp only [inside, contents]
  · contradiction

section

variable {α : Type} {project : Findings → List α} {found : α}

/-- What is found when a clause is entered is found for the unit. -/
theorem Enters.subset_findings (additive : Findings.Additive project)
    (enters : Enters library reader scope clause owner) :
    project (scope.enter library clause owner).2 ⊆ project (findings library level reader) := by
  rw [findings_eq, additive.append, additive.append]
  cases enters with
  | own => exact List.Subset.trans (List.subset_append_right _ _) (List.subset_append_left _ _)
  | owner found notConfiguration =>
    obtain ⟨via, entered⟩ := exists_enterOwner_eq found notConfiguration
    rw [entered, additive.append, List.append_assoc, List.append_assoc]
    exact List.Subset.trans (List.subset_append_left _ _) (List.subset_append_right _ _)
  | provided isContext =>
    rw [inside_of_clause? isContext]
    exact List.subset_append_right _ _

theorem Enters.exists_applies (additive : Findings.Additive project)
    (enters : Enters library reader scope clause owner)
    (member : found ∈ project (scope.enter library clause owner).2) :
    ∃ scope item, Applies library reader scope item ∧ found ∈ project (item.apply library scope).2 := by
  obtain ⟨met, item, meets, present⟩ := (ContextItem.mem_applyAll_iff additive).mp member
  exact ⟨met, item, ⟨scope, clause, owner, enters, meets⟩, present⟩

/-- What is found at an item is found for the unit. -/
theorem Applies.subset_findings (additive : Findings.Additive project) (applies : Applies library reader scope item) :
    project (item.apply library scope).2 ⊆ project (findings library level reader) := by
  obtain ⟨start, clause, owner, enters, meets⟩ := applies
  intro found present
  exact enters.subset_findings additive ((ContextItem.mem_applyAll_iff additive).mpr ⟨scope, item, meets, present⟩)

end

theorem kind_ne_context_of_mem_inside (noContext : reader.unit.clause? = none) :
    ∀ dependency ∈ (inside library level scope reader).dependencies, dependency.kind ≠ .context := by
  intro dependency found
  obtain ⟨template, found⟩ | ⟨clause, contents, -⟩ | ⟨site, found⟩ := mem_dependencies_inside found
  · rw [ofKind_templateFindings template dependency found]
    decide
  · simp [DesignUnit.clause?, contents] at noContext
  · rw [Lookup.ofKind_find dependency found]
    decide

/-- A dependency on a context declaration is found when a clause is entered. -/
theorem exists_enters_of_context {dependency : Dependency}
    (found : dependency ∈ (findings library level reader).dependencies) (isContext : dependency.kind = .context) :
    ∃ scope clause owner, Enters library reader scope clause owner ∧
      dependency ∈ (scope.enter library clause owner).2.dependencies := by
  have notPrimary {owner : Entry} {via : String} {position : Position} :
      dependency ∉ (Findings.dependency owner .primary via position).dependencies := by
    intro member
    rw [List.mem_singleton.mp member] at isContext
    cases isContext
  rw [findings_eq, Findings.dependencies_append, Findings.dependencies_append] at found
  rcases List.mem_append.mp found with inScope | isInside
  · rcases List.mem_append.mp inScope with inOwner | inOwn
    · have entered := entered_enterOwner library reader.unit
      generalize enterOwner library reader.unit = result at entered inOwner
      cases entered with
      | alone none => exact absurd inOwner List.not_mem_nil
      | configuration found isConfiguration => exact absurd inOwner notPrimary
      | owner found notConfiguration =>
        rcases List.mem_append.mp inOwner with depend | inContext
        · exact absurd depend notPrimary
        · exact ⟨_, _, _, .owner found notConfiguration, inContext⟩
    · exact ⟨_, _, _, .own, inOwn⟩
  · cases provided : reader.unit.clause? with
    | some clause =>
      rw [inside_of_clause? provided] at isInside
      exact ⟨_, clause, none, .provided provided, isInside⟩
    | none => exact absurd isContext (kind_ne_context_of_mem_inside provided dependency isInside)

/-- A dependency on a context declaration is found at a reference to it that is applied. -/
theorem exists_reference_of_context {dependency : Dependency}
    (found : dependency ∈ (findings library level reader).dependencies) (isContext : dependency.kind = .context) :
    ∃ scope context, Applies library reader scope (.reference context) ∧
      dependency ∈ (ContextItem.referenceFindings library scope context).dependencies := by
  obtain ⟨start, clause, owner, enters, member⟩ := exists_enters_of_context found isContext
  obtain ⟨scope, item, applies, present⟩ := enters.exists_applies Findings.additive_dependencies member
  cases item with
  | library name => exact absurd present List.not_mem_nil
  | reference context => exact ⟨scope, context, applies, present⟩
  | use clause key =>
    rw [Scope.ofKind_use clause key dependency present] at isContext
    cases isContext

end Resolution

end VhdlOrder
