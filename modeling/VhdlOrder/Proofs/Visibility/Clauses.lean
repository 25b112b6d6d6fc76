import VhdlOrder.Proofs.Visibility.Context

/-! # The clauses that a unit sees

A unit sees its own context clause and, if it completes a primary unit, the context clause of that unit; a
context declaration sees what it provides itself. Of every clause that is seen, the clauses are seen too that
the context declarations provide to which it refers. So each item of an expanded context is written in one of
the clauses that are seen, and what is found at the context of a unit is found at one of their items.
-/

namespace VhdlOrder

variable {library : Library} {scope : Scope}

namespace ContextItem

variable {item : ContextItem} {owner : Option Nat}

theorem mem_ofUses_iff {number : Nat} {uses : List UseClause} :
    item ∈ ofUses owner number uses ↔
      ∃ (index : Nat) (clause : UseClause), uses[index]? = some clause ∧
        item = .use clause (owner.map fun owner => ⟨owner, number + index⟩) := by
  induction uses generalizing number with
  | nil => simp [ofUses]
  | cons clause rest ih =>
    simp only [ofUses, List.mem_cons, ih]
    constructor
    · rintro (rfl | ⟨index, other, present, rfl⟩)
      · exact ⟨0, clause, rfl, rfl⟩
      · exact ⟨index + 1, other, present, by simp only [Nat.add_assoc, Nat.add_comm 1]⟩
    · rintro ⟨index, other, present, rfl⟩
      cases index with
      | zero =>
        cases present
        exact .inl rfl
      | succ index => exact .inr ⟨index, other, present, by simp only [Nat.add_assoc, Nat.add_comm 1]⟩

/-- The items of a context clause are its libraries, its references and its use clauses. -/
theorem mem_ofClause_iff {clause : ContextClause} :
    item ∈ ofClause clause owner ↔
      (∃ name ∈ clause.libraries, item = .library name.value) ∨
      (∃ context ∈ clause.contexts, item = .reference context) ∨
        ∃ (number : Nat) (use : UseClause), clause.uses[number]? = some use ∧
          item = .use use (owner.map fun owner => ⟨owner, number⟩) := by
  simp only [ofClause, List.mem_append, List.mem_map, mem_ofUses_iff, Nat.zero_add, or_assoc, eq_comm]

theorem exists_of_provided? {index : Nat} {items : List ContextItem}
    (provided : provided? library item = some (index, items)) :
    ∃ context target clause, item = .reference context ∧ target? library context = some target ∧
      target.unit.clause? = some clause ∧ items = ofClause clause none := by
  unfold provided? at provided
  split at provided
  · rename_i context
    split at provided
    · rename_i target found
      obtain ⟨clause, isContext, same⟩ := Option.map_eq_some_iff.mp provided
      cases same
      exact ⟨context, target, clause, rfl, found, isContext, rfl⟩
    · contradiction
  · contradiction

/-- What holds of the items of a context, and of all that an item of which it holds provides, holds of all
items of the expanded context. -/
theorem forall_mem_expand {holds : ContextItem → Prop} {items : List ContextItem}
    (each : ∀ item ∈ items, holds item)
    (provided : ∀ item index more, holds item → provided? library item = some (index, more) →
      ∀ other ∈ more, holds other) :
    ∀ item ∈ expand library items, holds item := by
  have within (unvisited : List Nat) (items : List ContextItem) (each : ∀ item ∈ items, holds item) :
      ∀ item ∈ expandWithin library unvisited items, holds item := by
    induction unvisited, items using expandWithin.induct library with
    | case1 unvisited =>
      rw [expandWithin]
      exact List.forall_mem_nil _
    | case2 unvisited item rest index more opens fresh ih =>
      obtain ⟨here, behind⟩ := List.forall_mem_cons.mp each
      rw [expandWithin]
      simp only [opens, dif_pos fresh]
      have both := List.forall_mem_append.mpr ⟨provided item index more here opens, behind⟩
      exact List.forall_mem_cons.mpr ⟨here, ih both⟩
    | case3 unvisited item rest index more opens visited ih =>
      obtain ⟨here, behind⟩ := List.forall_mem_cons.mp each
      rw [expandWithin]
      simp only [opens, dif_neg visited]
      exact List.forall_mem_cons.mpr ⟨here, ih behind⟩
    | case4 unvisited item rest closed ih =>
      obtain ⟨here, behind⟩ := List.forall_mem_cons.mp each
      rw [expandWithin]
      simp only [closed]
      exact List.forall_mem_cons.mpr ⟨here, ih behind⟩
  exact within _ items each

theorem remark_referenceFindings (context : Reference) :
    (referenceFindings library scope context).Remark context.position := by
  have outcome := @outcome_referenceFindings library scope context
  generalize referenceFindings library scope context = result at outcome ⊢
  cases outcome with
  | foreign => exact .empty
  | context => exact .dependency _ _ _
  | undeclaredLibrary | notContext | missing => exact .error rfl

/-- When the items are applied to the scope, one after the other, this item is applied to this scope. -/
inductive Meets (library : Library) : Scope → List ContextItem → Scope → ContextItem → Prop
  | here {scope : Scope} {item : ContextItem} {rest : List ContextItem} :
      Meets library scope (item :: rest) scope item
  | later {scope met : Scope} {item other : ContextItem} {rest : List ContextItem} :
      Meets library (item.apply library scope).1 rest met other → Meets library scope (item :: rest) met other

variable {items : List ContextItem} {met : Scope}

theorem meets_cons_iff {rest : List ContextItem} {other : ContextItem} :
    Meets library scope (item :: rest) met other ↔
      (met = scope ∧ other = item) ∨ Meets library (item.apply library scope).1 rest met other := by
  constructor
  · intro meets
    cases meets with
    | here => exact .inl ⟨rfl, rfl⟩
    | later meets => exact .inr meets
  · rintro (⟨rfl, rfl⟩ | meets)
    · exact .here
    · exact .later meets

theorem Meets.mem (meets : Meets library scope items met item) : item ∈ items := by
  induction meets with
  | here => exact List.mem_cons_self
  | later _ ih => exact List.mem_cons_of_mem _ ih

theorem exists_meets (member : item ∈ items) : ∃ met, Meets library scope items met item := by
  induction items generalizing scope with
  | nil => exact absurd member List.not_mem_nil
  | cons first rest ih =>
    rcases List.mem_cons.mp member with rfl | later
    · exact ⟨scope, .here⟩
    · obtain ⟨met, meets⟩ := ih later
      exact ⟨met, .later meets⟩

/-- What is found at several items is found at one of them. -/
theorem mem_applyAll_iff {α : Type} {project : Findings → List α} (additive : Findings.Additive project) {found : α} :
    found ∈ project (applyAll library scope items).2 ↔
      ∃ met item, Meets library scope items met item ∧ found ∈ project (item.apply library met).2 := by
  induction items generalizing scope with
  | nil =>
    constructor
    · exact fun member => absurd (additive.empty ▸ member) List.not_mem_nil
    · rintro ⟨met, item, meets, -⟩
      exact absurd meets.mem List.not_mem_nil
  | cons item rest ih =>
    have whole : project (applyAll library scope (item :: rest)).2 =
        project (item.apply library scope).2 ++ project (applyAll library (item.apply library scope).1 rest).2 :=
      additive.append _ _
    rw [whole, List.mem_append, ih]
    constructor
    · rintro (here | ⟨met, other, meets, present⟩)
      · exact ⟨scope, item, .here, here⟩
      · exact ⟨met, other, .later meets, present⟩
    · rintro ⟨met, other, meets, present⟩
      rcases meets_cons_iff.mp meets with ⟨rfl, rfl⟩ | later
      · exact .inl present
      · exact .inr ⟨met, other, later, present⟩

end ContextItem

namespace Resolution

variable {reader writer : Entry} {clause : ContextClause}

/-- The scope and the findings that a unit begins with: nothing, or a dependency on its primary unit and, except
for a configuration, what the context clause of that unit adds. -/
inductive Entered (library : Library) (unit : DesignUnit) : Scope × Findings → Prop
  | alone : ownerOf? library unit = none → Entered library unit (.start, .empty)
  | configuration {owner : Entry} {via : String} : ownerOf? library unit = some owner →
      unit.kind = .configuration → Entered library unit (.start, .dependency owner .primary via unit.position)
  | owner {owner : Entry} {via : String} : ownerOf? library unit = some owner → unit.kind ≠ .configuration →
      Entered library unit ((Scope.start.enter library owner.unit.context (some owner.index)).1,
        .dependency owner .primary via unit.position
          ++ (Scope.start.enter library owner.unit.context (some owner.index)).2)

theorem entered_enterOwner (library : Library) (unit : DesignUnit) :
    Entered library unit (enterOwner library unit) := by
  unfold enterOwner
  split
  · rename_i none
    exact .alone none
  · rename_i owner found
    dsimp only
    split
    · rename_i isConfiguration
      exact .configuration found (by simpa using isConfiguration)
    · rename_i notConfiguration
      exact .owner found (by simpa using notConfiguration)

/-- The key of the use clauses in front of a unit, if they are watched. -/
def watcher? (entry : Entry) : Option Nat := if watchesContext entry.unit then some entry.index else none

/-- The scope of a unit is what it begins with, and what its own context clause adds. -/
theorem scopeOf_eq (entry : Entry) :
    scopeOf library entry =
      (((enterOwner library entry.unit).1.enter library entry.unit.context (watcher? entry)).1,
        (enterOwner library entry.unit).2
          ++ ((enterOwner library entry.unit).1.enter library entry.unit.context (watcher? entry)).2) := rfl

/-- When the unit `reader` is resolved, the context clause `clause` is looked at, which the unit `writer` has
in front of itself or provides. -/
inductive Sees (library : Library) (reader : Entry) : Entry → ContextClause → Prop
  | own : Sees library reader reader reader.unit.context
  | owner {owner : Entry} : ownerOf? library reader.unit = some owner → reader.unit.kind ≠ .configuration →
      Sees library reader owner owner.unit.context
  | provided {clause : ContextClause} : reader.unit.clause? = some clause → Sees library reader reader clause
  | referred {writer target : Entry} {clause provided : ContextClause} {context : Reference} :
      Sees library reader writer clause → context ∈ clause.contexts →
        ContextItem.target? library context = some target → target.unit.clause? = some provided →
          Sees library reader target provided

/-- The item is written in a clause that is seen. -/
def SeesItem (library : Library) (reader : Entry) (item : ContextItem) : Prop :=
  ∃ writer clause owner, Sees library reader writer clause ∧ item ∈ ContextItem.ofClause clause owner

/-- Every item that a clause which is seen expands to is written in a clause that is seen. -/
theorem Sees.seesItem_of_mem_expand (sees : Sees library reader writer clause) (owner : Option Nat) :
    ∀ item ∈ ContextItem.expand library (ContextItem.ofClause clause owner), SeesItem library reader item := by
  refine ContextItem.forall_mem_expand (fun item among => ⟨writer, clause, owner, sees, among⟩) ?_
  rintro item index more ⟨other, otherClause, otherOwner, seesOther, among⟩ provided further present
  obtain ⟨context, target, targetClause, rfl, found, isContext, rfl⟩ := ContextItem.exists_of_provided? provided
  have inContexts : context ∈ otherClause.contexts := by
    simpa [ContextItem.mem_ofClause_iff] using among
  exact ⟨target, targetClause, none, .referred seesOther inContexts found isContext, present⟩

end Resolution

end VhdlOrder
