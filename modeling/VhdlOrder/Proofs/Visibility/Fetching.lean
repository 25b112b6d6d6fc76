import VhdlOrder.Proofs.Library.Numbers
import VhdlOrder.Proofs.Visibility.Context
import VhdlOrder.Stepwise.Context

/-! # Fetching what a context names

The units that a context makes visible are entries of the library: prefixes and imports are backed by dependencies on
units that are there. So the numbers by which they are known are those of units, and the parts of a name that a use
clause takes are there because the clause looks at the number of the parts before.
-/

namespace VhdlOrder.Catalog

open Stepwise

variable {catalog : Catalog}

/-! ## Packages -/

theorem InStep.workUnit?_eq (inStep : catalog.InStep) (name : SelectedName) :
    catalog.workUnit? name = some (catalog.library.workUnit? name) := by
  obtain ⟨first, suffix⟩ := name
  unfold workUnit? Library.workUnit?
  match suffix with
  | [] => exact inStep.primary?_eq first
  | [unit] =>
    simp only [SelectedName.parts, inStep.primary?_eq]
    split <;> rfl
  | _ :: _ :: _ => rfl

/-- The numbers of units that have not been seen. -/
def unseen (catalog : Catalog) (seen : List Nat) : List Nat :=
  (List.range catalog.library.size).filter fun number => !seen.contains number

theorem mem_unseen {seen : List Nat} {number : Nat} :
    number ∈ catalog.unseen seen ↔ number < catalog.library.size ∧ number ∉ seen := by
  simp [unseen]

theorem erase_unseen (seen : List Nat) (number : Nat) :
    (catalog.unseen seen).erase number = catalog.unseen (number :: seen) := by
  rw [unseen, (List.nodup_range.filter _).erase_eq_filter, List.filter_filter]
  refine List.filter_congr fun other _ => ?_
  by_cases same : other = number <;> simp [same]

theorem InStep.loop_itemsRound (inStep : catalog.InStep) {seen : List Nat} {entry : Entry}
    (member : entry ∈ catalog.library.entries) {rounds : Nat} (enough : (catalog.unseen seen).length < rounds) :
    loop catalog.itemsRound rounds (seen, entry.index) =
      some (catalog.library.packageItemsWithin (catalog.unseen seen) entry) := by
  induction rounds generalizing seen entry with
  | zero => exact absurd enough (Nat.not_lt_zero _)
  | succ rounds ih =>
    have present := Library.mem_entries_iff.mp member
    rw [loop, itemsRound, Library.packageItemsWithin]
    by_cases again : entry.index ∈ seen
    · have visited : entry.index ∉ catalog.unseen seen := fun fresh => (mem_unseen.mp fresh).2 again
      simp [again, visited]
    · have fresh : entry.index ∈ catalog.unseen seen := mem_unseen.mpr ⟨Library.index_lt member, again⟩
      have fewer := List.length_erase_of_mem fresh
      have some := List.length_pos_of_mem fresh
      simp only [List.contains_eq_mem, again, decide_false, Bool.false_eq_true, if_false, dif_pos fresh, present,
        Option.bind_eq_bind, Option.bind_some]
      cases contents : entry.unit.contents with
      | packageBody | entity | architecture | configuration | context => rfl
      | package generics declarations template =>
        cases template with
        | none => rfl
        | some template =>
          simp only [inStep.workUnit?_eq, Option.bind_some]
          cases found : catalog.library.workUnit? template.name with
          | none => rfl
          | some next =>
            obtain ⟨name, primary⟩ := Library.exists_primary?_of_workUnit? found
            rw [erase_unseen] at fewer ⊢
            exact ih (Library.of_primary? primary).1 (by omega)

theorem InStep.packageItems?_eq (inStep : catalog.InStep) {entry : Entry}
    (member : entry ∈ catalog.library.entries) :
    catalog.packageItems? entry.index = some (catalog.library.packageItems entry) := by
  have all : catalog.unseen [] = List.range catalog.library.size := by simp [unseen]
  have enough : (catalog.unseen []).length < catalog.library.size + 1 := by rw [all, List.length_range]; omega
  rw [packageItems?, inStep.loop_itemsRound member enough, all]
  rfl

/-! ## Use clauses -/

/-- A use clause that imports an item has a name for it. -/
theorem pathOf?_eq {clause : UseClause} {rest : List Identifier} (names : ¬(rest.isEmpty && !clause.all) = true) :
    pathOf? clause rest = some (if clause.all then rest else rest.dropLast) := by
  unfold pathOf?
  cases all : clause.all with
  | true => rfl
  | false =>
    have some : 1 ≤ rest.length := by
      cases rest with
      | nil => simp [all] at names
      | cons => exact Nat.le_add_left 1 _
    rw [if_neg Bool.false_ne_true, if_neg Bool.false_ne_true, subtract?_of_le some, List.dropLast_eq_take]
    exact slice?_zero (Nat.sub_le _ _)

theorem InStep.importFrom?_eq (inStep : catalog.InStep) (scope : Scope) (clause : UseClause)
    (key : Option ClauseKey) {entry : Entry} (member : entry ∈ catalog.library.entries) (name : Identifier)
    (rest : List Identifier) : catalog.importFrom? scope clause key entry.index name rest =
      some (scope.importFrom catalog.library clause key entry name rest) := by
  unfold importFrom? Scope.importFrom
  simp only [fetch_of_mem member, inStep.packageItems?_eq member, Option.bind_eq_bind, Option.bind_some]
  by_cases whole : (rest.isEmpty && !clause.all) = true
  · rw [if_pos whole, if_pos whole]
    rfl
  · rw [if_neg whole, if_neg whole, pathOf?_eq whole]
    split
    · rfl
    · simp only [Option.bind_some]
      cases Scope.nestedItems (catalog.library.packageItems entry) (if clause.all then rest else rest.dropLast) with
      | error step => rfl
      | ok items =>
        dsimp only
        split
        · rfl
        · split <;> rfl

theorem addPrimaryUnits?_eq (catalog : Catalog) (scope : Scope) :
    catalog.addPrimaryUnits? scope = some (scope.addPrimaryUnits catalog.library) := by
  have each (scope : Scope) (_ : True) : ∀ entry ∈ catalog.library.entries, (do
      let entry ← catalog.fetch entry.index
      return if entry.unit.isPrimary then scope.addPrefix entry.unit.name entry else scope) =
      some (if entry.unit.isPrimary then scope.addPrefix entry.unit.name entry else scope) ∧ True :=
    fun entry member => by simp [fetch_of_mem member]
  rw [addPrimaryUnits?, ← Library.map_index_entries, List.foldlM_map, (foldlM_eq_foldl _ each trivial).1,
    Scope.addPrimaryUnits, List.foldl_filter]

theorem trust?_eq (scope : Scope) (clause : UseClause) : trust? scope clause = some (scope.trust clause) := by
  have last : last? clause.name.parts = some clause.name.last := by
    rw [last?_eq, SelectedName.parts, List.getLast?_cons]
    rfl
  unfold trust? Scope.trust
  simp only [last]
  obtain ⟨⟨first, _ | ⟨name, _ | ⟨next, rest⟩⟩⟩, all, position⟩ := clause <;> cases all <;> rfl

theorem InStep.useWorking?_eq (inStep : catalog.InStep) (scope : Scope) (clause : UseClause)
    (key : Option ClauseKey) : catalog.useWorking? scope clause key =
      some (scope.useWorking catalog.library clause key clause.name.suffix) := by
  obtain ⟨⟨first, suffix⟩, all, position⟩ := clause
  cases suffix with
  | nil =>
    simp only [useWorking?, Scope.useWorking, SelectedName.parts, List.getElem?_cons_succ, List.getElem?_nil,
      addPrimaryUnits?_eq]
    cases all <;> rfl
  | cons name rest =>
    have cut : slice? (first :: name :: rest) 2 (first :: name :: rest).length = some rest :=
      slice?_length (Nat.le_add_left 2 _)
    simp only [useWorking?, Scope.useWorking, SelectedName.parts, List.getElem?_cons_succ, List.getElem?_cons_zero,
      inStep.primary?_eq, Option.bind_eq_bind, Option.bind_some]
    cases found : catalog.library.primary? name with
    | none => rfl
    | some entry =>
      simp only [cut, Option.bind_some]
      exact inStep.importFrom?_eq scope _ key (Library.of_primary? found).1 name rest

/-- A use clause is read by the places of its parts, and what its first part stands for is a unit. -/
theorem InStep.use?_eq (inStep : catalog.InStep) {recorded : List Dependency} {scope : Scope}
    (backed : scope.Backed catalog.library recorded) (clause : UseClause) (key : Option ClauseKey) :
    catalog.use? scope clause key = some (scope.use catalog.library clause key) := by
  simp only [use?, Scope.use, getElem?_parts_zero, slice?_parts_one, inStep.useWorking?_eq, trust?_eq,
    Option.bind_eq_bind, Option.bind_some]
  split
  · rfl
  · cases found : scope.prefixed? clause.name.first with
    | some entry =>
      have member := (Library.of_primary? (backed.prefixed found)).1
      simp only [Library.mem_entries_iff.mp member, Option.bind_some]
      exact inStep.importFrom?_eq scope clause key member entry.unit.name clause.name.suffix
    | none =>
      dsimp only
      split <;> rfl

/-! ## References to context declarations -/

theorem InStep.target?_eq (inStep : catalog.InStep) (context : Reference) :
    catalog.target? context = some (ContextItem.target? catalog.library context) := by
  obtain ⟨⟨first, suffix⟩, position⟩ := context
  unfold target? ContextItem.target?
  match suffix with
  | [] | _ :: _ :: _ => simp [SelectedName.parts]
  | [name] =>
    simp only [SelectedName.parts, List.getElem?_cons_zero, List.getElem?_cons_succ, Option.bind_eq_bind,
      Option.bind_some, inStep.primary?_eq]
    cases catalog.library.isWorking first <;> rfl

theorem InStep.provided?_eq (inStep : catalog.InStep) (item : ContextItem) :
    catalog.provided? item = some (item.provided? catalog.library) := by
  cases item with
  | library | use => rfl
  | reference context =>
    simp only [provided?, ContextItem.provided?, inStep.target?_eq, Option.bind_eq_bind, Option.bind_some]
    cases ContextItem.target? catalog.library context <;> rfl

theorem InStep.expandWithin?_eq (inStep : catalog.InStep) (unvisited : List Nat) (items : List ContextItem) :
    catalog.expandWithin? unvisited items = some (ContextItem.expandWithin catalog.library unvisited items) := by
  induction unvisited, items using ContextItem.expandWithin.induct catalog.library with
  | case1 unvisited => simp [expandWithin?, ContextItem.expandWithin]
  | case2 unvisited item rest index items provided fresh ih =>
    rw [expandWithin?, ContextItem.expandWithin]
    simp [inStep.provided?_eq, provided, fresh, ih]
  | case3 unvisited item rest index items provided visited ih =>
    rw [expandWithin?, ContextItem.expandWithin]
    simp [inStep.provided?_eq, provided, visited, ih]
  | case4 unvisited item rest nothing ih =>
    rw [expandWithin?, ContextItem.expandWithin]
    simp [inStep.provided?_eq, nothing, ih]

theorem InStep.referenceFindings?_eq (inStep : catalog.InStep) (scope : Scope) (context : Reference) :
    catalog.referenceFindings? scope context =
      some (ContextItem.referenceFindings catalog.library scope context) := by
  simp only [referenceFindings?, ContextItem.referenceFindings, getElem?_parts_zero, inStep.target?_eq,
    Option.bind_eq_bind, Option.bind_some]
  split
  · split <;> rfl
  · cases ContextItem.target? catalog.library context with
    | none => rfl
    | some entry =>
      dsimp only
      split <;> rfl

/-! ## Contexts -/

variable {recorded : List Dependency} {scope : Scope}

theorem InStep.applyItem?_eq (inStep : catalog.InStep) (backed : scope.Backed catalog.library recorded)
    (item : ContextItem) : catalog.applyItem? scope item = some (item.apply catalog.library scope) := by
  cases item with
  | library name => rfl
  | reference context => simp [applyItem?, ContextItem.apply, inStep.referenceFindings?_eq]
  | use clause key => exact inStep.use?_eq backed clause key

/-- Items one after the other: each of them finds the scope backed. -/
theorem InStep.applyItems?_eq (inStep : catalog.InStep) (backed : scope.Backed catalog.library recorded)
    (items : List ContextItem) :
    catalog.applyItems? scope items = some (ContextItem.applyAll catalog.library scope items) := by
  induction items generalizing scope recorded with
  | nil => rfl
  | cons item rest ih =>
    have next := ih (ContextItem.grounded_apply backed item).scope
    rw [applyItems?, inStep.applyItem?_eq backed]
    simp only [Option.bind_eq_bind, Option.bind_some, next]
    rfl

theorem InStep.enter?_eq (inStep : catalog.InStep) (backed : scope.Backed catalog.library recorded)
    (clause : ContextClause) (owner : Option Nat) :
    catalog.enter? scope clause owner = some (scope.enter catalog.library clause owner) := by
  rw [enter?, inStep.expandWithin?_eq]
  exact inStep.applyItems?_eq backed _

theorem InStep.ownerOf?_eq (inStep : catalog.InStep) (unit : DesignUnit) :
    catalog.ownerOf? unit = some (Resolution.ownerOf? catalog.library unit) := by
  unfold ownerOf? Resolution.ownerOf?
  simp only [inStep.primary?_eq]
  cases unit.contents <;> rfl

theorem InStep.enterOwner?_eq (inStep : catalog.InStep) (unit : DesignUnit) :
    catalog.enterOwner? unit = some (Resolution.enterOwner catalog.library unit) := by
  simp only [enterOwner?, Resolution.enterOwner, inStep.ownerOf?_eq, Option.bind_eq_bind, Option.bind_some]
  cases Resolution.ownerOf? catalog.library unit with
  | none => rfl
  | some owner =>
    dsimp only
    split
    · rfl
    · rw [inStep.enter?_eq (Scope.backed_start _ [])]
      rfl

theorem InStep.scopeOf?_eq (inStep : catalog.InStep) (entry : Entry) :
    catalog.scopeOf? entry = some (Resolution.scopeOf catalog.library entry) := by
  have backed := (Resolution.grounded_enterOwner catalog.library entry.unit).scope
  simp only [scopeOf?, Resolution.scopeOf, inStep.enterOwner?_eq, Option.bind_eq_bind, Option.bind_some,
    inStep.enter?_eq backed]
  rfl

end VhdlOrder.Catalog
