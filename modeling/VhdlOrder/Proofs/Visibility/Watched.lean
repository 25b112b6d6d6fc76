import VhdlOrder.Proofs.Visibility.Clauses
import VhdlOrder.Proofs.Visibility.Context

/-! # Imports that are watched

A scope knows of each item that is imported by name which use clause imports it, if that clause is watched.
Contexts only add items to a scope, and the watched imports that are found with a context are those of the
items that it adds. So the watched imports among the findings of a unit are those of the items in its scope,
and each of them stands for a use clause of the unit itself or of the one that it completes.
-/

namespace VhdlOrder

/-- The use clause that a key stands for. -/
def Library.useClause? (library : Library) (key : ClauseKey) : Option UseClause :=
  (library.unit? key.owner).bind fun unit => unit.context.uses[key.number]?

/-- The watched import of a use clause. -/
def UseClause.watch (clause : UseClause) (key : ClauseKey) : WatchedImport := ⟨key, clause.name, clause.position⟩

/-- The watched import of an item, if its use clause is watched. -/
def SelectedImport.watch? (library : Library) (item : SelectedImport) : Option WatchedImport :=
  item.key.bind fun key => (library.useClause? key).map fun clause => clause.watch key

variable {library : Library} {scope : Scope} {clause : UseClause} {key : Option ClauseKey}

namespace Scope

theorem selected_addPrimaryUnits : (addPrimaryUnits library scope).selected = scope.selected := by
  have each (entries : List Entry) (scope : Scope) :
      (entries.foldl (fun scope entry => addPrefix scope entry.unit.name entry) scope).selected = scope.selected := by
    induction entries generalizing scope with
    | nil => rfl
    | cons entry rest ih => exact ih _
  exact each _ scope

/-- What a use clause does to the items imported by name: nothing, or it adds the item that it names, and that
is watched if the clause is. -/
inductive Imports (scope : Scope) (clause : UseClause) (key : Option ClauseKey) (result : Scope × Findings) : Prop
  | nothing : result.1.selected = scope.selected → result.2.imports = [] → result.2.used = [] →
      Imports scope clause key result
  | item (source : Entry) (declarations : List Declaration) : clause.all = false →
      result.1.selected = scope.selected ++ [⟨clause.name.last, source, declarations, key⟩] →
        result.2.imports = (key.map clause.watch).toList → result.2.used = [] → Imports scope clause key result

theorem ImportOutcome.imports {entry : Entry} {name : Identifier} {result : Scope × Findings}
    (outcome : ImportOutcome library scope clause key entry name result) : Imports scope clause key result := by
  cases outcome with
  | unit | notPackage | noPackage | noItem | all => exact .nothing rfl rfl rfl
  | item notAll => exact .item entry _ notAll rfl rfl rfl

theorem imports_use : Imports scope clause key (scope.use library clause key) := by
  have trusted : (scope.trust clause).selected = scope.selected := by
    unfold trust
    split <;> rfl
  have outcome := useOutcome_use library scope clause key
  generalize scope.use library clause key = result at outcome ⊢
  cases outcome with
  | nothing | missing | undeclared => exact .nothing rfl rfl rfl
  | units => exact .nothing selected_addPrimaryUnits rfl rfl
  | working _ _ imports => exact imports.imports
  | prefixed _ _ imports => exact imports.imports
  | trusted => exact .nothing trusted rfl rfl

/-- The item is imported by the use clause of its key, which is one of those in `watches`. -/
def Keyed (library : Library) (watches : Nat → Prop) (item : SelectedImport) : Prop :=
  ∀ key ∈ item.key, watches key.owner ∧
    ∃ clause, library.useClause? key = some clause ∧ clause.all = false ∧ item.name = clause.name.last

/-- Items are added to those imported by name; the watched imports found are theirs, and each of them is of
a unit in `watches`. -/
structure Grows (library : Library) (watches : Nat → Prop) (scope : Scope) (result : Scope × Findings) : Prop where
  selected : ∃ added, result.1.selected = scope.selected ++ added ∧
    result.2.imports = added.filterMap (SelectedImport.watch? library) ∧ ∀ item ∈ added, Keyed library watches item
  used : result.2.used = []

variable {watches : Nat → Prop}

theorem Grows.of_eq {scope' : Scope} {found : Findings} (selected : scope'.selected = scope.selected)
    (imports : found.imports = []) (used : found.used = []) : Grows library watches scope (scope', found) :=
  ⟨⟨[], by rw [selected, List.append_nil], imports, List.forall_mem_nil _⟩, used⟩

/-- One part of a context behind the other. -/
theorem Grows.append {first second : Scope × Findings} (left : Grows library watches scope first)
    (right : Grows library watches first.1 second) :
    Grows library watches scope (second.1, first.2 ++ second.2) := by
  obtain ⟨added, items, imports, keyed⟩ := left.selected
  obtain ⟨more, items', imports', keyed'⟩ := right.selected
  refine ⟨⟨added ++ more, ?_, ?_, List.forall_mem_append.mpr ⟨keyed, keyed'⟩⟩, ?_⟩
  · rw [items', items, List.append_assoc]
  · rw [Findings.imports_append, imports, imports', List.filterMap_append]
  · rw [Findings.used_append, left.used, right.used, List.append_nil]

theorem Grows.mono {more : Nat → Prop} {result : Scope × Findings} (grows : Grows library watches scope result)
    (weaker : ∀ owner, watches owner → more owner) : Grows library more scope result := by
  obtain ⟨added, items, imports, keyed⟩ := grows.selected
  refine ⟨⟨added, items, imports, fun item member key isKey => ?_⟩, grows.used⟩
  obtain ⟨watched, clause⟩ := keyed item member key isKey
  exact ⟨weaker _ watched, clause⟩

theorem Grows.use (watched : ∀ index ∈ key, watches index.owner ∧ library.useClause? index = some clause) :
    Grows library watches scope (scope.use library clause key) := by
  have imported : Imports scope clause key (scope.use library clause key) := imports_use
  cases imported with
  | nothing selected imports used => exact .of_eq selected imports used
  | item source declarations notAll selected imports used =>
    refine ⟨⟨_, selected, ?_, List.forall_mem_singleton.mpr fun index isKey => ?_⟩, used⟩
    · rw [imports]
      cases key with
      | none => rfl
      | some index => simp [SelectedImport.watch?, (watched index rfl).2]
    · obtain ⟨isWatched, isClause⟩ := watched index isKey
      exact ⟨isWatched, clause, isClause, notAll, rfl⟩

end Scope

namespace ContextItem

variable {watches : Nat → Prop}

/-- If the item is a watched use clause, its key stands for that clause in a unit in `watches`. -/
def IsWatched (library : Library) (watches : Nat → Prop) : ContextItem → Prop
  | .use clause key => ∀ index ∈ key, watches index.owner ∧ library.useClause? index = some clause
  | _ => True

theorem grows_apply {item : ContextItem} (watched : item.IsWatched library watches) :
    scope.Grows library watches (item.apply library scope) := by
  cases item with
  | library name => exact .of_eq rfl rfl rfl
  | use clause key => exact .use watched
  | reference context =>
    have remark : (referenceFindings library scope context).Remark context.position := remark_referenceFindings context
    exact .of_eq rfl remark.imports_eq_nil remark.used_eq_nil

theorem grows_applyAll {items : List ContextItem} (watched : ∀ item ∈ items, item.IsWatched library watches) :
    scope.Grows library watches (applyAll library scope items) := by
  induction items generalizing scope with
  | nil => exact .of_eq rfl rfl rfl
  | cons item rest ih =>
    obtain ⟨here, behind⟩ := List.forall_mem_cons.mp watched
    exact (grows_apply here).append (ih behind)

end ContextItem

/-- A context clause adds items that are watched if it belongs to the unit `owner`. -/
theorem Scope.Grows.enter {clause : ContextClause} {owner : Option Nat}
    (belongs : ∀ index ∈ owner, (library.unit? index).map DesignUnit.context = some clause) :
    scope.Grows library (· ∈ owner) (scope.enter library clause owner) := by
  refine ContextItem.grows_applyAll (ContextItem.forall_mem_expand ?_ ?_)
  · intro item member
    obtain ⟨name, -, rfl⟩ | ⟨context, -, rfl⟩ | ⟨number, use, present, rfl⟩ :=
      ContextItem.mem_ofClause_iff.mp member
    · trivial
    · trivial
    · rintro key isKey
      obtain ⟨index, isOwner, rfl⟩ := Option.map_eq_some_iff.mp isKey
      obtain ⟨unit, isUnit, rfl⟩ := Option.map_eq_some_iff.mp (belongs index isOwner)
      exact ⟨isOwner, by simp [Library.useClause?, isUnit, present]⟩
  · rintro item index more - provided other member
    obtain ⟨context, target, clause, -, -, -, rfl⟩ := ContextItem.exists_of_provided? provided
    obtain ⟨name, -, rfl⟩ | ⟨context, -, rfl⟩ | ⟨number, use, -, rfl⟩ := ContextItem.mem_ofClause_iff.mp member
    · trivial
    · trivial
    · rintro key ⟨⟩

/-- A context clause that belongs to no unit adds items that are not watched. -/
theorem Scope.Grows.enter_unwatched (clause : ContextClause) :
    scope.Grows library (fun _ => False) (scope.enter library clause none) :=
  (Scope.Grows.enter (by rintro index ⟨⟩)).mono (by rintro index ⟨⟩)

theorem Scope.Grows.watches_of_mem_imports {watches : Nat → Prop} {result : Scope × Findings}
    (grows : scope.Grows library watches result) {item : WatchedImport} (member : item ∈ result.2.imports) :
    watches item.key.owner := by
  obtain ⟨added, -, imports, keyed⟩ := grows.selected
  rw [imports] at member
  obtain ⟨selected, isAdded, watched⟩ := List.mem_filterMap.mp member
  obtain ⟨key, isKey, isWatch⟩ := Option.bind_eq_some_iff.mp watched
  obtain ⟨clause, -, rfl⟩ := Option.map_eq_some_iff.mp isWatch
  exact (keyed selected isAdded key isKey).1

theorem Scope.Grows.imports_eq_nil {watches : Nat → Prop} {result : Scope × Findings}
    (grows : scope.Grows library watches result) (unwatched : ∀ index, ¬ watches index) : result.2.imports = [] :=
  List.eq_nil_iff_forall_not_mem.mpr fun _ member => unwatched _ (grows.watches_of_mem_imports member)

namespace Resolution

variable {entry owner : Entry}

/-- The use clauses of the unit with the number `index` are watched when `entry` is resolved: they are its
own, and it is a package or a package body, or they are those of the unit that it completes. -/
def Watches (library : Library) (entry : Entry) (index : Nat) : Prop :=
  (watchesContext entry.unit = true ∧ index = entry.index) ∨
    ∃ owner, ownerOf? library entry.unit = some owner ∧ entry.unit.kind ≠ .configuration ∧ index = owner.index

theorem context_of_mem (member : entry ∈ library.entries) :
    (library.unit? entry.index).map DesignUnit.context = some entry.unit.context := by
  rw [Library.mem_entries_iff.mp member]
  rfl

theorem mem_of_ownerOf? {unit : DesignUnit} (found : ownerOf? library unit = some owner) :
    owner ∈ library.entries := by
  obtain ⟨name, primary⟩ := exists_primary?_of_ownerOf? found
  exact (Library.of_primary? primary).1

theorem grows_enterOwner : Scope.start.Grows library (Watches library entry) (enterOwner library entry.unit) := by
  have entered := entered_enterOwner library entry.unit
  generalize enterOwner library entry.unit = result at entered
  cases entered with
  | alone none => exact .of_eq rfl rfl rfl
  | configuration found isConfiguration => exact .of_eq rfl rfl rfl
  | @owner owner via found notConfiguration =>
    have depend : Scope.start.Grows library (Watches library entry)
        (.start, .dependency owner .primary via entry.unit.position) := .of_eq rfl rfl rfl
    have belongs : ∀ index ∈ some owner.index,
        (library.unit? index).map DesignUnit.context = some owner.unit.context := by
      rintro index ⟨⟩
      exact context_of_mem (mem_of_ownerOf? found)
    refine depend.append ((Scope.Grows.enter belongs).mono ?_)
    rintro index ⟨⟩
    exact .inr ⟨owner, found, notConfiguration, rfl⟩

theorem eq_of_mem_watcher? {index : Nat} (isOwner : index ∈ watcher? entry) :
    watchesContext entry.unit = true ∧ index = entry.index := by
  unfold watcher? at isOwner
  split at isOwner
  · rename_i watched
    cases isOwner
    exact ⟨watched, rfl⟩
  · cases isOwner

/-- The context clause of a unit adds items that are watched as its own. -/
theorem grows_own (member : entry ∈ library.entries) (scope : Scope) :
    scope.Grows library (fun index => watchesContext entry.unit = true ∧ index = entry.index)
      (scope.enter library entry.unit.context (watcher? entry)) := by
  refine (Scope.Grows.enter fun index isOwner => ?_).mono fun index isOwner => eq_of_mem_watcher? isOwner
  rw [(eq_of_mem_watcher? isOwner).2]
  exact context_of_mem member

/-- The items that the context of a unit imports by name, and the watched imports among them. -/
theorem grows_scopeOf (member : entry ∈ library.entries) :
    Scope.start.Grows library (Watches library entry) (scopeOf library entry) := by
  rw [scopeOf_eq]
  exact grows_enterOwner.append ((grows_own member _).mono fun index own => .inl own)

/-- A unit that completes or configures another one is a body of a package, or an architecture or a configuration
of an entity. -/
theorem kind_of_ownerOf? {unit : DesignUnit} (found : ownerOf? library unit = some owner) :
    (unit.kind = .packageBody ∧ owner.unit.kind = .package) ∨
      ((unit.kind = .architecture ∨ unit.kind = .configuration) ∧ owner.unit.kind = .entity) := by
  unfold ownerOf? at found
  split at found
  · rename_i contents
    exact .inl ⟨by simp [DesignUnit.kind, contents], by simpa [Entry.isPackage] using (Library.of_package? found).2⟩
  · rename_i contents
    exact .inr ⟨.inl (by simp [DesignUnit.kind, contents]),
      by simpa [Entry.isEntity] using (Option.filter_eq_some_iff.mp found).2⟩
  · rename_i contents
    exact .inr ⟨.inr (by simp [DesignUnit.kind, contents]),
      by simpa [Entry.isEntity] using (Option.filter_eq_some_iff.mp found).2⟩
  · contradiction

theorem kind_of_watchesContext {unit : DesignUnit} (watched : watchesContext unit = true) :
    unit.kind = .package ∨ unit.kind = .packageBody := by
  simpa [watchesContext] using watched

/-- The use clauses of a unit are watched for the unit itself, or for one that completes it. -/
theorem Watches.eq_or_ownerOf? {reader : Entry} (watches : Watches library reader entry.index)
    (member : entry ∈ library.entries) (reader_mem : reader ∈ library.entries) :
    (reader = entry ∧ watchesContext entry.unit = true) ∨
      (ownerOf? library reader.unit = some entry ∧ reader.unit.kind ≠ .configuration) := by
  rcases watches with ⟨watched, same⟩ | ⟨owner, found, notConfiguration, same⟩
  · obtain rfl := Library.eq_of_index_eq member reader_mem same
    exact .inl ⟨rfl, watched⟩
  · obtain rfl := Library.eq_of_index_eq member (mem_of_ownerOf? found) same
    exact .inr ⟨found, notConfiguration⟩

/-! ## Bodies see what their packages see -/

/-- The scope of a body begins with the whole scope of its package. -/
theorem enterOwner_fst_of_body {body : Entry} (found : ownerOf? library body.unit = some entry)
    (isPackage : entry.unit.kind = .package) : (enterOwner library body.unit).1 = (scopeOf library entry).1 := by
  have isBody : body.unit.kind = .packageBody := by
    rcases kind_of_ownerOf? found with ⟨isBody, -⟩ | ⟨-, isEntity⟩
    · exact isBody
    · rw [isPackage] at isEntity
      cases isEntity
  have alone : ownerOf? library entry.unit = none := by
    cases owned : ownerOf? library entry.unit with
    | none => rfl
    | some other =>
      have kinds := kind_of_ownerOf? owned
      simp [isPackage] at kinds
  simp [scopeOf_eq, enterOwner, found, alone, isBody, watcher?, watchesContext, isPackage]

/-- What a package imports by name, its bodies import too; and what a body imports by clauses of its package is
imported by the package. -/
theorem mem_selected_iff_of_body {body : Entry} (member : body ∈ library.entries)
    (found : ownerOf? library body.unit = some entry) (isPackage : entry.unit.kind = .package)
    {item : SelectedImport} {key : ClauseKey} (isKey : item.key = some key) (owned : key.owner = entry.index) :
    item ∈ (scopeOf library body).1.selected ↔ item ∈ (scopeOf library entry).1.selected := by
  obtain ⟨added, grown, -, keyed⟩ := (grows_own member (enterOwner library body.unit).1).selected
  have whole : (scopeOf library body).1.selected = (scopeOf library entry).1.selected ++ added := by
    rw [← enterOwner_fst_of_body found isPackage, ← grown, scopeOf_eq]
  rw [whole, List.mem_append]
  refine ⟨fun either => either.resolve_right fun isAdded => ?_, .inl⟩
  -- an item that the body adds has the number of the body
  obtain ⟨⟨-, own⟩, -⟩ := keyed item isAdded key isKey
  obtain rfl := Library.eq_of_index_eq member (mem_of_ownerOf? found) (own.symm.trans owned)
  have kinds := kind_of_ownerOf? found
  simp [isPackage] at kinds

end Resolution

end VhdlOrder
