import VhdlOrder.Proofs.Visibility.Findings
import VhdlOrder.Proofs.Visibility.Instance
import VhdlOrder.Proofs.Visibility.UseClause

/-! # What a scope rests on

A scope is backed by the dependencies recorded so far: a prefix stands for the primary unit of its name,
and every import is from a package that one of the dependencies names and supplies what the package makes
available. A use clause adds to the scope and records what it adds to the dependencies, so it keeps the
scope backed; the dependencies that it records are on primary units.
-/

namespace VhdlOrder

/-- `declarations` are supplied by the package `source`, and a dependency on it is recorded. -/
structure Supplied (library : Library) (recorded : List Dependency) (source : Entry)
    (declarations : List Declaration) : Prop where
  recorded : ∃ dependency ∈ recorded, dependency.unit = source.index
  member : source ∈ library.entries
  within : ∀ declaration ∈ declarations,
    Declaration.Within (library.packageItems source) declaration

theorem Supplied.mono {library : Library} {recorded more : List Dependency} {source : Entry}
    {declarations : List Declaration} (supplied : Supplied library recorded source declarations) :
    Supplied library (recorded ++ more) source declarations := by
  obtain ⟨⟨dependency, present, same⟩, member, within⟩ := supplied
  exact ⟨⟨dependency, List.mem_append_left _ present, same⟩, member, within⟩

namespace Scope

/-- Prefixes stand for the primary units of their names, and imports are from packages that the recorded
dependencies name. -/
structure Backed (library : Library) (recorded : List Dependency) (scope : Scope) : Prop where
  prefixed : ∀ {name entry}, scope.prefixed? name = some entry → library.primary? name = some entry
  selected : ∀ item ∈ scope.selected, Supplied library recorded item.source item.declarations
  all : ∀ item ∈ scope.all, Supplied library recorded item.source item.items

/-- The scope that comes out is backed by what was recorded before and by what is found, and what is found
are dependencies on primary units. -/
structure Grounded (library : Library) (recorded : List Dependency) (result : Scope × Findings) : Prop where
  scope : result.1.Backed library (recorded ++ result.2.dependencies)
  findings : result.2.Rooted library

variable {library : Library} {recorded more : List Dependency} {scope : Scope}

/-- Findings one after the other: the second part builds on what the first one has recorded. -/
theorem Grounded.after {first : Findings} {result : Scope × Findings} (rooted : first.Rooted library)
    (next : Grounded library (recorded ++ first.dependencies) result) :
    Grounded library recorded (result.1, first ++ result.2) := by
  refine ⟨?_, rooted.append next.findings⟩
  rw [Findings.dependencies_append, ← List.append_assoc]
  exact next.scope

theorem backed_start (library : Library) (recorded : List Dependency) :
    start.Backed library recorded := by
  constructor
  · intro name entry found
    simp [start, prefixed?] at found
  · intro item member
    exact absurd member List.not_mem_nil
  · intro item member
    exact absurd member List.not_mem_nil

/-- The prefixes for all primary units. -/
def primaryPrefixes (library : Library) : List (Identifier × Entry) :=
  (library.entries.filter fun entry => entry.unit.isPrimary).map fun entry => (entry.unit.name, entry)

theorem find?_primaryPrefixes (name : Identifier) :
    ((primaryPrefixes library).find? fun entry => entry.1.same name).map Prod.snd = library.primary? name := by
  rw [primaryPrefixes, List.find?_map, Option.map_map, List.find?_filter]
  simp [Library.primary?, Function.comp_def]

theorem addPrimaryUnits_eq (library : Library) (scope : Scope) :
    Scope.addPrimaryUnits library scope = { scope with prefixes := scope.prefixes ++ primaryPrefixes library } := by
  have each (entries : List Entry) (scope : Scope) :
      entries.foldl (fun scope entry => Scope.addPrefix scope entry.unit.name entry) scope =
        { scope with prefixes := scope.prefixes ++ entries.map fun entry => (entry.unit.name, entry) } := by
    induction entries generalizing scope with
    | nil => simp
    | cons entry rest ih =>
      rw [List.foldl_cons, ih]
      simp [Scope.addPrefix]
  exact each _ scope

namespace Backed

theorem mono (backed : scope.Backed library recorded) : scope.Backed library (recorded ++ more) :=
  ⟨backed.prefixed, fun item member => (backed.selected item member).mono,
    fun item member => (backed.all item member).mono⟩

/-- Findings without a change of the scope. -/
theorem grounded (backed : scope.Backed library recorded) {found : Findings}
    (rooted : found.Rooted library) : Grounded library recorded (scope, found) :=
  ⟨backed.mono, rooted⟩

theorem grounded_error (backed : scope.Backed library recorded) (problem : Problem) (position : Position) :
    Grounded library recorded (scope, .error problem position) :=
  backed.grounded (.of_eq_nil (Findings.dependencies_error problem position))

theorem grounded_empty (backed : scope.Backed library recorded) :
    Grounded library recorded (scope, .empty) :=
  backed.grounded (.of_eq_nil Findings.dependencies_empty)

theorem addLibrary (backed : scope.Backed library recorded) (name : Identifier) :
    (scope.addLibrary name).Backed library recorded :=
  ⟨backed.prefixed, backed.selected, backed.all⟩

/-- Further prefixes are looked at only where the earlier ones do not have the name. -/
theorem prefixed?_append (prefixes : List (Identifier × Entry)) (name : Identifier) :
    Scope.prefixed? { scope with prefixes := scope.prefixes ++ prefixes } name =
      (scope.prefixed? name).or ((prefixes.find? fun entry => entry.1.same name).map Prod.snd) := by
  simp only [prefixed?, List.find?_append]
  cases scope.prefixes.find? fun entry => entry.1.same name <;> rfl

theorem addPrefixes (backed : scope.Backed library recorded) {prefixes : List (Identifier × Entry)}
    (primary : ∀ {name entry}, (prefixes.find? fun entry => entry.1.same name).map Prod.snd = some entry →
      library.primary? name = some entry) :
    Backed library recorded { scope with prefixes := scope.prefixes ++ prefixes } := by
  refine ⟨?_, backed.selected, backed.all⟩
  intro name entry found
  rw [prefixed?_append, Option.or_eq_some_iff] at found
  rcases found with old | ⟨-, new⟩
  · exact backed.prefixed old
  · exact primary new

theorem addPrefix (backed : scope.Backed library recorded) {name : Identifier} {entry : Entry}
    (found : library.primary? name = some entry) : (scope.addPrefix name entry).Backed library recorded := by
  apply backed.addPrefixes
  intro other target isTarget
  by_cases same : name.same other = true
  · simp only [List.find?_cons, same, Option.map_some, Option.some.injEq] at isTarget
    rw [← Library.primary?_congr same, found, isTarget]
  · simp [same] at isTarget

theorem addSelected (backed : scope.Backed library recorded) {item : SelectedImport}
    (supplied : Supplied library recorded item.source item.declarations) :
    (scope.addSelected item).Backed library recorded := by
  refine ⟨backed.prefixed, ?_, backed.all⟩
  intro other member
  rcases List.mem_append.mp member with old | new
  · exact backed.selected other old
  · exact List.mem_singleton.mp new ▸ supplied

theorem addAll (backed : scope.Backed library recorded) {item : AllImport}
    (supplied : Supplied library recorded item.source item.items) :
    (scope.addAll item).Backed library recorded := by
  refine ⟨backed.prefixed, backed.selected, ?_⟩
  intro other member
  rcases List.mem_append.mp member with old | new
  · exact backed.all other old
  · exact List.mem_singleton.mp new ▸ supplied

theorem trust (backed : scope.Backed library recorded) (clause : UseClause) :
    (scope.trust clause).Backed library recorded := by
  unfold Scope.trust
  split
  · exact backed
  all_goals exact ⟨backed.prefixed, backed.selected, backed.all⟩

theorem addPrimaryUnits (backed : scope.Backed library recorded) :
    (addPrimaryUnits library scope).Backed library recorded := by
  rw [addPrimaryUnits_eq]
  apply backed.addPrefixes
  intro name entry found
  rwa [find?_primaryPrefixes] at found

end Backed

/-- What nested packages hold stands inside the items that they are nested in. -/
theorem within_of_nestedItems {items nested : List Declaration} {path : List Identifier}
    (found : nestedItems items path = .ok nested) {declaration : Declaration}
    (member : declaration ∈ nested) : Declaration.Within items declaration := by
  induction path generalizing items with
  | nil =>
    obtain rfl := Except.ok.inj found
    exact .here member
  | cons step rest ih =>
    unfold nestedItems at found
    split at found
    · rename_i outer isOuter
      exact .inside (List.mem_of_find?_eq_some isOuter) (ih found)
    · contradiction

/-- A use clause that names a primary unit of the library records a dependency on it before the scope
grows. -/
theorem ImportOutcome.grounded {name : Identifier} {entry : Entry} {clause : UseClause} {key : Option ClauseKey}
    {result : Scope × Findings} (outcome : ImportOutcome library scope clause key entry name result)
    (backed : scope.Backed library recorded) (found : library.primary? name = some entry) :
    Grounded library recorded result := by
  have depend := Findings.Rooted.dependency found .use clause.render clause.position
  have supplied {path : List Identifier} {items chosen : List Declaration}
      (nested : nestedItems (library.packageItems entry) path = .ok items)
      (part : ∀ declaration ∈ chosen, declaration ∈ items) :
      Supplied library (recorded ++ [⟨entry.index, .use, clause.render, clause.position⟩]) entry chosen :=
    ⟨⟨_, List.mem_append_right _ List.mem_cons_self, rfl⟩, (Library.of_primary? found).1,
      fun declaration member => within_of_nestedItems nested (part declaration member)⟩
  cases outcome with
  | unit => exact ⟨backed.mono.addPrefix found, depend⟩
  | notPackage => exact backed.grounded_error _ _
  | noPackage => exact backed.grounded (depend.append (.of_eq_nil rfl))
  | noItem => exact backed.grounded (depend.append (.of_eq_nil rfl))
  | all nested => exact ⟨backed.mono.addAll (supplied nested fun _ member => member), depend⟩
  | item _ nested =>
    refine ⟨?_, depend.append (.of_eq_nil rfl)⟩
    simp only [Findings.dependencies_append, Findings.dependencies_dependency, Findings.dependencies_watched,
      List.append_nil]
    exact backed.mono.addSelected (supplied nested fun _ member => (List.mem_filter.mp member).1)

/-- Every use clause keeps the scope backed. -/
theorem Backed.use (backed : scope.Backed library recorded) (clause : UseClause)
    (key : Option ClauseKey) : Grounded library recorded (Scope.use library scope clause key) := by
  have outcome := useOutcome_use library scope clause key
  generalize Scope.use library scope clause key = result at outcome ⊢
  cases outcome with
  | nothing => exact backed.grounded_empty
  | units => exact backed.addPrimaryUnits.grounded_empty
  | missing => exact backed.grounded_error _ _
  | working _ found imports => exact imports.grounded backed found
  | prefixed _ found imports => exact imports.grounded backed (Library.primary?_own_name (backed.prefixed found))
  | trusted => exact (backed.trust clause).grounded_empty
  | undeclared => exact backed.grounded_error _ _

end Scope

end VhdlOrder
