import VhdlOrder.Proofs.Visibility.Context

/-! # What looking up a name finds

The findings in the declarations of a unit are those of its references, each looked up among the
declarations that are visible where it stands. What a single look-up can find is said once, as a relation, and what
holds of all findings at references is shown for each of its cases. A reference whose leading name nothing nearer
hides, and which has a prefix that stands for a unit, either is an error or records a dependency on that unit.
-/

namespace VhdlOrder

namespace Lookup

/-- A reference and the declarations of the unit that are visible where it stands. -/
structure Site where
  visible : List Declaration
  reference : Reference

/-- The references of declarations, each of which sees `locals`, the declarations before it, itself, and
the literals or units that belong to it. -/
def sites (locals : List Declaration) : List Declaration → List Site
  | [] => []
  | declaration :: rest =>
      let own := rest.takeWhile fun next => next.kind.belongsToType
      declaration.references.map (Site.mk (locals ++ declaration :: own))
        ++ sites (locals ++ [declaration]) rest

/-- What is found at a site. -/
def atSite (library : Library) (scope : Scope) (unit : DesignUnit) (site : Site) : Findings :=
  find library scope unit site.visible site.reference

variable {library : Library} {scope : Scope} {unit : DesignUnit} {locals : List Declaration}
  {reference : Reference} {entry : Entry}

theorem project_findAll {α : Type} {project : Findings → List α} (additive : Findings.Additive project)
    (locals : List Declaration) (references : List Reference) :
    project (findAll library scope unit locals references) =
      (references.map (Site.mk locals)).flatMap fun site => project (atSite library scope unit site) := by
  rw [findAll, additive.flatten, List.flatMap_map, List.flatMap_map]
  rfl

/-- What is found in declarations, other than that clauses are of use, is found at their sites. -/
theorem project_declarations {α : Type} {project : Findings → List α} (additive : Findings.Additive project)
    (silent : ∀ keys, project (.ofUse keys) = []) (locals items : List Declaration) :
    project (declarations library scope unit locals items) =
      (sites locals items).flatMap fun site => project (atSite library scope unit site) := by
  induction items generalizing locals with
  | nil => exact additive.empty
  | cons declaration rest ih =>
    simp only [declarations, sites, additive.append, mentioned, silent, List.append_nil, List.flatMap_append, ih,
      project_findAll additive]

/-- Neither a visible declaration nor the unit nor the unit that it completes has the name. -/
structure Undeclared (unit : DesignUnit) (visible : List Declaration) (name : Identifier) : Prop where
  visible : Declaration.declares visible name = false
  own : unit.name.same name = false
  owner : unit.owner?.any name.same = false

/-- Nothing nearer than a library or a prefix has the name, also no import. -/
structure Unhidden (scope : Scope) (unit : DesignUnit) (visible : List Declaration) (name : Identifier) :
    Prop extends Undeclared unit visible name where
  selected : ∀ item ∈ scope.selected, item.name.same name = false
  foreign : scope.foreignNames.any name.same = false
  all : ∀ item ∈ scope.all, ∀ declaration ∈ item.items, declaration.name.same name = false

/-- The leading name of a reference as a prefix: it is the working library or a prefix in scope, and the
unit `entry` is what the names behind it are looked up in. -/
inductive Prefixed (library : Library) (scope : Scope) (reference : Reference) :
    Entry → List Identifier → Prop
  | working {entry : Entry} {name : Identifier} {rest : List Identifier} :
      library.isWorking reference.name.first = true → reference.name.suffix = name :: rest →
        library.primary? name = some entry → Prefixed library scope reference entry rest
  | unit {entry : Entry} :
      library.isWorking reference.name.first = false → reference.name.isExpanded = true →
        scope.prefixed? reference.name.first = some entry →
          Prefixed library scope reference entry reference.name.suffix

theorem candidates_eq_nil {name : Identifier} (none : ∀ item ∈ scope.selected, item.name.same name = false) :
    candidates scope name = [] := by
  apply List.filter_eq_nil_iff.mpr
  intro item member
  simp [none item member]

theorem providers_eq_nil {name : Identifier}
    (none : ∀ item ∈ scope.all, ∀ declaration ∈ item.items, declaration.name.same name = false) :
    providers scope name = [] := by
  apply List.filterMap_eq_nil_iff.mpr
  intro item member
  have nothing : (item.items.filter fun declaration => declaration.name.same name) = [] := by
    apply List.filter_eq_nil_iff.mpr
    intro declaration inside
    simp [none item member declaration inside]
  simp [provider?, nothing]

/-- A name that nothing nearer hides is looked up by its prefix. -/
theorem find_eq_expanded (unhidden : Unhidden scope unit locals reference.name.first) :
    find library scope unit locals reference = expanded library scope reference := by
  simp [find, imported, unhidden.visible, unhidden.own, unhidden.owner, unhidden.foreign,
    candidates_eq_nil unhidden.selected, providers_eq_nil unhidden.all]

/-! ## What can be found at a name -/

/-- What can be found at a name that nothing nearer than a prefix has: nothing, a dependency on the unit that the prefix
leads to, or an error. -/
inductive ExpandedOutcome (library : Library) (scope : Scope) (reference : Reference) : Findings → Prop
  | accepted : ExpandedOutcome library scope reference .empty
  | unit {entry : Entry} {rest : List Identifier} : Prefixed library scope reference entry rest →
      ExpandedOutcome library scope reference (.dependency entry .name reference.name.render reference.position)
  | notInUnit {entry : Entry} {item : Identifier} : ExpandedOutcome library scope reference
      (.error (.notInPackage item (.ofIdentifier entry.unit.name)) reference.position)
  | notInLibrary {name : Identifier} : ExpandedOutcome library scope reference
      (.error (.notInLibrary name library.name) reference.position)
  | undeclared : ExpandedOutcome library scope reference
      (.error (.undeclared reference.name.first) reference.position)

/-- What can be found at a name that the unit does not declare: what is found behind its prefix, or that its imports
are ambiguous. -/
inductive Outcome (library : Library) (scope : Scope) (reference : Reference) : Findings → Prop
  | expanded {found : Findings} : ExpandedOutcome library scope reference found →
      Outcome library scope reference found
  | ambiguous {origins : List Origin} : Outcome library scope reference
      (.error (.ambiguous reference.name.first origins) reference.position)

theorem expandedOutcome_inUnit {rest : List Identifier} (isPrefix : Prefixed library scope reference entry rest) :
    ExpandedOutcome library scope reference (inUnit library reference entry rest) := by
  unfold inUnit
  dsimp only
  split
  · split
    · exact .notInUnit
    · exact .unit isPrefix
  · exact .unit isPrefix

theorem expandedOutcome_predefined : ExpandedOutcome library scope reference (predefined scope reference) := by
  unfold predefined
  split
  · exact .accepted
  · exact .undeclared

theorem expandedOutcome_expanded : ExpandedOutcome library scope reference (expanded library scope reference) := by
  unfold expanded
  dsimp only
  split
  · exact expandedOutcome_predefined
  · rename_i isExpanded
    split
    · rename_i isWorking
      generalize names : reference.name.suffix = suffix
      unfold inWorking
      split
      · exact .accepted
      · split
        · exact expandedOutcome_inUnit (.working isWorking names ‹_›)
        · exact .notInLibrary
    · rename_i notWorking
      split
      · exact expandedOutcome_inUnit (.unit (by simpa using notWorking) (by simpa using isExpanded) ‹_›)
      · split
        · exact .accepted
        · exact expandedOutcome_predefined

theorem outcome_ambiguity (sources : List Nat) (items : List Declaration) (origins : List Origin) :
    Outcome library scope reference
      (ambiguity reference.name.first reference.position sources items origins) := by
  unfold ambiguity
  split
  · exact .ambiguous
  · exact .expanded .accepted

/-- What a look-up finds: nothing if the name is declared nearer; else the clauses that import the name are of use, and
there may be more. -/
theorem find_cases :
    (¬ Undeclared unit locals reference.name.first ∧ find library scope unit locals reference = .empty) ∨
      (Undeclared unit locals reference.name.first ∧ ∃ found, Outcome library scope reference found ∧
        find library scope unit locals reference =
          .ofUse ((candidates scope reference.name.first).filterMap SelectedImport.key) ++ found) := by
  unfold find
  dsimp only
  split
  · rename_i isVisible
    exact .inl ⟨fun undeclared => by simp [undeclared.visible] at isVisible, rfl⟩
  · rename_i notVisible
    split
    · rename_i isOwn
      exact .inl ⟨fun undeclared => by simp [undeclared.own, undeclared.owner] at isOwn, rfl⟩
    · rename_i notOwn
      rw [Bool.or_eq_true, not_or, Bool.not_eq_true, Bool.not_eq_true] at notOwn
      refine .inr ⟨⟨by simpa using notVisible, notOwn.1, notOwn.2⟩, ?_⟩
      unfold imported
      dsimp only
      split
      · rename_i item items selected
        rw [selected]
        exact ⟨_, outcome_ambiguity _ _ _, rfl⟩
      · rename_i notSelected
        rw [notSelected]
        split
        · exact ⟨_, .expanded .accepted, rfl⟩
        · split
          · exact ⟨_, outcome_ambiguity _ _ _, rfl⟩
          · exact ⟨_, .expanded expandedOutcome_expanded, rfl⟩

/-! ## Dependencies -/

theorem Prefixed.exists_primary? {recorded : List Dependency} (backed : scope.Backed library recorded)
    {rest : List Identifier} (isPrefix : Prefixed library scope reference entry rest) :
    ∃ name, library.primary? name = some entry := by
  cases isPrefix with
  | working _ _ found => exact ⟨_, found⟩
  | unit _ _ found => exact ⟨_, backed.prefixed found⟩

theorem Outcome.rooted {recorded : List Dependency} (backed : scope.Backed library recorded) {found : Findings}
    (outcome : Outcome library scope reference found) : found.Rooted library := by
  rcases outcome with (_ | isPrefix | _ | _ | _) | _
  case unit =>
    obtain ⟨name, primary⟩ := isPrefix.exists_primary? backed
    exact .dependency primary _ _ _
  all_goals exact .of_eq_nil rfl

/-- A look-up finds dependencies on primary units only. -/
theorem rooted_find {recorded : List Dependency} (backed : scope.Backed library recorded) :
    (find library scope unit locals reference).Rooted library := by
  obtain ⟨-, same⟩ | ⟨-, found, outcome, same⟩ := @find_cases library scope unit locals reference
  · exact same ▸ .of_eq_nil rfl
  · exact same ▸ .append (.of_eq_nil rfl) (outcome.rooted backed)

/-- What is found behind a unit is an error or a dependency on it. -/
theorem dependencies_inUnit {rest : List Identifier}
    (resolved : (inUnit library reference entry rest).problems = []) :
    (inUnit library reference entry rest).dependencies =
      [⟨entry.index, .name, reference.name.render, reference.position⟩] := by
  unfold inUnit at resolved ⊢
  dsimp only at resolved ⊢
  split at resolved
  · split at resolved
    · simp at resolved
    · rename_i accepted
      rw [if_neg accepted]
      rfl
  · rfl

theorem expanded_eq_inUnit {rest : List Identifier} (isPrefix : Prefixed library scope reference entry rest) :
    expanded library scope reference = inUnit library reference entry rest := by
  cases isPrefix with
  | working isLibrary names found =>
    simp [expanded, inWorking, SelectedName.isExpanded, isLibrary, names, found]
  | unit noLibrary isExpanded found =>
    simp [expanded, noLibrary, isExpanded, found]

/-- A resolved name with a prefix records a dependency on the unit that the prefix leads to. -/
theorem exists_dependency_of_prefixed {rest : List Identifier}
    (unhidden : Unhidden scope unit locals reference.name.first)
    (isPrefix : Prefixed library scope reference entry rest)
    (resolved : (find library scope unit locals reference).problems = []) :
    ∃ dependency ∈ (find library scope unit locals reference).dependencies,
      dependency.unit = entry.index := by
  rw [find_eq_expanded unhidden, expanded_eq_inUnit isPrefix] at resolved ⊢
  rw [dependencies_inUnit resolved]
  exact ⟨_, List.mem_cons_self, rfl⟩

/-- The items of the name. -/
def named (name : Identifier) (items : List Declaration) : List Declaration :=
  items.filter fun declaration => declaration.name.same name

/-- The name at a site denotes `declarations`, which the unit `source` supplies: they are imported by name
or together with all items of a package, or the name has a prefix that stands for the unit. Imports count
only for names that are not declared in the unit, prefixes only for names that nothing hides. -/
inductive Denotes (library : Library) (scope : Scope) (unit : DesignUnit) (site : Site) :
    Entry → List Declaration → Prop
  | selected {item : SelectedImport} :
      Undeclared unit site.visible site.reference.name.first → item ∈ scope.selected →
        item.name.same site.reference.name.first = true →
          Denotes library scope unit site item.source item.declarations
  | all {item : AllImport} :
      Undeclared unit site.visible site.reference.name.first →
        candidates scope site.reference.name.first ≠ [] ∨
            scope.foreignNames.any site.reference.name.first.same = false →
          item ∈ scope.all → named site.reference.name.first item.items ≠ [] →
            Denotes library scope unit site item.source (named site.reference.name.first item.items)
  | prefixed {entry : Entry} {rest : List Identifier} :
      Unhidden scope unit site.visible site.reference.name.first →
        Prefixed library scope site.reference entry rest →
          Denotes library scope unit site entry
            ((rest.head?.map fun name => named name (library.packageItems entry)).getD [])

/-- What a resolved name denotes is supplied by a unit that the context or the name itself records a
dependency on. -/
theorem Denotes.supplied {recorded : List Dependency} (backed : scope.Backed library recorded)
    {site : Site} {source : Entry} {items : List Declaration}
    (denotes : Denotes library scope unit site source items)
    (resolved : (atSite library scope unit site).problems = []) :
    Supplied library (recorded ++ (atSite library scope unit site).dependencies) source items := by
  cases denotes with
  | selected _ member _ => exact (backed.selected _ member).mono
  | all _ _ member _ =>
    have whole := backed.all _ member
    exact Supplied.mono ⟨whole.recorded, whole.member,
      fun declaration named => whole.within declaration (List.mem_filter.mp named).1⟩
  | @prefixed entry rest unhidden isPrefix =>
    obtain ⟨dependency, found, same⟩ := exists_dependency_of_prefixed unhidden isPrefix resolved
    obtain ⟨name, primary⟩ := isPrefix.exists_primary? backed
    refine ⟨⟨dependency, List.mem_append_right _ found, same⟩, (Library.of_primary? primary).1, ?_⟩
    intro declaration named
    cases head : rest.head? with
    | none => simp [head] at named
    | some item =>
      simp only [head, Option.map_some, Option.getD_some] at named
      exact .here (List.mem_filter.mp named).1

end Lookup

end VhdlOrder
