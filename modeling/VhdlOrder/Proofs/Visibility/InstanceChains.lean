import VhdlOrder.Proofs.Library.History
import VhdlOrder.Proofs.Visibility.Entering
import VhdlOrder.Proofs.Visibility.Fetching
import VhdlOrder.Proofs.Visibility.Trust

/-! # Chains of instances

What a package makes available is found by going from instance to template until a package is no instance. Going on
ends because no unit is followed twice, and what it answers is told by the chain alone: the declarations of the package
at its end, or nothing if it comes back to a unit, leaves the library, or ends at a unit of another kind. Each step leads
to the unit that the instance is recorded to depend on: the prefixes in scope, through which that one is found, stand
for the primary units of their names.
-/

namespace VhdlOrder

namespace Library

variable {library : Library} {first unit last next origin entry : Entry} {items : List Declaration}

/-- What the chain of instances that begins at the unit `first` makes available. -/
inductive ChainYields (library : Library) (first : Entry) : List Declaration → Prop
  | package {origin : Entry} : library.Origin first origin → ChainYields library first origin.unit.declarations
  | outside : library.IsForeignInstance first → ChainYields library first []
  | otherUnit {last : Entry} : Relation.ReflTransGen library.Instantiates first last → last.isPackage = false →
      ChainYields library first []
  | repeated {unit : Entry} : Relation.ReflTransGen library.Instantiates first unit →
      Relation.TransGen library.Instantiates unit unit → ChainYields library first []

/-! ## What is answered -/

theorem isPackage_eq_false (plain : ∀ generics declarations template,
    entry.unit.contents ≠ .package generics declarations template) : entry.isPackage = false := by
  unfold Entry.isPackage DesignUnit.kind
  cases contents : entry.unit.contents with
  | package => exact absurd contents (plain _ _ _)
  | packageBody | entity | architecture | configuration | context => rfl

/-- What is answered is what the chain makes available, if the units that are not to be visited again lead back to the
unit at hand. -/
theorem chainYields_packageItemsWithin {unvisited : List Nat} (member : entry ∈ library.entries)
    (chain : Relation.ReflTransGen library.Instantiates first entry)
    (visited : ∀ other ∈ library.entries, other.index ∉ unvisited →
      Relation.TransGen library.Instantiates other entry) :
    library.ChainYields first (library.packageItemsWithin unvisited entry) := by
  induction unvisited, entry using packageItemsWithin.induct library with
  | case1 unvisited entry fresh generics declarations contents =>
    have origin : library.Origin first entry := ⟨chain, by simp [Entry.isPackage, DesignUnit.kind, contents],
      by simp [DesignUnit.template?, contents]⟩
    have same : entry.unit.declarations = declarations := by simp [DesignUnit.declarations, contents]
    rw [packageItemsWithin, dif_pos fresh, contents]
    exact same ▸ .package origin
  | case2 unvisited entry fresh generics declarations template contents next named ih =>
    have step : library.Instantiates entry next := ⟨template, by simp [DesignUnit.template?, contents], named⟩
    rw [packageItemsWithin, dif_pos fresh]
    simp only [contents, named]
    refine ih step.mem_entries (chain.tail step) fun other isOther gone => ?_
    by_cases same : other.index = entry.index
    · exact eq_of_index_eq isOther member same ▸ .single step
    · exact (visited other isOther fun present => gone ((List.mem_erase_of_ne same).mpr present)).tail step
  | case3 unvisited entry fresh generics declarations template contents unnamed =>
    rw [packageItemsWithin, dif_pos fresh]
    simp only [contents, unnamed]
    exact .outside ⟨entry, template, chain, by simp [DesignUnit.template?, contents], unnamed⟩
  | case4 unvisited entry fresh plain derived =>
    have other : entry.isPackage = false := isPackage_eq_false fun generics declarations template contents => by
      cases template with
      | none => exact plain generics declarations contents
      | some template => exact derived generics declarations template contents
    rw [packageItemsWithin, dif_pos fresh]
    split
    · rename_i contents
      exact absurd contents (plain _ _)
    · rename_i contents
      exact absurd contents (derived _ _ _)
    · exact .otherUnit chain other
  | case5 unvisited entry again =>
    rw [packageItemsWithin, dif_neg again]
    exact .repeated chain (visited entry member again)

theorem chainYields_packageItems (member : first ∈ library.entries) :
    library.ChainYields first (library.packageItems first) :=
  chainYields_packageItemsWithin member .refl fun _ isOther gone =>
    absurd (List.mem_range.mpr (index_lt isOther)) gone

/-! ## Only one answer -/

/-- On a cycle the chain goes on for ever. -/
theorem exists_instantiates_of_cycle (cycle : Relation.TransGen library.Instantiates unit unit)
    (chain : Relation.ReflTransGen library.Instantiates unit last) : ∃ next, library.Instantiates last next := by
  -- every unit that is reached from a cycle is on it
  have onCycle : Relation.TransGen library.Instantiates last last := by
    induction chain with
    | refl => exact cycle
    | tail _ step ih =>
      obtain ⟨next, first, back⟩ := Relation.TransGen.head'_iff.mp ih
      obtain rfl := instantiates_rightUnique library first step
      exact Relation.TransGen.tail' back step
  obtain ⟨next, step, -⟩ := Relation.TransGen.head'_iff.mp onCycle
  exact ⟨next, step⟩

theorem Origin.not_instantiates (chain : library.Origin first origin) : ¬ library.Instantiates origin next := by
  rintro ⟨template, isTemplate, -⟩
  rw [chain.2.2] at isTemplate
  cases isTemplate

theorem not_instantiates_of_isPackage (other : last.isPackage = false) : ¬ library.Instantiates last next := by
  rintro ⟨template, isTemplate, -⟩
  exact Bool.false_ne_true (other.symm.trans (isPackage_of_template? isTemplate))

/-- A chain that ends at a package ends nowhere else. -/
theorem Origin.eq_of_chain (chain : library.Origin first origin)
    (other : Relation.ReflTransGen library.Instantiates first last)
    (stops : ∀ next, ¬ library.Instantiates last next) : last = origin := by
  rcases Relation.ReflTransGen.total_of_right_unique (instantiates_rightUnique library) chain.1 other with on | on
  · obtain same | ⟨next, step, -⟩ := on.cases_head
    · exact same.symm
    · exact absurd step chain.not_instantiates
  · obtain same | ⟨next, step, -⟩ := on.cases_head
    · exact same
    · exact absurd step (stops next)

theorem Origin.not_repeated (chain : library.Origin first origin)
    (reached : Relation.ReflTransGen library.Instantiates first unit) :
    ¬ Relation.TransGen library.Instantiates unit unit := by
  intro cycle
  rcases Relation.ReflTransGen.total_of_right_unique (instantiates_rightUnique library) chain.1 reached with on | on
  · obtain rfl | ⟨next, step, -⟩ := on.cases_head
    · obtain ⟨next, step⟩ := exists_instantiates_of_cycle cycle .refl
      exact chain.not_instantiates step
    · exact chain.not_instantiates step
  · obtain ⟨next, step⟩ := exists_instantiates_of_cycle cycle on
    exact chain.not_instantiates step

/-- Where a chain ends at a package, it makes available what that one declares and nothing else. -/
theorem ChainYields.eq_of_origin (yields : library.ChainYields first items) (chain : library.Origin first origin) :
    items = origin.unit.declarations := by
  cases yields with
  | package other => rw [chain.eq_of_chain other.1 fun _ => other.not_instantiates]
  | outside isForeign => exact absurd chain isForeign.not_origin
  | @otherUnit last reached other =>
    obtain rfl := chain.eq_of_chain reached fun _ => not_instantiates_of_isPackage other
    exact absurd (other.symm.trans chain.2.1) Bool.false_ne_true
  | repeated reached cycle => exact absurd cycle (chain.not_repeated reached)

/-- Where it does not, it makes nothing available. -/
theorem ChainYields.eq_nil (yields : library.ChainYields first items) (endless : ∀ origin, ¬ library.Origin first origin) :
    items = [] := by
  cases yields with
  | package chain => exact absurd chain (endless _)
  | outside | otherUnit | repeated => rfl

theorem ChainYields.unique {others : List Declaration} (yields : library.ChainYields first items)
    (yields' : library.ChainYields first others) : items = others := by
  by_cases ends : ∃ origin, library.Origin first origin
  · obtain ⟨origin, chain⟩ := ends
    rw [yields.eq_of_origin chain, yields'.eq_of_origin chain]
  · rw [yields.eq_nil (not_exists.mp ends), yields'.eq_nil (not_exists.mp ends)]

/-- The chain makes available what is answered, and nothing else. -/
theorem chainYields_iff (member : first ∈ library.entries) :
    library.ChainYields first items ↔ library.packageItems first = items := by
  constructor
  · exact fun yields => (chainYields_packageItems member).unique yields
  · rintro rfl
    exact chainYields_packageItems member

end Library

/-! ## Prefixes -/

namespace Scope

variable {library : Library} {scope : Scope}

/-- Every prefix that was put into the scope stands for the primary unit of its name. -/
def NamesPrimaries (library : Library) (scope : Scope) : Prop :=
  ∀ item ∈ scope.prefixes, library.primary? item.1 = some item.2

theorem namesPrimaries_start (library : Library) : start.NamesPrimaries library := List.forall_mem_nil _

theorem NamesPrimaries.addPrefix (named : scope.NamesPrimaries library) {name : Identifier} {entry : Entry}
    (found : library.primary? name = some entry) : (scope.addPrefix name entry).NamesPrimaries library :=
  List.forall_mem_append.mpr ⟨named, List.forall_mem_singleton.mpr found⟩

theorem NamesPrimaries.addPrimaryUnits (unambiguous : library.Unambiguous) (named : scope.NamesPrimaries library) :
    (addPrimaryUnits library scope).NamesPrimaries library := by
  rw [addPrimaryUnits_eq]
  refine List.forall_mem_append.mpr ⟨named, List.forall_mem_map.mpr fun entry member => ?_⟩
  obtain ⟨present, isPrimary⟩ := List.mem_filter.mp member
  exact unambiguous.primary?_eq_some_iff.mpr ⟨present, isPrimary, Identifier.same_refl _⟩

theorem NamesPrimaries.trust (named : scope.NamesPrimaries library) (clause : UseClause) :
    (scope.trust clause).NamesPrimaries library := by
  unfold Scope.trust
  split <;> exact named

theorem ImportOutcome.namesPrimaries {clause : UseClause} {key : Option ClauseKey} {entry : Entry} {name : Identifier}
    {result : Scope × Findings} (outcome : ImportOutcome library scope clause key entry name result)
    (named : scope.NamesPrimaries library) (found : library.primary? name = some entry) :
    result.1.NamesPrimaries library := by
  cases outcome with
  | unit => exact named.addPrefix found
  | notPackage | noPackage | noItem | all | item => exact named

/-- The unit that a prefix stands for is found by the name of the prefix. -/
theorem NamesPrimaries.primary? (named : scope.NamesPrimaries library) {name : Identifier} {entry : Entry}
    (found : scope.prefixed? name = some entry) : library.primary? name = some entry := by
  obtain ⟨item, isItem, rfl⟩ := Option.map_eq_some_iff.mp found
  have same := List.find?_some isItem
  rw [← Library.primary?_congr same, named item (List.mem_of_find?_eq_some isItem)]

theorem NamesPrimaries.use (unambiguous : library.Unambiguous) (named : scope.NamesPrimaries library)
    (clause : UseClause) (key : Option ClauseKey) : (scope.use library clause key).1.NamesPrimaries library := by
  have outcome := useOutcome_use library scope clause key
  generalize scope.use library clause key = result at outcome ⊢
  cases outcome with
  | nothing | missing | undeclared => exact named
  | units => exact named.addPrimaryUnits unambiguous
  | working _ found imports => exact imports.namesPrimaries named found
  | prefixed _ found imports => exact imports.namesPrimaries named (Library.primary?_own_name (named.primary? found))
  | trusted => exact named.trust clause

theorem NamesPrimaries.apply (unambiguous : library.Unambiguous) (named : scope.NamesPrimaries library)
    (item : ContextItem) : (item.apply library scope).1.NamesPrimaries library := by
  cases item with
  | library | reference => exact named
  | use clause key => exact named.use unambiguous clause key

theorem NamesPrimaries.applyAll (unambiguous : library.Unambiguous) (named : scope.NamesPrimaries library)
    (items : List ContextItem) : (ContextItem.applyAll library scope items).1.NamesPrimaries library := by
  induction items generalizing scope with
  | nil => exact named
  | cons item rest ih => exact ih (named.apply unambiguous item)

theorem NamesPrimaries.of_meets (unambiguous : library.Unambiguous) (named : scope.NamesPrimaries library)
    {items : List ContextItem} {met : Scope} {item : ContextItem}
    (meets : ContextItem.Meets library scope items met item) : met.NamesPrimaries library := by
  induction meets with
  | here => exact named
  | later _ ih => exact ih (named.apply unambiguous _)

end Scope

namespace Resolution

open Scope

variable {library : Library} {reader : Entry} {scope : Scope}

theorem namesPrimaries_enterOwner (unambiguous : library.Unambiguous) (unit : DesignUnit) :
    (enterOwner library unit).1.NamesPrimaries library := by
  have entered := entered_enterOwner library unit
  generalize enterOwner library unit = result at entered
  cases entered with
  | alone | configuration => exact namesPrimaries_start library
  | owner => exact (namesPrimaries_start library).applyAll unambiguous _

theorem namesPrimaries_scopeOf (unambiguous : library.Unambiguous) (reader : Entry) :
    (scopeOf library reader).1.NamesPrimaries library := by
  rw [scopeOf_eq]
  exact (namesPrimaries_enterOwner unambiguous reader.unit).applyAll unambiguous _

/-- Whenever an item is applied for a unit, the prefixes in scope stand for the primary units of their names. -/
theorem Applies.namesPrimaries (unambiguous : library.Unambiguous) {item : ContextItem}
    (applies : Applies library reader scope item) : scope.NamesPrimaries library := by
  obtain ⟨start, clause, owner, enters, meets⟩ := applies
  refine NamesPrimaries.of_meets unambiguous ?_ meets
  cases enters with
  | own => exact namesPrimaries_enterOwner unambiguous reader.unit
  | owner => exact namesPrimaries_start library
  | provided => exact namesPrimaries_scopeOf unambiguous reader

/-! ## What an instance depends on -/

/-- Entering a clause records uses and references to context declarations. -/
theorem kind_of_mem_enter {clause : ContextClause} {owner : Option Nat} :
    ∀ dependency ∈ (scope.enter library clause owner).2.dependencies, dependency.kind ≠ .instantiation := by
  intro dependency member
  obtain ⟨met, item, -, found⟩ := (ContextItem.mem_applyAll_iff Findings.additive_dependencies).mp member
  cases item with
  | library name => exact absurd found List.not_mem_nil
  | reference context =>
    rw [ContextItem.ofKind_referenceFindings context dependency found]
    exact nofun
  | use clause key =>
    rw [ofKind_use clause key dependency found]
    exact nofun

theorem kind_of_mem_scopeOf :
    ∀ dependency ∈ (scopeOf library reader).2.dependencies, dependency.kind ≠ .instantiation := by
  rw [scopeOf_eq]
  refine List.forall_mem_append.mpr ⟨?_, kind_of_mem_enter⟩
  have entered := entered_enterOwner library reader.unit
  generalize enterOwner library reader.unit = result at entered
  have primary {owner : Entry} {via : String} {position : Position} :
      ∀ dependency ∈ (Findings.dependency owner .primary via position).dependencies,
        dependency.kind ≠ .instantiation := List.forall_mem_singleton.mpr nofun
  cases entered with
  | alone => exact List.forall_mem_nil _
  | configuration => exact primary
  | owner => exact List.forall_mem_append.mpr ⟨primary, kind_of_mem_enter⟩

/-- The dependencies of a unit on what it is made from. -/
def instantiations (library : Library) (checks : Checks) (derived : Entry) : List Dependency :=
  ((library.resolve checks).dependencies derived.index).filter fun dependency => dependency.kind == .instantiation

/-- An instance is recorded to depend on the package that its chain goes on to, and on no other one in this way. -/
theorem instantiations_eq {checks : Checks} {derived next : Entry} (member : derived ∈ library.entries)
    {template : Reference} (isTemplate : derived.unit.template? = some template)
    (named : library.workUnit? template.name = some next) (isPackage : next.isPackage = true)
    (other : next.index ≠ derived.index) : instantiations library checks derived =
      [⟨next.index, .instantiation, template.name.render, template.position⟩] := by
  have found := templateFindings_eq (grounded_scopeOf library derived).scope named isPackage
  have inScope : ((scopeOf library derived).2.dependencies.filter fun dependency =>
      dependency.kind == .instantiation) = [] :=
    List.filter_eq_nil_iff.mpr fun dependency present isInstantiation =>
      kind_of_mem_scopeOf dependency present (eq_of_beq isInstantiation)
  have atNames : ((Lookup.findAll library (scopeOf library derived).1 derived.unit []
      derived.unit.references).dependencies.filter fun dependency => dependency.kind == .instantiation) = [] := by
    refine List.filter_eq_nil_iff.mpr fun dependency present isInstantiation => ?_
    rw [Lookup.ofKind_findAll _ dependency present] at isInstantiation
    cases isInstantiation
  unfold DesignUnit.template? at isTemplate
  split at isTemplate
  · rename_i contents
    subst isTemplate
    have all : (findings library checks.deferredConstants derived).dependencies =
        (scopeOf library derived).2.dependencies ++ ([⟨next.index, .instantiation, template.name.render,
          template.position⟩] ++ (Lookup.findAll library (scopeOf library derived).1 derived.unit []
            derived.unit.references).dependencies) := by
      unfold findings inside
      simp only [contents, found, Findings.dependencies_append]
      rfl
    rw [instantiations, Library.dependencies_resolve member, List.filter_comm, all]
    simp [other, List.filter_append, inScope, atNames]
  · cases isTemplate

/-- What holds of the chain of instances that begins at a unit, in the library that some steps lead to.

* `terminates`: going on by numbers, as often as there are units, is enough to answer the items of the unit.
* `items`: they are what the chain makes available: the declarations of the package at its end, or nothing if it comes
  back to a unit, leaves the library, or reaches a unit of another kind.
* `recorded`: where an instance of the chain goes on to another unit that is a package, its only dependency on a template
  is on that unit.
* `applied`: in front of each context item that is applied for the unit and behind it, each prefix in scope stands for
  the primary unit of its name.
* `scope`: so does each prefix in the scope that the names of the unit are looked up in. -/
structure FollowsInstances (name : Identifier) (steps : List Library.Step) (first : Entry) : Prop where
  terminates : (Catalog.run name steps).packageItems? first.index = some ((Library.run name steps).packageItems first)
  items : ∀ items, (Library.run name steps).ChainYields first items ↔ (Library.run name steps).packageItems first = items
  recorded : ∀ (checks : Checks) (derived next : Entry) (template : Reference),
    Relation.ReflTransGen (Library.run name steps).Instantiates first derived →
    derived.unit.template? = some template → (Library.run name steps).workUnit? template.name = some next →
    next.isPackage = true → next.index ≠ derived.index →
      instantiations (Library.run name steps) checks derived =
        [⟨next.index, .instantiation, template.name.render, template.position⟩]
  applied : ∀ scope item, Applies (Library.run name steps) first scope item →
    scope.NamesPrimaries (Library.run name steps) ∧
      (item.apply (Library.run name steps) scope).1.NamesPrimaries (Library.run name steps)
  scope : (scopeOf (Library.run name steps) first).1.NamesPrimaries (Library.run name steps)

/-- In every library that comes about, the items of a unit are those of its chain of instances, and each instance is
recorded to depend on the package that follows it. -/
theorem instances_followed (name : Identifier) (steps : List Library.Step) {first : Entry}
    (member : first ∈ (Library.run name steps).entries) : FollowsInstances name steps first := by
  have unambiguous := (Library.wellFormed_run name steps).unambiguous
  obtain ⟨same, inStep⟩ := Catalog.inStep_run name steps
  constructor
  · rw [← same] at member ⊢
    exact inStep.packageItems?_eq member
  · exact fun items => Library.chainYields_iff member
  · intro checks derived next template chain isTemplate named isPackage other
    refine instantiations_eq ?_ isTemplate named isPackage other
    rcases chain.cases_tail with rfl | ⟨before, -, step⟩
    · exact member
    · exact step.mem_entries
  · intro scope item applies
    have named := applies.namesPrimaries unambiguous
    exact ⟨named, named.apply unambiguous item⟩
  · exact namesPrimaries_scopeOf unambiguous first

end Resolution

namespace Instances

/-- A package with an instance of it and an instance of that one, and two instances that are made from each other. -/
def text : String :=
  "package g is type t; end; package a is new work.g; package b is new a; package x is new y; package y is new x;"

def tokens : List PlacedToken :=
  [⟨⟨1, 1⟩, .keyword .package⟩, ⟨⟨1, 9⟩, .identifier (.basic "g")⟩, ⟨⟨1, 11⟩, .keyword .is⟩,
    ⟨⟨1, 14⟩, .keyword .type⟩, ⟨⟨1, 19⟩, .identifier (.basic "t")⟩, ⟨⟨1, 20⟩, .delimiter .semicolon⟩,
    ⟨⟨1, 22⟩, .keyword .end⟩, ⟨⟨1, 25⟩, .delimiter .semicolon⟩, ⟨⟨1, 27⟩, .keyword .package⟩,
    ⟨⟨1, 35⟩, .identifier (.basic "a")⟩, ⟨⟨1, 37⟩, .keyword .is⟩, ⟨⟨1, 40⟩, .keyword .new⟩,
    ⟨⟨1, 44⟩, .identifier (.basic "work")⟩, ⟨⟨1, 48⟩, .delimiter .dot⟩, ⟨⟨1, 49⟩, .identifier (.basic "g")⟩,
    ⟨⟨1, 50⟩, .delimiter .semicolon⟩, ⟨⟨1, 52⟩, .keyword .package⟩, ⟨⟨1, 60⟩, .identifier (.basic "b")⟩,
    ⟨⟨1, 62⟩, .keyword .is⟩, ⟨⟨1, 65⟩, .keyword .new⟩, ⟨⟨1, 69⟩, .identifier (.basic "a")⟩,
    ⟨⟨1, 70⟩, .delimiter .semicolon⟩, ⟨⟨1, 72⟩, .keyword .package⟩, ⟨⟨1, 80⟩, .identifier (.basic "x")⟩,
    ⟨⟨1, 82⟩, .keyword .is⟩, ⟨⟨1, 85⟩, .keyword .new⟩, ⟨⟨1, 89⟩, .identifier (.basic "y")⟩,
    ⟨⟨1, 90⟩, .delimiter .semicolon⟩, ⟨⟨1, 92⟩, .keyword .package⟩, ⟨⟨1, 100⟩, .identifier (.basic "y")⟩,
    ⟨⟨1, 102⟩, .keyword .is⟩, ⟨⟨1, 105⟩, .keyword .new⟩, ⟨⟨1, 109⟩, .identifier (.basic "x")⟩,
    ⟨⟨1, 110⟩, .delimiter .semicolon⟩, ⟨⟨1, 111⟩, .endOfFile⟩]

def generic : Entry :=
  ⟨0, ⟨.basic "g", ⟨1, 1⟩, .empty, [], .package [] [TypeDeclaration.typeOf ⟨⟨1, 19⟩, .basic "t"⟩ .incomplete [] []] none⟩⟩

/-- The instance `name` at the position `column` of the first line, made from the package `template`. -/
def derived (index : Nat) (name : String) (column : Nat) (template : SelectedName) (place : Nat) : Entry :=
  ⟨index, ⟨.basic name, ⟨1, column⟩, .empty, [], .package [] [] (some ⟨template, ⟨1, place⟩⟩)⟩⟩

def a : Entry := derived 1 "a" 27 ⟨.basic "work", [.basic "g"]⟩ 44

def b : Entry := derived 2 "b" 52 ⟨.basic "a", []⟩ 69

def x : Entry := derived 3 "x" 72 ⟨.basic "y", []⟩ 89

def y : Entry := derived 4 "y" 92 ⟨.basic "x", []⟩ 109

def library : Library := ⟨.work, ["p.vhd"], [generic, a, b, x, y].map fun entry => ⟨entry.unit, 0⟩, [], []⟩

def steps : List Library.Step := [.add "p.vhd" text "elab", .link]

theorem run_steps : Library.run .work steps = library := by
  have read : Lexer.readUntilFault text = (tokens, none) := by decide +kernel
  have units : DesignFile.units tokens = ([generic, a, b, x, y].map Entry.unit, none) := by cbv
  simp only [Library.run, steps, List.foldl, Library.step, Library.addSource, read, units]
  cbv

theorem b_mem : b ∈ (Library.run .work steps).entries := by
  rw [run_steps]
  exact Library.mem_entries_iff.mpr rfl

theorem x_mem : x ∈ (Library.run .work steps).entries := by
  rw [run_steps]
  exact Library.mem_entries_iff.mpr rfl

theorem workUnit?_b : (Library.run .work steps).workUnit? ⟨.basic "a", []⟩ = some a := by
  rw [run_steps]
  cbv

theorem origin_b : (Library.run .work steps).Origin b generic := by
  have fromA : (Library.run .work steps).Instantiates a generic := by
    rw [run_steps]
    exact ⟨_, rfl, by cbv⟩
  exact ⟨.head ⟨_, rfl, workUnit?_b⟩ (.single fromA), rfl, rfl⟩

theorem repeated_x : Relation.TransGen (Library.run .work steps).Instantiates x x := by
  rw [run_steps]
  have toY : library.Instantiates x y := ⟨_, rfl, by cbv⟩
  have toX : library.Instantiates y x := ⟨_, rfl, by cbv⟩
  exact .tail (.single toY) toX

end Instances

namespace Resolution

/-- The second instance has the items of the package, and is recorded to be made from the first one; of the two
instances that are made from each other there are no items. -/
theorem instances_followed_chain :
    Instances.b ∈ (Library.run .work Instances.steps).entries ∧
      (Library.run .work Instances.steps).packageItems Instances.b = Instances.generic.unit.declarations ∧
      instantiations (Library.run .work Instances.steps) .standard Instances.b = [⟨1, .instantiation, "a", ⟨1, 69⟩⟩] ∧
      (Library.run .work Instances.steps).packageItems Instances.x = [] := by
  have chain := instances_followed .work Instances.steps Instances.b_mem
  have cycle := instances_followed .work Instances.steps Instances.x_mem
  refine ⟨Instances.b_mem, ?_, ?_, ?_⟩
  · exact (chain.items _).mp (.package Instances.origin_b)
  · exact chain.recorded .standard Instances.b Instances.a _ .refl rfl Instances.workUnit?_b rfl (by decide)
  · exact (cycle.items _).mp (.repeated .refl Instances.repeated_x)

end Resolution

end VhdlOrder
