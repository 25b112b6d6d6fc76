import VhdlOrder.Proofs.Visibility.Undeclared

/-! # What is taken on trust

A unit that imports all items of a package of another library accepts all names. Nothing else has that effect:
neither a reference to a context declaration of another library, nor an import from a package of the working library
that is an instance of a package outside. Of such an instance the library has no items at all, so whatever is
selected from it is reported.
-/

namespace VhdlOrder

section

variable {library : Library} {scope : Scope}

/-! ## Instances of packages outside -/

namespace Library

variable {entry source origin : Entry}

/-- The chain of instances that begins at the unit leaves the library: its last one has a template that the library
does not have. -/
def IsForeignInstance (library : Library) (entry : Entry) : Prop :=
  ∃ last template, Relation.ReflTransGen library.Instantiates entry last ∧ last.unit.template? = some template ∧
    library.workUnit? template.name = none

theorem instantiates_rightUnique (library : Library) : Relator.RightUnique library.Instantiates := by
  rintro derived first second ⟨template, isTemplate, named⟩ ⟨template', isTemplate', named'⟩
  obtain rfl := Option.some.inj (isTemplate.symm.trans isTemplate')
  exact Option.some.inj (named.symm.trans named')

/-- A chain that leaves the library does not end at a package of the library. -/
theorem IsForeignInstance.not_origin (isForeign : library.IsForeignInstance source) :
    ¬ library.Origin source origin := by
  obtain ⟨last, template, chain, isTemplate, unnamed⟩ := isForeign
  rintro ⟨toOrigin, -, isPlain⟩
  -- neither end of the two chains has a further step, so both are one unit, which is no instance and is one
  have same : last = origin := by
    rcases Relation.ReflTransGen.total_of_right_unique (instantiates_rightUnique library) chain toOrigin with on | on
    · obtain same | ⟨next, ⟨other, isOther, named⟩, -⟩ := on.cases_head
      · exact same
      · obtain rfl := Option.some.inj (isTemplate.symm.trans isOther)
        rw [unnamed] at named
        cases named
    · obtain same | ⟨next, ⟨other, isOther, -⟩, -⟩ := on.cases_head
      · exact same.symm
      · rw [isPlain] at isOther
        cases isOther
  rw [same, isPlain] at isTemplate
  cases isTemplate

/-- Of a package outside, the library has no items. -/
theorem IsForeignInstance.packageItems_eq_nil (isForeign : library.IsForeignInstance entry) :
    library.packageItems entry = [] := by
  apply List.eq_nil_iff_forall_not_mem.mpr
  intro declaration member
  obtain ⟨origin, chain, -⟩ := exists_origin (.here member)
  exact isForeign.not_origin chain

theorem IsForeignInstance.isPackage (isForeign : library.IsForeignInstance entry) : entry.isPackage = true := by
  obtain ⟨last, template, chain, isTemplate, -⟩ := isForeign
  rcases chain.cases_head with rfl | ⟨next, ⟨reference, derived, -⟩, -⟩
  · exact isPackage_of_template? isTemplate
  · exact isPackage_of_template? derived

end Library

/-- The use clause begins with the working library and imports the item by name from the unit, which it calls
`name`. -/
structure UseClause.Selects (library : Library) (use : UseClause) (entry : Entry) (name item : Identifier) : Prop where
  isWorking : library.isWorking use.name.first = true
  suffix : use.name.suffix = [name, item]
  named : library.primary? name = some entry
  single : use.all = false

/-- An item that a package does not have is reported where a use clause names it. -/
theorem Scope.mem_problems_use {use : UseClause} {entry : Entry} {name item : Identifier}
    (selects : use.Selects library entry name item) (isPackage : entry.isPackage = true)
    (absent : Declaration.declares (library.packageItems entry) item = false) (key : Option ClauseKey) :
    ⟨.error, .notInPackage item ⟨library.name, [name]⟩, use.position⟩ ∈ (scope.use library use key).2.problems := by
  obtain ⟨isWorking, suffix, named, single⟩ := selects
  have last : use.name.last = item := by simp [SelectedName.last, suffix]
  have none : ((library.packageItems entry).filter fun declaration => declaration.name.same item) = [] := by
    simpa [Declaration.declares] using absent
  simp [Scope.use, isWorking, suffix, useWorking, named, importFrom, single, isPackage, nestedItems, last, none]

/-- An item that a package does not have is reported where a name has the package in front of it. -/
theorem Lookup.mem_problems_atSite_of_prefixed {unit : DesignUnit} {site : Site} {entry : Entry} {item : Identifier}
    {rest : List Identifier} (unhidden : Unhidden scope unit site.visible site.reference.name.first)
    (isPrefix : Prefixed library scope site.reference entry (item :: rest)) (isPackage : entry.isPackage = true)
    (absent : Declaration.declares (library.packageItems entry) item = false) :
    ⟨.error, .notInPackage item (.ofIdentifier entry.unit.name), site.reference.position⟩ ∈
      (atSite library scope unit site).problems := by
  rw [atSite, find_eq_expanded unhidden, expanded_eq_inUnit isPrefix]
  simp [inUnit, isPackage, absent]

namespace Resolution

variable {reader derived : Entry} {checks : Checks} {name : Identifier}

theorem reports_of_selects (member : reader ∈ library.entries) (isForeign : library.IsForeignInstance derived)
    {writer : Entry} {clause : ContextClause} (sees : Sees library reader writer clause) {use : UseClause}
    (inUses : use ∈ clause.uses) {item : Identifier} (selects : use.Selects library derived name item) :
    Reports library checks reader (.notInPackage item ⟨library.name, [name]⟩) use.position := by
  obtain ⟨scope, key, applies⟩ := sees.exists_applies_use inUses
  have absent : Declaration.declares (library.packageItems derived) item = false := by
    rw [isForeign.packageItems_eq_nil]
    rfl
  exact (reports_iff member).mpr (applies.subset_findings Findings.additive_problems
    (Scope.mem_problems_use selects isForeign.isPackage absent key))

theorem reports_of_prefixed (member : reader ∈ library.entries) (isForeign : library.IsForeignInstance derived)
    {site : Lookup.Site} (present : site ∈ lookups library reader.unit) {item : Identifier} {rest : List Identifier}
    (unhidden : Lookup.Unhidden (scopeOf library reader).1 reader.unit site.visible site.reference.name.first)
    (isPrefix : Lookup.Prefixed library (scopeOf library reader).1 site.reference derived (item :: rest)) :
    Reports library checks reader (.notInPackage item (.ofIdentifier derived.unit.name)) site.reference.position := by
  have absent : Declaration.declares (library.packageItems derived) item = false := by
    rw [isForeign.packageItems_eq_nil]
    rfl
  exact (reports_iff member).mpr (problems_atSite_subset present
    (Lookup.mem_problems_atSite_of_prefixed unhidden isPrefix isForeign.isPackage absent))

/-- An import of all items of an instance of a package outside supplies nothing. -/
theorem items_eq_nil_of_all (isForeign : library.IsForeignInstance derived) {imported : AllImport}
    (inScope : imported ∈ (scopeOf library reader).1.all) (source : imported.source = derived) :
    imported.items = [] := by
  apply List.eq_nil_iff_forall_not_mem.mpr
  intro declaration member
  have supplied := (grounded_scopeOf library reader).scope.all imported inScope
  exact (supplied.within declaration member).ne_nil (source ▸ isForeign.packageItems_eq_nil)

end Resolution

end

namespace Outside

/-- The instance `inst` of a package of the library `ext`. -/
def derived : Entry :=
  ⟨0, ⟨.basic "inst", ⟨1, 14⟩, ⟨[⟨⟨1, 9⟩, .basic "ext"⟩], [], []⟩, [],
    .package [] [] (some ⟨⟨.basic "ext", [.basic "gen"]⟩, ⟨1, 34⟩⟩)⟩⟩

/-- The clause `use work.inst.word`. -/
def use : UseClause := ⟨⟨.work, [.basic "inst", .basic "word"]⟩, false, ⟨2, 5⟩⟩

def package : Entry := ⟨1, ⟨.basic "p", ⟨2, 20⟩, ⟨[], [use], []⟩, [], .package [] [] none⟩⟩

/-- A package that uses an item of an instance of a package outside. -/
def library : Library := ⟨.basic "lib", ["outside.vhd"], [⟨derived.unit, 0⟩, ⟨package.unit, 0⟩], [], []⟩

theorem package_mem : package ∈ library.entries := Library.mem_entries_iff.mpr rfl

/-- The library of the template is declared where the instance is made. -/
theorem hasLibrary_derived : (Resolution.scopeOf library derived).1.hasLibrary (.basic "ext") = true := by
  have expanded : ContextItem.expand library (ContextItem.ofClause derived.unit.context (Resolution.watcher? derived)) =
      [.library (.basic "ext")] := ContextItem.expand_eq_self (List.forall_mem_singleton.mpr rfl)
  rw [Resolution.scopeOf_eq, Scope.enter, expanded]
  rfl

theorem isForeignInstance_derived : library.IsForeignInstance derived :=
  ⟨derived, _, .refl, rfl, rfl⟩

theorem selects_use : use.Selects library derived (.basic "inst") (.basic "word") := ⟨rfl, rfl, rfl, rfl⟩

end Outside

namespace Resolution

/-- A unit accepts a name that nothing has if and only if a clause that is entered for it imports all items of a
package of another library; references to context declarations do not count. An instance of a package outside
supplies nothing: what a clause or a name selects from it is reported, and an import of all its items is empty. -/
theorem trusted_by_foreign_imports_only (library : Library) (checks : Checks) {reader : Entry}
    (member : reader ∈ library.entries) :
    (∀ name position, Reports library checks reader (.undeclared name) position ↔
      (∃ site ∈ lookups library reader.unit, site.reference.name.first = name ∧ site.reference.position = position ∧
        Lookup.Unanswered library (scopeOf library reader).1 reader.unit site) ∧
        ¬ ImportsOutside library reader) ∧
      ∀ derived, library.IsForeignInstance derived →
        (∀ writer clause, Sees library reader writer clause → ∀ use ∈ clause.uses, ∀ name item,
          use.Selects library derived name item →
            Reports library checks reader (.notInPackage item ⟨library.name, [name]⟩) use.position) ∧
        (∀ site ∈ lookups library reader.unit, ∀ item rest,
          Lookup.Unhidden (scopeOf library reader).1 reader.unit site.visible site.reference.name.first →
            Lookup.Prefixed library (scopeOf library reader).1 site.reference derived (item :: rest) →
              Reports library checks reader (.notInPackage item (.ofIdentifier derived.unit.name))
                site.reference.position) ∧
        ∀ imported ∈ (scopeOf library reader).1.all, imported.source = derived → imported.items = [] := by
  refine ⟨fun name position => reports_undeclared_iff member, fun derived isForeign => ⟨?_, ?_, ?_⟩⟩
  · intro writer clause sees use inUses name item selects
    exact reports_of_selects member isForeign sees inUses selects
  · intro site present item rest unhidden isPrefix
    exact reports_of_prefixed member isForeign present unhidden isPrefix
  · exact fun imported inScope source => items_eq_nil_of_all isForeign inScope source

/-- The item is reported although the library of the template is declared where the instance is made. -/
theorem trusted_by_foreign_imports_only_instance :
    (scopeOf Outside.library Outside.derived).1.hasLibrary (.basic "ext") = true ∧
      Reports Outside.library .standard Outside.package (.notInPackage (.basic "word") ⟨.basic "lib", [.basic "inst"]⟩)
        ⟨2, 5⟩ := by
  obtain ⟨-, instances⟩ := trusted_by_foreign_imports_only Outside.library .standard Outside.package_mem
  obtain ⟨selected, -, -⟩ := instances Outside.derived Outside.isForeignInstance_derived
  exact ⟨Outside.hasLibrary_derived, selected _ _ .own Outside.use List.mem_cons_self _ _ Outside.selects_use⟩

end Resolution

namespace Trusting

/-- A package with a reference to a context declaration of another library, and a signal of a type from there. -/
def text : String := "library ext; context ext.c; package p is signal s : word; end;"

def tokens : List PlacedToken :=
  [⟨⟨1, 1⟩, .keyword .library⟩, ⟨⟨1, 9⟩, .identifier (.basic "ext")⟩, ⟨⟨1, 12⟩, .delimiter .semicolon⟩,
    ⟨⟨1, 14⟩, .keyword .context⟩, ⟨⟨1, 22⟩, .identifier (.basic "ext")⟩, ⟨⟨1, 25⟩, .delimiter .dot⟩,
    ⟨⟨1, 26⟩, .identifier (.basic "c")⟩, ⟨⟨1, 27⟩, .delimiter .semicolon⟩, ⟨⟨1, 29⟩, .keyword .package⟩,
    ⟨⟨1, 37⟩, .identifier (.basic "p")⟩, ⟨⟨1, 39⟩, .keyword .is⟩, ⟨⟨1, 42⟩, .keyword .signal⟩,
    ⟨⟨1, 49⟩, .identifier (.basic "s")⟩, ⟨⟨1, 51⟩, .delimiter .colon⟩, ⟨⟨1, 53⟩, .identifier (.basic "word")⟩,
    ⟨⟨1, 57⟩, .delimiter .semicolon⟩, ⟨⟨1, 59⟩, .keyword .end⟩, ⟨⟨1, 62⟩, .delimiter .semicolon⟩,
    ⟨⟨1, 63⟩, .endOfFile⟩]

/-- The reference to the context declaration `ext.c`. -/
def context : Reference := ⟨⟨.basic "ext", [.basic "c"]⟩, ⟨1, 22⟩⟩

/-- The name that nothing declares. -/
def word : Reference := ⟨⟨.basic "word", []⟩, ⟨1, 53⟩⟩

def signal : Declaration := ⟨.basic "s", .signal, ⟨1, 49⟩, none, [word], [], []⟩

def package : Entry :=
  ⟨0, ⟨.basic "p", ⟨1, 29⟩, ⟨[⟨⟨1, 9⟩, .basic "ext"⟩], [], [context]⟩, [], .package [] [signal] none⟩⟩

theorem read_text : Lexer.readUntilFault text = (tokens, none) := by decide +kernel

theorem units_tokens : DesignFile.units tokens = ([package.unit], none) := by cbv

def library : Library := ⟨.work, ["p.vhd"], [⟨package.unit, 0⟩], [], []⟩

theorem ofSources_text : Library.ofSources .work "elab" [("p.vhd", text)] = library := by
  simp only [Library.ofSources, Library.addSources, Library.addSource, read_text, units_tokens]
  cbv

/-- Of a context declaration of another library, nothing is put in. -/
theorem expand_context :
    ContextItem.expand library (ContextItem.ofClause package.unit.context (Resolution.watcher? package)) =
      [.library (.basic "ext"), .reference context] :=
  ContextItem.expand_eq_self (List.forall_mem_cons.mpr ⟨rfl, List.forall_mem_singleton.mpr rfl⟩)

/-- The scope of the package: two libraries, and nothing else. -/
def scope : Scope := ⟨[.basic "std", .basic "ext"], [], [], [], [], [], false⟩

theorem scopeOf_package : Resolution.scopeOf library package = (scope, .empty) := by
  rw [Resolution.scopeOf_eq, Scope.enter, expand_context]
  rfl

theorem find_word :
    Lookup.find library scope package.unit [signal] word = .error (.undeclared word.name.first) word.position := by
  have notVisible : Declaration.declares [signal] word.name.first = false := rfl
  have notOwn : (package.unit.name.same word.name.first || package.unit.owner?.any word.name.first.same) = false := rfl
  have notPredefined : Standard.declares word.name.first = false := by decide +kernel
  have expanded : Lookup.imported library scope word = Lookup.predefined scope word := rfl
  have closed : (Standard.declares word.name.first || scope.foreignAll) = false := by rw [notPredefined]; rfl
  simp [Lookup.find, notVisible, notOwn, expanded, Lookup.predefined, closed]

theorem package_mem : package ∈ library.entries := Library.mem_entries_iff.mpr rfl

/-- The only error at the package is that the name is not declared. -/
theorem reports_package_iff {problem : Problem} {position : Position} :
    Resolution.Reports library .standard package problem position ↔
      problem = .undeclared word.name.first ∧ position = word.position := by
  have inside : Resolution.inside library .warn scope package =
      .flatten [Lookup.find library scope package.unit [signal] word] := rfl
  have problems : (Resolution.findings library Checks.standard.deferredConstants package).problems =
      [⟨.error, .undeclared word.name.first, word.position⟩] := by
    unfold Resolution.findings
    rw [scopeOf_package]
    dsimp only [Checks.standard]
    rw [inside, find_word]
    rfl
  rw [Resolution.reports_iff package_mem, problems]
  simp

theorem applies_context : Resolution.Applies library package scope (.reference context) := by
  refine ⟨_, _, _, .own, ?_⟩
  rw [expand_context]
  exact .later .here

end Trusting

namespace Resolution

/-- A name can be reported as undeclared at a package that refers to a context declaration of another library, though
no library clause is faulty. -/
theorem exists_foreign_context_not_trusted :
    ¬ ∀ (name : Identifier) (directive : String) (sources : List (String × String)) (checks : Checks),
      ∀ reader ∈ (Library.ofSources name directive sources).entries, watchesContext reader.unit = true →
        (∀ missing position,
          ¬ Reports (Library.ofSources name directive sources) checks reader (.undeclaredLibrary missing) position) →
        ImportsOutside (Library.ofSources name directive sources) reader ∨
            RefersOutside (Library.ofSources name directive sources) reader →
          ∀ other position,
            ¬ Reports (Library.ofSources name directive sources) checks reader (.undeclared other) position := by
  intro trusted
  have named := trusted .work "elab" [("p.vhd", Trusting.text)] .standard
  rw [Trusting.ofSources_text] at named
  have refers : RefersOutside Trusting.library Trusting.package := ⟨_, _, Trusting.applies_context, rfl, rfl⟩
  refine named Trusting.package Trusting.package_mem rfl ?_ (.inr refers) _ _
    (Trusting.reports_package_iff.mpr ⟨rfl, rfl⟩)
  intro missing position reported
  cases (Trusting.reports_package_iff.mp reported).1

end Resolution

end VhdlOrder
