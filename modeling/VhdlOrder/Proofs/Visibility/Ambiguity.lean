import VhdlOrder.Proofs.Visibility.Supplies

/-! # Ambiguous names

A name that nothing nearer declares is ambiguous if use clauses supply it from two packages and not all that it means
may be overloaded. The look-up tells packages apart by the units that they stand in, so it takes two packages of one
unit for the same, and of such a unit it does not count what is imported together with all items if something is
imported by name. Apart from that, a name is reported if and only if it is ambiguous.
-/

namespace VhdlOrder

section

variable {library : Library} {scope : Scope} {name : Identifier} {declarations : List Declaration}

/-! ## Findings of an ambiguous name -/

namespace Lookup

variable {unit : DesignUnit} {reference : Reference} {position : Position}

theorem differ_iff {numbers : List Nat} :
    differ numbers = true ↔ ∃ first ∈ numbers, ∃ second ∈ numbers, first ≠ second := by
  cases numbers with
  | nil => simp [differ]
  | cons head rest =>
    simp only [differ, List.any_eq_true, bne_iff_ne]
    constructor
    · rintro ⟨other, member, differs⟩
      exact ⟨other, List.mem_cons_of_mem _ member, head, List.mem_cons_self, differs⟩
    · rintro ⟨first, firstIn, second, secondIn, differs⟩
      by_cases same : first = head
      · subst same
        exact ⟨second, (List.mem_cons.mp secondIn).resolve_left (Ne.symm differs), Ne.symm differs⟩
      · exact ⟨first, (List.mem_cons.mp firstIn).resolve_left same, same⟩

/-- Of the imports of a name, those by name count, and those of all items of a package if the unit of the package
is not one from which an import by name is. -/
def Counts (scope : Scope) (name : Identifier) (whole : Bool) (source : Entry) : Prop :=
  whole = true → ∀ other declarations, scope.Provides name false other declarations → other.index ≠ source.index

/-- The imports of the name are from several units, and one that counts supplies an item that may not be
overloaded. -/
structure Conflict (scope : Scope) (name : Identifier) : Prop where
  differ : ∃ whole source declarations, scope.Provides name whole source declarations ∧
    ∃ whole' source' declarations', scope.Provides name whole' source' declarations' ∧ source.index ≠ source'.index
  single : ∃ whole source declarations, scope.Provides name whole source declarations ∧
    Counts scope name whole source ∧ ∃ declaration ∈ declarations, declaration.kind.isOverloadable = false

theorem exists_ambiguous_iff {numbers : List Nat} {items : List Declaration} {given : List Origin} :
    (∃ origins, ⟨.error, .ambiguous name origins, position⟩ ∈
      (ambiguity name position numbers items given).problems) ↔
      differ numbers = true ∧ ∃ declaration ∈ items, declaration.kind.isOverloadable = false := by
  unfold ambiguity allOverloadable
  split
  · rename_i clash
    simp_all
  · rename_i accepted
    simp_all

theorem mem_candidates_iff {item : SelectedImport} :
    item ∈ candidates scope name ↔ item ∈ scope.selected ∧ item.name.same name = true := List.mem_filter

theorem mem_providers_iff {item : AllImport} :
    (item, declarations) ∈ providers scope name ↔
      item ∈ scope.all ∧ named name item.items ≠ [] ∧ declarations = named name item.items := by
  unfold providers
  rw [List.mem_filterMap]
  constructor
  · rintro ⟨other, member, provides⟩
    unfold provider? at provides
    dsimp only at provides
    split at provides
    · cases provides
    · rename_i nonempty
      cases provides
      exact ⟨member, fun none => nonempty (List.isEmpty_iff.mpr none), rfl⟩
  · rintro ⟨member, nonempty, rfl⟩
    refine ⟨item, member, if_neg fun none => nonempty (List.isEmpty_iff.mp none)⟩

/-- The imports of all items that count for a name. -/
def others (scope : Scope) (name : Identifier) : List (AllImport × List Declaration) :=
  (providers scope name).filter fun provider =>
    !((candidates scope name).map fun item => item.source.index).contains provider.1.source.index

theorem mem_others_iff {item : AllImport} :
    (item, declarations) ∈ others scope name ↔
      (item, declarations) ∈ providers scope name ∧ Counts scope name true item.source := by
  unfold others
  rw [List.mem_filter]
  refine and_congr_right fun _ => ?_
  simp only [Bool.not_eq_true', List.contains_eq_mem, decide_eq_false_iff_not, List.mem_map, mem_candidates_iff]
  constructor
  · rintro absent - other declarations' ⟨member, same⟩ number
    exact absent ⟨_, ⟨member, same⟩, number⟩
  · rintro counts ⟨other, ⟨member, same⟩, number⟩
    exact counts rfl _ _ (.selected member same) number

/-- The units that imports of the name are from which count. -/
def sources (scope : Scope) (name : Identifier) : List Nat :=
  ((candidates scope name).map fun item => item.source.index) ++
    (others scope name).map fun provider => provider.1.source.index

/-- What the imports of the name supply that count. -/
def supplied (scope : Scope) (name : Identifier) : List Declaration :=
  (candidates scope name).flatMap SelectedImport.declarations ++ (others scope name).flatMap Prod.snd

/-- Each import of the name is from a unit from which one is that counts. -/
theorem mem_sources_iff {number : Nat} :
    number ∈ sources scope name ↔
      ∃ whole source declarations, scope.Provides name whole source declarations ∧ source.index = number := by
  unfold sources
  rw [List.mem_append, List.mem_map, List.mem_map]
  constructor
  · rintro (⟨item, member, rfl⟩ | ⟨⟨item, declarations⟩, member, rfl⟩)
    · obtain ⟨present, same⟩ := mem_candidates_iff.mp member
      exact ⟨_, _, _, .selected present same, rfl⟩
    · obtain ⟨present, nonempty, rfl⟩ := mem_providers_iff.mp (mem_others_iff.mp member).1
      exact ⟨_, _, _, .all present nonempty, rfl⟩
  · rintro ⟨whole, source, declarations, provides, rfl⟩
    by_cases selected : ∃ item ∈ candidates scope name, item.source.index = source.index
    · exact .inl selected
    · refine .inr ?_
      cases provides with
      | selected member same => exact absurd ⟨_, mem_candidates_iff.mpr ⟨member, same⟩, rfl⟩ selected
      | @all item member nonempty =>
        refine ⟨(item, named name item.items), ?_, rfl⟩
        refine mem_others_iff.mpr ⟨mem_providers_iff.mpr ⟨member, nonempty, rfl⟩, ?_⟩
        rintro - other declarations ⟨member, same⟩ number
        exact selected ⟨_, mem_candidates_iff.mpr ⟨member, same⟩, number⟩

theorem mem_supplied_iff {declaration : Declaration} :
    declaration ∈ supplied scope name ↔ ∃ whole source declarations, scope.Provides name whole source declarations ∧
      Counts scope name whole source ∧ declaration ∈ declarations := by
  unfold supplied
  rw [List.mem_append, List.mem_flatMap, List.mem_flatMap]
  constructor
  · rintro (⟨item, member, inside⟩ | ⟨⟨item, declarations⟩, member, inside⟩)
    · obtain ⟨present, same⟩ := mem_candidates_iff.mp member
      exact ⟨_, _, _, .selected present same, nofun, inside⟩
    · obtain ⟨provides, counts⟩ := mem_others_iff.mp member
      obtain ⟨present, nonempty, rfl⟩ := mem_providers_iff.mp provides
      exact ⟨_, _, _, .all present nonempty, counts, inside⟩
  · rintro ⟨whole, source, declarations, provides, counts, inside⟩
    cases provides with
    | selected member same => exact .inl ⟨_, mem_candidates_iff.mpr ⟨member, same⟩, inside⟩
    | all member nonempty =>
      exact .inr ⟨(_, _), mem_others_iff.mpr ⟨mem_providers_iff.mpr ⟨member, nonempty, rfl⟩, counts⟩, inside⟩

/-- Nothing is ambiguous about a name that is looked up by its prefix. -/
theorem not_ambiguous_expanded {origins : List Origin} :
    ⟨.error, .ambiguous name origins, position⟩ ∉ (expanded library scope reference).problems := by
  have outcome := @expandedOutcome_expanded library scope reference
  generalize expanded library scope reference = result at outcome ⊢
  cases outcome <;> simp

/-- What is reported of the imports of a name. -/
theorem exists_ambiguous_imported_iff (closed : scope.foreignNames.any reference.name.first.same = false) :
    (∃ origins, ⟨.error, .ambiguous reference.name.first origins, reference.position⟩ ∈
      (imported library scope reference).problems) ↔
      differ (sources scope reference.name.first) = true ∧
        ∃ declaration ∈ supplied scope reference.name.first, declaration.kind.isOverloadable = false := by
  unfold imported
  dsimp only
  split
  · rename_i item items isSelected
    have silent (keys : List ClauseKey) : (Findings.ofUse keys).problems = [] := rfl
    rw [selected, Findings.problems_append, silent, List.nil_append, sources, supplied, others, isSelected]
    exact exists_ambiguous_iff
  · rename_i noneSelected
    have all : others scope reference.name.first = providers scope reference.name.first := by
      simp [others, noneSelected]
    rw [if_neg (by simp [closed]), sources, supplied, all, noneSelected]
    split
    · rename_i provider more isProvided
      rw [isProvided]
      exact exists_ambiguous_iff
    · rename_i noneProvided
      rw [noneProvided]
      refine iff_of_false (fun ⟨origins, member⟩ => not_ambiguous_expanded member) ?_
      rintro ⟨differs, -⟩
      cases differs

/-- A name that nothing nearer declares is reported as ambiguous if and only if its imports are in conflict. -/
theorem exists_ambiguous_atSite_iff {site : Site} (undeclared : Undeclared unit site.visible site.reference.name.first)
    (closed : scope.foreignNames.any site.reference.name.first.same = false) :
    (∃ origins, ⟨.error, .ambiguous site.reference.name.first origins, site.reference.position⟩ ∈
      (atSite library scope unit site).problems) ↔ Conflict scope site.reference.name.first := by
  have isImported : atSite library scope unit site = imported library scope site.reference := by
    simp [atSite, find, undeclared.visible, undeclared.own, undeclared.owner]
  rw [isImported, exists_ambiguous_imported_iff closed, differ_iff]
  constructor
  · rintro ⟨⟨first, firstIn, second, secondIn, differs⟩, declaration, present, single⟩
    obtain ⟨whole, source, declarations, provides, rfl⟩ := mem_sources_iff.mp firstIn
    obtain ⟨whole', source', declarations', provides', rfl⟩ := mem_sources_iff.mp secondIn
    obtain ⟨whole'', source'', declarations'', provides'', counts, inside⟩ := mem_supplied_iff.mp present
    exact ⟨⟨_, _, _, provides, _, _, _, provides', differs⟩, _, _, _, provides'', counts, _, inside, single⟩
  · rintro ⟨⟨_, _, _, provides, _, _, _, provides', differs⟩, _, _, _, provides'', counts, _, inside, single⟩
    exact ⟨⟨_, mem_sources_iff.mpr ⟨_, _, _, provides, rfl⟩, _, mem_sources_iff.mpr ⟨_, _, _, provides', rfl⟩, differs⟩,
      _, mem_supplied_iff.mpr ⟨_, _, _, provides'', counts, inside⟩, single⟩

end Lookup

namespace Resolution

variable {reader : Entry}

/-! ## Ambiguous names -/

/-- Two packages supply the name for the unit, and something that is supplied may not be overloaded. -/
structure IsAmbiguous (library : Library) (reader : Entry) (name : Identifier) : Prop where
  several : ∃ first second, Supplies library reader name first ∧ Supplies library reader name second ∧
    first.place ≠ second.place
  single : ∃ supply, Supplies library reader name supply ∧
    ∃ declaration ∈ supply.declarations, declaration.kind.isOverloadable = false

/-- What is supplied counts: by name it does, and together with all items of a package if nothing is supplied by name
from the same unit. -/
def Counts (library : Library) (reader : Entry) (name : Identifier) (supply : Supply) : Prop :=
  supply.whole = true → ∀ other, Supplies library reader name other → other.whole = false →
    other.source.index ≠ supply.source.index

/-- Two units supply the name for the unit, and something that is supplied and counts may not be overloaded. -/
structure Conflicts (library : Library) (reader : Entry) (name : Identifier) : Prop where
  differ : ∃ first second, Supplies library reader name first ∧ Supplies library reader name second ∧
    first.source.index ≠ second.source.index
  single : ∃ supply, Supplies library reader name supply ∧ Counts library reader name supply ∧
    ∃ declaration ∈ supply.declarations, declaration.kind.isOverloadable = false

/-- At the site, the name is reported as ambiguous. -/
def ReportsAmbiguous (library : Library) (reader : Entry) (site : Lookup.Site) : Prop :=
  ∃ origins, ⟨.error, .ambiguous site.reference.name.first origins, site.reference.position⟩ ∈
    (Lookup.atSite library (scopeOf library reader).1 reader.unit site).problems

theorem conflict_scopeOf_iff (noContext : reader.unit.clause? = none) :
    Lookup.Conflict (scopeOf library reader).1 name ↔ Conflicts library reader name := by
  have counts {supply : Supply} : Lookup.Counts (scopeOf library reader).1 name supply.whole supply.source ↔
      Counts library reader name supply := by
    unfold Lookup.Counts Counts
    simp only [provides_scopeOf_iff noContext]
    refine forall_congr' fun _ => ⟨fun each other supplies byName => ?_, fun each source declarations => ?_⟩
    · obtain ⟨whole, source, path, declarations⟩ := other
      obtain rfl : whole = false := byName
      exact each _ _ ⟨path, supplies⟩
    · rintro ⟨path, supplies⟩
      exact each _ supplies rfl
  constructor
  · rintro ⟨⟨_, _, _, provides, _, _, _, provides', differs⟩, _, _, _, provides'', isCounted, single⟩
    obtain ⟨_, supplies⟩ := (provides_scopeOf_iff noContext).mp provides
    obtain ⟨_, supplies'⟩ := (provides_scopeOf_iff noContext).mp provides'
    obtain ⟨_, supplies''⟩ := (provides_scopeOf_iff noContext).mp provides''
    exact ⟨⟨_, _, supplies, supplies', differs⟩, _, supplies'', counts.mp isCounted, single⟩
  · rintro ⟨⟨_, _, supplies, supplies', differs⟩, _, supplies'', isCounted, single⟩
    exact ⟨⟨_, _, _, (provides_scopeOf_iff noContext).mpr ⟨_, supplies⟩, _, _, _,
      (provides_scopeOf_iff noContext).mpr ⟨_, supplies'⟩, differs⟩, _, _, _,
      (provides_scopeOf_iff noContext).mpr ⟨_, supplies''⟩, counts.mpr isCounted, single⟩

theorem Conflicts.isAmbiguous (conflicts : Conflicts library reader name) : IsAmbiguous library reader name := by
  obtain ⟨⟨first, second, isFirst, isSecond, differs⟩, supply, supplies, -, single⟩ := conflicts
  exact ⟨⟨first, second, isFirst, isSecond, fun same => differs (congrArg (fun place => place.source.index) same)⟩,
    supply, supplies, single⟩

/-- If no two packages of one unit supply the name, an ambiguity is a conflict between units. -/
theorem IsAmbiguous.conflicts (isAmbiguous : IsAmbiguous library reader name)
    (apart : ∀ first second, Supplies library reader name first → Supplies library reader name second →
      first.source.index = second.source.index → first.place = second.place) : Conflicts library reader name := by
  obtain ⟨⟨first, second, isFirst, isSecond, differs⟩, supply, supplies, declaration, inside, single⟩ := isAmbiguous
  refine ⟨⟨first, second, isFirst, isSecond, fun same => differs (apart _ _ isFirst isSecond same)⟩, ?_⟩
  by_cases counted : Counts library reader name supply
  · exact ⟨supply, supplies, counted, declaration, inside, single⟩
  · -- something is supplied by name from the same unit, hence from the same package, so it is the same
    simp only [Counts, not_forall, not_not] at counted
    obtain ⟨-, other, isOther, byName, same⟩ := counted
    refine ⟨other, isOther, fun whole => by simp [byName] at whole, declaration, ?_, single⟩
    rw [isOther.declarations_eq supplies (apart _ _ isOther supplies same)]
    exact inside

theorem reportsAmbiguous_iff {site : Lookup.Site} (present : site ∈ lookups library reader.unit)
    (undeclared : Lookup.Undeclared reader.unit site.visible site.reference.name.first)
    (inside : ¬ NamesOutside library reader site.reference.name.first) :
    ReportsAmbiguous library reader site ↔ Conflicts library reader site.reference.name.first := by
  have noContext := clause?_eq_none_of_mem_lookups present
  rw [← foreignNames_scopeOf noContext, Bool.not_eq_true] at inside
  rw [ReportsAmbiguous, Lookup.exists_ambiguous_atSite_iff undeclared inside, conflict_scopeOf_iff noContext]

/-- A name that nothing nearer declares is reported as ambiguous if and only if two units supply it and something that
counts may not be overloaded. What is reported is ambiguous; what is ambiguous is reported unless two packages of one
unit supply the name. -/
theorem ambiguous_between_units (library : Library) {reader : Entry} (member : reader ∈ library.entries)
    {site : Lookup.Site} (present : site ∈ lookups library reader.unit)
    (undeclared : Lookup.Undeclared reader.unit site.visible site.reference.name.first)
    (inside : ¬ NamesOutside library reader site.reference.name.first) :
    (ReportsAmbiguous library reader site ↔ Conflicts library reader site.reference.name.first) ∧
    (ReportsAmbiguous library reader site → IsAmbiguous library reader site.reference.name.first ∧
      ∀ checks, ∃ origins, Reports library checks reader (.ambiguous site.reference.name.first origins)
        site.reference.position) ∧
    (IsAmbiguous library reader site.reference.name.first →
      (∀ first second, Supplies library reader site.reference.name.first first →
        Supplies library reader site.reference.name.first second →
          first.source.index = second.source.index → first.place = second.place) →
        ReportsAmbiguous library reader site) := by
  have reported := reportsAmbiguous_iff present undeclared inside
  refine ⟨reported, fun reports => ⟨(reported.mp reports).isAmbiguous, fun checks => ?_⟩,
    fun isAmbiguous apart => reported.mpr (isAmbiguous.conflicts apart)⟩
  obtain ⟨origins, found⟩ := reports
  exact ⟨origins, (reports_iff member).mpr (problems_atSite_subset present found)⟩

end Resolution

end

namespace Siblings

/-- A package with two packages that declare one name, and a package with imports of all items of both. -/
def text : String :=
  "package q is package a is type k; end; package b is type k; end; end; " ++
    "use work.q.a.all, work.q.b.all; package p is subtype s is k; end;"

def tokens : List PlacedToken :=
  List.map (fun token => ⟨⟨1, token.1⟩, token.2⟩)
    [(1, .keyword .package), (9, .identifier (.basic "q")), (11, .keyword .is), (14, .keyword .package),
      (22, .identifier (.basic "a")), (24, .keyword .is), (27, .keyword .type), (32, .identifier (.basic "k")),
      (33, .delimiter .semicolon), (35, .keyword .end), (38, .delimiter .semicolon), (40, .keyword .package),
      (48, .identifier (.basic "b")), (50, .keyword .is), (53, .keyword .type), (58, .identifier (.basic "k")),
      (59, .delimiter .semicolon), (61, .keyword .end), (64, .delimiter .semicolon), (66, .keyword .end),
      (69, .delimiter .semicolon), (71, .keyword .use), (75, .identifier (.basic "work")), (79, .delimiter .dot),
      (80, .identifier (.basic "q")), (81, .delimiter .dot), (82, .identifier (.basic "a")), (83, .delimiter .dot),
      (84, .keyword .all), (87, .delimiter .comma), (89, .identifier (.basic "work")), (93, .delimiter .dot),
      (94, .identifier (.basic "q")), (95, .delimiter .dot), (96, .identifier (.basic "b")), (97, .delimiter .dot),
      (98, .keyword .all), (101, .delimiter .semicolon), (103, .keyword .package), (111, .identifier (.basic "p")),
      (113, .keyword .is), (116, .keyword .subtype), (124, .identifier (.basic "s")), (126, .keyword .is),
      (129, .identifier (.basic "k")), (130, .delimiter .semicolon), (132, .keyword .end),
      (135, .delimiter .semicolon), (136, .endOfFile)]

/-- The type `k`. -/
def typeAt (position : Position) : Declaration := TypeDeclaration.typeOf ⟨position, .basic "k"⟩ .incomplete [] []

/-- A package whose only item is the type. -/
def packageAt (position : Position) (name : String) (type : Position) : Declaration :=
  { Declaration.withReferences ⟨position, .basic name⟩ .package [] with locals := [typeAt type] }

def owner : Entry :=
  ⟨0, ⟨.basic "q", ⟨1, 1⟩, .empty, [],
    .package [] [packageAt ⟨1, 22⟩ "a" ⟨1, 32⟩, packageAt ⟨1, 48⟩ "b" ⟨1, 58⟩] none⟩⟩

/-- The import of all items of a nested package. -/
def use (name : String) (position : Position) : UseClause :=
  ⟨⟨.work, [.basic "q", .basic name]⟩, true, position⟩

/-- The reference to the type. -/
def reference : Reference := ⟨⟨.basic "k", []⟩, ⟨1, 129⟩⟩

def subtype : Declaration := .withReferences ⟨⟨1, 124⟩, .basic "s"⟩ .subtype [reference]

def reader : Entry :=
  ⟨1, ⟨.basic "p", ⟨1, 103⟩, ⟨[], [use "a" ⟨1, 75⟩, use "b" ⟨1, 89⟩], []⟩, [], .package [] [subtype] none⟩⟩

theorem read_text : Lexer.readUntilFault text = (tokens, none) := by decide +kernel

theorem units_tokens : DesignFile.units tokens = ([owner.unit, reader.unit], none) := by cbv

def oneFile : Library := ⟨.work, ["q.vhd"], [⟨owner.unit, 0⟩, ⟨reader.unit, 0⟩], [], []⟩

theorem ofSources_text : Library.ofSources .work "elab" [("q.vhd", text)] = oneFile := by
  simp only [Library.ofSources, Library.addSources, Library.addSource, read_text, units_tokens]
  cbv

def site : Lookup.Site := ⟨[subtype], reference⟩

theorem site_mem (library : Library) : site ∈ Resolution.lookups library reader.unit := List.mem_cons_self

theorem undeclared_site : Lookup.Undeclared reader.unit site.visible site.reference.name.first :=
  ⟨by decide +kernel, by decide +kernel, rfl⟩

theorem reader_mem : reader ∈ oneFile.entries := Library.mem_entries_iff.mpr rfl

theorem not_namesOutside_reader : ¬ Resolution.NamesOutside oneFile reader (.basic "k") := by
  have closed : (Resolution.scopeOf oneFile reader).1.foreignNames = [] := by cbv
  rw [← Resolution.foreignNames_scopeOf rfl, closed]
  exact Bool.false_ne_true

/-- Both imports supply the type. -/
theorem isAmbiguous_reader : Resolution.IsAmbiguous oneFile reader (.basic "k") := by
  have items : oneFile.packageItems owner = owner.unit.declarations := by cbv
  have first : Resolution.Supplies oneFile reader (.basic "k") ⟨true, owner, [.basic "a"], [typeAt ⟨1, 32⟩]⟩ :=
    Resolution.supplies_of_own List.mem_cons_self rfl rfl rfl rfl rfl ⟨_, by rw [items]; rfl, rfl⟩
      (List.cons_ne_nil _ _)
  have second : Resolution.Supplies oneFile reader (.basic "k") ⟨true, owner, [.basic "b"], [typeAt ⟨1, 58⟩]⟩ :=
    Resolution.supplies_of_own (List.mem_cons_of_mem _ List.mem_cons_self) rfl rfl rfl rfl rfl
      ⟨_, by rw [items]; rfl, rfl⟩ (List.cons_ne_nil _ _)
  refine ⟨⟨_, _, first, second, fun same => ?_⟩, _, first, _, List.mem_cons_self, rfl⟩
  have differs : [Identifier.key (.basic "a")] ≠ [Identifier.key (.basic "b")] := by decide
  exact differs (congrArg PackagePlace.path same)

theorem not_reportsAmbiguous_reader : ¬ Resolution.ReportsAmbiguous oneFile reader site := by
  have nothing : (Lookup.atSite oneFile (Resolution.scopeOf oneFile reader).1 reader.unit site).problems = [] := by
    cbv
  rintro ⟨origins, member⟩
  rw [nothing] at member
  exact absurd member List.not_mem_nil

/-- The package `package m is type k; end;` in another file. -/
def other : Entry := ⟨2, ⟨.basic "m", ⟨1, 1⟩, .empty, [], .package [] [typeAt ⟨1, 19⟩] none⟩⟩

/-- A package with imports of all items of it and of a nested one. -/
def importer : Entry :=
  ⟨3, ⟨.basic "r", ⟨1, 103⟩, ⟨[], [use "a" ⟨1, 75⟩, ⟨⟨.work, [.basic "m"]⟩, true, ⟨1, 89⟩⟩], []⟩, [],
    .package [] [subtype] none⟩⟩

def twoFiles : Library :=
  ⟨.work, ["q.vhd", "m.vhd"], [⟨owner.unit, 0⟩, ⟨reader.unit, 0⟩, ⟨other.unit, 1⟩, ⟨importer.unit, 1⟩], [], []⟩

theorem importer_mem : importer ∈ twoFiles.entries := Library.mem_entries_iff.mpr rfl

theorem not_namesOutside_importer : ¬ Resolution.NamesOutside twoFiles importer (.basic "k") := by
  have closed : (Resolution.scopeOf twoFiles importer).1.foreignNames = [] := by cbv
  rw [← Resolution.foreignNames_scopeOf rfl, closed]
  exact Bool.false_ne_true

theorem conflicts_importer : Resolution.Conflicts twoFiles importer (.basic "k") := by
  have nested : twoFiles.packageItems owner = owner.unit.declarations := by cbv
  have items : twoFiles.packageItems other = other.unit.declarations := by cbv
  have first : Resolution.Supplies twoFiles importer (.basic "k") ⟨true, owner, [.basic "a"], [typeAt ⟨1, 32⟩]⟩ :=
    Resolution.supplies_of_own List.mem_cons_self rfl rfl rfl rfl rfl ⟨_, by rw [nested]; rfl, rfl⟩
      (List.cons_ne_nil _ _)
  have second : Resolution.Supplies twoFiles importer (.basic "k") ⟨true, other, [], [typeAt ⟨1, 19⟩]⟩ :=
    Resolution.supplies_of_own (List.mem_cons_of_mem _ List.mem_cons_self) rfl rfl rfl rfl rfl
      ⟨_, by rw [items]; rfl, rfl⟩ (List.cons_ne_nil _ _)
  refine ⟨⟨_, _, first, second, by decide⟩, _, first, ?_, _, List.mem_cons_self, rfl⟩
  rintro - ⟨_, _, path, _⟩ supplies rfl
  have noneSelected : (Resolution.scopeOf twoFiles importer).1.selected = [] := by cbv
  obtain ⟨selected, -⟩ := (Resolution.provides_scopeOf_iff rfl).mpr ⟨path, supplies⟩
  exact absurd (noneSelected ▸ selected) List.not_mem_nil

end Siblings

namespace Resolution

/-- The name is reported: a package that is nested in one unit and a package that is another unit supply it. -/
theorem ambiguous_between_units_reported :
    ReportsAmbiguous Siblings.twoFiles Siblings.importer Siblings.site ∧
      ∃ origins, Reports Siblings.twoFiles .standard Siblings.importer (.ambiguous (.basic "k") origins) ⟨1, 129⟩ := by
  obtain ⟨reported, isReported, -⟩ := ambiguous_between_units Siblings.twoFiles Siblings.importer_mem
    (List.mem_cons_self : Siblings.site ∈ lookups Siblings.twoFiles Siblings.importer.unit)
    ⟨by decide +kernel, by decide +kernel, rfl⟩ Siblings.not_namesOutside_importer
  have reports := reported.mpr Siblings.conflicts_importer
  exact ⟨reports, (isReported reports).2 .standard⟩

/-- A name is not reported although two packages that are nested in one unit supply it. -/
theorem exists_ambiguous_not_reported :
    ¬ ∀ (name : Identifier) (directive : String) (sources : List (String × String)),
      ∀ reader ∈ (Library.ofSources name directive sources).entries, watchesContext reader.unit = true →
        ∀ site ∈ lookups (Library.ofSources name directive sources) reader.unit,
          Lookup.Undeclared reader.unit site.visible site.reference.name.first →
            ¬ NamesOutside (Library.ofSources name directive sources) reader site.reference.name.first →
              (ReportsAmbiguous (Library.ofSources name directive sources) reader site ↔
                IsAmbiguous (Library.ofSources name directive sources) reader site.reference.name.first) := by
  intro reported
  have here := reported .work "elab" [("q.vhd", Siblings.text)]
  rw [Siblings.ofSources_text] at here
  exact Siblings.not_reportsAmbiguous_reader ((here Siblings.reader Siblings.reader_mem rfl Siblings.site
    (Siblings.site_mem _) Siblings.undeclared_site Siblings.not_namesOutside_reader).mpr Siblings.isAmbiguous_reader)

end Resolution

end VhdlOrder
