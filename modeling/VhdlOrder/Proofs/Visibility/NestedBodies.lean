import VhdlOrder.Proofs.Design.UnitRegions
import VhdlOrder.Proofs.Visibility.Undeclared

/-! # Names in nested bodies

The references that are looked up in a package or package body are those that are free in the tree of its regions:
no region around them, inside the unit, declares their leading name. They see declarations of the unit itself and of
the package that it completes, and no others of the library unless they are imported. In a nested package body the
items of the package that it completes are therefore not visible, and their names are reported as undeclared where
nothing else has them.
-/

namespace VhdlOrder

namespace Lookup

variable {locals items : List Declaration} {reference : Reference}

theorem exists_mem_map_mk_iff {references : List Reference} :
    (∃ site ∈ references.map (Site.mk locals), site.reference.same reference = true) ↔
      reference.IsAmong references := by
  simp [Reference.IsAmong]

/-- The references of declarations are looked up, and no others. -/
theorem exists_mem_sites_iff :
    (∃ site ∈ sites locals items, site.reference.same reference = true) ↔
      reference.IsAmong (Declaration.allReferences items) := by
  induction items generalizing locals with
  | nil => simp [sites, Declaration.allReferences]
  | cons declaration rest ih =>
    rw [show Declaration.allReferences (declaration :: rest) =
      declaration.references ++ Declaration.allReferences rest from rfl, Reference.isAmong_append,
      ← @ih (locals ++ [declaration])]
    simp only [sites, List.mem_append, or_and_right, exists_or, exists_mem_map_mk_iff]

/-- A name sees no declarations but those before it and around it. -/
theorem visible_subset_of_mem_sites {site : Site} (member : site ∈ sites locals items) :
    site.visible ⊆ locals ++ items := by
  induction items generalizing locals with
  | nil => cases member
  | cons declaration rest ih =>
    rcases List.mem_append.mp member with here | later
    · obtain ⟨reference, -, rfl⟩ := List.mem_map.mp here
      refine List.append_subset.mpr ⟨List.subset_append_left _ _, ?_⟩
      refine List.Subset.trans ?_ (List.subset_append_right _ _)
      exact List.cons_subset_cons _ (List.takeWhile_prefix _).subset
    · simpa using ih later

end Lookup

namespace Resolution

variable {library : Library} {unit : DesignUnit} {tree : RegionTree}

/-- What is looked up in a unit are the references of its generics and those that are free in the tree of its
regions. -/
theorem exists_mem_lookups_iff (holds : unit.Holds tree) {reference : Reference} :
    (∃ site ∈ lookups library unit, site.reference.same reference = true) ↔
      reference.IsAmong (Declaration.allReferences unit.generics) ∨ tree.Free reference := by
  rw [← RegionTree.isAmong_handed_iff, DeclarativePart.handed, Reference.isAmong_append]
  cases holds with
  | package read region references contents =>
    simp only [lookups, sites, contents, references, List.mem_append, or_and_right, exists_or,
      Lookup.exists_mem_sites_iff, Lookup.exists_mem_map_mk_iff, DesignUnit.generics, or_assoc]
  | packageBody read region references contents =>
    have noGenerics : ¬ reference.IsAmong (Declaration.allReferences []) := Reference.isAmong_nil
    simp only [lookups, sites, contents, references, List.mem_append, or_and_right, exists_or,
      Lookup.exists_mem_sites_iff, Lookup.exists_mem_map_mk_iff, DesignUnit.generics, noGenerics, false_or]

/-- Names in a unit see declarations of the unit and of the package that it completes. -/
theorem visible_subset_of_mem_lookups (holds : unit.Holds tree) {site : Lookup.Site}
    (member : site ∈ lookups library unit) :
    site.visible ⊆ unit.generics ++ declared library unit ++ unit.declarations := by
  have here {locals items : List Declaration} (part : locals ++ items ⊆ unit.generics ++ declared library unit ++
      unit.declarations) (member : site ∈ Lookup.sites locals items) :
      site.visible ⊆ unit.generics ++ declared library unit ++ unit.declarations :=
    List.Subset.trans (Lookup.visible_subset_of_mem_sites member) part
  have own {locals : List Declaration} (part : locals ⊆ unit.generics ++ declared library unit ++ unit.declarations)
      (member : site ∈ unit.references.map (Lookup.Site.mk locals)) :
      site.visible ⊆ unit.generics ++ declared library unit ++ unit.declarations := by
    obtain ⟨reference, -, rfl⟩ := List.mem_map.mp member
    exact part
  cases holds with
  | @package _ _ _ _ _ generics read region references contents =>
    have isGenerics : unit.generics = generics := by rw [DesignUnit.generics, contents]
    have isDeclarations : unit.declarations = tree.part.declarations := by rw [DesignUnit.declarations, contents]
    simp only [lookups, sites, contents, List.mem_append] at member
    rw [← isGenerics, ← isDeclarations] at member
    rcases member with (generic | declared') | loose
    · exact here (by simp) generic
    · exact here (by simp) declared'
    · exact own (by simp) loose
  | packageBody read region references contents =>
    have isDeclarations : unit.declarations = tree.part.declarations := by rw [DesignUnit.declarations, contents]
    simp only [lookups, sites, contents, List.mem_append] at member
    rw [← isDeclarations] at member
    rcases member with declared' | loose
    · exact here (by simp) declared'
    · exact own (by simp) loose

/-- The names that are reported as undeclared in a package or package body are those of references which no region
around them, inside the unit, declares, and which nothing has at their place; the declarations of the unit and of the
package that it completes are all that they see. What a nested package declares is none of it, also in its body. -/
theorem undeclared_in_regions {checks : Checks} {reader : Entry} {tokens : List PlacedToken}
    (member : reader ∈ library.entries) (read : reader.unit ∈ (DesignFile.units tokens).1)
    (plain : reader.unit.hasRegion = true) :
    ∃ tree, reader.unit.Holds tree ∧
      (∀ reference, (∃ site ∈ lookups library reader.unit, site.reference.same reference = true) ↔
        reference.IsAmong (Declaration.allReferences reader.unit.generics) ∨ tree.Free reference) ∧
      (∀ site ∈ lookups library reader.unit,
        site.visible ⊆ reader.unit.generics ++ declared library reader.unit ++ reader.unit.declarations) ∧
      ∀ name position, Reports library checks reader (.undeclared name) position ↔
        (∃ site ∈ lookups library reader.unit, site.reference.name.first = name ∧ site.reference.position = position ∧
          Lookup.Unanswered library (scopeOf library reader).1 reader.unit site) ∧ ¬ ImportsOutside library reader := by
  obtain ⟨tree, holds⟩ := DesignFile.exists_holds_of_mem_units read plain
  exact ⟨tree, holds, fun _ => exists_mem_lookups_iff holds, fun _ => visible_subset_of_mem_lookups holds,
    fun _ _ => reports_undeclared_iff member⟩

namespace Nested

/-- A package body with a nested package and its body, which refers to a type of the nested package. -/
def text : String :=
  "package p is end; package body p is package n is type t is (a); end; package body n is subtype u is t; end; end;"

/-- The tokens behind the words `package body` at the second unit. -/
def bodyTokens : List PlacedToken :=
  [⟨⟨1, 32⟩, .identifier (.basic "p")⟩, ⟨⟨1, 34⟩, .keyword .is⟩, ⟨⟨1, 37⟩, .keyword .package⟩,
    ⟨⟨1, 45⟩, .identifier (.basic "n")⟩, ⟨⟨1, 47⟩, .keyword .is⟩, ⟨⟨1, 50⟩, .keyword .type⟩,
    ⟨⟨1, 55⟩, .identifier (.basic "t")⟩, ⟨⟨1, 57⟩, .keyword .is⟩, ⟨⟨1, 60⟩, .delimiter .leftParen⟩,
    ⟨⟨1, 61⟩, .identifier (.basic "a")⟩, ⟨⟨1, 62⟩, .delimiter .rightParen⟩, ⟨⟨1, 63⟩, .delimiter .semicolon⟩,
    ⟨⟨1, 65⟩, .keyword .end⟩, ⟨⟨1, 68⟩, .delimiter .semicolon⟩, ⟨⟨1, 70⟩, .keyword .package⟩,
    ⟨⟨1, 78⟩, .keyword .body⟩, ⟨⟨1, 83⟩, .identifier (.basic "n")⟩, ⟨⟨1, 85⟩, .keyword .is⟩,
    ⟨⟨1, 88⟩, .keyword .subtype⟩, ⟨⟨1, 96⟩, .identifier (.basic "u")⟩, ⟨⟨1, 98⟩, .keyword .is⟩,
    ⟨⟨1, 101⟩, .identifier (.basic "t")⟩, ⟨⟨1, 102⟩, .delimiter .semicolon⟩, ⟨⟨1, 104⟩, .keyword .end⟩,
    ⟨⟨1, 107⟩, .delimiter .semicolon⟩, ⟨⟨1, 109⟩, .keyword .end⟩, ⟨⟨1, 112⟩, .delimiter .semicolon⟩,
    ⟨⟨1, 113⟩, .endOfFile⟩]

def tokens : List PlacedToken :=
  [⟨⟨1, 1⟩, .keyword .package⟩, ⟨⟨1, 9⟩, .identifier (.basic "p")⟩, ⟨⟨1, 11⟩, .keyword .is⟩,
    ⟨⟨1, 14⟩, .keyword .end⟩, ⟨⟨1, 17⟩, .delimiter .semicolon⟩, ⟨⟨1, 19⟩, .keyword .package⟩,
    ⟨⟨1, 27⟩, .keyword .body⟩] ++ bodyTokens

/-- The reference to the type in the body of the nested package. -/
def reference : Reference := ⟨⟨.basic "t", []⟩, ⟨1, 101⟩⟩

/-- What the nested package declares: a type and its literal. -/
def items : List Declaration :=
  [TypeDeclaration.typeOf ⟨⟨1, 55⟩, .basic "t"⟩ .enumeration [] [],
    .simple ⟨⟨1, 61⟩, .basic "a"⟩ .enumerationLiteral]

/-- The body of the nested package. -/
def innerTree : RegionTree :=
  .plain (.ofDeclarations [.withReferences ⟨⟨1, 96⟩, .basic "u"⟩ .subtype [reference]]) .empty

def outerTree : RegionTree :=
  .package ⟨⟨1, 45⟩, .basic "n"⟩ [] (.plain (.ofDeclarations items) .empty)
    (.body ⟨⟨1, 83⟩, .basic "n"⟩ innerTree .empty)

def packageUnit : DesignUnit := ⟨.basic "p", ⟨1, 1⟩, .empty, [], .package [] [] none⟩

def bodyUnit : DesignUnit :=
  ⟨.basic "p", ⟨1, 19⟩, .empty, [reference], .packageBody outerTree.part.declarations⟩

theorem read_text : Lexer.readUntilFault text = (tokens, none) := by decide +kernel

theorem units_tokens : DesignFile.units tokens = ([packageUnit, bodyUnit], none) := by cbv

theorem holds_outerTree : bodyUnit.Holds outerTree := by
  have read : DesignUnit.parsePackageBody ⟨1, 19⟩ .empty bodyTokens = .ok bodyUnit [⟨⟨1, 113⟩, .endOfFile⟩] := by cbv
  have region : DesignUnit.parseBodyRegion bodyTokens = .ok outerTree (bodyTokens.drop 25) := by cbv
  exact .packageBody read region (by cbv) rfl

/-- The reference is written in the body of the nested package, which declares its name. -/
theorem completed_reference : outerTree.Completed reference := by
  have isPackage : (.basic "n", items) ∈ outerTree.packages := by
    rw [show outerTree.packages = [(.basic "n", items)] by cbv]
    exact List.mem_cons_self
  have isBody : (.basic "n", innerTree) ∈ outerTree.bodies := List.mem_cons_self
  have declared : Declaration.declares items reference.name.first = true := by decide
  have written : innerTree.Free reference := by
    rw [innerTree, RegionTree.Free, RegionTree.isAmong_handed_ofDeclarations]
    exact .inl (Reference.isAmong_of_mem List.mem_cons_self)
  exact .here isPackage isBody (Identifier.same_refl _) declared written

def oneFile : Library := ⟨.work, ["p.vhd"], [⟨packageUnit, 0⟩, ⟨bodyUnit, 0⟩], [], []⟩

theorem ofSources_text : Library.ofSources .work "elab" [("p.vhd", text)] = oneFile := by
  simp only [Library.ofSources, Library.addSources, Library.addSource, read_text, units_tokens]
  cbv

theorem mem_entries : (⟨1, bodyUnit⟩ : Entry) ∈ oneFile.entries := Library.mem_entries_iff.mpr rfl

/-- Neither the package nor its body has a context clause. -/
theorem scopeOf_bodyUnit : (scopeOf oneFile ⟨1, bodyUnit⟩).1 = .start := by
  have nothing (owner : Option Nat) : ContextItem.expand oneFile (ContextItem.ofClause .empty owner) = [] :=
    ContextItem.expand_eq_self (List.forall_mem_nil _)
  have enter (owner : Option Nat) : Scope.start.enter oneFile .empty owner = (.start, .empty) := by
    rw [Scope.enter, nothing]
    rfl
  have owner : (enterOwner oneFile bodyUnit).1 = .start := by
    have found : ownerOf? oneFile bodyUnit = some ⟨0, packageUnit⟩ := rfl
    have notConfiguration : (bodyUnit.kind == .configuration) = false := rfl
    have context : packageUnit.context = .empty := rfl
    simp only [enterOwner, found, notConfiguration, context, enter, Bool.false_eq_true, if_false]
  have context : bodyUnit.context = .empty := rfl
  rw [scopeOf_eq]
  simp only [owner, context, enter]

theorem reports_reference : Reports oneFile .standard ⟨1, bodyUnit⟩ (.undeclared (.basic "t")) ⟨1, 101⟩ := by
  have present : ⟨outerTree.part.declarations, reference⟩ ∈ lookups oneFile bodyUnit :=
    List.mem_append_right _ List.mem_cons_self
  have unanswered : Lookup.Unanswered oneFile .start bodyUnit ⟨outerTree.part.declarations, reference⟩ := by
    refine ⟨⟨⟨by decide +kernel, by decide +kernel, by decide +kernel⟩, ?_, rfl, ?_⟩, ?_, by decide +kernel⟩
    · exact List.forall_mem_nil _
    · exact List.forall_mem_nil _
    · rintro ⟨⟩
  have closed : ¬ ImportsOutside oneFile ⟨1, bodyUnit⟩ := by
    rw [← foreignAll_scopeOf rfl, scopeOf_bodyUnit]
    exact Bool.false_ne_true
  rw [reports_undeclared_iff mem_entries, scopeOf_bodyUnit]
  exact ⟨⟨_, present, rfl, rfl, unanswered⟩, closed⟩

end Nested

/-- The name in the nested body is looked up, and nothing that it sees has it. -/
theorem undeclared_in_regions_nested :
    (⟨1, Nested.bodyUnit⟩ : Entry) ∈ Nested.oneFile.entries ∧ Nested.bodyUnit ∈ (DesignFile.units Nested.tokens).1 ∧
      ∃ tree, Nested.bodyUnit.Holds tree ∧ ∃ site ∈ lookups Nested.oneFile Nested.bodyUnit,
        site.reference.name.first = .basic "t" ∧ site.reference.position = ⟨1, 101⟩ ∧ tree.Free site.reference := by
  have read : Nested.bodyUnit ∈ (DesignFile.units Nested.tokens).1 := by
    rw [Nested.units_tokens]
    exact List.mem_cons_of_mem _ List.mem_cons_self
  obtain ⟨tree, holds, lookedUp, -, reports⟩ := @undeclared_in_regions _ .standard _ _ Nested.mem_entries read rfl
  obtain ⟨⟨site, present, name, position, -⟩, -⟩ := (reports _ _).mp Nested.reports_reference
  have free := (lookedUp site.reference).mp ⟨site, present, Reference.same_refl _⟩
  exact ⟨Nested.mem_entries, read, tree, holds, site, present, name, position, free.resolve_left Reference.isAmong_nil⟩

/-- In the body of a nested package, names that the package declares are reported as undeclared. -/
theorem exists_completed_reported :
    ¬ ∀ (name : Identifier) (directive : String) (sources : List (String × String)) (checks : Checks),
      ∀ reader ∈ (Library.ofSources name directive sources).entries, ∀ tree, reader.unit.Holds tree →
        ∀ reference, tree.Completed reference →
          ¬ Reports (Library.ofSources name directive sources) checks reader (.undeclared reference.name.first)
            reference.position := by
  intro accepted
  have here := accepted .work "elab" [("p.vhd", Nested.text)] .standard
  rw [Nested.ofSources_text] at here
  exact here ⟨1, Nested.bodyUnit⟩ Nested.mem_entries _ Nested.holds_outerTree _
    Nested.completed_reference Nested.reports_reference

end Resolution

end VhdlOrder
