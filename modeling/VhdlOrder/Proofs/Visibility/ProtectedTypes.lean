import VhdlOrder.Proofs.Design.FreeNames
import VhdlOrder.Proofs.Design.Occurrences
import VhdlOrder.Proofs.Visibility.NestedBodies

/-! # Names in protected types

The region of a protected type is skipped as tokens, and each name with a prefix in it is a reference of the type,
whether or not its leading name is declared in the region. If no subprogram or package around the type declares the
leading name, it is looked up in the unit. A record element of a variable of the region, as in `r.x`, is therefore a
reference to a name `r` outside.
-/

namespace VhdlOrder

open VhdlOrder.Parser

namespace DesignUnit

variable {unit : DesignUnit} {library : Library} {reference : Reference}

/-- In a unit with a region, the references of all that the unit declares are looked up. -/
theorem exists_lookup_of_isAmong (region : unit.hasRegion = true)
    (among : reference.IsAmong (Declaration.allReferences unit.declared)) :
    ∃ site ∈ Resolution.lookups library unit, site.reference.same reference = true := by
  obtain ⟨name, position, context, references, contents⟩ := unit
  cases contents with
  | package generics declarations template =>
    cases template with
    | some template => cases region
    | none =>
      rw [declared, Declaration.allReferences, List.flatMap_append, Reference.isAmong_append] at among
      simp only [Resolution.lookups, Resolution.sites, List.mem_append, or_and_right, exists_or,
        Lookup.exists_mem_sites_iff]
      exact .inl among
  | packageBody declarations =>
    simp only [Resolution.lookups, Resolution.sites, List.mem_append, or_and_right, exists_or,
      Lookup.exists_mem_sites_iff]
    exact .inl among
  | entity | architecture | configuration | context => cases region

end DesignUnit

/-- A reference of a protected type in a unit is bound by a declaration around the type, or looked up. -/
theorem DesignFile.bound_or_lookup {text : String} {unit : DesignUnit}
    (member : unit ∈ (units (Lexer.readUntilFault text).1).1) {outer declaration : Declaration}
    {around : List Declaration} (isDeclared : outer ∈ unit.declared)
    (path : Declaration.Encloses outer around declaration) (isProtected : declaration.typeClass = some .protectedType)
    (library : Library) {reference : Reference} (isReference : reference ∈ declaration.references) :
    (∃ other ∈ around, Declaration.declares other.locals reference.name.first = true) ∨
      ∃ site ∈ Resolution.lookups library unit, site.reference.same reference = true := by
  have within := (path.within (.here isDeclared)).1
  -- a unit without a region has no protected type in it
  have region : unit.hasRegion = true := Bool.of_not_eq_false fun plain =>
    (within.isLeaf ((recorded_of_mem_units unit member).leaves plain)).typeClass isProtected
  obtain bound | ⟨other, isOther, same⟩ := bound_or_isAmong member (.here isDeclared) path isReference
  · exact .inl bound
  · have among : other ∈ Declaration.allReferences unit.declared :=
      List.mem_flatMap.mpr ⟨outer, isDeclared, isOther⟩
    exact .inr (DesignUnit.exists_lookup_of_isAmong region ⟨other, among, same⟩)

namespace TypeDeclaration

/-- The name is declared in the region of a protected type, at any depth, if the region is read as a declarative
part. -/
def DeclaredInside (inside : List PlacedToken) (name : Identifier) : Prop :=
  ∃ (last : PlacedToken) (part : DeclarativePart) (rest : List PlacedToken) (item : Declaration),
    last.value = .keyword .end ∧ DeclarativePart.parse (inside ++ [last]) = .ok part rest ∧
      Declaration.Within part.declarations item ∧ item.name.same name = true

/-- The references of a protected type are the names with a prefix that are written in its region, so none of them is
to a name that is declared in the region if and only if such names are written there without a prefix only. Where the
type stands in a unit, each of its references is looked up there if nothing around the type declares the leading
name. -/
theorem names_of_protected_region {tokens rest : List PlacedToken} {items : List Declaration}
    {declaration : Declaration} (answered : parse tokens = .ok items rest) (member : declaration ∈ items)
    (isProtected : declaration.typeClass = some .protectedType) :
    ∃ inside, Frames tokens declaration inside ∧
      (∀ reference, reference ∈ declaration.references ↔
        References.Occurs inside reference ∧ reference.name.isExpanded = true) ∧
      ((∀ reference ∈ declaration.references, ¬ DeclaredInside inside reference.name.first) ↔
        ∀ reference, References.Occurs inside reference → DeclaredInside inside reference.name.first →
          reference.name.isExpanded = false) ∧
      ∀ text, ∀ unit ∈ (DesignFile.units (Lexer.readUntilFault text).1).1, ∀ outer ∈ unit.declared, ∀ around,
        Declaration.Encloses outer around declaration → ∀ library, ∀ reference ∈ declaration.references,
          (∃ other ∈ around, Declaration.declares other.locals reference.name.first = true) ∨
            ∃ site ∈ Resolution.lookups library unit, site.reference.same reference = true := by
  obtain ⟨recorded, -⟩ := allRecorded_parse _ _ _ List.suffix_rfl answered
  obtain ⟨inside, frames, references⟩ := (recorded declaration (.here member)).protectedType isProtected
  have isReference (reference : Reference) : reference ∈ declaration.references ↔
      References.Occurs inside reference ∧ reference.name.isExpanded = true := by
    rw [references, References.expanded, List.mem_filter, References.mem_collect_iff]
  refine ⟨inside, frames, isReference, ⟨fun hidden reference occurs declared => ?_,
    fun bare reference present declared => ?_⟩, fun text unit isUnit outer isDeclared around path library reference
      present => ?_⟩
  · exact Bool.eq_false_iff.mpr fun expanded => hidden reference ((isReference _).mpr ⟨occurs, expanded⟩) declared
  · obtain ⟨occurs, expanded⟩ := (isReference _).mp present
    cases (bare reference occurs declared).symm.trans expanded
  · exact DesignFile.bound_or_lookup isUnit isDeclared path isProtected library present

namespace Private

/-- A protected body with a variable, of which its procedure writes a record element. -/
def text : String :=
  "package body p is type t is protected body variable r : rec; procedure k is begin r.x := 1; end procedure; " ++
    "end protected body; end;"

/-- Tokens on the first line. -/
def placed : List (Nat × Token) → List PlacedToken := List.map fun token => ⟨⟨1, token.1⟩, token.2⟩

def before : List PlacedToken :=
  placed [(1, .keyword .package), (9, .keyword .body), (14, .identifier (.basic "p")), (16, .keyword .is),
    (19, .keyword .type)]

def opening : List PlacedToken :=
  placed [(24, .identifier (.basic "t")), (26, .keyword .is), (29, .keyword .protected), (39, .keyword .body)]

def inside : List PlacedToken :=
  placed [(44, .keyword .variable), (53, .identifier (.basic "r")), (55, .delimiter .colon),
    (57, .identifier (.basic "rec")), (60, .delimiter .semicolon), (62, .keyword .procedure),
    (72, .identifier (.basic "k")), (74, .keyword .is), (77, .keyword .begin), (83, .identifier (.basic "r")),
    (84, .delimiter .dot), (85, .identifier (.basic "x")), (87, .delimiter .variableAssign), (90, .decimal "1"),
    (91, .delimiter .semicolon), (93, .keyword .end), (97, .keyword .procedure), (106, .delimiter .semicolon)]

def closing : List PlacedToken := placed [(108, .keyword .end), (112, .keyword .protected)]

def rest : List PlacedToken :=
  placed [(122, .keyword .body), (126, .delimiter .semicolon), (128, .keyword .end), (131, .delimiter .semicolon),
    (132, .endOfFile)]

/-- The tokens of the type declaration and those behind it. -/
def typeTokens : List PlacedToken := opening ++ inside ++ closing ++ rest

/-- The record element of the variable. -/
def element : Reference := ⟨⟨.basic "r", [.basic "x"]⟩, ⟨1, 83⟩⟩

def type : Declaration :=
  typeOf ⟨⟨1, 24⟩, .basic "t"⟩ .protectedType [element] [.basic "r", .basic "rec", .basic "k"]

def unit : DesignUnit := ⟨.basic "p", ⟨1, 1⟩, .empty, [], .packageBody [type]⟩

def library : Library := ⟨.work, ["p.vhd"], [⟨unit, 0⟩], [], []⟩

theorem read_text : Lexer.readUntilFault text = (before ++ typeTokens, none) := by decide +kernel

theorem units_tokens : DesignFile.units (before ++ typeTokens) = ([unit], none) := by cbv

theorem parse_typeTokens : parse typeTokens = .ok [type] (rest.drop 2) := by cbv

theorem unit_mem : unit ∈ (DesignFile.units (Lexer.readUntilFault text).1).1 := by
  rw [read_text, units_tokens]
  exact List.mem_singleton_self _

end Private

/-- The record element of a variable of the region is looked up in the unit. -/
theorem names_of_protected_region_element :
    ∃ inside, Frames Private.typeTokens Private.type inside ∧ References.Occurs inside Private.element ∧
      ∃ site ∈ Resolution.lookups Private.library Private.unit, site.reference.same Private.element = true := by
  have only : Private.type ∈ [Private.type] := List.mem_singleton_self _
  have isReference : Private.element ∈ Private.type.references := List.mem_singleton_self _
  obtain ⟨inside, frames, references, -, looked⟩ := names_of_protected_region Private.parse_typeTokens only rfl
  refine ⟨inside, frames, ((references _).mp isReference).1, ?_⟩
  obtain ⟨other, isAround, -⟩ | site := looked _ _ Private.unit_mem _ only _ .self Private.library _ isReference
  · cases isAround
  · exact site

/-- A reference of a protected type may be to a name that is declared in the region of the type. -/
theorem exists_reference_declared_inside :
    ¬ ∀ text, ∀ unit ∈ (DesignFile.units (Lexer.readUntilFault text).1).1, ∀ declaration,
      Declaration.Within unit.declared declaration → declaration.typeClass = some .protectedType →
        ∀ inside, Frames (withoutComments (Lexer.readUntilFault text).1) declaration inside →
          ∀ reference ∈ declaration.references, ¬ DeclaredInside inside reference.name.first := by
  intro hidden
  have within : Declaration.Within Private.unit.declared Private.type := .here (List.mem_singleton_self _)
  have frames : Frames (withoutComments (Lexer.readUntilFault Private.text).1) Private.type Private.inside := by
    have standing : Private.opening ++ Private.inside ++ Private.closing ++ Private.rest <:+
        withoutComments (Lexer.readUntilFault Private.text).1 := by
      rw [Private.read_text]
      exact ⟨Private.before, rfl⟩
    exact .intro standing rfl (.inr rfl) rfl (by cbv)
  refine hidden _ _ Private.unit_mem _ within rfl _ frames Private.element (List.mem_singleton_self _) ?_
  exact ⟨⟨⟨1, 108⟩, .keyword .end⟩, _, _, _, rfl, by cbv, .here List.mem_cons_self, by decide +kernel⟩

end TypeDeclaration

end VhdlOrder
