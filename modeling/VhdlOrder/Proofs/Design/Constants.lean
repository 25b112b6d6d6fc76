import VhdlOrder.Proofs.Design.ReadUnits

/-! # How constants are declared

A constant is declared by a statement behind the word `constant`: names, a colon, and what is said of all of them. They
are deferred constants if no value is given behind the colon. No other item of a declarative part declares constants,
and only functions and procedures declare what may have statements behind its declarations.
-/

namespace VhdlOrder

open VhdlOrder.Parser

variable {front : Remainder}

namespace DeclarationKind

/-- Whether what is declared is neither an object nor a subprogram or package. -/
def isPlain : DeclarationKind → Bool
  | .type | .subtype | .enumerationLiteral | .physicalUnit | .alias | .attributeName | .component => true
  | _ => false

/-- Whether a constant is declared, with a value or without one. -/
def isConstant (kind : DeclarationKind) : Bool := kind == .constant || kind == .deferredConstant

theorem isConstant_of_isPlain {kind : DeclarationKind} (plain : kind.isPlain = true) : kind.isConstant = false := by
  cases kind <;> first | rfl | cases plain

end DeclarationKind

namespace SimpleDeclaration

/-- Whether a value is given in the statement, that is behind its first colon. -/
def hasValue (statement : List PlacedToken) : Bool :=
  ((Interface.behind? (.delimiter .colon) statement).getD []).any fun token => token.value.isDelimiter .variableAssign

end SimpleDeclaration

/-- The constant is declared by the statement, which the word `constant` stands in front of: its name is one of those in
front of the colon, and it is deferred if no value is given. -/
structure Declaration.IsConstantOf (statement : List PlacedToken) (constant : Declaration) : Prop where
  named : ⟨constant.position, constant.name⟩ ∈ Interface.identifiers (Interface.before (.delimiter .colon) statement)
  kind : constant.kind = if SimpleDeclaration.hasValue statement then .constant else .deferredConstant

/-- If the declaration is one of a constant, the statement that declares it is there. -/
def Declaration.ConstantRead (front : Remainder) (declaration : Declaration) : Prop :=
  declaration.kind.isConstant = true →
    ∃ statement rest, front.holds (statement ++ rest) ∧ declaration.IsConstantOf statement

theorem Declaration.constantRead_of_plain {declaration : Declaration} (plain : declaration.kind.isPlain = true) :
    declaration.ConstantRead front := by
  intro isConstant
  rw [DeclarationKind.isConstant_of_isPlain plain] at isConstant
  cases isConstant

/-! ## Types -/

namespace TypeDeclaration

theorem plain_literals : Reads front literals fun items => ∀ item ∈ items, item.kind.isPlain = true := by
  refine .fix fun further reads => (reads_next _).bind fun token _ => ?_
  split
  · exact .pure (List.forall_mem_nil _)
  · exact reads
  · exact reads
  · exact reads.bind fun _ others => .pure (List.forall_mem_cons.mpr ⟨rfl, others⟩)
  · exact reads_unexpected _ _

theorem plain_units (name : Identifier) :
    Reads front (units name) fun items => ∀ item ∈ items, item.kind.isPlain = true := by
  have secondary : Reads front secondaryUnits fun items => ∀ item ∈ items, item.kind.isPlain = true := by
    refine .fix fun further reads => .accept (.pure (List.forall_mem_nil _)) ?_
    exact reads_identifier.bind fun _ _ => reads_statement.bind fun _ _ => reads.bind fun _ others =>
      .pure (List.forall_mem_cons.mpr ⟨rfl, others⟩)
  exact reads_identifier.bind fun _ _ => (reads_delimiter _).bind fun _ _ => secondary.bind fun _ others =>
    (reads_keyword _).bind fun _ _ => (reads_ending _ _).bind fun _ _ =>
      .pure (List.forall_mem_cons.mpr ⟨rfl, others⟩)

theorem plain_parse : Reads front parse fun items => ∀ item ∈ items, item.kind.isPlain = true := by
  have single {name : Located Identifier} {typeClass : TypeClass} {references : List Reference}
      {mentions : List Identifier} :
      ∀ item ∈ [typeOf name typeClass references mentions], item.kind.isPlain = true :=
    List.forall_mem_singleton.mpr rfl
  refine reads_identifier.bind fun name _ => .accept (.pure single) ?_
  refine (reads_keyword _).bind fun _ _ => .accept ?enumeration (.accept ?record (.accept ?region ?other))
  case enumeration =>
    exact plain_literals.bind fun _ items => (reads_delimiter _).bind fun _ _ =>
      .pure (List.forall_mem_cons.mpr ⟨rfl, items⟩)
  case record =>
    have elements : Reads front recordReferences fun _ => True :=
      .fix fun _ reads => .accept (.pure trivial) (reads_statement.bind fun _ _ => reads.bind fun _ _ => .pure trivial)
    exact elements.bind fun _ _ => (reads_keyword _).bind fun _ _ => (reads_ending _ _).bind fun _ _ =>
      .pure single
  case region =>
    have ending (inside : List PlacedToken) : Reads front (Parser.ending [] name.value >>= fun _ => pure
        [typeOf name .protectedType (References.expanded inside) (References.mentions inside)])
          fun items => ∀ item ∈ items, item.kind.isPlain = true :=
      (reads_ending _ _).bind fun _ _ => .pure single
    refine .accept ((Region.reads_skip _).bind fun _ _ => ?_) ((Region.reads_skip _).bind fun _ _ => ending _)
    exact (reads_acceptKeywords _).bind fun _ _ => ending _
  case other =>
    refine (reads_takeUntil _).bind fun _ _ => .ite ?_ (.pure single)
    exact (plain_units _).bind fun _ items => .pure (List.forall_mem_cons.mpr ⟨rfl, items⟩)

end TypeDeclaration

/-! ## Declarations of one statement -/

namespace SimpleDeclaration

theorem plain_parseSubtype : Reads front parseSubtype (·.kind.isPlain = true) :=
  reads_identifier.bind fun _ _ => (reads_keyword _).bind fun _ _ => reads_statement.bind fun _ _ => .pure rfl

theorem plain_parseAlias : Reads front parseAlias (·.kind.isPlain = true) :=
  (reads_next _).bind fun _ _ => (reads_ofExcept _).bind fun _ _ => reads_statement.bind fun _ _ => .pure rfl

theorem plain_parseAttribute : Reads front parseAttribute fun found => ∀ item ∈ found.1, item.kind.isPlain = true := by
  refine reads_identifier.bind fun _ _ => .accept ?_ ?_
  · exact reads_statement.bind fun _ _ => .pure (List.forall_mem_singleton.mpr rfl)
  · exact (reads_keyword _).bind fun _ _ => reads_statement.bind fun _ _ => .pure (List.forall_mem_nil _)

theorem plain_parseComponent : Reads front parseComponent (·.kind.isPlain = true) := by
  have each : Interface.EachElement front fun _ => True := fun _ _ _ _ _ _ _ => trivial
  exact reads_identifier.bind fun _ _ => (reads_acceptKeywords _).bind fun _ _ =>
    (reads_componentInterface each).bind fun _ _ => (reads_keyword _).bind fun _ _ =>
      (reads_ending _ _).bind fun _ _ => .pure rfl

/-- The declarations of an object statement are objects, with the names in front of the colon. -/
theorem of_objects {position : Position} {word : Keyword} {statement : List PlacedToken} {items : List Declaration}
    (answered : objects position word statement = .ok items) : ∀ item ∈ items,
      item.kind = objectKind word (hasValue statement) ∧
        ⟨item.position, item.name⟩ ∈ Interface.identifiers (Interface.before (.delimiter .colon) statement) := by
  obtain ⟨behind, found, rfl⟩ := exists_map_of_objects answered
  intro item member
  obtain ⟨name, isName, rfl⟩ := List.mem_map.mp member
  refine ⟨?_, isName⟩
  rw [hasValue, found]
  rfl

theorem eq_constant_of_objectKind {word : Keyword} {given : Bool} (isConstant : (objectKind word given).isConstant = true) :
    word = .constant := by
  unfold objectKind at isConstant
  split at isConstant
  · rfl
  all_goals cases isConstant

/-- Behind the word `constant`, objects are constants, and nothing else declares constants. -/
theorem constantRead_parseObjects (position : Position) (word : Keyword) :
    Reads front (parseObjects position word) fun items => ∀ item ∈ items, item.ConstantRead front := by
  refine reads_statement.bind fun statement ⟨rest, part⟩ => (reads_ofExcept _).imp fun items answered item member => ?_
  intro isConstant
  obtain ⟨kind, named⟩ := of_objects answered item member
  obtain rfl := eq_constant_of_objectKind (kind ▸ isConstant)
  exact ⟨statement, rest, part, named, kind⟩

end SimpleDeclaration

/-! ## Declarative parts -/

namespace DeclarativePart

variable {part : Parser DeclarativePart}

theorem kind_subprogram (word : Keyword) (kind : DeclarationKind) :
    Reads front part (fun _ => True) → Reads front (subprogram part word kind) (·.kind = kind) := by
  intro reads
  refine (reads_next _).bind fun _ _ => (reads_ofExcept _).bind fun _ _ => (reads_takeUntil _).bind fun _ _ =>
    (reads_ofExcept _).bind fun _ _ => .ite (.pure rfl) (.accept (reads_statement.bind fun _ _ => .pure rfl) ?_)
  exact reads.bind fun _ _ => (reads_keyword _).bind fun _ _ => (Region.reads_skip _).bind fun _ _ =>
    (reads_subprogramEnding _ _).bind fun _ _ => .pure rfl

theorem kind_qualifiedSubprogram (reads : Reads front part fun _ => True) :
    Reads front (qualifiedSubprogram part) fun item => item.kind = .function ∨ item.kind = .procedure := by
  refine (reads_next _).bind fun _ _ => ?_
  split
  · exact (kind_subprogram _ _ reads).imp fun _ => .inl
  · exact (kind_subprogram _ _ reads).imp fun _ => .inr
  · exact reads_unexpected _ _

theorem kind_nestedPackage (reads : Reads front part fun _ => True) :
    Reads front (nestedPackage part) (·.kind = .package) := by
  have each : Interface.EachElement front fun _ => True := fun _ _ _ _ _ _ _ => trivial
  refine reads_identifier.bind fun _ _ => (reads_keyword _).bind fun _ _ =>
    .accept (reads_statement.bind fun _ _ => .pure rfl) ?_
  exact (reads_nestedGenerics each).bind fun _ _ => reads.bind fun _ _ => (reads_keyword _).bind fun _ _ =>
    (reads_ending _ _).bind fun _ _ => .pure rfl

theorem none_nestedBody (reads : Reads front part fun _ => True) :
    Reads front (nestedBody part) (·.declarations = []) :=
  reads_identifier.bind fun _ _ => (reads_keyword _).bind fun _ _ => reads.bind fun _ _ =>
    (reads_keyword _).bind fun _ _ => (reads_ending _ _).bind fun _ _ => .pure rfl

/-- Each item of a declarative part declares constants by a statement behind the word `constant`, if it does. -/
theorem constantRead_item (reads : Reads front part fun _ => True) (position : Position) (word : Keyword) :
    Reads front (item part position word) fun found => ∀ item ∈ found.declarations, item.ConstantRead front := by
  have several {parser : Parser (List Declaration)}
      (reads : Reads front parser fun items => ∀ item ∈ items, item.ConstantRead front) :
      Reads front (parser >>= fun items => pure (ofDeclarations items))
        fun found => ∀ item ∈ found.declarations, item.ConstantRead front :=
    reads.bind fun _ each => .pure each
  have plain {items : List Declaration} (each : ∀ item ∈ items, item.kind.isPlain = true) :
      ∀ item ∈ items, item.ConstantRead front :=
    fun item member => Declaration.constantRead_of_plain (each item member)
  have one {parser : Parser Declaration} (reads : Reads front parser (·.kind.isConstant = false)) :
      Reads front (parser >>= fun item => pure (ofDeclarations [item]))
        fun found => ∀ item ∈ found.declarations, item.ConstantRead front :=
    reads.bind fun item other => .pure (List.forall_mem_singleton.mpr fun isConstant =>
      absurd (other.symm.trans isConstant) Bool.false_ne_true)
  have region {kind : DeclarationKind} {parser : Parser Declaration} (other : kind.isConstant = false)
      (reads : Reads front parser (·.kind = kind)) := one (reads.imp fun _ same => same ▸ other)
  have simple {parser : Parser Declaration} (reads : Reads front parser (·.kind.isPlain = true)) :=
    one (reads.imp fun _ => DeclarationKind.isConstant_of_isPlain)
  have qualified := one ((kind_qualifiedSubprogram reads).imp fun item either => by
    rcases either with same | same <;> rw [same] <;> rfl)
  unfold item
  split
  · exact several (TypeDeclaration.plain_parse.imp fun _ => plain)
  · exact simple SimpleDeclaration.plain_parseSubtype
  iterate 4 exact several (SimpleDeclaration.constantRead_parseObjects _ _)
  · exact several ((reads_keyword _).bind fun _ _ => SimpleDeclaration.constantRead_parseObjects _ _)
  · exact simple SimpleDeclaration.plain_parseAlias
  · exact SimpleDeclaration.plain_parseAttribute.bind fun _ each => .pure (plain each)
  · exact simple SimpleDeclaration.plain_parseComponent
  · exact region rfl (kind_subprogram _ .function reads)
  · exact region rfl (kind_subprogram _ .procedure reads)
  iterate 2 exact qualified
  · exact ContextClause.reads_parseUses.bind fun _ _ => .pure (List.forall_mem_nil _)
  · exact .accept ((none_nestedBody reads).imp fun _ none => none ▸ List.forall_mem_nil _)
      (region rfl (kind_nestedPackage reads))
  · exact reads_statement.bind fun _ _ => .pure (List.forall_mem_nil _)

/-- Every constant of a declarative part is declared by a statement behind the word `constant`. -/
theorem constantRead_parse :
    Reads front parse fun found => ∀ item ∈ found.declarations, item.ConstantRead front :=
  reads_parse (List.forall_mem_nil _) (fun _ _ left right => List.forall_mem_append.mpr ⟨left, right⟩)
    fun _ reads => constantRead_item (reads.imp fun _ _ => trivial)

end DeclarativePart

/-! ## Units -/

namespace DesignUnit

/-- Every constant that the unit declares is declared by a statement that stands in the tokens, and a package that is
an instance declares nothing. -/
structure ReadsConstants (front : Remainder) (unit : DesignUnit) : Prop where
  constants : ∀ item ∈ unit.declarations, item.ConstantRead front
  ofInstance : unit.template?.isSome = true → unit.declarations = []

theorem ReadsConstants.of_eq_nil {unit : DesignUnit} (none : unit.declarations = []) : unit.ReadsConstants front :=
  ⟨none ▸ List.forall_mem_nil _, fun _ => none⟩

variable {position : Position} {context : ContextClause}

theorem readsConstants_parsePackage : Reads front (parsePackage position context) (·.ReadsConstants front) := by
  have each : Interface.EachElement front fun _ => True := fun _ _ _ _ _ _ _ => trivial
  refine reads_identifier.bind fun _ _ => (reads_keyword _).bind fun _ _ => .accept ?_ ?_
  · exact reads_selectedName.bind fun _ _ => reads_statement.bind fun _ _ => .pure (.of_eq_nil rfl)
  · exact (reads_packageGenerics each).bind fun _ _ => DeclarativePart.constantRead_parse.bind fun _ constants =>
      (reads_keyword _).bind fun _ _ => (reads_ending _ _).bind fun _ _ => .pure ⟨constants, nofun⟩

theorem readsConstants_parsePackageBody : Reads front (parsePackageBody position context) (·.ReadsConstants front) :=
  reads_identifier.bind fun _ _ => (reads_keyword _).bind fun _ _ =>
    DeclarativePart.constantRead_parse.bind fun _ constants => (reads_keyword _).bind fun _ _ =>
      (reads_ending _ _).bind fun _ _ => .pure ⟨constants, nofun⟩

theorem readsConstants_parseEntity : Reads front (parseEntity position context) (·.ReadsConstants front) := by
  have each : Interface.EachElement front fun _ => True := fun _ _ _ _ _ _ _ => trivial
  exact reads_identifier.bind fun _ _ => (reads_keyword _).bind fun _ _ => (reads_interfaceAfter each _).bind fun _ _ =>
    (reads_interfaceAfter each _).bind fun _ _ => reads_regionReferences.bind fun _ _ =>
      (reads_ending _ _).bind fun _ _ => .pure (.of_eq_nil rfl)

end DesignUnit

namespace DesignFile

theorem readsConstants_of_mem_units {tokens : List PlacedToken} :
    ∀ unit ∈ (units tokens).1, unit.ReadsConstants (.endOf (withoutComments tokens)) := by
  have each : DesignUnit.EachReads (.endOf (withoutComments tokens)) (·.ReadsConstants _) := {
    package := fun _ _ => DesignUnit.readsConstants_parsePackage
    packageBody := fun _ _ => DesignUnit.readsConstants_parsePackageBody
    entity := fun _ _ => DesignUnit.readsConstants_parseEntity
    architecture := fun _ _ => DesignUnit.reads_parseOfEntity fun _ _ _ => .of_eq_nil rfl
    configuration := fun _ _ => DesignUnit.reads_parseOfEntity fun _ _ _ => .of_eq_nil rfl
    context := fun _ _ _ => DesignUnit.reads_parseContext fun _ => .of_eq_nil rfl }
  exact forall_mem_units each List.suffix_rfl

end DesignFile

end VhdlOrder
