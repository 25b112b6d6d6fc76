import Mathlib
import VhdlOrder.Proofs.Design.Nesting
import VhdlOrder.Proofs.Design.UnitRegions

/-! # Free names of declarations

Reading a file records declarations inside declarations at any depth. Those of components, subprograms and packages are
closed, instantiations included: the tokens of a text stand at different places, so no reference in an instantiation
occurs twice. All others have no declarations inside them. The region of a protected type is taken as it stands, and
its references are all names with a prefix in it.
-/

namespace VhdlOrder

open VhdlOrder.Parser

variable {source : List PlacedToken}

/-- Whether declarations of the kind may have others inside. -/
def DeclarationKind.encloses : DeclarationKind → Bool
  | .component | .function | .procedure | .package => true
  | _ => false

/-! ## References of a piece of source -/

namespace References

variable {tokens : List PlacedToken}

/-- What is written behind a token stands further on. -/
theorem compare_of_written {token : PlacedToken} {name : Located Identifier}
    (behind : ∀ other ∈ tokens, token.Before other) (written : Written tokens name) :
    token.position.compare name.position = .lt := by
  obtain ⟨other, member, same⟩ := written
  obtain isEnd | isLess := behind other member
  · rw [Interface.designator, isEnd] at same
    cases same
  · obtain ⟨_, single, place⟩ := Written.exists_position ⟨other, List.mem_singleton_self other, same⟩
    rw [← place, List.mem_singleton.mp single]
    exact isLess

/-- The references stand at different tokens, in their order. -/
theorem pairwise_collect (ascending : tokens.Pairwise PlacedToken.Before) :
    (collect tokens).Pairwise fun first second => first.same second = false := by
  have each (selected : Bool) :
      (collectFrom selected tokens).Pairwise fun first second => first.same second = false := by
    fun_induction collectFrom selected tokens with
    | case1 => exact .nil
    | case2 selected token rest name same tail formal further dropped ih =>
      exact ih ((List.pairwise_cons.mp ascending).2.sublist (chain_sublist rest))
    | case3 selected token rest name same tail formal further kept ih =>
      obtain ⟨behind, ascending⟩ := List.pairwise_cons.mp ascending
      refine List.pairwise_cons.mpr ⟨fun reference member => ?_, ih (ascending.sublist (chain_sublist rest))⟩
      have written := isWritten_of_mem_collectFrom (chain_sublist rest).subset reference member
      refine Bool.eq_false_iff.mpr fun same => ?_
      have place : token.position = reference.position := eq_of_beq (Bool.and_eq_true_iff.mp same).2
      have less : token.position.compare reference.position = .lt := compare_of_written behind written
      rw [← place, Position.compare_eq_lt_iff] at less
      omega
    | case4 selected token rest ordinary ih => exact ih (List.pairwise_cons.mp ascending).2
  exact each false

end References

/-! ## What is recorded of a declaration -/

/-- The tokens `inside` are the region of the protected type, as far as it is skipped: they stand in the source between
the words `is protected`, or `is protected body`, behind the name of the type, and the words `end protected`. -/
inductive TypeDeclaration.Frames (source : List PlacedToken) (declaration : Declaration) (inside : List PlacedToken) :
    Prop
  | intro {opening closing rest : List PlacedToken} (standing : opening ++ inside ++ closing ++ rest <:+ source)
      (name : opening.head? = some ⟨declaration.position, .identifier declaration.name⟩)
      (words : opening.tail.map Located.value = [.keyword .is, .keyword .protected] ∨
        opening.tail.map Located.value = [.keyword .is, .keyword .protected, .keyword .body])
      (closes : closing.map Located.value = [.keyword .end, .keyword .protected])
      (skipped : Region.skip (some .protected) (inside ++ closing ++ rest) = .ok inside rest) :
      Frames source declaration inside

namespace Declaration

/-- What holds of each declaration that is read: it is closed if it is of a kind with declarations inside, and has none
inside if not; the references of a protected type are the names with a prefix in its region. -/
structure Recorded (source : List PlacedToken) (declaration : Declaration) : Prop where
  closed : declaration.kind.encloses = true → declaration.Closed
  plain : declaration.kind.encloses = false → declaration.locals = []
  protectedType : declaration.typeClass = some .protectedType → ∃ inside,
    TypeDeclaration.Frames source declaration inside ∧ declaration.references = References.expanded inside

/-- What holds of each declaration at any depth. -/
def AllRecorded (source : List PlacedToken) (items : List Declaration) : Prop :=
  ∀ declaration, Within items declaration → declaration.Recorded source

/-- Nothing is inside the declaration, and it is no protected type. -/
structure IsLeaf (declaration : Declaration) : Prop where
  kind : declaration.kind.encloses = false
  locals : declaration.locals = []
  typeClass : declaration.typeClass ≠ some .protectedType

variable {declaration : Declaration} {items first second : List Declaration} {name : Located Identifier}
  {kind : DeclarationKind}

theorem isLeaf_withReferences (plain : kind.encloses = false) (references : List Reference) :
    (withReferences name kind references).IsLeaf := ⟨plain, rfl, nofun⟩

theorem isLeaf_simple (plain : kind.encloses = false) : (simple name kind).IsLeaf := ⟨plain, rfl, nofun⟩

theorem allRecorded_nil : AllRecorded source [] := fun _ within => absurd within not_within_nil

theorem AllRecorded.append (left : AllRecorded source first) (right : AllRecorded source second) :
    AllRecorded source (first ++ second) :=
  fun declaration within => (within_append.mp within).elim (left declaration) (right declaration)

theorem allRecorded_singleton (recorded : declaration.Recorded source)
    (inside : AllRecorded source declaration.locals) : AllRecorded source [declaration] := by
  intro other within
  rcases within_cons.mp within with rfl | deeper | later
  · exact recorded
  · exact inside other deeper
  · exact absurd later not_within_nil

theorem IsLeaf.recorded (leaf : declaration.IsLeaf) : declaration.Recorded source :=
  ⟨fun encloses => absurd (leaf.kind.symm.trans encloses) Bool.false_ne_true, fun _ => leaf.locals,
    fun isProtected => absurd isProtected leaf.typeClass⟩

theorem Within.isLeaf (within : Within items declaration) (each : ∀ item ∈ items, item.IsLeaf) :
    declaration.IsLeaf := by
  cases within with
  | here member => exact each _ member
  | inside member deeper => exact absurd ((each _ member).locals ▸ deeper) not_within_nil

theorem allRecorded_of_leaves (each : ∀ item ∈ items, item.IsLeaf) : AllRecorded source items :=
  fun _ within => (within.isLeaf each).recorded

/-- What a parser reads is recorded if nothing is inside it. -/
theorem allRecorded_of_reads {front : Remainder} {parser : Parser (List Declaration)}
    (reads : Reads front parser fun items => ∀ item ∈ items, item.IsLeaf) : Reads front parser (AllRecorded source) :=
  reads.imp fun _ => allRecorded_of_leaves

/-- A declaration whose references are those of more references, with all of its locals, that are not local. -/
theorem allRecorded_outside {locals : List Declaration} {references : List Reference} {mentions : List Identifier}
    (encloses : kind.encloses = true) (inside : AllRecorded source locals) (all : allReferences locals ⊆ references) :
    AllRecorded source [{ withReferences name kind (outside locals references) with
      mentions := mentions
      locals := locals }] := by
  refine allRecorded_singleton ⟨fun _ => closed_of_outside rfl all, fun plain => ?_, nofun⟩ inside
  exact absurd (plain.symm.trans encloses) Bool.false_ne_true

/-- A declaration with references at different tokens of the source, such as an instance. -/
theorem allRecorded_collect {tokens : List PlacedToken} (ascending : tokens.Pairwise PlacedToken.Before) :
    AllRecorded source [withReferences name kind (References.collect tokens)] := by
  refine allRecorded_singleton ⟨fun _ => ?_, fun _ => rfl, nofun⟩ allRecorded_nil
  exact ⟨fun _ _ => rfl, References.pairwise_collect ascending, List.forall_mem_nil _⟩

end Declaration

/-! ## Interface lists -/

namespace Interface

variable {tokens : List PlacedToken} {items : List Declaration}

theorem isLeaf_of_element (answered : element tokens = .ok items) : ∀ item ∈ items, item.IsLeaf := by
  intro item member
  obtain ⟨name, references, rfl⟩ := exists_withReferences_of_element answered item member
  exact Declaration.isLeaf_withReferences rfl _

theorem eachElement_isLeaf {front : Remainder} : EachElement front Declaration.IsLeaf :=
  fun _ _ _ _ answered => isLeaf_of_element answered

/-- The references of the parameters are among those of the header. -/
theorem isLeaf_of_header {references : List Reference} (answered : header tokens = .ok (items, references)) :
    (∀ item ∈ items, item.IsLeaf) ∧ Declaration.allReferences items ⊆ references := by
  obtain ⟨isElements, rfl⟩ := header_eq_ok_iff.mp answered
  exact ⟨forall_of_elements (fun _ _ _ => isLeaf_of_element) isElements, List.subset_append_right _ _⟩

end Interface

/-! ## Types -/

namespace TypeDeclaration

variable {front : Remainder} {name : Located Identifier}

theorem isLeaf_typeOf {typeClass : TypeClass} {references : List Reference} {mentions : List Identifier}
    (ordinary : typeClass ≠ .protectedType) : (typeOf name typeClass references mentions).IsLeaf :=
  ⟨rfl, rfl, fun same => ordinary (Option.some.inj same)⟩

theorem reads_literals : Reads front literals fun items => ∀ item ∈ items, item.IsLeaf := by
  refine .fix fun further reads => (reads_next _).bind fun token _ => ?_
  split
  · exact .pure (List.forall_mem_nil _)
  · exact reads
  · exact reads
  · exact reads.bind fun _ others =>
      .pure (List.forall_mem_cons.mpr ⟨Declaration.isLeaf_simple rfl, others⟩)
  · exact reads_unexpected _ _

theorem reads_enumeration : Reads front (enumeration name) fun items => ∀ item ∈ items, item.IsLeaf :=
  reads_literals.bind fun _ items => (reads_delimiter _).bind fun _ _ =>
    .pure (List.forall_mem_cons.mpr ⟨isLeaf_typeOf nofun, items⟩)

theorem reads_record : Reads front (record name) fun items => ∀ item ∈ items, item.IsLeaf := by
  have elements : Reads front recordReferences fun _ => True :=
    .fix fun further reads => .accept (.pure trivial) <|
      reads_statement.bind fun _ _ => reads.bind fun _ _ => .pure trivial
  exact elements.bind fun _ _ => (reads_keyword _).bind fun _ _ => (reads_ending _ _).bind fun _ _ =>
    .pure (List.forall_mem_singleton.mpr (isLeaf_typeOf nofun))

theorem reads_units (type : Identifier) : Reads front (units type) fun items => ∀ item ∈ items, item.IsLeaf := by
  have unit (name : Located Identifier) : (Declaration.simple name .physicalUnit).IsLeaf :=
    Declaration.isLeaf_simple rfl
  have secondary : Reads front secondaryUnits fun items => ∀ item ∈ items, item.IsLeaf := by
    refine .fix fun further reads => .accept (.pure (List.forall_mem_nil _)) ?_
    exact reads_identifier.bind fun _ _ => reads_statement.bind fun _ _ => reads.bind fun _ others =>
      .pure (List.forall_mem_cons.mpr ⟨unit _, others⟩)
  exact reads_identifier.bind fun _ _ => (reads_delimiter _).bind fun _ _ => secondary.bind fun _ others =>
    (reads_keyword _).bind fun _ _ => (reads_ending _ _).bind fun _ _ =>
      .pure (List.forall_mem_cons.mpr ⟨unit _, others⟩)

theorem classOf_ne_protectedType (definition : List PlacedToken) (hasUnits : Bool) :
    classOf definition hasUnits ≠ .protectedType := by
  unfold classOf
  repeat' split
  all_goals exact nofun

theorem reads_otherDefinition : Reads front (otherDefinition name) fun items => ∀ item ∈ items, item.IsLeaf := by
  have type (definition : List PlacedToken) (hasUnits : Bool) {items : List Declaration}
      (each : ∀ item ∈ items, item.IsLeaf) : ∀ item ∈ typeOf name (classOf definition hasUnits)
        (References.collect definition) [] :: items, item.IsLeaf :=
    List.forall_mem_cons.mpr ⟨isLeaf_typeOf (classOf_ne_protectedType _ _), each⟩
  refine (reads_takeUntil _).bind fun found _ => .ite ?_ (.pure (type _ _ (List.forall_mem_nil _)))
  exact (reads_units _).bind fun _ items => .pure (type _ _ items)

variable {tokens rest : List PlacedToken} {items : List Declaration}

/-- Behind the word `protected`, and the word `body` if it follows, stands the region through the words that close
it. -/
theorem exists_region_of_protectedRegion (answered : protectedRegion name tokens = .ok items rest) :
    ∃ body inside closing behind, tokens = body ++ inside ++ closing ++ behind ∧
      (body = [] ∨ body.map Located.value = [.keyword .body]) ∧
      closing.map Located.value = [.keyword .end, .keyword .protected] ∧
      Region.skip (some .protected) (inside ++ closing ++ behind) = .ok inside behind ∧
      items = [typeOf name .protectedType (References.expanded inside) (References.mentions inside)] := by
  have declared {inside tokens : List PlacedToken} (whole : (ending [] name.value >>= fun _ =>
      pure [typeOf name .protectedType (References.expanded inside) (References.mentions inside)]) tokens =
        .ok items rest) :
      items = [typeOf name .protectedType (References.expanded inside) (References.mentions inside)] := by
    obtain ⟨_, _, -, same⟩ := bind_eq_ok_iff.mp whole
    cases same
    rfl
  obtain ⟨word, left, rfl, isWord, whole⟩ | whole := cases_of_accept_bind answered
  · obtain ⟨inside, behind, skipped, closed⟩ := bind_eq_ok_iff.mp whole
    obtain ⟨closing, rfl, words⟩ := Region.exists_closing_of_skipFrom (Region.skip_eq_ok_iff.mp skipped)
    obtain ⟨_, _, -, last⟩ := bind_eq_ok_iff.mp closed
    exact ⟨[word], inside, closing, behind, rfl, .inr (congrArg (· :: []) isWord), words, skipped, declared last⟩
  · obtain ⟨inside, behind, skipped, last⟩ := bind_eq_ok_iff.mp whole
    obtain ⟨closing, rfl, words⟩ := Region.exists_closing_of_skipFrom (Region.skip_eq_ok_iff.mp skipped)
    exact ⟨[], inside, closing, behind, rfl, .inl rfl, words, skipped, declared last⟩

theorem reads_protectedRegion : Reads front (protectedRegion name) fun _ => True := by
  have ending : Reads front (Parser.ending [] name.value) fun _ => True := reads_ending _ _
  refine .accept ((Region.reads_skip _).bind fun _ _ => ?_) ((Region.reads_skip _).bind fun _ _ => ?_)
  · exact (reads_acceptKeywords _).bind fun _ _ => ending.bind fun _ _ => .pure trivial
  · exact ending.bind fun _ _ => .pure trivial

/-- What is read of a type declaration is recorded from the source. -/
theorem allRecorded_parse : Reads (.endOf source) parse (Declaration.AllRecorded source) := by
  intro tokens items rest part answered
  obtain ⟨name, left, rfl, whole⟩ := exists_of_identifier_bind answered
  have behind := Remainder.tail _ part
  obtain ⟨semicolon, left, rfl, -, incomplete⟩ | whole := cases_of_accept_bind whole
  · have reads : Reads (.endOf source) (pure [typeOf name .incomplete [] []]) (Declaration.AllRecorded source) :=
      Declaration.allRecorded_of_reads (.pure (List.forall_mem_singleton.mpr (isLeaf_typeOf nofun)))
    exact reads _ _ _ (Remainder.tail _ behind) incomplete
  obtain ⟨is, left, rfl, isWord, definition⟩ := exists_of_keyword_bind whole
  replace behind := Remainder.tail _ behind
  obtain ⟨paren, left, rfl, -, isEnumeration⟩ | definition := cases_of_accept_bind definition
  · exact Declaration.allRecorded_of_reads reads_enumeration _ _ _ (Remainder.tail _ behind) isEnumeration
  obtain ⟨word, left, rfl, -, isRecord⟩ | definition := cases_of_accept_bind definition
  · exact Declaration.allRecorded_of_reads reads_record _ _ _ (Remainder.tail _ behind) isRecord
  obtain ⟨word, left, rfl, isProtected, region⟩ | other := cases_of_accept_bind definition
  · refine ⟨?_, (reads_protectedRegion _ _ _ (Remainder.tail _ behind) region).2⟩
    obtain ⟨body, inside, closing, after, rfl, isBody, closes, skipped, rfl⟩ := exists_region_of_protectedRegion region
    refine Declaration.allRecorded_singleton ⟨nofun, fun _ => rfl, fun _ => ⟨inside, ?_, rfl⟩⟩
      Declaration.allRecorded_nil
    have words : (is :: word :: body).map Located.value = [.keyword .is, .keyword .protected] ∨
        (is :: word :: body).map Located.value = [.keyword .is, .keyword .protected, .keyword .body] := by
      rcases isBody with rfl | isBody
      · exact .inl (by simp [isWord, isProtected])
      · exact .inr (by simp [isWord, isProtected, isBody])
    have standing : ⟨name.position, .identifier name.value⟩ :: is :: word :: body ++ inside ++ closing ++ after <:+
        source := by simpa [Remainder.endOf] using part
    exact .intro standing rfl words closes skipped
  · exact Declaration.allRecorded_of_reads reads_otherDefinition _ _ _ behind other

end TypeDeclaration

/-! ## Declarations of one statement -/

namespace SimpleDeclaration

variable {front : Remainder}

theorem reads_parseSubtype : Reads front parseSubtype Declaration.IsLeaf :=
  reads_identifier.bind fun _ _ => (reads_keyword _).bind fun _ _ => reads_statement.bind fun _ _ =>
    .pure (Declaration.isLeaf_withReferences rfl _)

theorem encloses_objectKind (word : Keyword) (hasValue : Bool) : (objectKind word hasValue).encloses = false := by
  unfold objectKind
  split
  · split <;> rfl
  all_goals rfl

theorem reads_parseObjects (position : Position) (word : Keyword) :
    Reads front (parseObjects position word) fun items => ∀ item ∈ items, item.IsLeaf := by
  refine reads_statement.bind fun _ _ => (reads_ofExcept _).imp fun items answered => ?_
  obtain ⟨behind, -, rfl⟩ := exists_map_of_objects answered
  exact List.forall_mem_map.mpr fun name _ => Declaration.isLeaf_withReferences (encloses_objectKind _ _) _

theorem reads_parseShared (position : Position) :
    Reads front (parseShared position) fun items => ∀ item ∈ items, item.IsLeaf :=
  (reads_keyword _).bind fun _ _ => reads_parseObjects _ _

theorem reads_parseAlias : Reads front parseAlias Declaration.IsLeaf :=
  (reads_next _).bind fun _ _ => (reads_ofExcept _).bind fun _ _ => reads_statement.bind fun _ _ =>
    .pure (Declaration.isLeaf_withReferences rfl _)

theorem reads_parseAttribute : Reads front parseAttribute fun found => ∀ item ∈ found.1, item.IsLeaf := by
  refine reads_identifier.bind fun _ _ => .accept ?_ ?_
  · exact reads_statement.bind fun _ _ =>
      .pure (List.forall_mem_singleton.mpr (Declaration.isLeaf_withReferences rfl _))
  · exact (reads_keyword _).bind fun _ _ => reads_statement.bind fun _ _ => .pure (List.forall_mem_nil _)

theorem allRecorded_parseComponent : Reads front parseComponent fun item => Declaration.AllRecorded source [item] := by
  refine reads_identifier.bind fun _ _ => (reads_acceptKeywords _).bind fun _ _ =>
    (reads_componentInterface Interface.eachElement_isLeaf).bind fun locals leaves => (reads_keyword _).bind fun _ _ =>
      (reads_ending _ _).bind fun _ _ => .pure ?_
  exact Declaration.allRecorded_outside rfl (Declaration.allRecorded_of_leaves leaves) (List.Subset.refl _)

end SimpleDeclaration

/-! ## Declarative parts -/

namespace DeclarativePart

variable {part : Parser DeclarativePart}

section

variable (ascending : source.Pairwise PlacedToken.Before)

include ascending

/-- An instance is declared with the names in its statement. -/
theorem allRecorded_instance {name : Located Identifier} {kind : DeclarationKind} :
    Reads (.endOf source) (statement >>= fun taken => pure (.withReferences name kind (References.collect taken)))
      fun item => Declaration.AllRecorded source [item] :=
  reads_statement.bind fun _ ⟨_, isEnd⟩ =>
    .pure (Declaration.allRecorded_collect (ascending.sublist (Remainder.sublist_of_endOf isEnd)))

variable (each : Reads (.endOf source) part fun part => Declaration.AllRecorded source part.declarations)

include each

theorem allRecorded_subprogram (word : Keyword) {kind : DeclarationKind} (encloses : kind.encloses = true) :
    Reads (.endOf source) (subprogram part word kind) fun item => Declaration.AllRecorded source [item] := by
  refine (reads_next _).bind fun _ _ => (reads_ofExcept _).bind fun name _ => (reads_takeUntil _).bind fun found _ =>
    (reads_ofExcept _).bind fun ⟨parameters, references⟩ answered => ?_
  obtain ⟨leaves, among⟩ := Interface.isLeaf_of_header answered
  have inside : Declaration.AllRecorded source parameters := Declaration.allRecorded_of_leaves leaves
  refine .ite (.pure (Declaration.allRecorded_outside encloses inside among)) ?_
  refine .accept (allRecorded_instance ascending) ?_
  refine each.bind fun body inBody => (reads_keyword _).bind fun _ _ => (Region.reads_skip _).bind fun statements _ =>
    (reads_subprogramEnding _ _).bind fun _ _ => .pure ?_
  refine Declaration.allRecorded_outside encloses (inside.append inBody) ?_
  intro reference member
  simp only [Declaration.allReferences, List.flatMap_append, List.mem_append] at member ⊢
  exact .inl (.inl (.inl (member.imp_left fun isParameter => among isParameter)))

theorem allRecorded_nestedPackage :
    Reads (.endOf source) (nestedPackage part) fun item => Declaration.AllRecorded source [item] := by
  refine reads_identifier.bind fun _ _ => (reads_keyword _).bind fun _ _ => .accept (allRecorded_instance ascending) ?_
  refine (reads_nestedGenerics Interface.eachElement_isLeaf).bind fun generics leaves => each.bind fun part inside =>
    (reads_keyword _).bind fun _ _ => (reads_ending _ _).bind fun _ _ => .pure ?_
  refine Declaration.allRecorded_outside rfl ((Declaration.allRecorded_of_leaves leaves).append inside) ?_
  exact fun reference member => List.mem_append_left _ (List.mem_append_right _ member)

theorem allRecorded_qualifiedSubprogram :
    Reads (.endOf source) (qualifiedSubprogram part) fun item => Declaration.AllRecorded source [item] := by
  refine (reads_next _).bind fun token _ => ?_
  split
  · exact allRecorded_subprogram ascending each _ rfl
  · exact allRecorded_subprogram ascending each _ rfl
  · exact reads_unexpected _ _

omit ascending in
theorem allRecorded_nestedBody :
    Reads (.endOf source) (nestedBody part) fun part => Declaration.AllRecorded source part.declarations :=
  reads_identifier.bind fun _ _ => (reads_keyword _).bind fun _ _ => each.bind fun _ _ =>
    (reads_keyword _).bind fun _ _ => (reads_ending _ _).bind fun _ _ => .pure Declaration.allRecorded_nil

theorem allRecorded_item (position : Position) (word : Keyword) :
    Reads (.endOf source) (item part position word) fun part => Declaration.AllRecorded source part.declarations := by
  have one {parser : Parser Declaration}
      (reads : Reads (.endOf source) parser fun item => Declaration.AllRecorded source [item]) :
      Reads (.endOf source) (parser >>= fun item => pure (ofDeclarations [item])) fun part =>
        Declaration.AllRecorded source part.declarations :=
    reads.bind fun _ recorded => .pure recorded
  have leaf {parser : Parser Declaration} (reads : Reads (.endOf source) parser Declaration.IsLeaf) :
      Reads (.endOf source) parser fun item => Declaration.AllRecorded source [item] :=
    reads.imp fun _ leaf => Declaration.allRecorded_of_leaves (List.forall_mem_singleton.mpr leaf)
  have several {parser : Parser (List Declaration)}
      (reads : Reads (.endOf source) parser (Declaration.AllRecorded source)) :
      Reads (.endOf source) (parser >>= fun items => pure (ofDeclarations items)) fun part =>
        Declaration.AllRecorded source part.declarations :=
    reads.bind fun _ recorded => .pure recorded
  unfold item
  split
  · exact several TypeDeclaration.allRecorded_parse
  · exact one (leaf SimpleDeclaration.reads_parseSubtype)
  iterate 4 exact several (Declaration.allRecorded_of_reads (SimpleDeclaration.reads_parseObjects _ _))
  · exact several (Declaration.allRecorded_of_reads (SimpleDeclaration.reads_parseShared _))
  · exact one (leaf SimpleDeclaration.reads_parseAlias)
  · exact SimpleDeclaration.reads_parseAttribute.bind fun _ leaves => .pure (Declaration.allRecorded_of_leaves leaves)
  · exact one SimpleDeclaration.allRecorded_parseComponent
  · exact one (allRecorded_subprogram ascending each _ rfl)
  · exact one (allRecorded_subprogram ascending each _ rfl)
  iterate 2 exact one (allRecorded_qualifiedSubprogram ascending each)
  · exact ContextClause.reads_parseUses.bind fun _ _ => .pure Declaration.allRecorded_nil
  · exact .accept (allRecorded_nestedBody each) (one (allRecorded_nestedPackage ascending each))
  · exact reads_statement.bind fun _ _ => .pure Declaration.allRecorded_nil

omit each in
theorem allRecorded_parse :
    Reads (.endOf source) parse fun part => Declaration.AllRecorded source part.declarations :=
  reads_parse Declaration.allRecorded_nil (fun _ _ left right => left.append right) fun _ each =>
    allRecorded_item ascending each

end

end DeclarativePart

/-! ## Units -/

namespace DesignUnit

variable {position : Position} {context : ContextClause}

/-- All that the unit declares itself. -/
def declared (unit : DesignUnit) : List Declaration :=
  match unit.contents with
  | .package generics declarations _ => generics ++ declarations
  | .packageBody declarations => declarations
  | .entity generics ports => generics ++ ports
  | _ => []

/-- What holds of every declaration of the unit at any depth. A unit without a region has no others in it. -/
structure Recorded (source : List PlacedToken) (unit : DesignUnit) : Prop where
  all : Declaration.AllRecorded source unit.declared
  leaves : unit.hasRegion = false → ∀ item ∈ unit.declared, item.IsLeaf

theorem Recorded.of_leaves {unit : DesignUnit} (each : ∀ item ∈ unit.declared, item.IsLeaf) : unit.Recorded source :=
  ⟨Declaration.allRecorded_of_leaves each, fun _ => each⟩

theorem recorded_parsePackage (ascending : source.Pairwise PlacedToken.Before) :
    Reads (.endOf source) (parsePackage position context) (·.Recorded source) := by
  refine reads_identifier.bind fun _ _ => (reads_keyword _).bind fun _ _ => .accept ?_ ?_
  · exact reads_selectedName.bind fun _ _ => reads_statement.bind fun _ _ => .pure (.of_leaves (List.forall_mem_nil _))
  · exact (reads_packageGenerics Interface.eachElement_isLeaf).bind fun _ leaves =>
      (DeclarativePart.allRecorded_parse ascending).bind fun _ recorded => (reads_keyword _).bind fun _ _ =>
        (reads_ending _ _).bind fun _ _ => .pure ⟨(Declaration.allRecorded_of_leaves leaves).append recorded, nofun⟩

theorem recorded_parsePackageBody (ascending : source.Pairwise PlacedToken.Before) :
    Reads (.endOf source) (parsePackageBody position context) (·.Recorded source) :=
  reads_identifier.bind fun _ _ => (reads_keyword _).bind fun _ _ =>
    (DeclarativePart.allRecorded_parse ascending).bind fun _ recorded => (reads_keyword _).bind fun _ _ =>
      (reads_ending _ _).bind fun _ _ => .pure ⟨recorded, nofun⟩

theorem recorded_parseEntity : Reads (.endOf source) (parseEntity position context) (·.Recorded source) :=
  reads_identifier.bind fun _ _ => (reads_keyword _).bind fun _ _ =>
    (reads_interfaceAfter Interface.eachElement_isLeaf _).bind fun _ generics =>
      (reads_interfaceAfter Interface.eachElement_isLeaf _).bind fun _ ports => reads_regionReferences.bind fun _ _ =>
        (reads_ending _ _).bind fun _ _ => .pure (.of_leaves (List.forall_mem_append.mpr ⟨generics, ports⟩))

end DesignUnit

namespace DesignFile

theorem recorded_of_mem_units {text : String} : ∀ unit ∈ (units (Lexer.readUntilFault text).1).1,
    unit.Recorded (withoutComments (Lexer.readUntilFault text).1) := by
  have ascending := ascending_withoutComments text
  have each : DesignUnit.EachReads (.endOf (withoutComments (Lexer.readUntilFault text).1)) (·.Recorded _) := {
    package := fun _ _ => DesignUnit.recorded_parsePackage ascending
    packageBody := fun _ _ => DesignUnit.recorded_parsePackageBody ascending
    entity := fun _ _ => DesignUnit.recorded_parseEntity
    architecture := fun _ _ => DesignUnit.reads_parseOfEntity fun _ _ _ => .of_leaves (List.forall_mem_nil _)
    configuration := fun _ _ => DesignUnit.reads_parseOfEntity fun _ _ _ => .of_leaves (List.forall_mem_nil _)
    context := fun _ _ _ => DesignUnit.reads_parseContext fun _ => .of_leaves (List.forall_mem_nil _) }
  exact forall_mem_units each List.suffix_rfl

section

variable {text : String} {unit : DesignUnit} (member : unit ∈ (units (Lexer.readUntilFault text).1).1)

include member

theorem closed_of_encloses {declaration : Declaration} (within : Declaration.Within unit.declared declaration)
    (encloses : declaration.kind.encloses = true) : declaration.Closed :=
  ((recorded_of_mem_units unit member).all declaration within).closed encloses

/-- A reference at any depth is bound by a declaration around it, or the outermost declaration has it. -/
theorem bound_or_isAmong {outer inner : Declaration} {around : List Declaration}
    (within : Declaration.Within unit.declared outer) (path : Declaration.Encloses outer around inner)
    {reference : Reference} (isReference : reference ∈ inner.references) :
    (∃ declaration ∈ around, Declaration.declares declaration.locals reference.name.first = true) ∨
      reference.IsAmong outer.references := by
  -- what has declarations inside it is of a kind that is closed
  refine path.bound_or_isAmong (fun declaration isAround => ?_) isReference
  have isWithin := (path.within within).2 declaration isAround
  refine closed_of_encloses member isWithin (Bool.of_not_eq_false fun plain => ?_)
  have recorded := (recorded_of_mem_units unit member).all declaration isWithin
  exact path.locals_ne_nil declaration isAround (recorded.plain plain)

/-- Every component, subprogram or package that is read in a unit, at any depth, is closed: it refers to none of its
locals, has no two equal references, and has every reference of its locals that is not to one of them. A reference
at any depth is therefore bound by one of the declarations around it, or the outermost of these has it. -/
theorem closed_at_every_depth :
    (∀ declaration, Declaration.Within unit.declared declaration → declaration.kind.encloses = true →
      declaration.Closed) ∧
    ∀ outer around inner, Declaration.Within unit.declared outer → Declaration.Encloses outer around inner →
      ∀ reference ∈ inner.references,
        (∃ declaration ∈ around, Declaration.declares declaration.locals reference.name.first = true) ∨
          reference.IsAmong outer.references :=
  ⟨fun _ within encloses => closed_of_encloses member within encloses,
    fun _ _ _ within path _ isReference => bound_or_isAmong member within path isReference⟩

end

namespace Nested

/-- A package with a package whose function refers to a type beside it and to one outside. -/
def text : String := "package p is package q is type t; function f (a : t) return u; end; end;"

def tokens : List PlacedToken :=
  List.map (fun token => ⟨⟨1, token.1⟩, token.2⟩)
    [(1, .keyword .package), (9, .identifier (.basic "p")), (11, .keyword .is), (14, .keyword .package),
      (22, .identifier (.basic "q")), (24, .keyword .is), (27, .keyword .type), (32, .identifier (.basic "t")),
      (33, .delimiter .semicolon), (35, .keyword .function), (44, .identifier (.basic "f")),
      (46, .delimiter .leftParen), (47, .identifier (.basic "a")), (49, .delimiter .colon),
      (51, .identifier (.basic "t")), (52, .delimiter .rightParen), (54, .keyword .return),
      (61, .identifier (.basic "u")), (62, .delimiter .semicolon), (64, .keyword .end), (67, .delimiter .semicolon),
      (69, .keyword .end), (72, .delimiter .semicolon), (73, .endOfFile)]

def bound : Reference := ⟨⟨.basic "t", []⟩, ⟨1, 51⟩⟩

def free : Reference := ⟨⟨.basic "u", []⟩, ⟨1, 61⟩⟩

def function : Declaration :=
  { Declaration.withReferences ⟨⟨1, 44⟩, .basic "f"⟩ .function [free, bound] with
    locals := [.withReferences ⟨⟨1, 47⟩, .basic "a"⟩ .interface [bound]] }

def package : Declaration :=
  { Declaration.withReferences ⟨⟨1, 22⟩, .basic "q"⟩ .package [free] with
    locals := [TypeDeclaration.typeOf ⟨⟨1, 32⟩, .basic "t"⟩ .incomplete [] [], function] }

def unit : DesignUnit := ⟨.basic "p", ⟨1, 1⟩, .empty, [], .package [] [package] none⟩

theorem read_text : Lexer.readUntilFault text = (tokens, none) := by decide +kernel

theorem units_tokens : units tokens = ([unit], none) := by cbv

end Nested

/-- The reference to the type beside the function is bound by the package around it, and the package has the other
one. -/
theorem closed_at_every_depth_nested :
    Nested.package.Closed ∧ Nested.function.Closed ∧ ∀ reference ∈ Nested.function.references,
      (∃ declaration ∈ [Nested.package], Declaration.declares declaration.locals reference.name.first = true) ∨
        reference.IsAmong Nested.package.references := by
  have member : Nested.unit ∈ (units (Lexer.readUntilFault Nested.text).1).1 := by
    rw [Nested.read_text, Nested.units_tokens]
    exact List.mem_singleton_self _
  obtain ⟨closed, bound⟩ := closed_at_every_depth member
  have outer : Declaration.Within Nested.unit.declared Nested.package := .here (List.mem_singleton_self _)
  have isLocal : Nested.function ∈ Nested.package.locals := .tail _ (List.mem_singleton_self _)
  exact ⟨closed _ outer rfl, closed _ (outer.step isLocal) rfl, bound _ _ _ outer (.inside isLocal .self)⟩

end DesignFile

end VhdlOrder
