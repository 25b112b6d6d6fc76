import VhdlOrder.Proofs.Design.ReadUnits
import VhdlOrder.Proofs.Design.Yields

/-! # Design units as they are written

Everything that a design unit names is written in the tokens of its file: the names of its context clause,
its references, what it declares at any depth and what that refers to. Nothing is moved to another place
where references are taken out of a subprogram or of a nested package.
-/

namespace VhdlOrder

open VhdlOrder.Parser

variable {source : List PlacedToken}

/-- The names of a context clause are written at their places. -/
structure ContextClause.IsWritten (source : List PlacedToken) (clause : ContextClause) : Prop where
  libraries : ∀ name ∈ clause.libraries, Written source name
  uses : ∀ use ∈ clause.uses, use.reference.IsWritten source
  contexts : ∀ context ∈ clause.contexts, context.IsWritten source

/-- What the items of a declarative part name is written at its places. -/
structure DeclarativePart.IsWritten (source : List PlacedToken) (part : DeclarativePart) : Prop where
  declarations : ∀ declaration ∈ part.declarations, declaration.IsWritten source
  uses : ∀ use ∈ part.uses, use.reference.IsWritten source
  references : ∀ reference ∈ part.references, reference.IsWritten source

/-- What the contents of a design unit name is written at its places. -/
def UnitContents.IsWritten (source : List PlacedToken) : UnitContents → Prop
  | .package generics declarations template =>
      (∀ declaration ∈ generics ++ declarations, declaration.IsWritten source) ∧
        ∀ reference ∈ template, reference.IsWritten source
  | .packageBody declarations => ∀ declaration ∈ declarations, declaration.IsWritten source
  | .entity generics ports => ∀ declaration ∈ generics ++ ports, declaration.IsWritten source
  | .architecture _ | .configuration _ => True
  | .context clause => clause.IsWritten source

/-- What a design unit names is written at its places. -/
structure DesignUnit.IsWritten (source : List PlacedToken) (unit : DesignUnit) : Prop where
  context : unit.context.IsWritten source
  references : ∀ reference ∈ unit.references, reference.IsWritten source
  contents : unit.contents.IsWritten source

/-! ## Context clauses -/

namespace ContextClause

theorem IsWritten.empty : empty.IsWritten source := by
  constructor <;> exact List.forall_mem_nil _

theorem IsWritten.append {first second : ContextClause} (left : first.IsWritten source)
    (right : second.IsWritten source) : (first.append second).IsWritten source :=
  ⟨List.forall_mem_append.mpr ⟨left.libraries, right.libraries⟩,
    List.forall_mem_append.mpr ⟨left.uses, right.uses⟩,
    List.forall_mem_append.mpr ⟨left.contexts, right.contexts⟩⟩

theorem IsWritten.addUses {clause : ContextClause} {uses : List UseClause} (written : clause.IsWritten source)
    (each : ∀ use ∈ uses, use.reference.IsWritten source) : (clause.addUses uses).IsWritten source :=
  ⟨written.libraries, List.forall_mem_append.mpr ⟨written.uses, each⟩, written.contexts⟩

theorem yields_parseUses : Yields source parseUses fun uses => ∀ use ∈ uses, use.reference.IsWritten source :=
  reads_commaList (yields_selectedName.bind fun _ written => .pure written)

theorem yields_parseLibraryItem : Yields source parseLibraryItem (·.IsWritten source) :=
  (reads_commaList yields_identifier).bind fun _ each =>
    .pure ⟨each, IsWritten.empty.uses, IsWritten.empty.contexts⟩

theorem yields_parseUseItem : Yields source parseUseItem (·.IsWritten source) :=
  yields_parseUses.bind fun _ each => .pure ⟨IsWritten.empty.libraries, each, IsWritten.empty.contexts⟩

theorem yields_parseContextItem {first : Located Identifier} (written : Written source first) :
    Yields source (parseContextItem first) (·.IsWritten source) := by
  have names : Yields source (parseContextsAfter first) fun contexts =>
      ∀ context ∈ contexts, context.IsWritten source := by
    refine (reads_selectedNameAfter _).bind fun (name, _) same => ?_
    have isWritten : Reference.IsWritten source ⟨name, first.position⟩ := by
      unfold Reference.IsWritten
      rw [same]
      exact written
    refine .accept ?_ ((reads_delimiter _).bind fun _ _ => .pure (List.forall_mem_singleton.mpr isWritten))
    exact (reads_commaList (yields_selectedName.bind fun _ written => .pure written)).bind fun _ others =>
      .pure (List.forall_mem_cons.mpr ⟨isWritten, others⟩)
  exact names.bind fun _ each => .pure ⟨IsWritten.empty.libraries, IsWritten.empty.uses, each⟩

theorem yields_parseItems : Yields source parseItems (·.IsWritten source) := by
  refine .fix fun further yields => (yields_next _).bind fun token member => ?_
  split
  · exact .pure .empty
  · exact yields_parseLibraryItem.bind fun _ first => yields.bind fun _ more => .pure (first.append more)
  · exact yields_parseUseItem.bind fun _ first => yields.bind fun _ more => .pure (first.append more)
  · exact yields_identifier.bind fun name written => (yields_parseContextItem written).bind fun _ first =>
      yields.bind fun _ more => .pure (first.append more)
  · exact reads_unexpected _ _

end ContextClause

/-! ## Declarations -/

namespace SimpleDeclaration

theorem yields_parseSubtype : Yields source parseSubtype (·.IsWritten source) :=
  yields_identifier.bind fun _ written => (reads_keyword _).bind fun _ _ => yields_statement.bind fun _ part =>
    .pure (.withReferences written _ (References.isWritten_of_mem_collect part))

theorem yields_parseObjects (position : Position) (word : Keyword) :
    Yields source (parseObjects position word) fun items => ∀ item ∈ items, item.IsWritten source := by
  refine yields_statement.bind fun tokens part => (reads_ofExcept _).imp fun items answered => ?_
  obtain ⟨behind, found, rfl⟩ := exists_map_of_objects answered
  intro item member
  obtain ⟨name, present, rfl⟩ := List.mem_map.mp member
  have names : Interface.before (.delimiter .colon) tokens ⊆ source :=
    List.Subset.trans (List.takeWhile_prefix _).subset part
  exact .withReferences (Interface.isWritten_of_mem_identifiers names name present) _
    (References.isWritten_of_mem_collect (List.Subset.trans (Interface.behind?_subset found) part))

theorem yields_parseShared (position : Position) :
    Yields source (parseShared position) fun items => ∀ item ∈ items, item.IsWritten source :=
  (reads_keyword _).bind fun _ _ => yields_parseObjects position _

theorem yields_parseAlias : Yields source parseAlias (·.IsWritten source) :=
  (yields_next _).bind fun token member => (reads_ofExcept _).bind fun _ same =>
    yields_statement.bind fun _ part =>
      .pure (.withReferences ⟨token, member, same⟩ _ (References.isWritten_of_mem_collect part))

theorem yields_parseAttribute :
    Yields source parseAttribute fun found => (∀ item ∈ found.1, item.IsWritten source) ∧
      ∀ reference ∈ found.2, reference.IsWritten source := by
  refine yields_identifier.bind fun name written => .accept ?_ ?_
  · refine yields_statement.bind fun _ part => .pure ⟨?_, List.forall_mem_nil _⟩
    exact List.forall_mem_singleton.mpr
      (.withReferences written _ (References.isWritten_of_mem_collect part))
  · refine (reads_keyword _).bind fun _ _ => yields_statement.bind fun specification part => .pure ?_
    have value : (Interface.behind? (.keyword .is) specification).getD [] ⊆ source := by
      cases found : Interface.behind? (.keyword .is) specification with
      | none => exact List.nil_subset _
      | some rest => exact List.Subset.trans (Interface.behind?_subset found) part
    exact ⟨List.forall_mem_nil _,
      List.forall_mem_cons.mpr ⟨written, References.isWritten_of_mem_collect value⟩⟩

theorem yields_parseComponent : Yields source parseComponent (·.IsWritten source) := by
  refine yields_identifier.bind fun name written => (reads_acceptKeywords _).bind fun _ _ => ?_
  refine (reads_componentInterface Interface.eachElement_isWritten).bind fun locals each => ?_
  refine (reads_keyword _).bind fun _ _ => (reads_ending _ _).bind fun _ _ => .pure ?_
  refine .intro written (fun reference member => ?_) each
  exact Declaration.isWritten_of_mem_allReferences each reference (Declaration.outside_subset _ _ member)

end SimpleDeclaration

namespace TypeDeclaration

theorem isWritten_typeOf {name : Located Identifier} (written : Written source name) (typeClass : TypeClass)
    {references : List Reference} (each : ∀ reference ∈ references, reference.IsWritten source)
    (mentions : List Identifier) : (typeOf name typeClass references mentions).IsWritten source :=
  .intro written each (List.forall_mem_nil _)

theorem yields_literals : Yields source literals fun items => ∀ item ∈ items, item.IsWritten source := by
  refine .fix fun further yields => (yields_next _).bind fun token member => ?_
  split
  · exact .pure (List.forall_mem_nil _)
  · exact yields
  · exact yields
  · rename_i name same
    exact yields.bind fun _ more =>
      .pure (List.forall_mem_cons.mpr ⟨.simple (.of_identifier member same) _, more⟩)
  · exact reads_unexpected _ _

theorem yields_recordReferences :
    Yields source recordReferences fun references => ∀ reference ∈ references, reference.IsWritten source := by
  refine .fix fun further yields => .accept (.pure (List.forall_mem_nil _)) ?_
  refine yields_statement.bind fun tokens part => yields.bind fun _ more => .pure ?_
  exact List.forall_mem_append.mpr
    ⟨References.isWritten_of_mem_collect (List.Subset.trans (List.dropWhile_suffix _).subset part), more⟩

theorem yields_units (name : Identifier) :
    Yields source (units name) fun items => ∀ item ∈ items, item.IsWritten source := by
  have further : Yields source secondaryUnits fun items => ∀ item ∈ items, item.IsWritten source := by
    refine .fix fun further yields => .accept (.pure (List.forall_mem_nil _)) ?_
    exact yields_identifier.bind fun _ written => yields_statement.bind fun _ _ => yields.bind fun _ more =>
      .pure (List.forall_mem_cons.mpr ⟨.simple written _, more⟩)
  exact yields_identifier.bind fun _ written => (reads_delimiter _).bind fun _ _ => further.bind fun _ more =>
    (reads_keyword _).bind fun _ _ => (reads_ending _ _).bind fun _ _ =>
      .pure (List.forall_mem_cons.mpr ⟨.simple written _, more⟩)

theorem yields_parse : Yields source parse fun items => ∀ item ∈ items, item.IsWritten source := by
  have nothing : ∀ reference ∈ ([] : List Reference), reference.IsWritten source :=
    List.forall_mem_nil _
  refine yields_identifier.bind fun name written => ?_
  have incomplete := isWritten_typeOf written .incomplete nothing []
  refine .accept (.pure (List.forall_mem_singleton.mpr incomplete)) ((reads_keyword _).bind fun _ _ => ?_)
  refine .accept ?enumeration (.accept ?record (.accept ?region ?other))
  case enumeration =>
    exact yields_literals.bind fun _ items => (reads_delimiter _).bind fun _ _ =>
      .pure (List.forall_mem_cons.mpr ⟨isWritten_typeOf written _ nothing _, items⟩)
  case record =>
    exact yields_recordReferences.bind fun _ references => (reads_keyword _).bind fun _ _ =>
      (reads_ending _ _).bind fun _ _ =>
        .pure (List.forall_mem_singleton.mpr (isWritten_typeOf written _ references _))
  case region =>
    have rest (inside : List PlacedToken) (part : inside ⊆ source) :
        Yields source (ending [] name.value >>= fun _ => pure
          [typeOf name .protectedType (References.expanded inside) (References.mentions inside)])
          fun items => ∀ item ∈ items, item.IsWritten source :=
      (reads_ending _ _).bind fun _ _ => .pure (List.forall_mem_singleton.mpr
        (isWritten_typeOf written _ (References.isWritten_of_mem_expanded part) _))
    refine (reads_accept _).bind fun isBody _ => (Region.yields_skip _).bind fun inside part => ?_
    cases isBody with
    | true => exact (reads_acceptKeywords _).bind fun _ _ => rest inside part
    | false => exact rest inside part
  case other =>
    refine (yields_takeUntil _).bind fun (definition, stop) found => ?_
    have type (hasUnits : Bool) :=
      isWritten_typeOf written (classOf definition hasUnits) (References.isWritten_of_mem_collect found.1) []
    refine .ite ?_ ?_
    · exact (yields_units _).bind fun _ items => .pure (List.forall_mem_cons.mpr ⟨type _, items⟩)
    · exact .pure (List.forall_mem_singleton.mpr (type _))

end TypeDeclaration

/-! ## Declarative parts -/

namespace DeclarativePart

variable {part : Parser DeclarativePart}

theorem IsWritten.empty : empty.IsWritten source := by
  constructor <;> exact List.forall_mem_nil _

theorem IsWritten.ofDeclarations {declarations : List Declaration}
    (each : ∀ declaration ∈ declarations, declaration.IsWritten source) :
    (ofDeclarations declarations).IsWritten source :=
  ⟨each, IsWritten.empty.uses, IsWritten.empty.references⟩

theorem IsWritten.append {first second : DeclarativePart} (left : first.IsWritten source)
    (right : second.IsWritten source) : (first.append second).IsWritten source :=
  ⟨List.forall_mem_append.mpr ⟨left.declarations, right.declarations⟩,
    List.forall_mem_append.mpr ⟨left.uses, right.uses⟩,
    List.forall_mem_append.mpr ⟨left.references, right.references⟩⟩

/-- The names of use clauses are references. -/
theorem isWritten_of_mem_uses {uses : List UseClause} (each : ∀ use ∈ uses, use.reference.IsWritten source) :
    ∀ reference ∈ uses.map UseClause.reference, reference.IsWritten source := by
  intro reference member
  obtain ⟨use, present, rfl⟩ := List.mem_map.mp member
  exact each use present

/-- A declaration that keeps those of some references that are not local is written if they are. -/
theorem isWritten_outside {name : Located Identifier} (written : Written source name) (kind : DeclarationKind)
    {locals : List Declaration} {references : List Reference} (mentions : List Identifier)
    (eachLocal : ∀ inner ∈ locals, inner.IsWritten source)
    (each : ∀ reference ∈ references, reference.IsWritten source) :
    Declaration.IsWritten source
      { Declaration.withReferences name kind (Declaration.outside locals references) with
        mentions := mentions
        locals := locals } :=
  .intro written (fun reference member => each reference (Declaration.outside_subset _ _ member)) eachLocal

theorem yields_subprogram (inside : Yields source part (·.IsWritten source)) (word : Keyword)
    (kind : DeclarationKind) : Yields source (subprogram part word kind) (·.IsWritten source) := by
  refine (yields_next _).bind fun token member => (reads_ofExcept _).bind fun name same => ?_
  have written : Written source name := ⟨token, member, same⟩
  refine (yields_takeUntil _).bind fun (tokens, stop) found => ?_
  refine (reads_ofExcept _).bind fun (parameters, references) answered => ?_
  obtain ⟨eachParameter, eachReference⟩ := Interface.isWritten_of_header found.1 answered
  refine .ite (.pure (isWritten_outside written kind [] eachParameter eachReference)) (.accept ?_ ?_)
  · exact yields_statement.bind fun _ tokens =>
      .pure (.withReferences written kind (References.isWritten_of_mem_collect tokens))
  · refine inside.bind fun body isWritten => (reads_keyword _).bind fun _ _ => ?_
    refine (Region.yields_skip _).bind fun statements taken => (reads_subprogramEnding _ _).bind fun _ _ => .pure ?_
    refine isWritten_outside written kind _ (List.forall_mem_append.mpr ⟨eachParameter, isWritten.declarations⟩) ?_
    simp only [List.forall_mem_append]
    exact ⟨⟨⟨⟨eachReference, Declaration.isWritten_of_mem_allReferences isWritten.declarations⟩,
      isWritten.references⟩, isWritten_of_mem_uses isWritten.uses⟩, References.isWritten_of_mem_expanded taken⟩

theorem yields_qualifiedSubprogram (inside : Yields source part (·.IsWritten source)) :
    Yields source (qualifiedSubprogram part) (·.IsWritten source) := by
  refine (yields_next _).bind fun token member => ?_
  split
  · exact yields_subprogram inside _ _
  · exact yields_subprogram inside _ _
  · exact reads_unexpected _ _

theorem yields_nestedPackage (inside : Yields source part (·.IsWritten source)) :
    Yields source (nestedPackage part) (·.IsWritten source) := by
  refine yields_identifier.bind fun name written => (reads_keyword _).bind fun _ _ => .accept ?_ ?_
  · exact yields_statement.bind fun _ tokens =>
      .pure (.withReferences written _ (References.isWritten_of_mem_collect tokens))
  · refine (reads_nestedGenerics Interface.eachElement_isWritten).bind fun generics eachGeneric => ?_
    refine inside.bind fun body isWritten => (reads_keyword _).bind fun _ _ => ?_
    refine (reads_ending _ _).bind fun _ _ => .pure ?_
    have eachLocal : ∀ inner ∈ generics ++ body.declarations, inner.IsWritten source :=
      List.forall_mem_append.mpr ⟨eachGeneric, isWritten.declarations⟩
    refine isWritten_outside written .package [] eachLocal ?_
    simp only [List.forall_mem_append]
    exact ⟨⟨isWritten.references, Declaration.isWritten_of_mem_allReferences eachLocal⟩,
      isWritten_of_mem_uses isWritten.uses⟩

theorem yields_nestedBody (inside : Yields source part (·.IsWritten source)) :
    Yields source (nestedBody part) (·.IsWritten source) := by
  refine yields_identifier.bind fun name _ => (reads_keyword _).bind fun _ _ => inside.bind fun body isWritten => ?_
  refine (reads_keyword _).bind fun _ _ => (reads_ending _ _).bind fun _ _ => .pure ?_
  have eachReference := List.forall_mem_append.mpr
    ⟨Declaration.isWritten_of_mem_allReferences isWritten.declarations, isWritten.references⟩
  exact ⟨IsWritten.empty.declarations, isWritten.uses,
    fun reference member => eachReference reference (Declaration.outside_subset _ _ member)⟩

theorem yields_item (inside : Yields source part (·.IsWritten source)) (position : Position) (word : Keyword) :
    Yields source (item part position word) (·.IsWritten source) := by
  have one {parser : Parser Declaration} (yields : Yields source parser (·.IsWritten source)) :
      Yields source (parser >>= fun declaration => pure (ofDeclarations [declaration])) (·.IsWritten source) :=
    yields.bind fun _ isWritten => .pure (.ofDeclarations (List.forall_mem_singleton.mpr isWritten))
  have several {parser : Parser (List Declaration)}
      (yields : Yields source parser fun items => ∀ item ∈ items, item.IsWritten source) :
      Yields source (parser >>= fun items => pure (ofDeclarations items)) (·.IsWritten source) :=
    yields.bind fun _ each => .pure (.ofDeclarations each)
  unfold item
  split
  · exact several TypeDeclaration.yields_parse
  · exact one SimpleDeclaration.yields_parseSubtype
  iterate 4 exact several (SimpleDeclaration.yields_parseObjects _ _)
  · exact several (SimpleDeclaration.yields_parseShared _)
  · exact one SimpleDeclaration.yields_parseAlias
  · exact SimpleDeclaration.yields_parseAttribute.bind fun _ found => .pure ⟨found.1, IsWritten.empty.uses, found.2⟩
  · exact one SimpleDeclaration.yields_parseComponent
  · exact one (yields_subprogram inside _ _)
  · exact one (yields_subprogram inside _ _)
  iterate 2 exact one (yields_qualifiedSubprogram inside)
  · exact ContextClause.yields_parseUses.bind fun _ each =>
      .pure ⟨IsWritten.empty.declarations, each, IsWritten.empty.references⟩
  · exact .accept (yields_nestedBody inside) (one (yields_nestedPackage inside))
  · exact yields_statement.bind fun _ _ => .pure .empty

theorem yields_parse : Yields source parse (·.IsWritten source) :=
  reads_parse .empty (fun _ _ left right => left.append right) fun _ inside => yields_item inside

end DeclarativePart

/-! ## Design units -/

namespace DesignUnit

variable {context : ContextClause}

theorem yields_regionReferences :
    Yields source regionReferences fun references => ∀ reference ∈ references, reference.IsWritten source :=
  (Region.yields_skip _).bind fun _ part => .pure (References.isWritten_of_mem_expanded part)

theorem yields_parsePackage (position : Position) (written : context.IsWritten source) :
    Yields source (parsePackage position context) (·.IsWritten source) := by
  refine yields_identifier.bind fun name _ => (reads_keyword _).bind fun _ _ => .accept ?_ ?_
  · refine yields_selectedName.bind fun (template, _) isWritten => yields_statement.bind fun _ part => .pure ?_
    refine ⟨written, References.isWritten_of_mem_collect part, List.forall_mem_nil _, ?_⟩
    rintro reference ⟨⟩
    exact isWritten
  · refine (reads_packageGenerics Interface.eachElement_isWritten).bind fun generics eachGeneric =>
      DeclarativePart.yields_parse.bind fun part inside => ?_
    refine (reads_keyword _).bind fun _ _ => (reads_ending _ _).bind fun _ _ => .pure ?_
    exact ⟨written.addUses inside.uses, inside.references,
      List.forall_mem_append.mpr ⟨eachGeneric, inside.declarations⟩, by rintro reference ⟨⟩⟩

theorem yields_parsePackageBody (position : Position) (written : context.IsWritten source) :
    Yields source (parsePackageBody position context) (·.IsWritten source) := by
  refine yields_identifier.bind fun name _ => (reads_keyword _).bind fun _ _ => ?_
  refine DeclarativePart.yields_parse.bind fun part inside => (reads_keyword _).bind fun _ _ => ?_
  exact (reads_ending _ _).bind fun _ _ => .pure ⟨written.addUses inside.uses, inside.references, inside.declarations⟩

theorem yields_parseEntity (position : Position) (written : context.IsWritten source) :
    Yields source (parseEntity position context) (·.IsWritten source) := by
  refine yields_identifier.bind fun name _ => (reads_keyword _).bind fun _ _ => ?_
  refine (reads_interfaceAfter Interface.eachElement_isWritten _).bind fun generics eachGeneric => ?_
  refine (reads_interfaceAfter Interface.eachElement_isWritten _).bind fun ports eachPort => ?_
  refine yields_regionReferences.bind fun inside eachInside => (reads_ending _ _).bind fun _ _ => .pure ?_
  have interface := List.forall_mem_append.mpr ⟨eachGeneric, eachPort⟩
  refine ⟨written, List.forall_mem_append.mpr ⟨fun reference member => ?_, eachInside⟩, interface⟩
  exact Declaration.isWritten_of_mem_allReferences interface reference (List.mem_filter.mp member).1

theorem yields_parseOfEntity (word : Keyword) {contents : Identifier → UnitContents} (position : Position)
    (plain : ∀ entity, (contents entity).IsWritten source) (written : context.IsWritten source) :
    Yields source (parseOfEntity word contents position context) (·.IsWritten source) := by
  refine yields_identifier.bind fun name _ => (reads_keyword _).bind fun _ _ => ?_
  refine yields_identifier.bind fun entity _ => (reads_keyword _).bind fun _ _ => ?_
  exact yields_regionReferences.bind fun _ inside => (reads_ending _ _).bind fun _ _ =>
    .pure ⟨written, inside, plain entity.value⟩

theorem yields_parseContext (name : Identifier) (position : Position) (written : context.IsWritten source) :
    Yields source (parseContext name position context) (·.IsWritten source) :=
  ContextClause.yields_parseItems.bind fun _ clause => (reads_ending _ _).bind fun _ _ =>
    .pure ⟨written, List.forall_mem_nil _, clause⟩

end DesignUnit

namespace DesignFile

/-- The items for the next unit are written in the source, and so is the unit. -/
theorem yields_item {context : ContextClause} (written : context.IsWritten source) :
    Yields source (item context) fun found => found.1.IsWritten source ∧ ∀ unit ∈ found.2, unit.IsWritten source := by
  have items {parser : Parser ContextClause} (yields : Yields source parser (·.IsWritten source)) :
      Yields source (parser >>= fun more => pure (context.append more, (none : Option DesignUnit)))
        fun found => found.1.IsWritten source ∧ ∀ unit ∈ found.2, unit.IsWritten source :=
    yields.bind fun _ more => .pure ⟨written.append more, by rintro unit ⟨⟩⟩
  have one {parser : Parser DesignUnit} (yields : Yields source parser (·.IsWritten source)) :
      Yields source (parser >>= fun unit => pure (ContextClause.empty, some unit))
        fun found => found.1.IsWritten source ∧ ∀ unit ∈ found.2, unit.IsWritten source :=
    yields.bind fun _ isWritten => .pure ⟨.empty, by rintro unit ⟨⟩; exact isWritten⟩
  unfold item
  dsimp only
  refine (yields_next _).bind fun token _ => ?_
  split
  · exact .pure ⟨written, by rintro unit ⟨⟩⟩
  · exact items ContextClause.yields_parseLibraryItem
  · exact items ContextClause.yields_parseUseItem
  · exact yields_identifier.bind fun name isWritten =>
      .accept (one (DesignUnit.yields_parseContext _ _ written))
        (items (ContextClause.yields_parseContextItem isWritten))
  · exact .accept (one (DesignUnit.yields_parsePackageBody _ written)) (one (DesignUnit.yields_parsePackage _ written))
  · exact one (DesignUnit.yields_parseEntity _ written)
  · exact one (DesignUnit.yields_parseOfEntity _ _ (fun _ => trivial) written)
  · exact one (DesignUnit.yields_parseOfEntity _ _ (fun _ => trivial) written)
  · exact reads_unexpected _ _

/-- Whatever the units of a file name is written in the file. -/
theorem isWritten_of_mem_units {tokens : List PlacedToken} :
    ∀ unit ∈ (units tokens).1, unit.IsWritten tokens :=
  forall_mem_unitsWithin (fun _ => yields_item) .empty List.filter_sublist.subset

end DesignFile

end VhdlOrder
