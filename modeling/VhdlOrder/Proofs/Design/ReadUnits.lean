import VhdlOrder.Design.File
import VhdlOrder.Proofs.Design.Reads

/-! # What the units of a file are read to

A file is read unit by unit, each from the tokens behind the one before. What holds of every unit that can be read from
tokens with a property, kind by kind, therefore holds of all units of a file whose tokens have the property.
-/

namespace VhdlOrder

open VhdlOrder.Parser

variable {front : Remainder}

/-! ## Context items -/

namespace ContextClause

theorem reads_parseUses : Reads front parseUses fun _ => True := by
  have single : Reads front parseUse fun _ => True := reads_selectedName.bind fun _ _ => .pure trivial
  exact (reads_commaList single).imp fun _ _ => trivial

theorem reads_parseLibraryItem : Reads front parseLibraryItem fun _ => True :=
  (reads_commaList reads_identifier).bind fun _ _ => .pure trivial

theorem reads_parseUseItem : Reads front parseUseItem fun _ => True :=
  reads_parseUses.bind fun _ _ => .pure trivial

theorem reads_parseContextsAfter (first : Located Identifier) :
    Reads front (parseContextsAfter first) fun _ => True := by
  have single : Reads front parseContext fun _ => True := reads_selectedName.bind fun _ _ => .pure trivial
  refine (reads_selectedNameAfter _).bind fun _ _ => .accept ?_ ?_
  · exact (reads_commaList single).bind fun _ _ => .pure trivial
  · exact (reads_delimiter _).bind fun _ _ => .pure trivial

theorem reads_parseContextItem (first : Located Identifier) : Reads front (parseContextItem first) fun _ => True :=
  (reads_parseContextsAfter _).bind fun _ _ => .pure trivial

theorem reads_parseItems : Reads front parseItems fun _ => True := by
  refine .fix fun further reads => (reads_next _).bind fun token _ => ?_
  split
  · exact .pure trivial
  · exact reads_parseLibraryItem.bind fun _ _ => reads.bind fun _ _ => .pure trivial
  · exact reads_parseUseItem.bind fun _ _ => reads.bind fun _ _ => .pure trivial
  · exact reads_identifier.bind fun _ _ => (reads_parseContextItem _).bind fun _ _ =>
      reads.bind fun _ _ => .pure trivial
  · exact reads_unexpected _ _

end ContextClause

/-! ## Interface lists -/

section

variable {good : Declaration → Prop} (each : Interface.EachElement front good)

include each

theorem SimpleDeclaration.reads_componentInterface :
    Reads front componentInterface fun items => ∀ item ∈ items, good item := by
  refine .fix fun further reads => .accept (.pure (List.forall_mem_nil _)) ?_
  have items : Reads front (Interface.parse >>= fun items => delimiter .semicolon >>= fun _ =>
      further >>= fun more => pure (items ++ more)) fun items => ∀ item ∈ items, good item :=
    (Interface.reads_parse each).bind fun _ first => (reads_delimiter _).bind fun _ _ => reads.bind fun _ more =>
      .pure (List.forall_mem_append.mpr ⟨first, more⟩)
  have neither : Reads front (next .componentEnd >>= fun token =>
      (unexpected token .componentItem : Parser (List Declaration))) fun items => ∀ item ∈ items, good item :=
    (reads_next _).bind fun _ _ => reads_unexpected _ _
  exact .accept items (.accept items neither)

theorem DeclarativePart.reads_nestedGenerics : Reads front nestedGenerics fun items => ∀ item ∈ items, good item :=
  .accept ((Interface.reads_parse each).bind fun _ items => (reads_delimiter _).bind fun _ _ => .pure items)
    (.pure (List.forall_mem_nil _))

theorem DesignUnit.reads_interfaceAfter (word : Keyword) :
    Reads front (interfaceAfter word) fun items => ∀ item ∈ items, good item :=
  .accept ((Interface.reads_parse each).bind fun _ items => (reads_delimiter _).bind fun _ _ => .pure items)
    (.pure (List.forall_mem_nil _))

theorem DesignUnit.reads_packageGenerics : Reads front packageGenerics fun items => ∀ item ∈ items, good item := by
  refine .accept ((Interface.reads_parse each).bind fun _ items => .accept ?_ ?_) (.pure (List.forall_mem_nil _))
  · exact (reads_keyword _).bind fun _ _ => reads_statement.bind fun _ _ => .pure items
  · exact (reads_delimiter _).bind fun _ _ => .pure items

end

/-! ## Declarations of one statement -/

/-- An object statement declares the names in front of the colon, with the references behind it. -/
theorem SimpleDeclaration.exists_map_of_objects {position : Position} {word : Keyword} {tokens : List PlacedToken}
    {items : List Declaration} (answered : objects position word tokens = .ok items) :
    ∃ behind, Interface.behind? (.delimiter .colon) tokens = some behind ∧
      items = (Interface.identifiers (Interface.before (.delimiter .colon) tokens)).map fun name =>
        .withReferences name (objectKind word (behind.any fun token => token.value.isDelimiter .variableAssign))
          (References.collect behind) := by
  unfold objects at answered
  split at answered
  · cases answered
  · rename_i behind found
    dsimp only at answered
    split at answered
    · cases answered
    · cases answered
      exact ⟨behind, found, rfl⟩

/-! ## Declarative parts -/

namespace DeclarativePart

theorem reads_subprogramEnding (word : Keyword) (name : Identifier) :
    Reads front (subprogramEnding word name) fun _ => True := by
  have repeated : Reads front (next (.delimiter .semicolon) >>= fun token =>
      Parser.ofExcept (Interface.designator token) >>= fun last =>
        if last.value.same name then delimiter .semicolon
        else throw (.endingMismatch last.position name last.value)) fun _ => True :=
    (reads_next _).bind fun _ _ => (reads_ofExcept _).bind fun _ _ => .ite (reads_delimiter _) (.throw _)
  refine (reads_acceptKeywords _).bind fun _ _ => reads_peek?.bind fun read _ => ?_
  split
  · exact repeated
  · exact repeated
  · exact reads_delimiter _

/-- The first token is looked at and stays. -/
theorem reads_head : Reads front head fun token => ∃ rest, front.holds (token :: rest) := by
  intro tokens value rest part answered
  unfold head at answered
  split at answered
  · cases answered
  · split at answered
    · cases answered
    · cases answered
      exact ⟨⟨_, part⟩, part⟩

/-- What holds of a part without items, and stays when what an item is read to comes first, holds of every part. -/
theorem reads_parse {good : DeclarativePart → Prop} (nothing : good .empty)
    (append : ∀ first second, good first → good second → good (first.append second))
    (each : ∀ part, Reads front part good → ∀ position word, Reads front (item part position word) good) :
    Reads front parse good := by
  refine .fix fun further reads => reads_head.bind fun token _ => .ite (.pure nothing) ?_
  have first : Reads front (anyItem further token) good := by
    unfold anyItem
    split
    · exact (reads_next _).bind fun _ _ => each further reads _ _
    · exact reads_statement.bind fun _ _ => .pure nothing
  exact first.bind fun _ first => reads.bind fun _ more => .pure (append _ _ first more)

end DeclarativePart

/-! ## Units -/

namespace DesignUnit

/-- Whatever unit is read from tokens with the property satisfies `good`. -/
structure EachReads (front : Remainder) (good : DesignUnit → Prop) : Prop where
  package : ∀ position context, Reads front (parsePackage position context) good
  packageBody : ∀ position context, Reads front (parsePackageBody position context) good
  entity : ∀ position context, Reads front (parseEntity position context) good
  architecture : ∀ position context, Reads front (parseOfEntity .architecture .architecture position context) good
  configuration : ∀ position context, Reads front (parseOfEntity .configuration .configuration position context) good
  context : ∀ name position context, Reads front (parseContext name position context) good

theorem reads_regionReferences : Reads front regionReferences fun _ => True :=
  (Region.reads_skip _).bind fun _ _ => .pure trivial

/-- What holds of all units of a name and an entity holds of those that are read. -/
theorem reads_parseOfEntity {word : Keyword} {contents : Identifier → UnitContents} {position : Position}
    {context : ContextClause} {good : DesignUnit → Prop}
    (each : ∀ name references entity, good ⟨name, position, context, references, contents entity⟩) :
    Reads front (parseOfEntity word contents position context) good :=
  reads_identifier.bind fun _ _ => (reads_keyword _).bind fun _ _ => reads_identifier.bind fun _ _ =>
    (reads_keyword _).bind fun _ _ => reads_regionReferences.bind fun _ _ =>
      (reads_ending _ _).bind fun _ _ => .pure (each ..)

theorem reads_parseContext {name : Identifier} {position : Position} {context : ContextClause}
    {good : DesignUnit → Prop} (each : ∀ clause, good ⟨name, position, context, [], .context clause⟩) :
    Reads front (parseContext name position context) good :=
  ContextClause.reads_parseItems.bind fun _ _ => (reads_ending _ _).bind fun _ _ => .pure (each _)

end DesignUnit

namespace DesignFile

variable {good : DesignUnit → Prop}

theorem reads_item (each : DesignUnit.EachReads front good) (context : ContextClause) :
    Reads front (item context) fun found => ∀ unit ∈ found.2, good unit := by
  have items {parser : Parser ContextClause} (reads : Reads front parser fun _ => True) :
      Reads front (parser >>= fun more => pure (context.append more, (none : Option DesignUnit)))
        fun found => ∀ unit ∈ found.2, good unit :=
    reads.bind fun _ _ => .pure (by rintro unit ⟨⟩)
  have one {parser : Parser DesignUnit} (reads : Reads front parser good) :
      Reads front (parser >>= fun unit => pure (ContextClause.empty, some unit))
        fun found => ∀ unit ∈ found.2, good unit :=
    reads.bind fun _ holds => .pure (by rintro unit ⟨⟩; exact holds)
  unfold item
  dsimp only
  refine (reads_next _).bind fun token _ => ?_
  split
  · exact .pure (by rintro unit ⟨⟩)
  · exact items ContextClause.reads_parseLibraryItem
  · exact items ContextClause.reads_parseUseItem
  · exact reads_identifier.bind fun _ _ =>
      .accept (one (each.context _ _ _)) (items (ContextClause.reads_parseContextItem _))
  · exact .accept (one (each.packageBody _ _)) (one (each.package _ _))
  · exact one (each.entity _ _)
  · exact one (each.architecture _ _)
  · exact one (each.configuration _ _)
  · exact reads_unexpected _ _

/-- What holds of every unit that can be read with a context, and what is kept of the contexts for it, holds of the
units of a file. -/
theorem forall_mem_unitsWithin {held : ContextClause → Prop}
    (each : ∀ context, held context →
      Reads front (item context) fun found => held found.1 ∧ ∀ unit ∈ found.2, good unit)
    {context : ContextClause} (start : held context) {bound tokens : List PlacedToken} (part : front.holds tokens) :
    ∀ unit ∈ (unitsWithin context bound tokens).1, good unit := by
  induction bound generalizing context tokens with
  | nil => cases tokens <;> exact List.forall_mem_nil _
  | cons marker bound ih =>
    cases tokens with
    | nil => exact List.forall_mem_nil _
    | cons token rest =>
      unfold unitsWithin
      split
      · exact List.forall_mem_nil _
      · split
        · exact List.forall_mem_nil _
        · rename_i later unit left answered
          obtain ⟨⟨kept, isUnit⟩, behind⟩ := each context start _ _ left part answered
          exact List.forall_mem_append.mpr ⟨by simpa using isUnit, ih kept behind⟩

/-- What holds of every unit that can be read holds of the units of a file. -/
theorem forall_mem_units (each : DesignUnit.EachReads front good) {tokens : List PlacedToken}
    (part : front.holds (withoutComments tokens)) : ∀ unit ∈ (units tokens).1, good unit := by
  have each (context : ContextClause) (_ : True) :
      Reads front (item context) fun found => True ∧ ∀ unit ∈ found.2, good unit :=
    (reads_item each context).imp fun _ isUnit => ⟨trivial, isUnit⟩
  exact forall_mem_unitsWithin each trivial part

end DesignFile

end VhdlOrder
