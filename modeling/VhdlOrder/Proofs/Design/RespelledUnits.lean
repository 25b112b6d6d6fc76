import VhdlOrder.Design.File
import VhdlOrder.Proofs.Design.Respells

/-! # Files that are spelled in another way

Every construct of a file is read from tokens that are spelled in another way as it is read from the tokens as they
are, with its names spelled in that way. So a file has the same units whichever way its identifiers are spelled, up to
their spelling.
-/

namespace VhdlOrder

open VhdlOrder.Parser

variable {f : Respelling}

/-! ## Context clauses -/

namespace ContextClause

theorem respells_parseLibraries : Respells f (List.map (Located.respell f)) parseLibraries parseLibraries :=
  respells_commaList respells_identifier

theorem respells_parseUses : Respells f (List.map (UseClause.respell f)) parseUses parseUses :=
  respells_commaList (respells_selectedName.bind fun _ => .pure rfl)

theorem respells_parseContextsAfter (first : Located Identifier) :
    Respells f (List.map (Reference.respell f)) (parseContextsAfter first) (parseContextsAfter (first.respell f)) := by
  have each : Respells f (Reference.respell f) parseContext parseContext :=
    respells_selectedName.bind fun _ => .pure rfl
  refine (respells_selectedNameAfter rfl).bind fun _ => .accept rfl ?_ ?_
  · exact (respells_commaList each).bind fun _ => .pure rfl
  · exact (respells_delimiter _).bind fun _ => .pure rfl

theorem respells_parseLibraryItem : Respells f (respell f) parseLibraryItem parseLibraryItem :=
  respells_parseLibraries.bind fun _ => .pure rfl

theorem respells_parseUseItem : Respells f (respell f) parseUseItem parseUseItem :=
  respells_parseUses.bind fun _ => .pure rfl

theorem respells_parseContextItem (first : Located Identifier) :
    Respells f (respell f) (parseContextItem first) (parseContextItem (first.respell f)) :=
  (respells_parseContextsAfter first).bind fun _ => .pure rfl

theorem respells_parseItems : Respells f (respell f) parseItems parseItems := by
  refine .fix fun further further' respells => .next (fun _ _ => respells_unexpected _ _) fun token plain => ?_
  have append (first : ContextClause) {others : ContextClause} :
      (first.respell f).append (others.respell f) = (first.append others).respell f :=
    (respell_append f first others).symm
  split
  · exact .pure rfl
  · exact respells_parseLibraryItem.bind fun _ => respells.bind fun _ => .pure (append _)
  · exact respells_parseUseItem.bind fun _ => respells.bind fun _ => .pure (append _)
  · exact respells_identifier.bind fun _ => (respells_parseContextItem _).bind fun _ =>
      respells.bind fun _ => .pure (append _)
  · exact respells_unexpected_ordinary plain _

end ContextClause

/-! ## Declarations of one statement -/

namespace SimpleDeclaration

theorem respells_parseSubtype : Respells f (Declaration.respell f) parseSubtype parseSubtype :=
  respells_identifier.bind fun _ => (respells_keyword _).bind fun _ => respells_statement.bind fun _ =>
    .pure (by simp [Declaration.withReferences_respell])

theorem objects_map (position : Position) (word : Keyword) (tokens : List PlacedToken) :
    objects position word (tokens.map (PlacedToken.respell f)) =
      respellExcept f (List.map (Declaration.respell f)) (objects position word tokens) := by
  unfold objects
  rw [Interface.behind?_map rfl, Interface.before_map rfl, Interface.identifiers_map]
  cases Interface.behind? (.delimiter .colon) tokens with
  | none => rfl
  | some rest =>
    cases Interface.identifiers (Interface.before (.delimiter .colon) tokens) with
    | nil => rfl
    | cons name names => simp [respellExcept, Declaration.withReferences_respell, Function.comp_def]

theorem respells_parseObjects (position : Position) (word : Keyword) :
    Respells f (List.map (Declaration.respell f)) (parseObjects position word) (parseObjects position word) :=
  respells_statement.bind fun _ => respells_ofExcept (objects_map position word _)

theorem respells_parseShared (position : Position) :
    Respells f (List.map (Declaration.respell f)) (parseShared position) (parseShared position) :=
  (respells_keyword _).bind fun _ => respells_parseObjects position _

theorem respells_parseAlias : Respells f (Declaration.respell f) parseAlias parseAlias :=
  (respells_next _).bind fun _ => (respells_ofExcept (Interface.designator_respell _)).bind fun _ =>
    respells_statement.bind fun _ => .pure (by simp [Declaration.withReferences_respell])

theorem respells_parseAttribute :
    Respells f (Prod.map (List.map (Declaration.respell f)) (List.map (Reference.respell f))) parseAttribute
      parseAttribute := by
  refine respells_identifier.bind fun name => .accept rfl ?_ ?_
  · exact respells_statement.bind fun _ => .pure (by simp [Declaration.withReferences_respell])
  · refine (respells_keyword _).bind fun _ => respells_statement.bind fun specification => .pure ?_
    have value : (Interface.behind? (.keyword .is) (specification.map (PlacedToken.respell f))).getD [] =
        ((Interface.behind? (.keyword .is) specification).getD []).map (PlacedToken.respell f) := by
      rw [Interface.behind?_map rfl]
      cases Interface.behind? (.keyword .is) specification <;> rfl
    rw [value, References.collect_map]
    rfl

theorem respells_componentInterface :
    Respells f (List.map (Declaration.respell f)) componentInterface componentInterface := by
  refine .fix fun further further' respells => .accept rfl (.pure rfl) ?_
  -- `isPort` is asked for only where `isGeneric` is false
  have items : Respells f (List.map (Declaration.respell f)) (Interface.parse >>= fun items =>
      delimiter .semicolon >>= fun _ => further >>= fun more => pure (items ++ more))
      (Interface.parse >>= fun items => delimiter .semicolon >>= fun _ => further' >>= fun more =>
        pure (items ++ more)) :=
    Interface.respells_parse.bind fun _ => (respells_delimiter _).bind fun _ => respells.bind fun _ =>
      .pure List.map_append.symm
  refine .accept rfl items (.accept rfl items ?_)
  exact (respells_next _).bind fun token => respells_unexpected token _

theorem respells_parseComponent : Respells f (Declaration.respell f) parseComponent parseComponent := by
  refine respells_identifier.bind fun name => (respells_acceptKeywords _).bind fun _ => ?_
  refine respells_componentInterface.bind fun locals => (respells_keyword _).bind fun _ => ?_
  refine (respells_ending _ rfl).bind fun _ => .pure ?_
  simp [Declaration.respell, Declaration.withReferences, Declaration.simple, Located.respell]

end SimpleDeclaration

/-! ## Types -/

namespace TypeDeclaration

theorem respells_literals : Respells f (List.map (Declaration.respell f)) literals literals := by
  refine .fix fun further further' respells => .next (fun _ _ => ?_) fun token plain => ?_
  · exact respells.bind fun _ => .pure rfl
  split
  · exact .pure rfl
  · exact respells
  · exact respells
  · rename_i name isName
    exact (plain name isName).elim
  · exact respells_unexpected_ordinary plain _

theorem respells_recordReferences : Respells f (List.map (Reference.respell f)) recordReferences recordReferences := by
  refine .fix fun further further' respells => .accept rfl (.pure rfl) ?_
  refine respells_statement.bind fun tokens => respells.bind fun _ => .pure ?_
  simp [List.dropWhile_map, Function.comp_def]

theorem respells_secondaryUnits : Respells f (List.map (Declaration.respell f)) secondaryUnits secondaryUnits := by
  refine .fix fun further further' respells => .accept rfl (.pure rfl) ?_
  exact respells_identifier.bind fun _ => respells_statement.bind fun _ => respells.bind fun _ => .pure rfl

theorem respells_units (name : Identifier) :
    Respells f (List.map (Declaration.respell f)) (units name) (units (f name)) :=
  respells_identifier.bind fun _ => (respells_delimiter _).bind fun _ => respells_secondaryUnits.bind fun _ =>
    (respells_keyword _).bind fun _ => (respells_ending _ rfl).bind fun _ => .pure rfl

theorem isReal_respell (token : Token) : isReal (token.respell f) = isReal token := by
  cases token <;> rfl

theorem classOf_map (definition : List PlacedToken) (hasUnits : Bool) :
    classOf (definition.map (PlacedToken.respell f)) hasUnits = classOf definition hasUnits := by
  have reals : (definition.map (PlacedToken.respell f)).any (fun token => isReal token.value) =
      definition.any fun token => isReal token.value := by
    simp [Function.comp_def, isReal_respell]
  unfold classOf
  rw [reals]
  cases definition with
  | nil => rfl
  | cons first rest =>
    obtain ⟨position, name, rfl⟩ | plain := first.identifier_or_ordinary
    · rfl
    · rw [List.map_cons, PlacedToken.respell_ordinary f plain]
      rfl

theorem typeOf_respell (name : Located Identifier) (typeClass : TypeClass) (references : List Reference)
    (mentions : List Identifier) :
    (typeOf name typeClass references mentions).respell f =
      typeOf (name.respell f) typeClass (references.map (Reference.respell f)) (mentions.map f) := rfl

theorem respells_enumeration (name : Located Identifier) :
    Respells f (List.map (Declaration.respell f)) (enumeration name) (enumeration (name.respell f)) :=
  respells_literals.bind fun _ => (respells_delimiter _).bind fun _ => .pure rfl

theorem respells_record (name : Located Identifier) :
    Respells f (List.map (Declaration.respell f)) (record name) (record (name.respell f)) :=
  respells_recordReferences.bind fun _ => (respells_keyword _).bind fun _ => (respells_ending _ rfl).bind fun _ =>
    .pure rfl

theorem respells_protectedRegion (name : Located Identifier) :
    Respells f (List.map (Declaration.respell f)) (protectedRegion name) (protectedRegion (name.respell f)) := by
  refine .accept rfl ?_ ?_ <;> refine (Region.respells_skip _).bind fun inside => ?_
  · exact (respells_acceptKeywords _).bind fun _ => (respells_ending _ rfl).bind fun _ =>
      .pure (by simp [typeOf_respell])
  · exact (respells_ending _ rfl).bind fun _ => .pure (by simp [typeOf_respell])

theorem respells_otherDefinition (name : Located Identifier) :
    Respells f (List.map (Declaration.respell f)) (otherDefinition name) (otherDefinition (name.respell f)) := by
  refine (respells_takeUntil fun token => by simp).bind fun found => ?_
  refine .ite (by simp) ((respells_units _).bind fun items => .pure ?_) (.pure ?_) <;>
    simp [typeOf_respell, classOf_map]

theorem respells_parse : Respells f (List.map (Declaration.respell f)) parse parse := by
  refine respells_identifier.bind fun name => .accept rfl (.pure rfl) ((respells_keyword _).bind fun _ => ?_)
  exact .accept rfl (respells_enumeration name) (.accept rfl (respells_record name)
    (.accept rfl (respells_protectedRegion name) (respells_otherDefinition name)))

end TypeDeclaration

/-! ## Declarative parts -/

namespace DeclarativePart

/-- The part with all names in it spelled in another way. -/
def respell (f : Respelling) (part : DeclarativePart) : DeclarativePart :=
  ⟨part.declarations.map (Declaration.respell f), part.uses.map (UseClause.respell f),
    part.references.map (Reference.respell f)⟩

variable {part part' : Parser DeclarativePart}

theorem respell_append (f : Respelling) (first second : DeclarativePart) :
    (first.append second).respell f = (first.respell f).append (second.respell f) := by
  simp [append, respell]

theorem map_reference_respell (f : Respelling) (uses : List UseClause) :
    (uses.map (UseClause.respell f)).map UseClause.reference =
      (uses.map UseClause.reference).map (Reference.respell f) := by
  simp [Function.comp_def]

/-! ### Subprograms -/

theorem subprogramDeclaration_respell (name : Located Identifier) (kind : DeclarationKind)
    (parameters : List Declaration) (references : List Reference) :
    (subprogramDeclaration name kind parameters references).respell f =
      subprogramDeclaration (name.respell f) kind (parameters.map (Declaration.respell f))
        (references.map (Reference.respell f)) := by
  simp [subprogramDeclaration, Declaration.respell, Declaration.withReferences, Declaration.simple, Located.respell]

theorem subprogramBody_respell (name : Located Identifier) (kind : DeclarationKind) (parameters : List Declaration)
    (references : List Reference) (part : DeclarativePart) (statements : List PlacedToken) :
    (subprogramBody name kind parameters references part statements).respell f =
      subprogramBody (name.respell f) kind (parameters.map (Declaration.respell f))
        (references.map (Reference.respell f)) (part.respell f) (statements.map (PlacedToken.respell f)) := by
  simp only [subprogramBody, Declaration.respell, Declaration.withReferences, Declaration.simple, Located.respell,
    respell, Declaration.respellAll_eq_map]
  simp [← Declaration.outside_map, map_reference_respell, -List.map_map, List.filter_map, Function.comp_def,
    ← List.map_append]

theorem respells_subprogramEnding (word : Keyword) (name : Identifier) :
    Respells f id (subprogramEnding word name) (subprogramEnding word (f name)) := by
  have repeated : Respells f id (next (.delimiter .semicolon) >>= fun token =>
      Parser.ofExcept (Interface.designator token) >>= fun last =>
        if last.value.same name then delimiter .semicolon
        else throw (.endingMismatch last.position name last.value)) (next (.delimiter .semicolon) >>= fun token =>
      Parser.ofExcept (Interface.designator token) >>= fun last =>
        if last.value.same (f name) then delimiter .semicolon
        else throw (.endingMismatch last.position (f name) last.value)) :=
    (respells_next _).bind fun _ => (respells_ofExcept (Interface.designator_respell _)).bind fun _ =>
      .ite (by simp [Located.respell]) (respells_delimiter _) (.throw rfl)
  refine (respells_acceptKeywords _).bind fun _ => respells_peek?.bind fun ahead => ?_
  cases ahead with
  | none => exact respells_delimiter _
  | some token =>
    cases token with
    | identifier other => exact repeated
    | string text => exact repeated
    | _ => exact respells_delimiter _

theorem respells_subprogram (inside : Respells f (respell f) part part') (word : Keyword) (kind : DeclarationKind) :
    Respells f (Declaration.respell f) (subprogram part word kind) (subprogram part' word kind) := by
  refine (respells_next _).bind fun token => ?_
  refine (respells_ofExcept (Interface.designator_respell token)).bind fun name => ?_
  refine (respells_takeUntil fun token => by simp).bind fun found => ?_
  refine (respells_ofExcept (Interface.header_map found.1)).bind fun header => .ite (by simp) (.pure ?_) ?_
  · exact (subprogramDeclaration_respell name kind header.1 header.2).symm
  refine .accept rfl (respells_statement.bind fun _ => .pure ?_) ?_
  · simp [Declaration.withReferences_respell]
  refine inside.bind fun part => (respells_keyword _).bind fun _ => (Region.respells_skip _).bind fun statements => ?_
  exact (respells_subprogramEnding word name.value).bind fun _ =>
    .pure (subprogramBody_respell name kind header.1 header.2 part statements).symm

theorem respells_qualifiedSubprogram (inside : Respells f (respell f) part part') :
    Respells f (Declaration.respell f) (qualifiedSubprogram part) (qualifiedSubprogram part') := by
  refine .next (fun _ _ => respells_unexpected _ _) fun token plain => ?_
  split
  · exact respells_subprogram inside _ _
  · exact respells_subprogram inside _ _
  · exact respells_unexpected_ordinary plain _

/-! ### Packages -/

theorem respells_nestedGenerics : Respells f (List.map (Declaration.respell f)) nestedGenerics nestedGenerics :=
  .accept rfl (Interface.respells_parse.bind fun _ => (respells_delimiter _).bind fun _ => .pure rfl) (.pure rfl)

theorem respells_nestedPackage (inside : Respells f (respell f) part part') :
    Respells f (Declaration.respell f) (nestedPackage part) (nestedPackage part') := by
  refine respells_identifier.bind fun name => (respells_keyword _).bind fun _ => ?_
  refine .accept rfl (respells_statement.bind fun _ => .pure (by simp [Declaration.withReferences_respell])) ?_
  refine respells_nestedGenerics.bind fun generics => inside.bind fun part => (respells_keyword _).bind fun _ => ?_
  refine (respells_ending _ rfl).bind fun _ => .pure ?_
  simp only [Declaration.respell, Declaration.withReferences, Declaration.simple, Located.respell, respell,
    Declaration.respellAll_eq_map, ← List.map_append, Declaration.allReferences_map, map_reference_respell,
    Declaration.outside_map]
  rfl

theorem respells_nestedBody (inside : Respells f (respell f) part part') :
    Respells f (respell f) (nestedBody part) (nestedBody part') := by
  refine respells_identifier.bind fun name => (respells_keyword _).bind fun _ => inside.bind fun part => ?_
  refine (respells_keyword _).bind fun _ => (respells_ending _ rfl).bind fun _ => .pure ?_
  simp only [respell, Declaration.allReferences_map, ← List.map_append, Declaration.outside_map]
  rfl

/-! ### Items -/

theorem respells_item (inside : Respells f (respell f) part part') (position : Position) (word : Keyword) :
    Respells f (respell f) (item part position word) (item part' position word) := by
  unfold item
  split
  · exact TypeDeclaration.respells_parse.bind fun _ => .pure rfl
  · exact SimpleDeclaration.respells_parseSubtype.bind fun _ => .pure rfl
  iterate 4 exact (SimpleDeclaration.respells_parseObjects _ _).bind fun _ => .pure rfl
  · exact (SimpleDeclaration.respells_parseShared _).bind fun _ => .pure rfl
  · exact SimpleDeclaration.respells_parseAlias.bind fun _ => .pure rfl
  · exact SimpleDeclaration.respells_parseAttribute.bind fun _ => .pure rfl
  · exact SimpleDeclaration.respells_parseComponent.bind fun _ => .pure rfl
  · exact (respells_subprogram inside _ _).bind fun _ => .pure rfl
  · exact (respells_subprogram inside _ _).bind fun _ => .pure rfl
  iterate 2 exact (respells_qualifiedSubprogram inside).bind fun _ => .pure rfl
  · exact ContextClause.respells_parseUses.bind fun _ => .pure rfl
  · exact .accept rfl (respells_nestedBody inside) ((respells_nestedPackage inside).bind fun _ => .pure rfl)
  · exact respells_statement.bind fun _ => .pure rfl

theorem respells_anyItem (inside : Respells f (respell f) part part') (token : PlacedToken) :
    Respells f (respell f) (anyItem part token) (anyItem part' (PlacedToken.respell f token)) := by
  unfold anyItem
  obtain ⟨position, name, rfl⟩ | plain := token.identifier_or_ordinary
  · exact respells_statement.bind fun _ => .pure rfl
  rw [PlacedToken.respell_ordinary f plain]
  split
  · exact (respells_next _).bind fun _ => respells_item inside _ _
  · exact respells_statement.bind fun _ => .pure rfl

/-! ### Parts -/

theorem respells_head : Respells f (PlacedToken.respell f) head head := by
  intro tokens
  cases tokens with
  | nil => rfl
  | cons token rest =>
    simp only [List.map_cons, head, PlacedToken.value_respell, Token.respell_eq_endOfFile]
    split <;> rfl

theorem respells_parse : Respells f (respell f) parse parse := by
  refine .fix fun part part' inside => respells_head.bind fun token => .ite (by simp) (.pure rfl) ?_
  exact (respells_anyItem inside token).bind fun first => inside.bind fun more =>
    .pure (respell_append f first more).symm

end DeclarativePart

/-! ## Design units -/

namespace DesignUnit

theorem respells_packageGenerics : Respells f (List.map (Declaration.respell f)) packageGenerics packageGenerics := by
  refine .accept rfl (Interface.respells_parse.bind fun items => .accept rfl ?_ ?_) (.pure rfl)
  · exact (respells_keyword _).bind fun _ => respells_statement.bind fun _ => .pure rfl
  · exact (respells_delimiter _).bind fun _ => .pure rfl

theorem respells_parsePackage (position : Position) (context : ContextClause) :
    Respells f (respell f) (parsePackage position context) (parsePackage position (context.respell f)) := by
  refine respells_identifier.bind fun name => (respells_keyword _).bind fun _ => .accept rfl ?_ ?_
  · exact respells_selectedName.bind fun template => respells_statement.bind fun tokens =>
      .pure (by simp [respell, UnitContents.respell, Located.respell])
  · refine respells_packageGenerics.bind fun generics => DeclarativePart.respells_parse.bind fun part => ?_
    refine (respells_keyword _).bind fun _ => (respells_ending _ rfl).bind fun _ => .pure ?_
    simp [respell, UnitContents.respell, Located.respell, ContextClause.respell_addUses, DeclarativePart.respell]

theorem respells_parsePackageBody (position : Position) (context : ContextClause) :
    Respells f (respell f) (parsePackageBody position context) (parsePackageBody position (context.respell f)) := by
  refine respells_identifier.bind fun name => (respells_keyword _).bind fun _ => ?_
  refine DeclarativePart.respells_parse.bind fun part => (respells_keyword _).bind fun _ => ?_
  refine (respells_ending _ rfl).bind fun _ => .pure ?_
  simp [respell, UnitContents.respell, Located.respell, ContextClause.respell_addUses, DeclarativePart.respell]

theorem respells_interfaceAfter (word : Keyword) :
    Respells f (List.map (Declaration.respell f)) (interfaceAfter word) (interfaceAfter word) :=
  .accept rfl (Interface.respells_parse.bind fun _ => (respells_delimiter _).bind fun _ => .pure rfl) (.pure rfl)

theorem respells_regionReferences : Respells f (List.map (Reference.respell f)) regionReferences regionReferences :=
  (Region.respells_skip _).bind fun _ => .pure (References.expanded_map _)

theorem respells_parseEntity (position : Position) (context : ContextClause) :
    Respells f (respell f) (parseEntity position context) (parseEntity position (context.respell f)) := by
  refine respells_identifier.bind fun name => (respells_keyword _).bind fun _ => ?_
  refine (respells_interfaceAfter _).bind fun generics => (respells_interfaceAfter _).bind fun ports => ?_
  refine respells_regionReferences.bind fun inside => (respells_ending _ rfl).bind fun _ => .pure ?_
  simp [respell, UnitContents.respell, Located.respell, ← List.map_append, List.filter_map, Function.comp_def]

theorem respells_parseOfEntity (word : Keyword) {contents : Identifier → UnitContents}
    (spelled : ∀ owner, contents (f owner) = (contents owner).respell f) (position : Position)
    (context : ContextClause) :
    Respells f (respell f) (parseOfEntity word contents position context)
      (parseOfEntity word contents position (context.respell f)) := by
  refine respells_identifier.bind fun name => (respells_keyword _).bind fun _ => ?_
  refine respells_identifier.bind fun entity => (respells_keyword _).bind fun _ => ?_
  refine respells_regionReferences.bind fun references => (respells_ending _ rfl).bind fun _ => .pure ?_
  simp [respell, Located.respell, spelled]

theorem respells_parseContext (name : Identifier) (position : Position) (context : ContextClause) :
    Respells f (respell f) (parseContext name position context) (parseContext (f name) position (context.respell f)) :=
  ContextClause.respells_parseItems.bind fun _ => (respells_ending _ rfl).bind fun _ => .pure rfl

end DesignUnit

/-! ## Design files -/

namespace DesignFile

theorem respells_item (context : ContextClause) :
    Respells f (Prod.map (ContextClause.respell f) (Option.map (DesignUnit.respell f))) (item context)
      (item (context.respell f)) := by
  refine .next (fun _ _ => respells_unexpected _ _) fun token plain => ?_
  have pending (clause : ContextClause) :
      ((context.respell f).append (clause.respell f), none) =
        Prod.map (ContextClause.respell f) (Option.map (DesignUnit.respell f)) (context.append clause, none) := by
    rw [Prod.map_apply, ContextClause.respell_append]
    rfl
  split
  · exact .pure rfl
  · exact ContextClause.respells_parseLibraryItem.bind fun clause => .pure (pending clause)
  · exact ContextClause.respells_parseUseItem.bind fun clause => .pure (pending clause)
  · refine respells_identifier.bind fun name => .accept rfl ?_ ?_
    · exact (DesignUnit.respells_parseContext _ _ _).bind fun _ => .pure rfl
    · exact (ContextClause.respells_parseContextItem name).bind fun clause => .pure (pending clause)
  · refine .accept rfl ?_ ?_
    · exact (DesignUnit.respells_parsePackageBody _ _).bind fun _ => .pure rfl
    · exact (DesignUnit.respells_parsePackage _ _).bind fun _ => .pure rfl
  · exact (DesignUnit.respells_parseEntity _ _).bind fun _ => .pure rfl
  · exact (DesignUnit.respells_parseOfEntity _ (fun _ => rfl) _ _).bind fun _ => .pure rfl
  · exact (DesignUnit.respells_parseOfEntity _ (fun _ => rfl) _ _).bind fun _ => .pure rfl
  · exact respells_unexpected_ordinary plain _

theorem unitsWithin_map (context : ContextClause) (bound tokens : List PlacedToken) :
    unitsWithin (context.respell f) (bound.map (PlacedToken.respell f)) (tokens.map (PlacedToken.respell f)) =
      Prod.map (List.map (DesignUnit.respell f)) (Option.map (SyntaxFault.respell f))
        (unitsWithin context bound tokens) := by
  induction bound generalizing context tokens with
  | nil => cases tokens <;> rfl
  | cons marker bound ih =>
    cases tokens with
    | nil => rfl
    | cons token rest =>
      have read := respells_item (f := f) context (token :: rest)
      rw [List.map_cons] at read
      simp only [List.map_cons, unitsWithin, PlacedToken.value_respell, Token.respell_eq_endOfFile, read]
      split
      · rfl
      · cases item context (token :: rest) with
        | error fault left => rfl
        | ok value left =>
          obtain ⟨later, unit⟩ := value
          simp only [respellResult, Prod.map_apply, ih]
          cases unit <;> rfl

/-- Of tokens that are spelled in another way, the units are those of the tokens as they are, spelled in that way. -/
theorem units_map (tokens : List PlacedToken) :
    units (tokens.map (PlacedToken.respell f)) =
      Prod.map (List.map (DesignUnit.respell f)) (Option.map (SyntaxFault.respell f)) (units tokens) := by
  rw [units, units, withoutComments_map]
  exact unitsWithin_map .empty _ _

end DesignFile

end VhdlOrder
