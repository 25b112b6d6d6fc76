import VhdlOrder.Proofs.Design.FaultPlaces
import VhdlOrder.Proofs.Design.ReadUnits
import VhdlOrder.Proofs.Design.Truncation
import VhdlOrder.Proofs.Lexical.Ascent

/-! # Where faults of design files are reported

Every production of the grammar reports its faults at tokens of the file and leaves the end of the file to the
next one. The first fault of a file is therefore placed at one of its tokens, and exactly at the end-of-file
marker if it is that the file ends too early.
-/

namespace VhdlOrder

open VhdlOrder.Parser

variable {cut : Cut} {source : List PlacedToken} {n : Nat}

/-! ## Context clauses -/

namespace ContextClause

theorem reports_parseUses : Reports cut source n parseUses :=
  reports_commaList fun _ => reports_selectedName.bind fun _ => .pure _

theorem reports_parseLibraryItem : Reports cut source n parseLibraryItem :=
  (reports_commaList fun _ => reports_identifier).bind fun _ => .pure _

theorem reports_parseUseItem : Reports cut source n parseUseItem := reports_parseUses.bind fun _ => .pure _

theorem reports_parseContextItem (first : Located Identifier) : Reports cut source n (parseContextItem first) := by
  have names : Reports cut source n (parseContextsAfter first) := by
    refine (reports_selectedNameAfter _).bind fun _ => .accept (by decide) ?_ ?_
    · exact (reports_commaList fun _ => reports_selectedName.bind fun _ => .pure _).bind fun _ => .pure _
    · exact (reports_delimiter _).bind fun _ => .pure _
  exact names.bind fun _ => .pure _

theorem reports_parseItems : Reports cut source n parseItems := by
  refine .fix fun n further reports => .next fun token member => ?_
  split
  · exact .pure _
  · exact reports_parseLibraryItem.bind fun _ => reports.bind fun _ => .pure _
  · exact reports_parseUseItem.bind fun _ => reports.bind fun _ => .pure _
  · exact reports_identifier.bind fun name => (reports_parseContextItem name).bind fun _ =>
      reports.bind fun _ => .pure _
  · exact reports_unexpected member _

end ContextClause

/-! ## Declarations -/

namespace SimpleDeclaration

theorem reports_parseSubtype : Reports cut source n parseSubtype :=
  reports_identifier.bind fun _ => (reports_keyword _).bind fun _ => reports_statement.bind fun _ => .pure _

/-- A fault of an object declaration is reported at its first word. -/
theorem reports_parseObjects {token : PlacedToken} (member : token ∈ source) (word : Keyword) :
    Reports cut source n (parseObjects token.position word) := by
  refine reports_statement.bind fun tokens => reports_ofExcept fun fault failed => ?_
  unfold objects at failed
  split at failed
  · cases failed
    exact .atToken member rfl rfl
  · split at failed
    · cases failed
      exact .atToken member rfl rfl
    · cases failed

theorem reports_parseShared {token : PlacedToken} (member : token ∈ source) :
    Reports cut source n (parseShared token.position) :=
  (reports_keyword _).bind fun _ => reports_parseObjects member _

theorem reports_parseAlias : Reports cut source n parseAlias :=
  .next fun _ member => (reports_ofExcept fun _ failed => Interface.placed_designator member failed).bind fun _ =>
    reports_statement.bind fun _ => .pure _

theorem reports_parseAttribute : Reports cut source n parseAttribute := by
  refine reports_identifier.bind fun name => .accept (by decide) (reports_statement.bind fun _ => .pure _) ?_
  exact (reports_keyword _).bind fun _ => reports_statement.bind fun _ => .pure _

theorem reports_componentInterface : Reports cut source n componentInterface := by
  refine .fix fun n further reports => ?_
  have items : Reports cut source n (Interface.parse >>= fun items => delimiter .semicolon >>= fun _ =>
      further >>= fun more => pure (items ++ more)) :=
    Interface.reports_parse.bind fun _ => (reports_delimiter _).bind fun _ => reports.bind fun _ => .pure _
  refine .accept (by decide) (.pure _) (.accept (by decide) items (.accept (by decide) items ?_))
  exact .next fun _ member => reports_unexpected member _

theorem reports_parseComponent : Reports cut source n parseComponent := by
  refine reports_identifier.bind fun name => (reports_acceptKeywords _).bind fun _ => ?_
  exact reports_componentInterface.bind fun _ => (reports_keyword _).bind fun _ =>
    (reports_ending _ _).bind fun _ => .pure _

end SimpleDeclaration

namespace TypeDeclaration

theorem reports_literals : Reports cut source n literals := by
  refine .fix fun n further reports => .next fun token member => ?_
  split
  · exact .pure _
  · exact reports
  · exact reports
  · exact reports.bind fun _ => .pure _
  · exact reports_unexpected member _

theorem reports_recordReferences : Reports cut source n recordReferences := by
  refine .fix fun n further reports => .accept (by decide) (.pure _) ?_
  exact reports_statement.bind_takes takes_statement fun _ => reports.bind fun _ => .pure _

theorem reports_units (name : Identifier) : Reports cut source n (units name) := by
  have further : Reports cut source n secondaryUnits := by
    refine .fix fun n further reports => .accept (by decide) (.pure _) ?_
    exact reports_identifier.bind_takes takes_identifier fun _ => reports_statement.bind fun _ =>
      reports.bind fun _ => .pure _
  exact reports_identifier.bind fun _ => (reports_delimiter _).bind fun _ => further.bind fun _ =>
    (reports_keyword _).bind fun _ => (reports_ending _ _).bind fun _ => .pure _

theorem reports_protectedRegion (name : Located Identifier) : Reports cut source n (protectedRegion name) := by
  have rest (n : Nat) (inside : List PlacedToken) : Reports cut source n (ending [] name.value >>= fun _ => pure
      [typeOf name .protectedType (References.expanded inside) (References.mentions inside)]) :=
    (reports_ending _ _).bind fun _ => .pure _
  refine .accept (by decide) ?_ ((Region.reports_skip _).bind (rest n))
  exact (Region.reports_skip _).bind fun inside => (reports_acceptKeywords _).bind fun _ => rest _ inside

theorem reports_parse : Reports cut source n parse := by
  refine reports_identifier.bind fun name => .accept (by decide) (.pure _) ((reports_keyword _).bind fun _ => ?_)
  refine .accept (by decide) ?enumeration (.accept (by decide) ?record (.accept (by decide) ?region ?other))
  case enumeration => exact reports_literals.bind fun _ => (reports_delimiter _).bind fun _ => .pure _
  case record =>
    exact reports_recordReferences.bind fun _ => (reports_keyword _).bind fun _ =>
      (reports_ending _ _).bind fun _ => .pure _
  case region => exact reports_protectedRegion name
  case other =>
    exact (reports_takeUntil _).bind fun _ => .ite ((reports_units _).bind fun _ => .pure _) (.pure _)

end TypeDeclaration

/-! ## Declarative parts -/

namespace DeclarativePart

variable {part : Parser DeclarativePart}

theorem reports_subprogramEnding (word : Keyword) (name : Identifier) :
    Reports cut source n (subprogramEnding word name) := by
  have repeated : Reports cut source n (next (.delimiter .semicolon) >>= fun token =>
      Parser.ofExcept (Interface.designator token) >>= fun last =>
        if last.value.same name then delimiter .semicolon
        else throw (.endingMismatch last.position name last.value)) := by
    refine .next fun token member => ?_
    refine (reports_ofExcept fun _ failed => Interface.placed_designator member failed).bind_yields
      (reads_ofExcept _) fun last answered => ?_
    exact .ite (reports_delimiter _) (.throw (placed_endingMismatch ⟨token, member, answered⟩ name _))
  refine (reports_acceptKeywords _).bind fun _ => reports_peek?.bind fun read => ?_
  split
  · exact repeated
  · exact repeated
  · exact reports_delimiter _

theorem reports_subprogram (inside : Reports cut source n part) (word : Keyword) (kind : DeclarationKind) :
    Reports cut source n (subprogram part word kind) := by
  have fewer : Reports cut source (n - 1) part := inside.mono (Nat.sub_le n 1)
  refine .next fun token member => ?_
  refine (reports_ofExcept fun _ failed => Interface.placed_designator member failed).bind fun name => ?_
  refine (reports_takeUntil _).bind_yields (yields_takeUntil _) fun found among => ?_
  refine (reports_ofExcept fun _ failed => Interface.placed_header among.1 failed).bind fun header => ?_
  refine .ite (.pure _) (.accept (by decide) (reports_statement.bind fun _ => .pure _) ?_)
  exact fewer.bind fun _ => (reports_keyword _).bind fun _ => (Region.reports_skip _).bind fun _ =>
    (reports_subprogramEnding _ _).bind fun _ => .pure _

theorem reports_qualifiedSubprogram (inside : Reports cut source n part) :
    Reports cut source n (qualifiedSubprogram part) := by
  have fewer : Reports cut source (n - 1) part := inside.mono (Nat.sub_le n 1)
  refine .next fun token member => ?_
  split
  · exact reports_subprogram fewer _ _
  · exact reports_subprogram fewer _ _
  · exact reports_unexpected member _

theorem reports_nestedPackage (inside : Reports cut source n part) : Reports cut source n (nestedPackage part) := by
  refine reports_identifier.bind fun name => (reports_keyword _).bind fun _ => ?_
  refine .accept (by decide) (reports_statement.bind fun _ => .pure _) ?_
  have generics : Reports cut source n nestedGenerics := by
    refine .accept (by decide) ?_ (.pure _)
    exact Interface.reports_parse.bind fun _ => (reports_delimiter _).bind fun _ => .pure _
  exact generics.bind fun _ => inside.bind fun _ => (reports_keyword _).bind fun _ =>
    (reports_ending _ _).bind fun _ => .pure _

theorem reports_nestedBody (inside : Reports cut source n part) : Reports cut source n (nestedBody part) :=
  reports_identifier.bind fun _ => (reports_keyword _).bind fun _ => inside.bind fun _ =>
    (reports_keyword _).bind fun _ => (reports_ending _ _).bind fun _ => .pure _

theorem reports_item (inside : Reports cut source n part) {token : PlacedToken} (member : token ∈ source)
    (word : Keyword) : Reports cut source n (item part token.position word) := by
  unfold item
  split
  · exact TypeDeclaration.reports_parse.bind fun _ => .pure _
  · exact SimpleDeclaration.reports_parseSubtype.bind fun _ => .pure _
  iterate 4 exact (SimpleDeclaration.reports_parseObjects member _).bind fun _ => .pure _
  · exact (SimpleDeclaration.reports_parseShared member).bind fun _ => .pure _
  · exact SimpleDeclaration.reports_parseAlias.bind fun _ => .pure _
  · exact SimpleDeclaration.reports_parseAttribute.bind fun _ => .pure _
  · exact SimpleDeclaration.reports_parseComponent.bind fun _ => .pure _
  · exact (reports_subprogram inside _ _).bind fun _ => .pure _
  · exact (reports_subprogram inside _ _).bind fun _ => .pure _
  iterate 2 exact (reports_qualifiedSubprogram inside).bind fun _ => .pure _
  · exact ContextClause.reports_parseUses.bind fun _ => .pure _
  · exact .accept (by decide) (reports_nestedBody (inside.mono (Nat.sub_le n 1)))
      ((reports_nestedPackage inside).bind fun _ => .pure _)
  · exact reports_statement.bind fun _ => .pure _

/-- What follows an item has fewer tokens. -/
theorem reports_anyItem_bind {α : Type} (inside : Reports cut source n part) {token : PlacedToken}
    (member : token ∈ source) {second : DeclarativePart → Parser α}
    (right : ∀ value, Reports cut source n (second value)) :
    Reports cut source (n + 1) (anyItem part token >>= second) := by
  unfold anyItem
  split
  · simp only [bind_assoc]
    exact .next fun _ _ => (reports_item inside member _).bind right
  · simp only [bind_assoc, pure_bind]
    exact reports_statement.bind_takes takes_statement fun _ => right _

theorem reports_head : Reports cut source n head := by
  intro tokens _ plain _
  cases tokens with
  | nil =>
    have missing : head cut.ending = .error (.unexpectedEnd cut.place (.keyword .end)) cut.ending :=
      error_ending rfl fun _ _ isEnd => if_pos isEnd
    rw [List.nil_append, missing]
    exact .fault (.atEnd _)
  | cons token rest =>
    have ordinary : token.value ≠ .endOfFile := plain token List.mem_cons_self
    simp only [head, List.cons_append, if_neg ordinary]
    exact .value (List.suffix_refl (token :: rest))

theorem yields_head : Yields source head (· ∈ source) :=
  reads_head.imp fun _ ⟨_, part⟩ => part List.mem_cons_self

theorem reports_parse : Reports cut source n parse := by
  refine .fix fun n further reports => reports_head.bind_yields yields_head fun token member => .ite (.pure _) ?_
  exact reports_anyItem_bind reports member fun _ => reports.bind fun _ => .pure _

end DeclarativePart

/-! ## Units -/

namespace DesignUnit

variable (position : Position) (context : ContextClause)

theorem reports_parsePackage : Reports cut source n (parsePackage position context) := by
  refine reports_identifier.bind fun name => (reports_keyword _).bind fun _ => .accept (by decide) ?_ ?_
  · exact reports_selectedName.bind fun _ => reports_statement.bind fun _ => .pure _
  · have generics : Reports cut source n packageGenerics := by
      refine .accept (by decide) (Interface.reports_parse.bind fun _ => .accept (by decide) ?_ ?_) (.pure _)
      · exact (reports_keyword _).bind fun _ => reports_statement.bind fun _ => .pure _
      · exact (reports_delimiter _).bind fun _ => .pure _
    exact generics.bind fun _ => DeclarativePart.reports_parse.bind fun _ => (reports_keyword _).bind fun _ =>
      (reports_ending _ _).bind fun _ => .pure _

theorem reports_parsePackageBody : Reports cut source n (parsePackageBody position context) :=
  reports_identifier.bind fun _ => (reports_keyword _).bind fun _ => DeclarativePart.reports_parse.bind fun _ =>
    (reports_keyword _).bind fun _ => (reports_ending _ _).bind fun _ => .pure _

theorem reports_interfaceAfter (word : Keyword) : Reports cut source n (interfaceAfter word) :=
  .accept (by simp) (Interface.reports_parse.bind fun _ => (reports_delimiter _).bind fun _ => .pure _) (.pure _)

theorem reports_regionReferences : Reports cut source n regionReferences :=
  (Region.reports_skip _).bind fun _ => .pure _

theorem reports_parseEntity : Reports cut source n (parseEntity position context) :=
  reports_identifier.bind fun _ => (reports_keyword _).bind fun _ => (reports_interfaceAfter _).bind fun _ =>
    (reports_interfaceAfter _).bind fun _ => reports_regionReferences.bind fun _ =>
      (reports_ending _ _).bind fun _ => .pure _

theorem reports_parseOfEntity (word : Keyword) (contents : Identifier → UnitContents) :
    Reports cut source n (parseOfEntity word contents position context) :=
  reports_identifier.bind fun _ => (reports_keyword _).bind fun _ => reports_identifier.bind fun _ =>
    (reports_keyword _).bind fun _ => reports_regionReferences.bind fun _ => (reports_ending _ _).bind fun _ => .pure _

theorem reports_parseContext (name : Identifier) : Reports cut source n (parseContext name position context) :=
  ContextClause.reports_parseItems.bind fun _ => (reports_ending _ _).bind fun _ => .pure _

end DesignUnit

/-! ## Files -/

namespace DesignFile

theorem reports_item (context : ContextClause) : Reports cut source n (item context) := by
  refine .next fun token member => ?_
  split
  · exact .pure _
  · exact ContextClause.reports_parseLibraryItem.bind fun _ => .pure _
  · exact ContextClause.reports_parseUseItem.bind fun _ => .pure _
  · refine reports_identifier.bind fun name => .accept (by decide) ?_ ?_
    · exact (DesignUnit.reports_parseContext _ _ _).bind fun _ => .pure _
    · exact (ContextClause.reports_parseContextItem _).bind fun _ => .pure _
  · refine .accept (by decide) ?_ ?_
    · exact (DesignUnit.reports_parsePackageBody _ _).bind fun _ => .pure _
    · exact (DesignUnit.reports_parsePackage _ _).bind fun _ => .pure _
  · exact (DesignUnit.reports_parseEntity _ _).bind fun _ => .pure _
  · exact (DesignUnit.reports_parseOfEntity _ _ _ _).bind fun _ => .pure _
  · exact (DesignUnit.reports_parseOfEntity _ _ _ _).bind fun _ => .pure _
  · exact reports_unexpected member _

/-- The fault that ends the units of a file is at its place. -/
theorem placed_unitsWithin (cut : Cut) (context : ContextClause) {bound tokens : List PlacedToken}
    (plain : ∀ token ∈ tokens, token.value ≠ .endOfFile) (part : tokens ++ cut.ending ⊆ source) {fault : SyntaxFault}
    (found : (unitsWithin context bound (tokens ++ cut.ending)).2 = some fault) : fault.Placed cut.place source := by
  induction bound generalizing context tokens with
  | nil =>
    cases same : tokens ++ cut.ending with
    | nil => simp [same] at found
    | cons token rest => simp [same, unitsWithin] at found
  | cons marker bound ih =>
    cases tokens with
    | nil => simp [unitsWithin_ending] at found
    | cons token tail =>
      have reported := reports_item context (token :: tail) (Nat.lt_succ_self _) plain part
      simp only [List.cons_append] at reported found
      rw [unitsWithin_cons context (plain token List.mem_cons_self)] at found
      generalize item context (token :: (tail ++ cut.ending)) = result at reported found
      cases reported with
      | fault placed =>
        cases found
        exact placed
      | @value value rest suffix =>
        obtain ⟨inside, atEnd⟩ := List.append_subset.mp part
        exact ih value.1 (plain_of_suffix suffix plain)
          (List.append_subset.mpr ⟨List.Subset.trans suffix.subset inside, atEnd⟩) found

/-- In tokens that end with the only end-of-file marker, the first fault is at a token that is no comment, and that the
file ends too early is reported at the marker. -/
theorem placed_units {front : List PlacedToken} {marker : PlacedToken}
    (plain : ∀ token ∈ front, token.value ≠ .endOfFile)
    (isEnd : marker.value = .endOfFile) {fault : SyntaxFault} (found : (units (front ++ [marker])).2 = some fault) :
    fault.Placed marker.position (withoutComments (front ++ [marker])) := by
  let cut : Cut := ⟨[marker], [], by rintro _ ⟨⟩; exact isEnd⟩
  have kept : withoutComments (front ++ [marker]) = withoutComments front ++ cut.ending := by
    simp [withoutComments, cut, isEnd, Token.isComment]
  have plainKept (token : PlacedToken) (member : token ∈ withoutComments front) : token.value ≠ .endOfFile :=
    plain token (List.mem_filter.mp member).1
  rw [units, kept] at found
  exact placed_unitsWithin cut .empty plainKept (kept ▸ List.Subset.refl _) found

end DesignFile

end VhdlOrder
