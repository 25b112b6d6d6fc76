import VhdlOrder.Proofs.Design.Places
import VhdlOrder.Proofs.Design.Units
import VhdlOrder.Proofs.Lexical.Ascent
import VhdlOrder.Proofs.Lexical.Names

/-! # Where design units begin and what they are called

A design unit stands at the first token of its item, and its name is an identifier among the tokens behind that
one. An item takes tokens from the front only. So the units of a text stand one behind the other, and their names
are names that a text can have.
-/

namespace VhdlOrder

open VhdlOrder.Parser

variable {source : List PlacedToken}

/-- The identifier is one of the tokens. -/
def Named (source : List PlacedToken) (name : Identifier) : Prop := ∃ token ∈ source, token.value = .identifier name

theorem Named.mono {tokens : List PlacedToken} {name : Identifier} (named : Named tokens name)
    (part : tokens ⊆ source) : Named source name := by
  obtain ⟨token, member, same⟩ := named
  exact ⟨token, part member, same⟩

theorem Parser.Yields.and {α : Type} {parser : Parser α} {good better : α → Prop} (first : Yields source parser good)
    (second : Yields source parser better) : Yields source parser fun value => good value ∧ better value := by
  intro tokens value rest part answered
  obtain ⟨holds, left⟩ := first tokens value rest part answered
  exact ⟨⟨holds, (second tokens value rest part answered).1⟩, left⟩

theorem Parser.yields_name : Yields source identifier fun name => Named source name.value := by
  refine (yields_next _).bind fun token member => ?_
  split
  · rename_i name same
    exact .pure ⟨token, member, same⟩
  · exact reads_unexpected _ _

/-! ## Units -/

namespace DesignUnit

/-- The unit stands at the place, and its name is one of the tokens. -/
structure Heads (source : List PlacedToken) (place : Position) (unit : DesignUnit) : Prop where
  position : unit.position = place
  name : Named source unit.name

variable (position : Position) (context : ContextClause)

theorem heads_parsePackage : Yields source (parsePackage position context) (·.Heads source position) := by
  refine yields_name.bind fun name named => (reads_keyword _).bind fun _ _ => .accept ?_ ?_
  · exact yields_selectedName.bind fun _ _ => yields_statement.bind fun _ _ => .pure ⟨rfl, named⟩
  · refine (reads_packageGenerics Interface.eachElement_isWritten).bind fun _ _ => ?_
    refine DeclarativePart.yields_parse.bind fun _ _ => ?_
    exact (reads_keyword _).bind fun _ _ => (reads_ending _ _).bind fun _ _ => .pure ⟨rfl, named⟩

theorem heads_parsePackageBody : Yields source (parsePackageBody position context) (·.Heads source position) := by
  refine yields_name.bind fun name named => (reads_keyword _).bind fun _ _ => ?_
  refine DeclarativePart.yields_parse.bind fun _ _ => (reads_keyword _).bind fun _ _ => ?_
  exact (reads_ending _ _).bind fun _ _ => .pure ⟨rfl, named⟩

theorem heads_parseEntity : Yields source (parseEntity position context) (·.Heads source position) := by
  refine yields_name.bind fun name named => (reads_keyword _).bind fun _ _ => ?_
  refine (reads_interfaceAfter Interface.eachElement_isWritten _).bind fun _ _ => ?_
  refine (reads_interfaceAfter Interface.eachElement_isWritten _).bind fun _ _ => ?_
  exact yields_regionReferences.bind fun _ _ => (reads_ending _ _).bind fun _ _ => .pure ⟨rfl, named⟩

theorem heads_parseOfEntity (word : Keyword) (contents : Identifier → UnitContents) :
    Yields source (parseOfEntity word contents position context) (·.Heads source position) := by
  refine yields_name.bind fun name named => (reads_keyword _).bind fun _ _ => ?_
  refine yields_name.bind fun _ _ => (reads_keyword _).bind fun _ _ => ?_
  exact yields_regionReferences.bind fun _ _ => (reads_ending _ _).bind fun _ _ => .pure ⟨rfl, named⟩

theorem heads_parseContext {name : Identifier} (named : Named source name) :
    Yields source (parseContext name position context) (·.Heads source position) :=
  ContextClause.yields_parseItems.bind fun _ _ => (reads_ending _ _).bind fun _ _ => .pure ⟨rfl, named⟩

end DesignUnit

/-! ## Files -/

namespace DesignFile

/-- A unit at the top level of a file stands at the first token of its item. -/
theorem heads_of_item {context : ContextClause} {token : PlacedToken} {tail left : List PlacedToken}
    {value : ContextClause × Option DesignUnit} (ordinary : token.value ≠ .endOfFile)
    (answered : item context (token :: tail) = .ok value left) :
    ∀ unit ∈ value.2, unit.Heads tail token.position := by
  have nothing {parser : Parser ContextClause} {good : ContextClause → Prop} (yields : Yields tail parser good) :
      Yields tail (parser >>= fun more => pure (context.append more, (none : Option DesignUnit)))
        fun found => ∀ unit ∈ found.2, unit.Heads tail token.position :=
    yields.bind fun _ _ => .pure (by rintro unit ⟨⟩)
  have one {parser : Parser DesignUnit} (yields : Yields tail parser (·.Heads tail token.position)) :
      Yields tail (parser >>= fun unit => pure (ContextClause.empty, some unit))
        fun found => ∀ unit ∈ found.2, unit.Heads tail token.position :=
    yields.bind fun _ heads => .pure (by rintro unit ⟨⟩; exact heads)
  obtain ⟨body, opened, heads⟩ : ∃ body, item context = (next .designUnit >>= body) ∧
      Yields tail (body token) fun found => ∀ unit ∈ found.2, unit.Heads tail token.position := by
    refine ⟨_, rfl, ?_⟩
    split
    · exact .pure (by rintro unit ⟨⟩)
    · exact nothing ContextClause.yields_parseLibraryItem
    · exact nothing ContextClause.yields_parseUseItem
    · exact (yields_identifier.and yields_name).bind fun _ ⟨written, named⟩ =>
        .accept (one (DesignUnit.heads_parseContext _ _ named))
          (nothing (ContextClause.yields_parseContextItem written))
    · exact .accept (one (DesignUnit.heads_parsePackageBody _ _)) (one (DesignUnit.heads_parsePackage _ _))
    · exact one (DesignUnit.heads_parseEntity _ _)
    · exact one (DesignUnit.heads_parseOfEntity _ _ _ _)
    · exact one (DesignUnit.heads_parseOfEntity _ _ _ _)
    · exact reads_unexpected _ _
  have behind : body token tail = .ok value left := by
    rw [opened] at answered
    change EStateM.bind _ _ _ = _ at answered
    rwa [EStateM.bind, next_ordinary _ ordinary] at answered
  exact (heads tail value left (List.Subset.refl tail) behind).1

/-- The units among tokens that stand one behind the other stand at some of the tokens, one behind the other. -/
theorem heads_unitsWithin {context : ContextClause} {bound tokens : List PlacedToken}
    (ascending : tokens.Pairwise PlacedToken.Before) :
    (∀ unit ∈ (unitsWithin context bound tokens).1, ∃ token ∈ tokens, token.value ≠ .endOfFile ∧
      unit.Heads tokens token.position) ∧
      (unitsWithin context bound tokens).1.Pairwise fun a b => a.position.compare b.position = .lt := by
  induction bound generalizing context tokens with
  | nil => cases tokens <;> exact ⟨List.forall_mem_nil _, .nil⟩
  | cons marker bound ih =>
    cases tokens with
    | nil => exact ⟨List.forall_mem_nil _, .nil⟩
    | cons token tail =>
      by_cases isEnd : token.value = .endOfFile
      · simp only [unitsWithin, if_pos isEnd]
        exact ⟨List.forall_mem_nil _, .nil⟩
      rw [unitsWithin_cons context isEnd]
      cases answered : item context (token :: tail) with
      | error fault left => exact ⟨List.forall_mem_nil _, .nil⟩
      | ok value left =>
        obtain ⟨ahead, others⟩ := List.pairwise_cons.mp ascending
        have suffix := suffix_of_item isEnd answered
        obtain ⟨heads, pairwise⟩ := @ih value.1 left (others.sublist suffix.sublist)
        have part : tail ⊆ token :: tail := List.subset_cons_self token tail
        have first : ∀ unit ∈ value.2.toList, unit.Heads tail token.position := by
          simpa using heads_of_item isEnd answered
        refine ⟨List.forall_mem_append.mpr ⟨fun unit member => ?_, fun unit member => ?_⟩,
          List.pairwise_append.mpr ⟨?_, pairwise, fun unit member later memberLater => ?_⟩⟩
        · have here := first unit member
          exact ⟨token, List.mem_cons_self, isEnd, here.position, here.name.mono part⟩
        · obtain ⟨other, present, ordinary, there⟩ := heads unit member
          have inside : left ⊆ token :: tail := List.Subset.trans suffix.subset part
          exact ⟨other, inside present, ordinary, there.position, there.name.mono inside⟩
        · cases value.2 <;> simp
        · obtain ⟨other, present, ordinary, there⟩ := heads later memberLater
          rw [(first unit member).position, there.position]
          exact (ahead other (suffix.subset present)).resolve_left ordinary

/-- The tokens of a text stand one behind the other without its comments too. -/
theorem ascending_withoutComments (text : String) :
    (withoutComments (Lexer.readUntilFault text).1).Pairwise PlacedToken.Before :=
  (Lexer.ascending_readUntilFault text).sublist List.filter_sublist

/-- The units of a text up to its first fault stand one behind the other. -/
theorem pairwise_units (text : String) :
    (units (Lexer.readUntilFault text).1).1.Pairwise fun a b => a.position.compare b.position = .lt :=
  (heads_unitsWithin (ascending_withoutComments text)).2

/-- The names of the units of a text are tokens of it. -/
theorem isLexed_of_mem_units {text : String} :
    ∀ unit ∈ (units (Lexer.readUntilFault text).1).1, unit.name.IsLexed := by
  intro unit member
  obtain ⟨token, -, -, heads⟩ := (heads_unitsWithin (ascending_withoutComments text)).1 unit member
  exact ⟨text, heads.name.mono List.filter_sublist.subset⟩

end DesignFile

end VhdlOrder
