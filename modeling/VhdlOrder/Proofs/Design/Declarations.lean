import VhdlOrder.Design.DeclarativePart
import VhdlOrder.Proofs.Design.Continuation

/-! # Declarations where the file is cut off

Context clauses, interface lists and declarations end with a token that must be there, so that they are
read as if the file went on, or the end of the file is reported. A region that is skipped is the exception:
the word behind its `end` tells whether this is its end, and at the end of the file there is none.
-/

namespace VhdlOrder

open VhdlOrder.Parser

variable {cut : Cut} {loose : Bool} {n : Nat}

namespace ContextClause

theorem continues_parseLibraries : Continues cut loose n parseLibraries parseLibraries :=
  continues_commaList fun _ => continues_identifier

theorem continues_parseUses : Continues cut loose n parseUses parseUses :=
  continues_commaList fun _ => continues_selectedName.bind_loose (fun _ => .pure _) fun _ _ => .pure _

theorem continues_parseContextsAfter (first : Located Identifier) :
    Continues cut loose n (parseContextsAfter first) (parseContextsAfter first) := by
  refine (continues_selectedNameAfter _).bind_loose (fun _ => ?_) fun _ _ =>
    .accept (by decide) (endsAt_delimiter _).bind
  refine .accept (by decide) (.bind (continues_commaList fun _ => ?_) fun _ => .pure _) ?_
    (endsAt_delimiter _).bind
  · exact continues_selectedName.bind_loose (fun _ => .pure _) fun _ _ => .pure _
  · exact (continues_delimiter _).bind fun _ => .pure _

theorem endsAt_parseContextsAfter (first : Located Identifier) :
    EndsAt cut loose (parseContextsAfter first) :=
  (endsAt_selectedNameAfter _).bind_loose fun _ => .accept (by decide) (endsAt_delimiter _).bind

theorem continues_parseLibraryItem : Continues cut loose n parseLibraryItem parseLibraryItem :=
  continues_parseLibraries.bind fun _ => .pure _

theorem continues_parseUseItem : Continues cut loose n parseUseItem parseUseItem :=
  continues_parseUses.bind fun _ => .pure _

theorem continues_parseContextItem (first : Located Identifier) :
    Continues cut loose n (parseContextItem first) (parseContextItem first) :=
  (continues_parseContextsAfter first).bind fun _ => .pure _

theorem endsAt_parseContextItem (first : Located Identifier) : EndsAt cut loose (parseContextItem first) :=
  (endsAt_parseContextsAfter first).bind

theorem continues_parseItems : Continues cut loose n parseItems parseItems := by
  refine .loosen (.fix fun n further other continues => ?_)
  refine (continues_next _).bind_takes (takes_next _) fun token => ?_
  split
  · exact .pure _
  · exact continues_parseLibraryItem.bind fun _ => continues.bind fun _ => .pure _
  · exact continues_parseUseItem.bind fun _ => continues.bind fun _ => .pure _
  · exact continues_identifier.bind fun name => (continues_parseContextItem name).bind fun _ =>
      continues.bind fun _ => .pure _
  · exact continues_unexpected _ _

end ContextClause

namespace Interface

theorem parseFrom_ending (depth : Nat) (current : List PlacedToken) :
    parseFrom depth current cut.ending =
      .error (.unexpectedEnd cut.place (.delimiter .rightParen)) cut.ending :=
  error_ending rfl fun _ _ isEnd => by rw [parseFrom, if_pos isEnd]

theorem continues_parseFrom : Continues cut loose n (parseFrom 0 []) (parseFrom 0 []) := by
  have within (depth : Nat) (current tokens : List PlacedToken)
      (plain : ∀ token ∈ tokens, token.value ≠ .endOfFile) :
      Outcome cut loose tokens (parseFrom depth current (tokens ++ cut.ending))
        (parseFrom depth current (tokens ++ cut.more)) := by
    induction tokens generalizing depth current with
    | nil =>
      rw [List.nil_append, parseFrom_ending]
      exact .ended (.fault _ _)
    | cons token rest ih =>
      obtain ⟨ordinary, others⟩ := List.forall_mem_cons.mp plain
      simp only [List.cons_append, parseFrom, if_neg ordinary]
      split
      · cases element current.reverse with
        | ok declarations => exact .value (List.suffix_cons token rest)
        | error fault => exact .fault
      split
      · cases element current.reverse with
        | error fault => exact .fault
        | ok declarations =>
          have behind := ih 0 [] others
          revert behind
          generalize parseFrom 0 [] (rest ++ cut.ending) = result
          generalize parseFrom 0 [] (rest ++ cut.more) = result'
          intro behind
          cases behind with
          | value suffix => exact .value (suffix.trans (List.suffix_cons token rest))
          | fault => exact .fault
          | ended ended =>
            cases ended with
            | fault wanted left => exact .ended (.fault wanted left)
            | value value allowed => exact .ended (.value _ allowed)
      · exact (ih _ _ others).of_suffix (List.suffix_cons token rest)
  exact fun tokens _ plain => within 0 [] tokens plain

theorem continues_parse : Continues cut loose n parse parse :=
  (continues_delimiter _).bind fun _ => continues_parseFrom

end Interface

namespace Region

theorem skipFrom_ending (closing : Option Keyword) (nesting : Nesting) :
    skipFrom closing nesting cut.ending = .error (.unexpectedEnd cut.place (.keyword .end)) cut.ending :=
  error_ending rfl fun _ _ isEnd => by rw [skipFrom, if_pos isEnd]

/-- The last token before the end of the file either ends the region or leaves it open. -/
theorem ended_skipFrom (closing : Option Keyword) (nesting : Nesting) {token : PlacedToken}
    (ordinary : token.value ≠ .endOfFile) : Ended cut true (skipFrom closing nesting (token :: cut.ending)) := by
  have noInner : closesInner (cut.ending.head?.map Located.value) = false := by
    rw [closesInner, cut.keyword?_ending]
    rfl
  have noClosing : (closing.isSome && none == closing) = false := by cases closing <;> rfl
  rw [skipFrom, if_neg ordinary]
  simp only [skipFrom_ending, Parser.cons, noInner, cut.keyword?_ending, Bool.and_assoc, noClosing,
    Bool.and_false, Bool.false_eq_true, if_false]
  split
  · split
    · exact .value _ rfl
    · exact .fault _ _
  · exact .fault _ _

theorem continues_skipFrom (closing : Option Keyword) (nesting : Nesting) (tokens : List PlacedToken)
    (plain : ∀ token ∈ tokens, token.value ≠ .endOfFile) :
    Outcome cut true tokens (skipFrom closing nesting (tokens ++ cut.ending))
      (skipFrom closing nesting (tokens ++ cut.more)) := by
  induction tokens generalizing nesting with
  | nil =>
    rw [List.nil_append, skipFrom_ending]
    exact .ended (.fault _ _)
  | cons token rest ih =>
    obtain ⟨ordinary, others⟩ := List.forall_mem_cons.mp plain
    cases rest with
    | nil => exact .ended (ended_skipFrom closing nesting ordinary)
    | cons second rest =>
      have recurse (nesting : Nesting) :
          Outcome cut true (token :: second :: rest)
            (Parser.cons token (skipFrom closing nesting (second :: rest ++ cut.ending)))
            (Parser.cons token (skipFrom closing nesting (second :: rest ++ cut.more))) :=
        (ih nesting others).cons
      simp only [List.cons_append] at recurse ⊢
      rw [skipFrom.eq_2 closing nesting token, skipFrom.eq_2 closing nesting token, if_neg ordinary,
        if_neg ordinary]
      simp only [List.head?_cons, List.tail_cons]
      have behind : second :: rest <:+ token :: second :: rest := List.suffix_cons token _
      refine .ite (.ite (.value ?_) (.ite (recurse _) (.ite ?_ (recurse _)))) (recurse _)
      · exact (List.suffix_cons second rest).trans behind
      · exact .value behind

theorem continues_skip (closing : Option Keyword) : Continues cut true n (skip closing) (skip closing) := by
  have whole : Continues cut true n (skipFrom closing .start : Parser (List PlacedToken × Unit))
      (skipFrom closing .start) := fun tokens _ plain => continues_skipFrom closing .start tokens plain
  exact whole.bind_loose (fun _ => .pure _) fun _ _ => .pure _

theorem endsAt_skip (closing : Option Keyword) : EndsAt cut loose (skip closing) := by
  have whole : EndsAt cut false (skipFrom closing .start : Parser (List PlacedToken × Unit)) := by
    change Ended cut false (skipFrom closing .start cut.ending)
    rw [skipFrom_ending]
    exact .fault _ _
  exact whole.bind

end Region

namespace SimpleDeclaration

theorem continues_parseSubtype : Continues cut loose n parseSubtype parseSubtype :=
  continues_identifier.bind fun _ => (continues_keyword _).bind fun _ => continues_statement.bind fun _ => .pure _

theorem continues_parseObjects (position : Position) (word : Keyword) :
    Continues cut loose n (parseObjects position word) (parseObjects position word) :=
  continues_statement.bind fun _ => continues_ofExcept _

theorem continues_parseShared (position : Position) :
    Continues cut loose n (parseShared position) (parseShared position) :=
  (continues_keyword _).bind fun _ => continues_parseObjects position _

theorem continues_parseAlias : Continues cut loose n parseAlias parseAlias :=
  (continues_next _).bind fun _ => (continues_ofExcept _).bind fun _ => continues_statement.bind fun _ => .pure _

theorem continues_parseAttribute : Continues cut loose n parseAttribute parseAttribute := by
  refine continues_identifier.bind fun name => ?_
  refine .accept (by decide) (continues_statement.bind fun _ => .pure _) ?_ (endsAt_keyword _).bind
  exact (continues_keyword _).bind fun _ => continues_statement.bind fun _ => .pure _

theorem continues_componentInterface : Continues cut loose n componentInterface componentInterface := by
  refine .loosen (.fix fun n further other continues => ?_)
  -- `isPort` is asked for only where `isGeneric` is false
  have items : Continues cut false n (Interface.parse >>= fun items => delimiter .semicolon >>= fun _ =>
      further >>= fun more => pure (items ++ more)) (Interface.parse >>= fun items =>
      delimiter .semicolon >>= fun _ => other >>= fun more => pure (items ++ more)) :=
    Interface.continues_parse.bind fun _ => (continues_delimiter _).bind fun _ => continues.bind fun _ => .pure _
  have neither : EndsAt cut false (next .componentEnd >>= fun token =>
      (unexpected token .componentItem : Parser (List Declaration))) := (endsAt_next _).bind
  refine .accept (by decide) (.pure _) (.accept (by decide) items (.accept (by decide) items ?_ neither) ?_) ?_
  · exact (continues_next _).bind fun _ => continues_unexpected _ _
  · exact .accept (by decide) neither
  · exact .accept (by decide) (.accept (by decide) neither)

theorem endsAt_componentInterface : EndsAt cut loose componentInterface := by
  have neither : EndsAt cut loose (next .componentEnd >>= fun token =>
      (unexpected token .componentItem : Parser (List Declaration))) := (endsAt_next _).bind
  exact .fix fun further => .accept (by decide) (.accept (by decide) (.accept (by decide) neither))

theorem continues_parseComponent : Continues cut loose n parseComponent parseComponent := by
  refine continues_identifier.bind fun name => ?_
  refine (continues_acceptKeywords _).bind_loose (fun _ => ?_) fun _ _ => endsAt_componentInterface.bind
  refine continues_componentInterface.bind fun locals => (continues_keyword _).bind fun _ => ?_
  exact (continues_ending _ _).bind fun _ => .pure _

end SimpleDeclaration

namespace TypeDeclaration

theorem continues_literals : Continues cut loose n literals literals := by
  refine .loosen (.fix fun n further other continues => ?_)
  refine (continues_next _).bind_takes (takes_next _) fun token => ?_
  split
  · exact .pure _
  · exact continues
  · exact continues
  · exact continues.bind fun _ => .pure _
  · exact continues_unexpected _ _

theorem continues_recordReferences : Continues cut loose n recordReferences recordReferences := by
  refine .loosen (.fix fun n further other continues => ?_)
  refine .accept (by decide) (.pure _) ?_ endsAt_statement.bind
  exact continues_statement.bind_takes takes_statement fun _ => continues.bind fun _ => .pure _

theorem continues_secondaryUnits : Continues cut loose n secondaryUnits secondaryUnits := by
  refine .loosen (.fix fun n further other continues => ?_)
  refine .accept (by decide) (.pure _) ?_ endsAt_identifier.bind
  exact continues_identifier.bind_takes takes_identifier fun _ =>
    continues_statement.bind fun _ => continues.bind fun _ => .pure _

theorem continues_units (name : Identifier) : Continues cut loose n (units name) (units name) :=
  continues_identifier.bind fun _ => (continues_delimiter _).bind fun _ => continues_secondaryUnits.bind fun _ =>
    (continues_keyword _).bind fun _ => (continues_ending _ _).bind fun _ => .pure _

theorem continues_enumeration (name : Located Identifier) :
    Continues cut loose n (enumeration name) (enumeration name) :=
  continues_literals.bind fun _ => (continues_delimiter _).bind fun _ => .pure _

theorem continues_record (name : Located Identifier) : Continues cut loose n (record name) (record name) :=
  continues_recordReferences.bind fun _ => (continues_keyword _).bind fun _ =>
    (continues_ending _ _).bind fun _ => .pure _

theorem continues_protectedRegion (name : Located Identifier) :
    Continues cut loose n (protectedRegion name) (protectedRegion name) := by
  refine .accept (by decide) ?_ ?_ (Region.endsAt_skip _).bind
  · refine (Region.continues_skip _).bind_loose (fun inside => ?_) fun _ inside =>
      (endsAt_acceptKeywords _).bind_loose fun _ => (endsAt_ending _ _).bind
    exact (continues_acceptKeywords _).bind_loose (fun _ => (continues_ending _ _).bind fun _ => .pure _)
      fun _ _ => (endsAt_ending _ _).bind
  · exact (Region.continues_skip _).bind_loose (fun inside => (continues_ending _ _).bind fun _ => .pure _)
      fun _ inside => (endsAt_ending _ _).bind

theorem continues_otherDefinition (name : Located Identifier) :
    Continues cut loose n (otherDefinition name) (otherDefinition name) := by
  refine (continues_takeUntil _).bind fun found => ?_
  exact .ite ((continues_units _).bind fun _ => .pure _) (.pure _)

theorem continues_parse : Continues cut loose n parse parse := by
  refine continues_identifier.bind fun name => ?_
  refine .accept (by decide) (.pure _) ?_ (endsAt_keyword _).bind
  refine (continues_keyword _).bind fun _ => ?_
  have other : EndsAt cut loose (otherDefinition name) := (endsAt_takeUntil _).bind
  exact .accept (by decide) (continues_enumeration name)
    (.accept (by decide) (continues_record name)
      (.accept (by decide) (continues_protectedRegion name) (continues_otherDefinition name) other)
      (.accept (by decide) other))
    (.accept (by decide) (.accept (by decide) other))

end TypeDeclaration

end VhdlOrder
