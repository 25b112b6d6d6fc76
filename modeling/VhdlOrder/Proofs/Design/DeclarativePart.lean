import VhdlOrder.Proofs.Design.Declarations

/-! # Declarative parts where the file is cut off

A declarative part contains parts of its own. What holds of the inner parts, which have fewer tokens, is
shown to hold of each kind of item, and so of the part that the items make up.
-/

namespace VhdlOrder.DeclarativePart

open VhdlOrder.Parser

variable {cut : Cut} {loose : Bool} {n : Nat} {part other : Parser DeclarativePart} {α : Type}

/-! ## Subprograms -/

theorem continues_subprogramEnding (word : Keyword) (name : Identifier) :
    Continues cut loose n (subprogramEnding word name) (subprogramEnding word name) := by
  have repeated : Continues cut loose n (next (.delimiter .semicolon) >>= fun token =>
      Parser.ofExcept (Interface.designator token) >>= fun last =>
        if last.value.same name then delimiter .semicolon
        else throw (.endingMismatch last.position name last.value)) _ :=
    (continues_next _).bind fun _ => (continues_ofExcept _).bind fun _ =>
      .ite (continues_delimiter _) (.throw _)
  refine (continues_acceptKeywords _).bind_loose (fun _ => continues_peek?.bind_loose (fun read => ?_)
    fun _ read => ?_) fun _ _ => endsAt_peek?.bind_loose fun read => ?_
  · split
    · exact repeated
    · exact repeated
    · exact continues_delimiter _
  all_goals
    split
    · exact (endsAt_next _).bind
    · exact (endsAt_next _).bind
    · exact endsAt_delimiter _

theorem endsAt_subprogramEnding (word : Keyword) (name : Identifier) :
    EndsAt cut loose (subprogramEnding word name) := by
  refine (endsAt_acceptKeywords _).bind_loose fun _ => endsAt_peek?.bind_loose fun read => ?_
  split
  · exact (endsAt_next _).bind
  · exact (endsAt_next _).bind
  · exact endsAt_delimiter _

theorem continues_subprogram (ends : EndsAt cut false part) (inside : Continues cut false n part other)
    (word : Keyword) (kind : DeclarationKind) :
    Continues cut loose n (subprogram part word kind) (subprogram other word kind) := by
  refine (continues_next _).bind fun token => (continues_ofExcept _).bind fun name => ?_
  refine (continues_takeUntil _).bind fun found => (continues_ofExcept _).bind fun header => ?_
  refine .ite (.pure _) (.accept (by decide) (continues_statement.bind fun _ => .pure _) ?_ ends.bind)
  refine inside.bind fun _ => (continues_keyword _).bind fun _ => ?_
  refine (Region.continues_skip _).bind_loose (fun _ => ?_) fun _ _ => ?_
  · exact (continues_subprogramEnding _ _).bind fun _ => .pure _
  · exact (endsAt_subprogramEnding _ _).bind

theorem continues_qualifiedSubprogram (ends : EndsAt cut false part)
    (inside : Continues cut false n part other) :
    Continues cut loose n (qualifiedSubprogram part) (qualifiedSubprogram other) := by
  refine (continues_next _).bind fun token => ?_
  split
  · exact continues_subprogram ends inside _ _
  · exact continues_subprogram ends inside _ _
  · exact continues_unexpected _ _

/-! ## Packages -/

theorem continues_nestedGenerics : Continues cut true n nestedGenerics nestedGenerics := by
  refine .accept (by decide) ?_ (.pure _) (.pure _)
  exact Interface.continues_parse.bind fun _ => (continues_delimiter _).bind fun _ => .pure _

theorem endsAt_nestedGenerics : EndsAt cut true nestedGenerics := .accept (by decide) (.pure _)

theorem continues_nestedPackage (ends : EndsAt cut false part) (inside : Continues cut false n part other) :
    Continues cut loose n (nestedPackage part) (nestedPackage other) := by
  refine continues_identifier.bind fun name => (continues_keyword _).bind fun _ => ?_
  refine .accept (by decide) (continues_statement.bind fun _ => .pure _) ?_
    (endsAt_nestedGenerics.bind_loose fun _ => ends.bind)
  refine continues_nestedGenerics.bind_loose (fun _ => ?_) fun _ _ => ends.bind
  exact inside.bind fun _ => (continues_keyword _).bind fun _ => (continues_ending _ _).bind fun _ => .pure _

theorem continues_nestedBody (inside : Continues cut false n part other) :
    Continues cut loose n (nestedBody part) (nestedBody other) :=
  continues_identifier.bind fun _ => (continues_keyword _).bind fun _ => inside.bind fun _ =>
    (continues_keyword _).bind fun _ => (continues_ending _ _).bind fun _ => .pure _

/-! ## Items -/

theorem continues_item (ends : EndsAt cut false part) (inside : Continues cut false n part other)
    (position : Position) (word : Keyword) :
    Continues cut loose n (item part position word) (item other position word) := by
  unfold item
  split
  · exact TypeDeclaration.continues_parse.bind fun _ => .pure _
  · exact SimpleDeclaration.continues_parseSubtype.bind fun _ => .pure _
  iterate 4 exact (SimpleDeclaration.continues_parseObjects _ _).bind fun _ => .pure _
  · exact (SimpleDeclaration.continues_parseShared _).bind fun _ => .pure _
  · exact SimpleDeclaration.continues_parseAlias.bind fun _ => .pure _
  · exact SimpleDeclaration.continues_parseAttribute.bind fun _ => .pure _
  · exact SimpleDeclaration.continues_parseComponent.bind fun _ => .pure _
  · exact (continues_subprogram ends inside _ _).bind fun _ => .pure _
  · exact (continues_subprogram ends inside _ _).bind fun _ => .pure _
  iterate 2 exact (continues_qualifiedSubprogram ends inside).bind fun _ => .pure _
  · exact ContextClause.continues_parseUses.bind fun _ => .pure _
  · refine .accept (by decide) (continues_nestedBody (inside.mono (Nat.sub_le n 1))) ?_ endsAt_identifier.bind.bind
    exact (continues_nestedPackage ends inside).bind fun _ => .pure _
  · exact continues_statement.bind fun _ => .pure _

/-- What follows an item has fewer tokens. -/
theorem continues_anyItem_bind (ends : EndsAt cut false part) (inside : Continues cut false n part other)
    (token : PlacedToken) {second second' : DeclarativePart → Parser α}
    (right : ∀ value, Continues cut loose n (second value) (second' value)) :
    Continues cut loose (n + 1) (anyItem part token >>= second) (anyItem other token >>= second') := by
  unfold anyItem
  split
  · simp only [bind_assoc]
    exact (continues_next _).bind_takes (takes_next _) fun _ =>
      (continues_item ends inside _ _).bind right
  · simp only [bind_assoc, pure_bind]
    exact continues_statement.bind_takes takes_statement fun _ => right _

/-! ## Parts -/

theorem endsAt_head : EndsAt cut loose head := by
  have missing : head cut.ending = .error (.unexpectedEnd cut.place (.keyword .end)) cut.ending :=
    error_ending rfl fun _ _ isEnd => if_pos isEnd
  rw [EndsAt, missing]
  exact .fault _ _

theorem continues_head : Continues cut loose n head head := by
  intro tokens _ plain
  cases tokens with
  | nil => exact .ended endsAt_head
  | cons token rest =>
    have ordinary : token.value ≠ .endOfFile := plain token (by simp)
    simp only [head, List.cons_append, if_neg ordinary]
    exact .value (List.suffix_refl (token :: rest))

theorem endsAt_parse : EndsAt cut loose parse := .fix fun _ => endsAt_head.bind

theorem continues_parse : Continues cut loose n parse parse := by
  refine .loosen (.fix_ends (fun _ => endsAt_head.bind) fun n further other ends continues => ?_)
  refine continues_head.bind fun token => .ite (.pure _) ?_
  exact continues_anyItem_bind ends continues token fun _ => continues.bind fun _ => .pure _

end VhdlOrder.DeclarativePart
