import VhdlOrder.Design.File
import VhdlOrder.Proofs.Design.DeclarativePart

/-! # Design files one after the other

A design unit ends with a token that must be there, so it is read from its own tokens only. A file in front
of another one, without its end-of-file marker and with no context item left, therefore gives its units in
front of those of the other one, whatever the other one is.
-/

namespace VhdlOrder

open VhdlOrder.Parser

variable {cut : Cut} {loose : Bool} {n : Nat}

/-! ## Units -/

namespace DesignUnit

theorem continues_packageGenerics : Continues cut true n packageGenerics packageGenerics := by
  refine .accept (by decide) ?_ (.pure _) (.pure _)
  refine Interface.continues_parse.bind fun items => .accept (by decide) ?_ ?_ (endsAt_delimiter _).bind
  · exact (continues_keyword _).bind fun _ => continues_statement.bind fun _ => .pure _
  · exact (continues_delimiter _).bind fun _ => .pure _

theorem endsAt_packageGenerics : EndsAt cut true packageGenerics := .accept (by decide) (.pure _)

theorem continues_parsePackage (position : Position) (context : ContextClause) :
    Continues cut loose n (parsePackage position context) (parsePackage position context) := by
  refine continues_identifier.bind fun name => (continues_keyword _).bind fun _ => ?_
  refine .accept (by decide) ?_ ?_ (endsAt_packageGenerics.bind_loose fun _ =>
    DeclarativePart.endsAt_parse.bind)
  · exact continues_selectedName.bind_loose (fun _ => continues_statement.bind fun _ => .pure _)
      fun _ _ => endsAt_statement.bind
  · refine continues_packageGenerics.bind_loose (fun generics => ?_) fun _ _ => DeclarativePart.endsAt_parse.bind
    exact DeclarativePart.continues_parse.bind fun _ => (continues_keyword _).bind fun _ =>
      (continues_ending _ _).bind fun _ => .pure _

theorem continues_parsePackageBody (position : Position) (context : ContextClause) :
    Continues cut loose n (parsePackageBody position context) (parsePackageBody position context) :=
  continues_identifier.bind fun _ => (continues_keyword _).bind fun _ =>
    DeclarativePart.continues_parse.bind fun _ => (continues_keyword _).bind fun _ =>
      (continues_ending _ _).bind fun _ => .pure _

theorem continues_interfaceAfter (word : Keyword) :
    Continues cut true n (interfaceAfter word) (interfaceAfter word) := by
  refine .accept (by simp) ?_ (.pure _) (.pure _)
  exact Interface.continues_parse.bind fun _ => (continues_delimiter _).bind fun _ => .pure _

theorem endsAt_interfaceAfter (word : Keyword) : EndsAt cut true (interfaceAfter word) :=
  .accept (by simp) (.pure _)

theorem continues_regionReferences : Continues cut true n regionReferences regionReferences :=
  (Region.continues_skip _).bind_loose (fun _ => .pure _) fun _ _ => .pure _

theorem endsAt_regionReferences : EndsAt cut loose regionReferences := (Region.endsAt_skip _).bind

theorem continues_parseEntity (position : Position) (context : ContextClause) :
    Continues cut loose n (parseEntity position context) (parseEntity position context) := by
  refine continues_identifier.bind fun name => (continues_keyword _).bind fun _ => ?_
  refine (continues_interfaceAfter _).bind_loose (fun generics => ?_) fun _ _ =>
    (endsAt_interfaceAfter _).bind_loose fun _ => endsAt_regionReferences.bind
  refine (continues_interfaceAfter _).bind_loose (fun ports => ?_) fun _ _ => endsAt_regionReferences.bind
  exact continues_regionReferences.bind_loose (fun _ => (continues_ending _ _).bind fun _ => .pure _)
    fun _ _ => (endsAt_ending _ _).bind

theorem continues_parseOfEntity (word : Keyword) (contents : Identifier → UnitContents) (position : Position)
    (context : ContextClause) :
    Continues cut loose n (parseOfEntity word contents position context)
      (parseOfEntity word contents position context) := by
  refine continues_identifier.bind fun name => (continues_keyword _).bind fun _ => ?_
  refine continues_identifier.bind fun entity => (continues_keyword _).bind fun _ => ?_
  exact continues_regionReferences.bind_loose (fun _ => (continues_ending _ _).bind fun _ => .pure _)
    fun _ _ => (endsAt_ending _ _).bind

theorem continues_parseContext (name : Identifier) (position : Position) (context : ContextClause) :
    Continues cut loose n (parseContext name position context) (parseContext name position context) :=
  ContextClause.continues_parseItems.bind fun _ => (continues_ending _ _).bind fun _ => .pure _

end DesignUnit

/-! ## Files -/

namespace DesignFile

/-- What stands at the top level of a file is read from its own tokens, after the first of them. -/
theorem exists_item_eq (context : ContextClause) :
    ∃ body : PlacedToken → Parser (ContextClause × Option DesignUnit),
      item context = (next .designUnit >>= body) ∧
        ∀ (cut : Cut) (n : Nat) (token : PlacedToken), Continues cut false n (body token) (body token) := by
  refine ⟨_, rfl, fun cut n token => ?_⟩
  split
  · exact .pure _
  · exact ContextClause.continues_parseLibraryItem.bind fun _ => .pure _
  · exact ContextClause.continues_parseUseItem.bind fun _ => .pure _
  · refine continues_identifier.bind fun name => ?_
    refine .accept (by decide) ?_ ?_ (ContextClause.endsAt_parseContextItem _).bind
    · exact (DesignUnit.continues_parseContext _ _ _).bind fun _ => .pure _
    · exact (ContextClause.continues_parseContextItem _).bind fun _ => .pure _
  · refine .accept (by decide) ?_ ?_ endsAt_identifier.bind.bind
    · exact (DesignUnit.continues_parsePackageBody _ _).bind fun _ => .pure _
    · exact (DesignUnit.continues_parsePackage _ _).bind fun _ => .pure _
  · exact (DesignUnit.continues_parseEntity _ _).bind fun _ => .pure _
  · exact (DesignUnit.continues_parseOfEntity _ _ _ _).bind fun _ => .pure _
  · exact (DesignUnit.continues_parseOfEntity _ _ _ _).bind fun _ => .pure _
  · exact continues_unexpected _ _

/-- Behind its first token an item is read by a parser that reads its own tokens only. -/
theorem exists_item_cons_eq (context : ContextClause) {token : PlacedToken} (ordinary : token.value ≠ .endOfFile) :
    ∃ body : Parser (ContextClause × Option DesignUnit),
      (∀ behind, item context (token :: behind) = body behind) ∧
        ∀ (cut : Cut) (n : Nat), Continues cut false n body body := by
  obtain ⟨body, same, continues⟩ := exists_item_eq context
  refine ⟨body token, fun behind => ?_, fun cut n => continues cut n token⟩
  rw [same]
  change EStateM.bind _ _ _ = _
  rw [EStateM.bind, next_ordinary _ ordinary]

/-- Behind its first token an item has the outcome of a parser that reads its own tokens only. -/
theorem outcome_item (cut : Cut) (context : ContextClause) {token : PlacedToken} {tail : List PlacedToken}
    (plain : ∀ other ∈ token :: tail, other.value ≠ .endOfFile) :
    Outcome cut false tail (item context (token :: tail ++ cut.ending)) (item context (token :: tail ++ cut.more)) := by
  obtain ⟨ordinary, others⟩ := List.forall_mem_cons.mp plain
  obtain ⟨body, opened, continues⟩ := exists_item_cons_eq context ordinary
  rw [List.cons_append, List.cons_append, opened, opened]
  exact continues cut (tail.length + 1) tail (Nat.lt_succ_self _) others

/-- An item that is read where the file ends is read where it goes on, and leaves the same tokens. -/
theorem item_continues (cut : Cut) (context : ContextClause) {token : PlacedToken} {tail left : List PlacedToken}
    {value : ContextClause × Option DesignUnit}
    (plain : ∀ other ∈ token :: tail, other.value ≠ .endOfFile)
    (answered : item context (token :: tail ++ cut.ending) = .ok value left) :
    ∃ rest, rest <:+ tail ∧ left = rest ++ cut.ending ∧
      item context (token :: tail ++ cut.more) = .ok value (rest ++ cut.more) := by
  have outcome := outcome_item cut context plain
  rw [answered] at outcome
  exact outcome.of_ok

/-- The context items that are left behind the last unit of a file; `bound` is as for the units. -/
def pendingWithin (context : ContextClause) (bound tokens : List PlacedToken) : ContextClause :=
  match bound, tokens with
  | _, [] => context
  | [], _ :: _ => context
  | _ :: bound, token :: rest =>
      if token.value = .endOfFile then context
      else
        match item context (token :: rest) with
        | .error _ _ => context
        | .ok (later, _) rest => pendingWithin later bound rest

/-- The context items behind the last unit in the tokens of a file, which belong to no unit. -/
def pending (tokens : List PlacedToken) : ContextClause :=
  pendingWithin .empty (withoutComments tokens) (withoutComments tokens)

@[simp] theorem unitsWithin_nil (context : ContextClause) (bound : List PlacedToken) :
    unitsWithin context bound [] = ([], none) := by
  cases bound <;> simp only [unitsWithin]

@[simp] theorem pendingWithin_nil (context : ContextClause) (bound : List PlacedToken) :
    pendingWithin context bound [] = context := by
  cases bound <;> simp only [pendingWithin]

/-- One step of a file: its first item, and the units behind it. -/
theorem unitsWithin_cons (context : ContextClause) {token marker : PlacedToken}
    (ordinary : token.value ≠ .endOfFile) (bound tail : List PlacedToken) :
    unitsWithin context (marker :: bound) (token :: tail) =
      match item context (token :: tail) with
      | .error fault _ => ([], some fault)
      | .ok (later, unit) rest =>
          (unit.toList ++ (unitsWithin later bound rest).1, (unitsWithin later bound rest).2) := by
  cases answered : item context (token :: tail) <;> simp only [unitsWithin, if_neg ordinary, answered]

theorem unitsWithin_of_item {context : ContextClause} {token marker : PlacedToken}
    {bound tail rest : List PlacedToken} {value : ContextClause × Option DesignUnit}
    (ordinary : token.value ≠ .endOfFile) (answered : item context (token :: tail) = .ok value rest) :
    unitsWithin context (marker :: bound) (token :: tail) =
      (value.2.toList ++ (unitsWithin value.1 bound rest).1, (unitsWithin value.1 bound rest).2) := by
  rw [unitsWithin_cons context ordinary, answered]

theorem pendingWithin_of_item {context : ContextClause} {token marker : PlacedToken}
    {bound tail rest : List PlacedToken} {value : ContextClause × Option DesignUnit}
    (ordinary : token.value ≠ .endOfFile) (answered : item context (token :: tail) = .ok value rest) :
    pendingWithin context (marker :: bound) (token :: tail) = pendingWithin value.1 bound rest := by
  rw [pendingWithin, if_neg ordinary, answered]

/-- Tokens up to the end of a file, and what stands from there on. -/
theorem exists_plain_ending (tokens : List PlacedToken) :
    ∃ plain ending, tokens = plain ++ ending ∧ (∀ token ∈ plain, token.value ≠ .endOfFile) ∧
      ∀ token, ending.head? = some token → token.value = .endOfFile := by
  refine ⟨tokens.takeWhile (·.value != .endOfFile), tokens.dropWhile (·.value != .endOfFile),
    List.takeWhile_append_dropWhile.symm, fun token member => ?_, fun token first => ?_⟩
  · simpa using List.all_eq_true.mp List.all_takeWhile token member
  · have stopped := List.head?_dropWhile_not (·.value != .endOfFile) tokens
    rw [first] at stopped
    simpa using stopped

/-- An item takes tokens from the front, whatever stands behind them. -/
theorem suffix_of_item {context : ContextClause} {token : PlacedToken} {tail left : List PlacedToken}
    {value : ContextClause × Option DesignUnit} (ordinary : token.value ≠ .endOfFile)
    (answered : item context (token :: tail) = .ok value left) : left <:+ tail := by
  obtain ⟨front, ending, rfl, plain, atEnd⟩ := exists_plain_ending tail
  obtain ⟨rest, ⟨taken, rfl⟩, rfl, -⟩ := item_continues ⟨ending, ending, atEnd⟩ context
    (List.forall_mem_cons.mpr ⟨ordinary, plain⟩) answered
  exact ⟨taken, (List.append_assoc _ _ _).symm⟩

/-- A longer bound does not matter. -/
theorem unitsWithin_bound (context : ContextClause) {bound bound' tokens : List PlacedToken}
    (long : tokens.length ≤ bound.length) (long' : tokens.length ≤ bound'.length) :
    unitsWithin context bound tokens = unitsWithin context bound' tokens := by
  induction bound generalizing context bound' tokens with
  | nil =>
    obtain rfl : tokens = [] := List.eq_nil_of_length_eq_zero (Nat.le_zero.mp long)
    rw [unitsWithin_nil, unitsWithin_nil]
  | cons marker bound ih =>
    cases tokens with
    | nil => rw [unitsWithin_nil, unitsWithin_nil]
    | cons token tail =>
      cases bound' with
      | nil => cases long'
      | cons marker' bound' =>
        by_cases isEnd : token.value = .endOfFile
        · simp only [unitsWithin, if_pos isEnd]
        rw [unitsWithin_cons context isEnd, unitsWithin_cons context isEnd]
        cases answered : item context (token :: tail) with
        | error fault left => rfl
        | ok value left =>
          have fewer := (suffix_of_item isEnd answered).length_le
          simp only [List.length_cons] at long long'
          have same : unitsWithin value.1 bound left = unitsWithin value.1 bound' left :=
            ih value.1 (by omega) (by omega)
          simp only [same]

/-- What is read of the tokens in front does not depend on those behind them. -/
theorem unitsWithin_append (context : ContextClause) {bound bound' bound'' first second : List PlacedToken}
    (plain : ∀ token ∈ first, token.value ≠ .endOfFile) (long : first.length ≤ bound.length)
    (long' : first.length + second.length ≤ bound'.length) (long'' : second.length ≤ bound''.length)
    {found : List DesignUnit} (read : unitsWithin context bound first = (found, none)) :
    unitsWithin context bound' (first ++ second) =
      (found ++ (unitsWithin (pendingWithin context bound first) bound'' second).1,
        (unitsWithin (pendingWithin context bound first) bound'' second).2) := by
  induction bound generalizing context bound' first found with
  | nil =>
    obtain rfl : first = [] := List.eq_nil_of_length_eq_zero (Nat.le_zero.mp long)
    rw [unitsWithin_nil] at read
    cases read
    rw [pendingWithin_nil]
    exact unitsWithin_bound context (by simpa using long') long''
  | cons marker bound ih =>
    cases first with
    | nil =>
      rw [unitsWithin_nil] at read
      cases read
      rw [pendingWithin_nil]
      exact unitsWithin_bound context (by simpa using long') long''
    | cons token tail =>
      have ordinary : token.value ≠ .endOfFile := plain token (by simp)
      cases bound' with
      | nil => simp at long'
      | cons marker' bound' =>
        cases answered : item context (token :: tail) with
        | error fault left =>
          rw [unitsWithin_cons context ordinary, answered] at read
          cases read
        | ok value left =>
          obtain ⟨rest, suffix, same, again⟩ := item_continues ⟨[], second, by simp⟩ context plain
            (by rw [List.append_nil]; exact answered)
          obtain rfl : left = rest := same.trans (List.append_nil rest)
          have fewer := suffix.length_le
          simp only [List.length_cons] at long long'
          rw [unitsWithin_of_item ordinary answered] at read
          obtain ⟨here, later⟩ := Prod.mk.inj read
          have inner : unitsWithin value.1 bound left = ((unitsWithin value.1 bound left).1, none) :=
            Prod.ext rfl later
          have plainLeft (other : PlacedToken) (member : other ∈ left) : other.value ≠ .endOfFile :=
            plain other (.tail token (suffix.mem member))
          have behind := ih value.1 plainLeft (by omega)
            (show left.length + second.length ≤ bound'.length by omega) inner
          rw [List.cons_append] at again ⊢
          rw [unitsWithin_of_item ordinary again, pendingWithin_of_item ordinary answered, behind, ← here,
            List.append_assoc]

/-- A file in front of another one gives its units in front of those of the other one, if no context item
is left at its end. -/
theorem units_append {first second : List PlacedToken}
    (plain : ∀ token ∈ first, token.value ≠ .endOfFile) {found : List DesignUnit}
    (read : units first = (found, none)) (nothing : pending first = .empty) :
    units (first ++ second) = (found ++ (units second).1, (units second).2) := by
  have plainWithout (token : PlacedToken) (member : token ∈ withoutComments first) : token.value ≠ .endOfFile :=
    plain token ((List.mem_filter.mp member).1)
  have whole : withoutComments (first ++ second) = withoutComments first ++ withoutComments second :=
    List.filter_append ..
  rw [pending] at nothing
  rw [units, whole, unitsWithin_append .empty plainWithout (Nat.le_refl _) (by simp) (Nat.le_refl _) read, nothing]
  rfl

/-- The tokens of `library l; entity e is end entity;`. -/
def Sample.entity : List PlacedToken :=
  ([.keyword .library, .identifier (.basic "l"), .delimiter .semicolon, .keyword .entity,
    .identifier (.basic "e"), .keyword .is, .keyword .end, .keyword .entity,
    .delimiter .semicolon] : List Token).map fun token => ⟨.start, token⟩

/-- The tokens of `architecture a of e is begin end; x`. -/
def Sample.architecture : List PlacedToken :=
  ([.keyword .architecture, .identifier (.basic "a"), .keyword .of, .identifier (.basic "e"), .keyword .is,
    .keyword .begin, .keyword .end, .delimiter .semicolon,
    .identifier (.basic "x")] : List Token).map fun token => ⟨.start, token⟩

/-- An entity with a library clause, followed by an architecture and a token that begins no unit: the units
are those of both parts, and the fault is that of the second one. -/
theorem units_append_entity :
    (∀ token ∈ Sample.entity, token.value ≠ .endOfFile) ∧
      units Sample.entity = ((units Sample.entity).1, none) ∧ pending Sample.entity = .empty ∧
      (units Sample.architecture).2 ≠ none ∧
      units (Sample.entity ++ Sample.architecture) =
        ((units Sample.entity).1 ++ (units Sample.architecture).1, (units Sample.architecture).2) := by
  have plain : ∀ token ∈ Sample.entity, token.value ≠ .endOfFile := by decide
  have read : units Sample.entity = ((units Sample.entity).1, none) := Prod.ext rfl (by decide +kernel)
  have nothing : pending Sample.entity = .empty := by decide +kernel
  exact ⟨plain, read, nothing, by decide +kernel, units_append plain read nothing⟩

end DesignFile

end VhdlOrder
