import VhdlOrder.Design.DeclarativePart
import VhdlOrder.Proofs.Design.Settling

/-! # Declarative parts in sequence

A declaration ends with a token that must be there, so nothing behind it has a part in how it is read. Only the region
of a subprogram or of a protected type may end at a word that is not taken; what must follow there takes it.

The items of a declarative part are read one after the other, each by its own tokens alone. So the items in front of a
part add what they declare, use and refer to and have no influence on how the part is read, and an item of a kind that
is not analysed may be left out.
-/

namespace VhdlOrder

open VhdlOrder.Parser

variable {ahead takes : Bool} {n : Nat}

theorem ContextClause.settles_parseUses : Settles ahead takes n parseUses parseUses :=
  settles_commaList fun _ => settles_selectedName.bind_loose fun _ => .pure _

namespace Interface

theorem settles_parse : Settles ahead takes n parse parse := by
  have within (depth : Nat) (current : List PlacedToken) :
      Settles ahead false n (parseFrom depth current : Parser (List Declaration)) (parseFrom depth current) := by
    intro tokens
    induction tokens generalizing depth current with
    | nil => exact .fault fun _ => rfl
    | cons token rest ih =>
      have step (more : List PlacedToken) := parseFrom.eq_2 depth current token more
      have goesOn (same : ∀ more, parseFrom depth current (token :: more) =
            parseFrom (parensAfter depth token.value) (token :: current) more) :
          Settled ahead false n (token :: rest) (parseFrom depth current) (parseFrom depth current (token :: rest)) :=
        (ih (parensAfter depth token.value) (token :: current)).behind id fun more _ =>
          (same more).trans (congrFun (id_map (f := Parser) _).symm more)
      cases answer : element current.reverse with
      | error fault =>
        simp only [answer] at step
        split_ifs at step with isEnd closes semicolon
        · exact step rest ▸ .fault fun _ => step rest
        · exact step rest ▸ .fault fun _ => step rest
        · exact step rest ▸ .fault fun _ => step rest
        · exact goesOn step
      | ok declarations =>
        simp only [answer] at step
        split_ifs at step with isEnd closes semicolon
        · exact step rest ▸ .fault fun _ => step rest
        · exact step rest ▸ .value List.singleton_append.symm (by simp) fun _ more _ => step more
        · refine (ih 0 []).behind (declarations ++ ·) fun more _ => (step more).trans ?_
          cases answered : parseFrom 0 [] more with
          | ok others left => exact (map_of_ok _ answered).symm
          | error fault left => exact (map_of_error _ answered).symm
        · exact goesOn step
  exact (settles_delimiter _).bind fun _ => within 0 []

end Interface

namespace Region

theorem settles_skip (closing : Option Keyword) : Settles true false n (skip closing) (skip closing) := by
  have within (nesting : Nesting) :
      Settles true false n (skipFrom closing nesting : Parser (List PlacedToken × Unit))
        (skipFrom closing nesting) := by
    intro tokens
    induction tokens generalizing nesting with
    | nil => exact .fault fun _ => rfl
    | cons token rest ih =>
      have step (more : List PlacedToken) (next : more.head? = rest.head?) := skipFrom.eq_2 closing nesting token more
      dsimp only at step
      have step (more : List PlacedToken) (next : more.head? = rest.head?) := next ▸ step more next
      have goesOn (nesting' : Nesting) (same : ∀ more, more.head? = rest.head? →
            skipFrom closing nesting (token :: more) = Parser.cons token (skipFrom closing nesting' more)) :
          Settled true false n (token :: rest) (skipFrom closing nesting) (skipFrom closing nesting (token :: rest)) :=
        (ih nesting').behind _ fun more next => (same more (next rfl)).trans (cons_eq_map ..)
      split_ifs at step with isEnd closes found inner ends
      · exact step rest rfl ▸ .fault fun _ => step rest rfl
      · -- the word that closes the region is taken too
        cases rest with
        | nil => cases closing <;> simp at found
        | cons word rest =>
          rw [step _ rfl]
          have whole : token :: word :: rest = [token, word] ++ rest := rfl
          exact .value whole (by simp) fun _ more _ => step (word :: more) rfl
      · exact goesOn _ step
      · rw [step _ rfl]
        exact .value List.singleton_append.symm (by simp) fun _ more next => step more (next rfl)
      · exact goesOn _ step
      · exact goesOn _ step
  exact (within .start).bind_loose fun _ => .pure _

end Region

namespace SimpleDeclaration

theorem settles_parseSubtype : Settles ahead takes n parseSubtype parseSubtype :=
  settles_identifier.bind fun _ => (settles_keyword _).bind fun _ => settles_statement.bind fun _ => .pure _

theorem settles_parseObjects (position : Position) (word : Keyword) :
    Settles ahead takes n (parseObjects position word) (parseObjects position word) := by
  refine settles_statement.bind fun tokens => ?_
  cases objects position word tokens with
  | ok declarations => exact .pure _
  | error fault => exact .throw _

theorem settles_parseShared (position : Position) :
    Settles ahead takes n (parseShared position) (parseShared position) :=
  (settles_keyword _).bind fun _ => settles_parseObjects position _

theorem settles_parseAlias : Settles ahead takes n parseAlias parseAlias :=
  (settles_next _).bind fun _ => .bind_ofExcept _ fun _ => settles_statement.bind fun _ => .pure _

theorem settles_parseAttribute : Settles ahead takes n parseAttribute parseAttribute := by
  refine settles_identifier.bind fun name => .weaken (.accept ?_ ?_ (.inr rfl))
  · exact settles_statement.bind fun _ => .pure _
  · exact (settles_keyword _).bind fun _ => settles_statement.bind fun _ => .pure _

theorem settles_componentInterface : Settles ahead takes n componentInterface componentInterface := by
  refine .weaken (.fix fun n further other settles => ?_)
  -- `isPort` is asked for only where `isGeneric` is false
  have items : Settles false false n (Interface.parse >>= fun items => delimiter .semicolon >>= fun _ =>
      further >>= fun more => pure (items ++ more)) (Interface.parse >>= fun items =>
      delimiter .semicolon >>= fun _ => other >>= fun more => pure (items ++ more)) :=
    Interface.settles_parse.bind fun _ => (settles_delimiter _).bind fun _ => settles.weaken.bind fun _ => .pure _
  refine .accept (.pure _) (.accept items (.accept items ?_ (.inr rfl)) (.inr rfl)) (.inr rfl)
  exact (settles_next _).bind fun _ => settles_unexpected _ _

theorem settles_parseComponent : Settles ahead takes n parseComponent parseComponent := by
  refine settles_identifier.bind fun name => (settles_acceptKeywords _).bind_ahead fun _ => ?_
  refine settles_componentInterface.bind fun locals => (settles_keyword _).bind fun _ => ?_
  exact (settles_ending _ _).bind fun _ => .pure _

end SimpleDeclaration

namespace TypeDeclaration

theorem settles_literals : Settles ahead takes n literals literals := by
  refine .weaken (.fix fun n further other settles => (settles_next _).bind_takes fun token => ?_)
  split
  · exact .pure _
  · exact settles.weaken
  · exact settles.weaken
  · exact settles.weaken.bind fun _ => .pure _
  · exact settles_unexpected _ _

theorem settles_recordReferences : Settles ahead takes n recordReferences recordReferences := by
  refine .weaken (.fix fun n further other settles => .accept (.pure _) ?_ (.inr rfl))
  exact settles_statement.bind_takes fun _ => settles.weaken.bind fun _ => .pure _

theorem settles_secondaryUnits : Settles ahead takes n secondaryUnits secondaryUnits := by
  refine .weaken (.fix fun n further other settles => .accept (.pure _) ?_ (.inr rfl))
  exact settles_identifier.bind_takes fun _ => settles_statement.bind fun _ => settles.weaken.bind fun _ => .pure _

theorem settles_units (name : Identifier) : Settles ahead takes n (units name) (units name) :=
  settles_identifier.bind fun _ => (settles_delimiter _).bind fun _ => settles_secondaryUnits.bind fun _ =>
    (settles_keyword _).bind fun _ => (settles_ending _ _).bind fun _ => .pure _

theorem settles_protectedRegion (name : Located Identifier) :
    Settles ahead takes n (protectedRegion name) (protectedRegion name) := by
  have ending (words : List Keyword) (inside : List PlacedToken) : Settles ahead true n
      (acceptKeywords words >>= fun _ => ending [] name.value >>= fun _ =>
        pure [typeOf name .protectedType (References.expanded inside) (References.mentions inside)]) _ :=
    (settles_acceptKeywords words).bind_ahead fun _ => (settles_ending _ _).bind fun _ => .pure _
  refine (settles_accept _).bind_ahead fun isBody => (Region.settles_skip _).bind_ahead fun inside => ?_
  cases isBody with
  | false => exact ending [] inside
  | true => exact ending [.body] inside

theorem settles_parse : Settles ahead takes n parse parse := by
  refine settles_identifier.bind fun name => .weaken (.accept (.pure _) ?_ (.inr rfl))
  refine (settles_keyword _).bind fun _ => .weaken ?_
  refine .accept ?_ (.accept ?_ (.accept ?_ ?_ (.inr rfl)) (.inr rfl)) (.inr rfl)
  · exact settles_literals.bind fun _ => (settles_delimiter _).bind fun _ => .pure _
  · exact settles_recordReferences.bind fun _ => (settles_keyword _).bind fun _ =>
      (settles_ending _ _).bind fun _ => .pure _
  · exact settles_protectedRegion name
  · refine (settles_takeUntil _).bind fun found => .ite ?_ (.pure _)
    exact (settles_units _).bind fun _ => .pure _

end TypeDeclaration

namespace DeclarativePart

variable {part other : Parser DeclarativePart}

/-! ## Subprograms and packages -/

theorem settles_subprogramEnding (word : Keyword) (name : Identifier) :
    Settles ahead takes n (subprogramEnding word name) (subprogramEnding word name) := by
  refine (settles_acceptKeywords _).bind_ahead fun _ => settles_peek?.bind_ahead fun read => ?_
  have repeated : Settles ahead true n (next (.delimiter .semicolon) >>= fun token =>
      Parser.ofExcept (Interface.designator token) >>= fun last =>
        if last.value.same name then delimiter .semicolon
        else throw (.endingMismatch last.position name last.value)) _ :=
    (settles_next _).bind fun _ => .bind_ofExcept _ fun _ => .ite (settles_delimiter _) (.throw _)
  split
  · exact repeated
  · exact repeated
  · exact settles_delimiter _

theorem settles_subprogram (inside : Settles true false n part other) (word : Keyword) (kind : DeclarationKind) :
    Settles ahead takes n (subprogram part word kind) (subprogram other word kind) := by
  refine (settles_next _).bind fun token => .bind_ofExcept _ fun name => ?_
  refine (settles_takeUntil _).bind fun found => .bind_ofExcept _ fun header => .ite (.pure _) ?_
  refine .weaken (.accept (settles_statement.bind fun _ => .pure _) ?_ (.inr rfl))
  refine inside.bind_ahead fun _ => (settles_keyword _).bind fun _ => (Region.settles_skip _).bind_ahead fun _ => ?_
  exact (settles_subprogramEnding _ _).bind fun _ => .pure _

theorem settles_qualifiedSubprogram (inside : Settles true false n part other) :
    Settles ahead takes n (qualifiedSubprogram part) (qualifiedSubprogram other) := by
  refine (settles_next _).bind fun token => ?_
  split
  · exact settles_subprogram inside _ _
  · exact settles_subprogram inside _ _
  · exact settles_unexpected _ _

theorem settles_nestedGenerics : Settles true false n nestedGenerics nestedGenerics :=
  .accept (Interface.settles_parse.bind fun _ => (settles_delimiter _).bind fun _ => .pure _) (.pure _) (.inl rfl)

theorem settles_nestedPackage (inside : Settles true false n part other) :
    Settles ahead takes n (nestedPackage part) (nestedPackage other) := by
  refine settles_identifier.bind fun name => (settles_keyword _).bind fun _ => ?_
  refine .weaken (.accept (settles_statement.bind fun _ => .pure _) ?_ (.inr rfl))
  refine settles_nestedGenerics.bind_ahead fun generics => inside.bind_ahead fun _ => ?_
  exact (settles_keyword _).bind fun _ => (settles_ending _ _).bind fun _ => .pure _

theorem settles_nestedBody (inside : Settles true false n part other) :
    Settles ahead takes n (nestedBody part) (nestedBody other) := by
  refine settles_identifier.bind fun _ => (settles_keyword _).bind fun _ => inside.bind_ahead fun _ => ?_
  exact (settles_keyword _).bind fun _ => (settles_ending _ _).bind fun _ => .pure _

/-! ## Items -/

theorem settles_item (inside : Settles true false n part other) (position : Position) (word : Keyword) :
    Settles ahead takes n (item part position word) (item other position word) := by
  unfold item
  split
  · exact TypeDeclaration.settles_parse.bind fun _ => .pure _
  · exact SimpleDeclaration.settles_parseSubtype.bind fun _ => .pure _
  iterate 4 exact (SimpleDeclaration.settles_parseObjects _ _).bind fun _ => .pure _
  · exact (SimpleDeclaration.settles_parseShared _).bind fun _ => .pure _
  · exact SimpleDeclaration.settles_parseAlias.bind fun _ => .pure _
  · exact SimpleDeclaration.settles_parseAttribute.bind fun _ => .pure _
  · exact SimpleDeclaration.settles_parseComponent.bind fun _ => .pure _
  · exact (settles_subprogram inside _ _).bind fun _ => .pure _
  · exact (settles_subprogram inside _ _).bind fun _ => .pure _
  iterate 2 exact (settles_qualifiedSubprogram inside).bind fun _ => .pure _
  · exact ContextClause.settles_parseUses.bind fun _ => .pure _
  · refine .weaken (.accept (settles_nestedBody (inside.mono (Nat.sub_le n 1))) ?_ (.inr rfl))
    exact (settles_nestedPackage inside).bind fun _ => .pure _
  · exact settles_statement.bind fun _ => .pure _

/-- An item takes a token before it comes to the parts inside it. -/
theorem settles_anyItem (inside : Settles true false n part other) (token : PlacedToken) :
    Settles ahead takes (n + 1) (anyItem part token) (anyItem other token) := by
  unfold anyItem
  split
  · exact (settles_next _).bind_takes fun _ => settles_item inside _ _
  · exact settles_statement.bind fun _ => .pure _

theorem settles_head : Settles true false n head head := by
  intro tokens
  cases tokens with
  | nil => exact .fault fun _ => rfl
  | cons token rest =>
    by_cases isEnd : token.value = .endOfFile
    · have fault : head (token :: rest) = .error _ _ := if_pos isEnd
      exact fault ▸ .fault fun _ => fault
    · have found (rest : List PlacedToken) : head (token :: rest) = .ok token (token :: rest) := if_neg isEnd
      rw [found]
      refine .value (List.nil_append _).symm (by simp) fun _ more next => ?_
      cases more with
      | nil => cases next rfl
      | cons other more =>
        obtain rfl : other = token := Option.some.inj (next rfl)
        exact found more

/-- The first item of a part, and the part that the others make up. -/
theorem settles_round (n : Nat) (further other : Parser DeclarativePart)
    (settles : Settles true false n further other) :
    Settles true false (n + 1) (head >>= fun token =>
      if token.value = .keyword .end || token.value = .keyword .begin then pure empty
      else anyItem further token >>= fun first => further >>= fun part => pure (first.append part))
      (head >>= fun token =>
      if token.value = .keyword .end || token.value = .keyword .begin then pure empty
      else anyItem other token >>= fun first => other >>= fun part => pure (first.append part)) := by
  refine settles_head.bind_loose fun token => .ite (.pure _) ?_
  exact (settles_anyItem settles token).bind_takes fun _ => settles.bind_loose fun _ => .pure _

theorem settles_parse : Settles true false n parse parse := .fix settles_round

end DeclarativePart

section Sequence

variable {items other body tokens rest : List PlacedToken} {marker token : PlacedToken} {first part : DeclarativePart}

namespace Parser

/-- How many parentheses are open behind the tokens if `depth` are open in front of them. -/
def parensBehind (depth : Nat) (tokens : List PlacedToken) : Nat :=
  tokens.foldl (fun depth token => parensAfter depth token.value) depth

/-- What is taken ends at the first token outside parentheses that stops. -/
theorem untilWithin_append {stops : Token → Bool} {depth : Nat} {stop : PlacedToken}
    (noEnd : ∀ token ∈ body ++ [stop], token.value ≠ .endOfFile)
    (inside : ∀ before token behind, body = before ++ token :: behind → stops token.value = true →
      parensBehind depth before ≠ 0)
    (outside : parensBehind depth body = 0) (stopped : stops stop.value = true) :
    untilWithin stops depth (body ++ stop :: rest) = .ok (body, stop) rest := by
  induction body generalizing depth with
  | nil =>
    have ordinary : stop.value ≠ .endOfFile := noEnd stop (by simp)
    obtain rfl : depth = 0 := outside
    rw [List.nil_append, untilWithin, if_neg ordinary, if_pos (by simp [stopped])]
  | cons token body ih =>
    have ordinary : token.value ≠ .endOfFile := noEnd token (by simp)
    have goesOn : ¬(decide (depth = 0) && stops token.value) = true := by
      rw [Bool.and_eq_true, decide_eq_true_eq]
      rintro ⟨zero, stopped⟩
      exact inside [] token body rfl stopped zero
    rw [List.cons_append, untilWithin, if_neg ordinary, if_neg goesOn,
      ih (fun other member => noEnd other (List.mem_cons_of_mem token member)) (fun before other behind split =>
        inside (token :: before) other behind (congrArg (token :: ·) split)) outside]
    rfl

theorem statement_append {semicolon : PlacedToken} (noEnd : ∀ token ∈ body ++ [semicolon], token.value ≠ .endOfFile)
    (isSemicolon : semicolon.value = .delimiter .semicolon) (outside : parensBehind 0 body = 0)
    (inside : ∀ before token behind, body = before ++ token :: behind → token.value = .delimiter .semicolon →
      parensBehind 0 before ≠ 0) : statement (body ++ semicolon :: rest) = .ok body rest := by
  have taken : takeUntil (fun token => token.isDelimiter .semicolon) (body ++ semicolon :: rest) =
      .ok (body, semicolon) rest :=
    untilWithin_append noEnd (fun before token behind split stopped =>
      inside before token behind split (by simpa [Token.isDelimiter] using stopped)) outside
      (by simp [Token.isDelimiter, isSemicolon])
  exact bind_of_ok taken

end Parser

namespace DeclarativePart

open VhdlOrder.Parser

/-! ## Single items -/

/-- The words that begin an item which is analysed. -/
def itemWords : List Keyword :=
  [.type, .subtype, .constant, .signal, .variable, .file, .shared, .alias, .attribute, .component, .function,
    .procedure, .pure, .impure, .use, .package]

/-- The tokens of an item of a kind that is not analysed. It begins with no word that begins another item or ends the
part, and its semicolon is the first one outside parentheses. -/
structure IsOther (item : List PlacedToken) : Prop where
  unknown : ∀ word ∈ .begin :: .end :: itemWords, item.head?.map Located.value ≠ some (.keyword word)
  noEnd : ∀ token ∈ item, token.value ≠ .endOfFile
  ends : ∃ body semicolon, item = body ++ [semicolon] ∧ semicolon.value = .delimiter .semicolon ∧
    parensBehind 0 body = 0 ∧ ∀ before token behind, body = before ++ token :: behind →
      token.value = .delimiter .semicolon → parensBehind 0 before ≠ 0

theorem head_of_ordinary (ordinary : token.value ≠ .endOfFile) : head (token :: rest) = .ok token (token :: rest) :=
  if_neg ordinary

/-- Whether the part ends in front of the token. -/
def closes (token : Token) : Bool := token = .keyword .end || token = .keyword .begin

/-- A part is one item in front of a part, unless it ends here. -/
theorem parse_eq : parse = head >>= fun token =>
    if closes token.value then pure empty
    else anyItem parse token >>= fun first => parse >>= fun part => pure (first.append part) :=
  fix_eq settles_round

theorem parse_of_closes (closing : closes token.value = true) : parse (token :: rest) = .ok empty (token :: rest) := by
  have ordinary : token.value ≠ .endOfFile := by
    intro isEnd
    rw [isEnd] at closing
    cases closing
  rw [parse_eq, bind_of_ok (head_of_ordinary ordinary), if_pos closing]
  rfl

theorem parse_of_not_closes (ordinary : token.value ≠ .endOfFile) (goesOn : closes token.value ≠ true) :
    parse (token :: rest) =
      (anyItem parse token >>= fun first => parse >>= fun part => pure (first.append part)) (token :: rest) := by
  refine (congrFun parse_eq _).trans ?_
  rw [bind_of_ok (head_of_ordinary ordinary), if_neg goesOn]

theorem eq_cons_of_head (answered : head tokens = .ok token rest) :
    rest = tokens ∧ token.value ≠ .endOfFile ∧ ∃ others, tokens = token :: others := by
  cases tokens with
  | nil => cases answered
  | cons first others =>
    by_cases isEnd : first.value = .endOfFile
    · rw [head, if_pos isEnd] at answered
      cases answered
    · rw [head_of_ordinary isEnd] at answered
      cases answered
      exact ⟨rfl, isEnd, others, rfl⟩

/-- What an item is read as depends on its own tokens alone. -/
theorem exists_item (answered : anyItem parse token tokens = .ok first rest) :
    ∃ item, tokens = item ++ rest ∧ item ≠ [] ∧ ∀ more, anyItem parse token (item ++ more) = .ok first more := by
  have settles (n : Nat) : Settles false true n (anyItem parse token) (anyItem parse token) :=
    (settles_anyItem settles_parse token).mono (Nat.le_succ n)
  obtain ⟨item, whole, some, again⟩ := Settles.exists_taken settles answered
  exact ⟨item, whole, some rfl, again⟩

/-! ## Several items -/

/-- The tokens are those of items that make up the part. -/
inductive Itemised : List PlacedToken → DeclarativePart → Prop
  | nil : Itemised [] empty
  | cons {token : PlacedToken} {others items : List PlacedToken} {first second : DeclarativePart} :
      token.value ≠ .endOfFile → closes token.value ≠ true →
        (∀ more, anyItem parse token (token :: others ++ more) = .ok first more) → Itemised items second →
          Itemised (token :: others ++ items) (first.append second)

/-- A part that is read consists of items, and behind them stands the word that ends it. -/
theorem itemised_of_parse (answered : parse tokens = .ok part rest) :
    ∃ items marker others, tokens = items ++ rest ∧ rest = marker :: others ∧ closes marker.value = true ∧
      Itemised items part := by
  induction length : tokens.length using Nat.strongRecOn generalizing tokens part with
  | _ n ih =>
    have ⟨token, _, there, _⟩ := bind_eq_ok_iff.mp ((congrFun parse_eq tokens).symm.trans answered)
    obtain ⟨rfl, ordinary, others, rfl⟩ := eq_cons_of_head there
    by_cases closing : closes token.value = true
    · rw [parse_of_closes closing] at answered
      cases answered
      exact ⟨[], token, others, rfl, rfl, closing, .nil⟩
    · rw [parse_of_not_closes ordinary closing, bind_eq_ok_iff] at answered
      obtain ⟨first, left, item, answered⟩ := answered
      obtain ⟨second, _, parsed, last⟩ := bind_eq_ok_iff.mp answered
      cases last
      obtain ⟨taken, whole, some, again⟩ := exists_item item
      obtain ⟨token', others', rfl⟩ := List.exists_cons_of_ne_nil some
      obtain ⟨rfl, rfl⟩ := List.cons.inj (whole.trans List.cons_append)
      simp only [List.length_cons, List.length_append] at length
      obtain ⟨items, marker, behind, rfl, ending, isEnding, itemised⟩ := ih left.length (by omega) parsed rfl
      exact ⟨token :: others' ++ items, marker, behind, by simp, ending, isEnding,
        .cons ordinary closing again itemised⟩

/-- Items in front of other tokens are read first. -/
theorem Itemised.parse_append (itemised : Itemised items first) (tokens : List PlacedToken) :
    parse (items ++ tokens) =
      match parse tokens with
      | .ok second rest => .ok (first.append second) rest
      | .error fault left => .error fault left := by
  induction itemised with
  | nil => rw [List.nil_append]; cases parse tokens <;> rfl
  | @cons token others items first second ordinary goesOn reads _ ih =>
    rw [List.append_assoc, List.cons_append, parse_of_not_closes ordinary goesOn, ← List.cons_append,
      bind_of_ok (reads (items ++ tokens))]
    cases answered : parse tokens with
    | ok third rest =>
      rw [answered] at ih
      rw [bind_of_ok ih]
      simp only [append, List.append_assoc]
      rfl
    | error fault left =>
      rw [answered] at ih
      exact bind_of_error ih

/-! ## Items that are not analysed -/

/-- An item of a kind that is not analysed is read as a statement. -/
theorem item_of_unknown {word : Keyword} (unknown : word ∉ itemWords) (position : Position) :
    item parse position word = statement >>= fun _ => pure empty := by
  unfold item
  split <;> first | rfl | exact absurd (by decide) unknown

theorem anyItem_of_keyword {word : Keyword} (isWord : token.value = .keyword word) :
    anyItem parse token = next (.keyword .end) >>= fun _ => item parse token.position word := by
  simp only [anyItem, isWord]

theorem anyItem_of_not_keyword (noWord : ∀ word, token.value ≠ .keyword word) :
    anyItem parse token = statement >>= fun _ => pure empty := by
  unfold anyItem
  split
  next word isWord => exact absurd isWord (noWord word)
  next => rfl

theorem IsOther.itemised (item : IsOther other) : Itemised other empty := by
  obtain ⟨unknown, noEnd, body, semicolon, rfl, isSemicolon, outside, inside⟩ := item
  obtain ⟨token, others, whole⟩ : ∃ token others, body ++ [semicolon] = token :: others :=
    List.exists_cons_of_ne_nil (by simp)
  have ordinary : token.value ≠ .endOfFile := noEnd token (by simp [whole])
  have goesOn : closes token.value ≠ true := by
    rw [whole] at unknown
    simpa [closes] using And.intro (unknown .end (by simp)) (unknown .begin (by simp))
  have reads (more : List PlacedToken) : anyItem parse token (token :: others ++ more) = .ok empty more := by
    by_cases isKeyword : ∃ word, token.value = .keyword word
    · obtain ⟨word, isWord⟩ := isKeyword
      -- the first word has been looked at and is taken before the statement
      cases body with
      | nil =>
        obtain ⟨rfl, -⟩ := List.cons.inj whole
        rw [isSemicolon] at isWord
        cases isWord
      | cons first body =>
        obtain ⟨rfl, rfl⟩ := List.cons.inj (List.cons_append.symm.trans whole)
        have notKnown : word ∉ itemWords := fun known => unknown word (by simp [known]) (by simp [isWord])
        have depth (before : List PlacedToken) : parensBehind 0 (first :: before) = parensBehind 0 before := by
          simp [parensBehind, isWord, parensAfter]
        have rest : statement (body ++ semicolon :: more) = .ok body more :=
          statement_append (fun token member => noEnd token (List.mem_cons_of_mem first member)) isSemicolon
            (depth body ▸ outside) fun before token behind split isSemi =>
              depth before ▸ inside (first :: before) token behind (congrArg (first :: ·) split) isSemi
        have taken : next (.keyword .end) (first :: (body ++ semicolon :: more)) =
            .ok first (body ++ semicolon :: more) := if_neg ordinary
        rw [anyItem_of_keyword isWord, item_of_unknown notKnown, List.cons_append, List.append_assoc,
          List.singleton_append, bind_of_ok taken, bind_of_ok rest]
        rfl
    · have taken : statement (body ++ semicolon :: more) = .ok body more :=
        statement_append noEnd isSemicolon outside inside
      rw [anyItem_of_not_keyword (not_exists.mp isKeyword), ← whole, List.append_assoc, List.singleton_append,
        bind_of_ok taken]
      rfl
  rw [whole]
  simpa [append, empty] using Itemised.cons ordinary goesOn reads .nil

/-! ## Composition -/

/-- Tokens that are read as a part up to the word behind them, such as `end`, stand for that part in front of all
tokens: they add their declarations, use clauses and references, and the others are read and left, or reported, as they
are alone. So an item of a kind that is not analysed has no influence. What is left begins with the word that ends the
part. -/
theorem parsed_in_sequence (whole : parse (items ++ [marker]) = .ok first [marker]) :
    (∀ tokens, parse (items ++ tokens) =
      match parse tokens with
      | .ok second rest => .ok (first.append second) rest
      | .error fault left => .error fault left) ∧
    (∀ other tokens, IsOther other → parse (items ++ (other ++ tokens)) = parse (items ++ tokens)) ∧
    ∀ tokens part rest, parse tokens = .ok part rest → ∃ closing others, rest = closing :: others ∧
      (closing.value = .keyword .end ∨ closing.value = .keyword .begin) := by
  have itemised : Itemised items first := by
    obtain ⟨items', _, _, same, -, -, itemised⟩ := itemised_of_parse whole
    rwa [List.append_cancel_right same]
  refine ⟨itemised.parse_append, fun other tokens isOther => ?_, fun tokens part rest answered => ?_⟩
  · rw [itemised.parse_append, itemised.parse_append, isOther.itemised.parse_append]
    cases parse tokens <;> rfl
  · obtain ⟨_, closing, others, -, ending, closes, -⟩ := itemised_of_parse answered
    exact ⟨closing, others, ending, by simpa [DeclarativePart.closes] using closes⟩

/-- A subtype in front of a disconnection specification. -/
theorem parsed_in_sequence_disconnection :
    let subtypes : List PlacedToken := [⟨.start, .keyword .subtype⟩, ⟨.start, .identifier (.basic "byte")⟩,
      ⟨.start, .keyword .is⟩, ⟨.start, .identifier (.basic "word")⟩, ⟨.start, .delimiter .semicolon⟩]
    let disconnection : List PlacedToken := [⟨.start, .keyword .disconnect⟩, ⟨.start, .keyword .all⟩,
      ⟨.start, .delimiter .semicolon⟩]
    let marker : PlacedToken := ⟨.start, .keyword .end⟩
    ∃ part, parse (subtypes ++ [marker]) = .ok part [marker] ∧ IsOther disconnection ∧
      parse (subtypes ++ (disconnection ++ [marker])) = .ok part [marker] := by
  intro subtypes disconnection marker
  have whole : parse (subtypes ++ [marker]) = .ok _ [marker] := rfl
  have isOther : IsOther disconnection := by
    refine ⟨by decide, by decide, [_, _], _, rfl, rfl, rfl, fun before token behind split isSemicolon => ?_⟩
    have noSemicolon : ∀ token ∈ disconnection.take 2, token.value ≠ .delimiter .semicolon := by decide
    have member : token ∈ disconnection.take 2 := by
      change token ∈ [_, _]
      rw [split]
      exact List.mem_append_right before (.head _)
    exact absurd isSemicolon (noSemicolon token member)
  exact ⟨_, whole, isOther, ((parsed_in_sequence whole).2.1 _ _ isOther).trans whole⟩

end DeclarativePart

end Sequence

end VhdlOrder
