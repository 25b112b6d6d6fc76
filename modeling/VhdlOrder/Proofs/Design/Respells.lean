import VhdlOrder.Design.Interface
import VhdlOrder.Design.Region
import VhdlOrder.Proofs.Design.Respelling
import VhdlOrder.Proofs.Lexical.Respelling

/-! # Parsers of tokens that are spelled in another way

The grammar does not look at the spelling of identifiers, only at what they name. So a parser takes as many tokens
when their identifiers are spelled in another way, and answers what it answers before, with the names in it
spelled in that way. `Parser.Respells` says so; it is kept by sequencing and by repetition.
-/

namespace VhdlOrder

variable {f : Respelling}

/-- The fault with the identifiers in it spelled in another way. -/
def SyntaxFault.respell (f : Respelling) : SyntaxFault → SyntaxFault
  | .expecting position wanted found => .expecting position wanted (found.map (Token.respell f))
  | .endingMismatch position name ending => .endingMismatch position (f name) (f ending)
  | fault => fault

namespace Parser

variable {α β γ δ : Type} {change : α → β} {later : γ → δ}

/-- The result with what is left spelled in another way, and the value changed. -/
def respellResult (f : Respelling) (change : α → β) :
    EStateM.Result SyntaxFault (List PlacedToken) α → EStateM.Result SyntaxFault (List PlacedToken) β
  | .ok value rest => .ok (change value) (rest.map (PlacedToken.respell f))
  | .error fault rest => .error (fault.respell f) (rest.map (PlacedToken.respell f))

/-- Of tokens that are spelled in another way, `other` takes as many as `parser` takes of the tokens as they are, and
its answer is that of `parser`, changed. -/
def Respells (f : Respelling) (change : α → β) (parser : Parser α) (other : Parser β) : Prop :=
  ∀ tokens : List PlacedToken, other (tokens.map (PlacedToken.respell f)) = respellResult f change (parser tokens)

/-- The answer with the identifiers in it spelled in another way. -/
def respellExcept (f : Respelling) (change : α → β) : Except SyntaxFault α → Except SyntaxFault β
  | .ok value => .ok (change value)
  | .error fault => .error (fault.respell f)

/-! ## Sequences -/

theorem Respells.pure {value : α} {value' : β} (same : value' = change value) :
    Respells f change (pure value) (pure value') := by
  intro tokens
  rw [same]
  rfl

theorem Respells.throw {fault fault' : SyntaxFault} (same : fault' = fault.respell f) :
    Respells f change (throw fault : Parser α) (throw fault') := by
  intro tokens
  rw [same]
  rfl

theorem Respells.bind {parser : Parser α} {other : Parser β} {second : α → Parser γ} {second' : β → Parser δ}
    (first : Respells f change parser other)
    (behind : ∀ value, Respells f later (second value) (second' (change value))) :
    Respells f later (parser >>= second) (other >>= second') := by
  intro tokens
  change EStateM.bind other second' _ = respellResult f later (EStateM.bind parser second tokens)
  unfold EStateM.bind
  rw [first tokens]
  cases parser tokens with
  | ok value rest => exact behind value rest
  | error fault rest => rfl

theorem Respells.ite {condition condition' : Prop} [Decidable condition] [Decidable condition']
    {yes no : Parser α} {yes' no' : Parser β} (same : condition' ↔ condition) (left : Respells f change yes yes')
    (right : Respells f change no no') :
    Respells f change (if condition then yes else no) (if condition' then yes' else no') := by
  simp only [same]
  split <;> assumption

/-- Rounds that respell if the further rounds do may be repeated. -/
theorem Respells.fix {round : Parser α → Parser α} {round' : Parser β → Parser β}
    (step : ∀ further further', Respells f change further further' →
      Respells f change (round further) (round' further')) :
    Respells f change (fix round) (fix round') := by
  have within (bound : List PlacedToken) : Respells f change (fixWithin round bound)
      (fixWithin round' (bound.map (PlacedToken.respell f))) := by
    induction bound with
    | nil => exact step _ _ (.throw rfl)
    | cons _ bound ih => exact step _ _ ih
  exact fun tokens => within tokens tokens

/-! ## Single tokens -/

theorem respells_next (wanted : Expectation) : Respells f (PlacedToken.respell f) (next wanted) (next wanted) := by
  intro tokens
  cases tokens with
  | nil => rfl
  | cons token rest =>
    simp only [List.map_cons, next, PlacedToken.value_respell, Token.respell_eq_endOfFile]
    split <;> rfl

theorem respells_peek? : Respells f (Option.map (Token.respell f)) peek? peek? := by
  intro tokens
  cases tokens <;> rfl

theorem respells_accept {token : Token} (ordinary : token.isIdentifier = false) :
    Respells f id (accept token) (accept token) := by
  intro tokens
  cases tokens with
  | nil => rfl
  | cons first rest =>
    simp only [List.map_cons, accept, PlacedToken.value_respell, Token.respell_eq_iff f _ ordinary]
    split <;> rfl

/-- What follows depends on whether a token is there. -/
theorem Respells.accept {token : Token} (ordinary : token.isIdentifier = false) {second : Bool → Parser γ}
    {second' : Bool → Parser δ} (yes : Respells f later (second true) (second' true))
    (no : Respells f later (second false) (second' false)) :
    Respells f later (Parser.accept token >>= second) (Parser.accept token >>= second') :=
  (respells_accept ordinary).bind fun accepted => by cases accepted <;> assumption

theorem respells_unexpected (token : PlacedToken) (wanted : Expectation) :
    Respells f change (unexpected token wanted : Parser α) (unexpected (PlacedToken.respell f token) wanted) :=
  .throw rfl

theorem respells_unexpected_ordinary {token : PlacedToken}
    (plain : ∀ name, token.value = .identifier name → False) (wanted : Expectation) :
    Respells f change (unexpected token wanted : Parser α) (unexpected token wanted) := by
  have missing : Respells f change (unexpected token wanted : Parser α) _ := respells_unexpected token wanted
  rwa [PlacedToken.respell_ordinary f plain] at missing

/-- What follows depends on whether the next token is an identifier; any other token has one spelling. -/
theorem Respells.next {wanted : Expectation} {second : PlacedToken → Parser γ} {second' : PlacedToken → Parser δ}
    (name : ∀ position name, Respells f later (second ⟨position, .identifier name⟩)
      (second' ⟨position, .identifier (f name)⟩))
    (ordinary : ∀ token : PlacedToken, (∀ name, token.value = .identifier name → False) →
      Respells f later (second token) (second' token)) :
    Respells f later (Parser.next wanted >>= second) (Parser.next wanted >>= second') := by
  refine (respells_next wanted).bind fun token => ?_
  obtain ⟨position, spelled, rfl⟩ | plain := token.identifier_or_ordinary
  · exact name position spelled
  · rw [PlacedToken.respell_ordinary f plain]
    exact ordinary token plain

theorem respells_keyword (word : Keyword) : Respells f id (keyword word) (keyword word) :=
  (respells_next _).bind fun token => .ite (by simp) (.pure rfl) (respells_unexpected token _)

theorem respells_delimiter (mark : Delimiter) : Respells f id (delimiter mark) (delimiter mark) :=
  (respells_next _).bind fun token => .ite (by simp) (.pure rfl) (respells_unexpected token _)

theorem respells_identifier : Respells f (Located.respell f) identifier identifier := by
  refine (respells_next _).bind fun token => ?_
  obtain ⟨position, value⟩ := token
  cases value with
  | identifier name => exact .pure rfl
  | _ => exact respells_unexpected ⟨position, _⟩ _

theorem respells_ofExcept {answer : Except SyntaxFault α} {answer' : Except SyntaxFault β}
    (same : answer' = respellExcept f change answer) : Respells f change (ofExcept answer) (ofExcept answer') := by
  rw [same]
  cases answer with
  | ok value => exact .pure rfl
  | error fault => exact .throw rfl

/-! ## Several tokens -/

theorem cons_respellResult (token : PlacedToken)
    (result : EStateM.Result SyntaxFault (List PlacedToken) (List PlacedToken × α)) :
    cons (PlacedToken.respell f token) (respellResult f (Prod.map (List.map (PlacedToken.respell f)) change) result) =
      respellResult f (Prod.map (List.map (PlacedToken.respell f)) change) (cons token result) := by
  cases result <;> rfl

theorem parensAfter_respell (depth : Nat) (token : Token) :
    parensAfter depth (token.respell f) = parensAfter depth token := by
  cases token <;> rfl

theorem respells_takeUntil {stops : Token → Bool} (same : ∀ token : Token, stops (token.respell f) = stops token) :
    Respells f (Prod.map (List.map (PlacedToken.respell f)) (PlacedToken.respell f)) (takeUntil stops)
      (takeUntil stops) := by
  have within (depth : Nat) (tokens : List PlacedToken) :
      untilWithin stops depth (tokens.map (PlacedToken.respell f)) =
        respellResult f (Prod.map (List.map (PlacedToken.respell f)) (PlacedToken.respell f))
          (untilWithin stops depth tokens) := by
    induction tokens generalizing depth with
    | nil => rfl
    | cons token rest ih =>
      simp only [List.map_cons, untilWithin, PlacedToken.value_respell, Token.respell_eq_endOfFile, same,
        parensAfter_respell, ih, cons_respellResult]
      split
      · rfl
      · split <;> rfl
  exact within 0

theorem respells_statement : Respells f (List.map (PlacedToken.respell f)) statement statement :=
  (respells_takeUntil fun token => by simp).bind fun _ => .pure rfl

theorem respells_suffixes : Respells f (Prod.map (List.map f) id) suffixes suffixes := by
  refine .fix fun further further' respells => .accept rfl ?_ (.pure rfl)
  refine .accept rfl (.pure rfl) ?_
  exact respells_identifier.bind fun name => respells.bind fun found => .pure rfl

theorem respells_selectedNameAfter {first first' : Identifier} (same : first' = f first) :
    Respells f (Prod.map (SelectedName.respell f) id) (selectedNameAfter first) (selectedNameAfter first') :=
  respells_suffixes.bind fun found => .pure (by rw [same]; rfl)

theorem respells_selectedName : Respells f (Prod.map (Reference.respell f) id) selectedName selectedName :=
  respells_identifier.bind fun _ => (respells_selectedNameAfter rfl).bind fun _ => .pure rfl

theorem respells_commaList {item : Parser α} {item' : Parser β} (items : Respells f change item item') :
    Respells f (List.map change) (commaList item) (commaList item') := by
  refine .fix fun further further' respells => items.bind fun first => .accept rfl ?_ ?_
  · exact respells.bind fun others => .pure rfl
  · exact (respells_delimiter _).bind fun _ => .pure rfl

theorem respells_acceptKeywords (words : List Keyword) :
    Respells f id (acceptKeywords words) (acceptKeywords words) := by
  induction words with
  | nil => exact .pure rfl
  | cons word words ih => exact .accept rfl ih (.pure rfl)

theorem respells_ending (words : List Keyword) {name name' : Identifier} (same : name' = f name) :
    Respells f id (ending words name) (ending words name') := by
  subst same
  refine (respells_acceptKeywords words).bind fun _ => respells_peek?.bind fun ahead => ?_
  refine .ite (by cases ahead <;> simp) ?_ (respells_delimiter _)
  exact respells_identifier.bind fun last => .ite (by simp [Located.respell]) (respells_delimiter _) (.throw rfl)

end Parser

/-! ## References -/

namespace References

theorem chain_map (tokens : List PlacedToken) :
    chain (tokens.map (PlacedToken.respell f)) =
      Prod.map (List.map f) (List.map (PlacedToken.respell f)) (chain tokens) := by
  fun_induction chain tokens with
  | case1 dot next rest name isDot isName names tail bound ih =>
    rw [bound] at ih
    simp [chain, isDot, isName, Token.respell, ih]
  | case2 dot next rest other =>
    simp only [List.map_cons]
    unfold chain
    split
    · rename_i spelled isDot isName
      obtain ⟨name, same⟩ : ∃ name, next.value = .identifier name := by
        cases next with
        | mk position value => cases value <;> cases isName; exact ⟨_, rfl⟩
      exact (other name ((Token.respell_eq_delimiter f _ _).mp isDot) same).elim
    · rfl
  | case3 tokens short =>
    obtain _ | ⟨dot, _ | ⟨next, rest⟩⟩ := tokens
    · rfl
    · rfl
    · exact absurd rfl (short dot next rest)

theorem collectFrom_identifier (selected : Bool) (position : Position) (name : Identifier) (rest : List PlacedToken) :
    collectFrom selected (⟨position, .identifier name⟩ :: rest) =
      if selected || (chain rest).2.head?.any fun next => next.value.isDelimiter .arrow then
        collectFrom false (chain rest).2
      else ⟨⟨name, (chain rest).1⟩, position⟩ :: collectFrom false (chain rest).2 := by
  rw [collectFrom]

theorem collectFrom_map (selected : Bool) (tokens : List PlacedToken) :
    collectFrom selected (tokens.map (PlacedToken.respell f)) =
      (collectFrom selected tokens).map (Reference.respell f) := by
  have head (tail : List PlacedToken) : ((tail.map (PlacedToken.respell f)).head?.any fun next =>
      next.value.isDelimiter .arrow) = tail.head?.any fun next => next.value.isDelimiter .arrow := by
    cases tail <;> simp
  induction selected, tokens using collectFrom.induct with
  | case1 => rw [List.map_nil, collectFrom, List.map_nil]
  | case2 selected token rest name same tail formal dropped ih =>
    obtain ⟨position, value⟩ := token
    subst same
    rw [List.map_cons, PlacedToken.respell, Token.respell, collectFrom_identifier, collectFrom_identifier, chain_map,
      Prod.map_snd, head, if_pos dropped, if_pos dropped]
    exact ih
  | case3 selected token rest name same tail formal kept ih =>
    obtain ⟨position, value⟩ := token
    subst same
    rw [List.map_cons, PlacedToken.respell, Token.respell, collectFrom_identifier, collectFrom_identifier, chain_map,
      Prod.map_snd, head, if_neg kept, if_neg kept, ih]
    rfl
  | case4 selected token rest ordinary ih =>
    rw [List.map_cons, PlacedToken.respell_ordinary f ordinary, collectFrom, collectFrom]
    obtain ⟨position, value⟩ := token
    cases value with
    | identifier name => exact (ordinary name rfl).elim
    | _ => exact ih

@[simp] theorem collect_map (tokens : List PlacedToken) :
    collect (tokens.map (PlacedToken.respell f)) = (collect tokens).map (Reference.respell f) :=
  collectFrom_map false tokens

@[simp] theorem expanded_map (tokens : List PlacedToken) :
    expanded (tokens.map (PlacedToken.respell f)) = (expanded tokens).map (Reference.respell f) := by
  simp [expanded, List.filter_map, Function.comp_def]

theorem distinct_map (names : List Identifier) : distinct (names.map f) = (distinct names).map f := by
  induction names with
  | nil => rfl
  | cons name names ih => simp [distinct, ih, List.filter_map, Function.comp_def]

@[simp] theorem mentions_map (tokens : List PlacedToken) :
    mentions (tokens.map (PlacedToken.respell f)) = (mentions tokens).map f := by
  simp [mentions, ← distinct_map, Function.comp_def]

end References

/-! ## Regions that are skipped -/

namespace Region

@[simp] theorem after_respell (nesting : Nesting) (token : Token) (next : Option Token) :
    nesting.after (token.respell f) (next.map (Token.respell f)) = nesting.after token next := by
  have ahead : (next.map (Token.respell f) != some (Token.keyword .new)) = (next != some (Token.keyword .new)) := by
    rw [Bool.eq_iff_iff]
    simp
  cases token with
  | identifier name => rfl
  | _ => simp [Nesting.after, Token.respell, ahead]

@[simp] theorem closesInner_respell (next : Option Token) :
    closesInner (next.map (Token.respell f)) = closesInner next := by
  cases next <;> simp [closesInner]

theorem skipFrom_map (closing : Option Keyword) (nesting : Nesting) (tokens : List PlacedToken) :
    skipFrom closing nesting (tokens.map (PlacedToken.respell f)) =
      Parser.respellResult f (Prod.map (List.map (PlacedToken.respell f)) id) (skipFrom closing nesting tokens) := by
  induction tokens generalizing nesting with
  | nil => rfl
  | cons token rest ih =>
    have next : (rest.map (PlacedToken.respell f)).head?.map Located.value =
        (rest.head?.map Located.value).map (Token.respell f) := by
      simp [Function.comp_def]
    have word : ((rest.head?.map Located.value).map (Token.respell f)).bind Token.keyword? =
        (rest.head?.map Located.value).bind Token.keyword? := by
      cases rest.head? <;> simp
    rw [List.map_cons, skipFrom, skipFrom]
    simp only [next, word, PlacedToken.value_respell, Token.respell_eq_endOfFile, Token.respell_eq_keyword,
      closesInner_respell, after_respell, ih, Parser.cons_respellResult]
    split
    · rfl
    split
    · split
      · simp [Parser.respellResult]
      split
      · rfl
      split <;> rfl
    · rfl

theorem respells_skip (closing : Option Keyword) :
    Parser.Respells f (List.map (PlacedToken.respell f)) (skip closing) (skip closing) := by
  have whole : Parser.Respells f (Prod.map (List.map (PlacedToken.respell f)) id)
      (skipFrom closing .start : Parser (List PlacedToken × Unit)) (skipFrom closing .start) :=
    skipFrom_map closing .start
  exact whole.bind fun _ => .pure rfl

end Region

/-! ## Interface lists -/

namespace Interface

theorem designator_respell (token : PlacedToken) :
    designator (PlacedToken.respell f token) = Parser.respellExcept f (Located.respell f) (designator token) := by
  obtain ⟨position, value⟩ := token
  cases value with
  | string text =>
    simp [designator, PlacedToken.respell, Token.respell, Parser.respellExcept, Located.respell, f.spell_string]
  | character c =>
    simp [designator, PlacedToken.respell, Token.respell, Parser.respellExcept, Located.respell, f.spell_character]
  | _ => rfl

theorem named_respell (first : PlacedToken) (token : Option PlacedToken) (references : List Reference) :
    named (PlacedToken.respell f first) (token.map (PlacedToken.respell f)) (references.map (Reference.respell f)) =
      Parser.respellExcept f (List.map (Declaration.respell f)) (named first token references) := by
  cases token with
  | none => rfl
  | some token =>
    simp only [Option.map_some, named, designator_respell]
    cases designator token <;> rfl

theorem bne_respell {token : Token} (ordinary : token.isIdentifier = false) (other : PlacedToken) :
    ((PlacedToken.respell f other).value != token) = (other.value != token) := by
  rw [Bool.eq_iff_iff]
  simp [Token.respell_eq_iff f _ ordinary]

theorem behind?_map {token : Token} (ordinary : token.isIdentifier = false) (tokens : List PlacedToken) :
    behind? token (tokens.map (PlacedToken.respell f)) =
      (behind? token tokens).map (List.map (PlacedToken.respell f)) := by
  unfold behind?
  simp only [List.dropWhile_map, Function.comp_def, bne_respell ordinary]
  cases tokens.dropWhile fun other => other.value != token <;> rfl

theorem before_map {token : Token} (ordinary : token.isIdentifier = false) (tokens : List PlacedToken) :
    before token (tokens.map (PlacedToken.respell f)) = (before token tokens).map (PlacedToken.respell f) := by
  simp only [before, List.takeWhile_map, Function.comp_def, bne_respell ordinary]

theorem identifiers_map (tokens : List PlacedToken) :
    identifiers (tokens.map (PlacedToken.respell f)) = (identifiers tokens).map (Located.respell f) := by
  simp only [identifiers, List.filterMap_map, List.map_filterMap, Function.comp_def, PlacedToken.value_respell,
    Token.identifier?_respell, Option.map_map, PlacedToken.position_respell]
  rfl

theorem element_map (tokens : List PlacedToken) :
    element (tokens.map (PlacedToken.respell f)) =
      Parser.respellExcept f (List.map (Declaration.respell f)) (element tokens) := by
  cases tokens with
  | nil => rfl
  | cons first rest =>
    have indication : behind? (.delimiter .colon) ((first :: rest).map (PlacedToken.respell f)) =
        (behind? (.delimiter .colon) (first :: rest)).map (List.map (PlacedToken.respell f)) := behind?_map rfl _
    have names : identifiers (before (.delimiter .colon) ((first :: rest).map (PlacedToken.respell f))) =
        (identifiers (before (.delimiter .colon) (first :: rest))).map (Located.respell f) := by
      rw [before_map rfl, identifiers_map]
    obtain ⟨position, name, rfl⟩ | plain := first.identifier_or_ordinary
    · rw [List.map_cons, PlacedToken.respell, Token.respell] at indication names ⊢
      simp only [element, indication, names]
      cases behind? (.delimiter .colon) (⟨position, .identifier name⟩ :: rest) with
      | none => rfl
      | some indication => simp [Parser.respellExcept, Declaration.withReferences_respell, Function.comp_def]
    · rw [List.map_cons, PlacedToken.respell_ordinary f plain] at indication names ⊢
      have single (index : Nat) (references : List Reference) :
          named first (rest.map (PlacedToken.respell f))[index]? (references.map (Reference.respell f)) =
            Parser.respellExcept f (List.map (Declaration.respell f)) (named first rest[index]? references) := by
        rw [List.getElem?_map, ← named_respell, PlacedToken.respell_ordinary f plain]
      unfold element
      dsimp only
      split
      iterate 3 exact single 0 []
      iterate 2 exact single 1 []
      · rw [behind?_map rfl, ← single 0]
        congr 1
        cases behind? (.keyword .new) rest <;> simp
      · have value : first.value.respell f = first.value :=
          congrArg Located.value (PlacedToken.respell_ordinary f plain)
        rw [indication, names]
        cases behind? (.delimiter .colon) (first :: rest) with
        | none => simp [Parser.respellExcept, SyntaxFault.respell, value]
        | some indication => simp [Parser.respellExcept, Declaration.withReferences_respell, Function.comp_def]

theorem elements_map (groups : List (List PlacedToken)) :
    elements (groups.map (List.map (PlacedToken.respell f))) =
      Parser.respellExcept f (List.map (Declaration.respell f)) (elements groups) := by
  induction groups with
  | nil => rfl
  | cons tokens rest ih =>
    simp only [List.map_cons, elements, element_map, ih]
    cases element tokens with
    | error fault => rfl
    | ok declarations => cases elements rest <;> simp [Parser.respellExcept]

theorem respells_parse : Parser.Respells f (List.map (Declaration.respell f)) parse parse := by
  have within (depth : Nat) (current tokens : List PlacedToken) :
      parseFrom depth (current.map (PlacedToken.respell f)) (tokens.map (PlacedToken.respell f)) =
        Parser.respellResult f (List.map (Declaration.respell f)) (parseFrom depth current tokens) := by
    induction tokens generalizing depth current with
    | nil => rfl
    | cons token rest ih =>
      have fresh := ih 0 []
      have further := ih (Parser.parensAfter depth token.value) (token :: current)
      rw [List.map_nil] at fresh
      rw [List.map_cons] at further
      simp only [List.map_cons, parseFrom, PlacedToken.value_respell, Token.respell_eq_endOfFile,
        Token.respell_eq_delimiter, Parser.parensAfter_respell, ← List.map_reverse, element_map, fresh, further]
      split
      · rfl
      split
      · cases element current.reverse <;> rfl
      split
      · cases element current.reverse with
        | error fault => rfl
        | ok declarations => cases parseFrom 0 [] rest <;> simp [Parser.respellExcept, Parser.respellResult]
      · rfl
  have whole : Parser.Respells f (List.map (Declaration.respell f)) (parseFrom 0 [] : Parser (List Declaration))
      (parseFrom 0 []) := within 0 []
  exact (Parser.respells_delimiter _).bind fun _ => whole

theorem split_map (depth : Nat) (current tokens : List PlacedToken) :
    split depth (current.map (PlacedToken.respell f)) (tokens.map (PlacedToken.respell f)) =
      Prod.map (List.map (List.map (PlacedToken.respell f))) (List.map (PlacedToken.respell f))
        (split depth current tokens) := by
  induction tokens generalizing depth current with
  | nil => simp [split]
  | cons token rest ih =>
    have fresh := ih 0 []
    have further := ih (Parser.parensAfter depth token.value) (token :: current)
    rw [List.map_nil] at fresh
    rw [List.map_cons] at further
    simp only [List.map_cons, split, PlacedToken.value_respell, Token.respell_eq_delimiter,
      Parser.parensAfter_respell, ← List.map_reverse, fresh, further]
    split
    · rfl
    split <;> rfl

theorem headerParts_map (tokens : List PlacedToken) :
    headerParts (tokens.map (PlacedToken.respell f)) =
      Prod.map (List.map (List.map (PlacedToken.respell f))) (List.map (PlacedToken.respell f))
        (headerParts tokens) := by
  have opened (rest : List PlacedToken) := split_map (f := f) 0 [] rest
  fun_induction headerParts tokens with
  | case1 => rw [List.map_nil, headerParts]; rfl
  | case2 token rest isOpening more result bound ih =>
    rw [bound] at ih
    rw [List.map_cons, headerParts, if_pos (by simpa using isOpening)]
    have same := opened rest
    rw [List.map_nil] at same
    simp [same, ih]
  | case3 token rest notOpening isReturn =>
    rw [List.map_cons, headerParts, if_neg (by simpa using notOpening), if_pos (by simpa using isReturn)]
    rfl
  | case4 token rest notOpening notReturn ih =>
    rw [List.map_cons, headerParts, if_neg (by simpa using notOpening), if_neg (by simpa using notReturn), ih]

theorem header_map (tokens : List PlacedToken) :
    header (tokens.map (PlacedToken.respell f)) =
      Parser.respellExcept f (Prod.map (List.map (Declaration.respell f)) (List.map (Reference.respell f)))
        (header tokens) := by
  simp only [header, headerParts_map, Prod.map_fst, Prod.map_snd, elements_map]
  cases elements (headerParts tokens).1 <;> simp [Parser.respellExcept]

end Interface

end VhdlOrder
