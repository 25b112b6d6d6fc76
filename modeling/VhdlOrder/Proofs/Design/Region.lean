import VhdlOrder.Proofs.Design.Reads

/-! # What a region is skipped to

A region is well nested if it is made of ordinary tokens, of tokens between parentheses, of constructs
that say after their `end` what they close, and of subprograms and packages, which may hold regions of
the same form. The headers of subprograms and packages have interface lists between parentheses, and a
semicolon in such a list also ends the header for the purpose of nesting: the body behind it is not
counted, and its `end` is taken for the end of the construct around it. So a well-nested region is skipped
to its own `end` exactly if no body in it has an interface list with a semicolon.
-/

namespace VhdlOrder

theorem Token.isDelimiter_eq_decide (token : Token) (mark : Delimiter) :
    token.isDelimiter mark = decide (token = .delimiter mark) := by
  simp [Token.isDelimiter, Bool.beq_eq_decide_eq]

namespace Region

/-- A word that begins the header of a construct with a declarative part of its own. -/
def opens : Token → Bool
  | .keyword .function | .keyword .procedure | .keyword .package => true
  | _ => false

def isParen (token : Token) : Bool := token.isDelimiter .leftParen || token.isDelimiter .rightParen

/-- A token that neither ends anything nor is part of the nesting of a region. -/
def ordinary (token : Token) : Bool :=
  !(token == .endOfFile || token.isKeyword .end || opens token || isParen token)

/-- A token of a header outside its interface lists. -/
def inHeader (token : Token) : Bool :=
  ordinary token && !(token.isKeyword .is || token.isDelimiter .semicolon)

/-- A token between the `end` of a body and the semicolon: one of the words of its header, or its name. -/
def inEnding : Token → Bool
  | .keyword .function | .keyword .procedure | .keyword .package | .keyword .body => true
  | .identifier _ | .string _ => true
  | _ => false

/-- Tokens with balanced parentheses; `outside` holds of those outside parentheses. -/
inductive Balanced : (Token → Bool) → List PlacedToken → Prop
  | nil {outside : Token → Bool} : Balanced outside []
  | token {outside : Token → Bool} {token : PlacedToken} {rest : List PlacedToken} :
      isParen token.value = false → outside token.value = true → Balanced outside rest →
        Balanced outside (token :: rest)
  | group {outside : Token → Bool} {opening closing : PlacedToken} {inner rest : List PlacedToken} :
      opening.value = .delimiter .leftParen → Balanced (fun _ => true) inner →
        closing.value = .delimiter .rightParen → Balanced outside rest →
          Balanced outside (opening :: (inner ++ closing :: rest))

/-- The tokens of a header behind its first word: the name, interface lists, whose elements may be
separated by semicolons, and the return type. No element is a subprogram or a package with a default of
its own, which would have the word `is`. -/
structure Header (tokens : List PlacedToken) : Prop where
  balanced : Balanced inHeader tokens
  noEnd : ∀ token ∈ tokens, token.value ≠ .endOfFile ∧ token.value ≠ .keyword .end
  noIs : ∀ token ∈ tokens, token.value ≠ .keyword .is

/-- Whether an interface list among the tokens of a header has a semicolon, that is, several elements. -/
def severalElements (header : List PlacedToken) : Bool :=
  header.any fun token => token.value.isDelimiter .semicolon

/-- The tokens of a well-nested region. In it, `lists` bodies have an interface list of several elements;
`colon` says whether a colon comes before. -/
inductive Nested : Nat → Bool → List PlacedToken → Prop
  | nil {colon : Bool} : Nested 0 colon []
  | token {lists : Nat} {colon : Bool} {token : PlacedToken} {rest : List PlacedToken} :
      ordinary token.value = true → Nested lists (token.value.isDelimiter .colon) rest →
        Nested lists colon (token :: rest)
  | parens {lists : Nat} {colon : Bool} {opening closing : PlacedToken}
      {inner rest : List PlacedToken} :
      opening.value = .delimiter .leftParen → Balanced (fun _ => true) inner →
        (∀ token ∈ inner, token.value ≠ .endOfFile ∧ token.value ≠ .keyword .end) →
          closing.value = .delimiter .rightParen → Nested lists false rest →
            Nested lists colon (opening :: (inner ++ closing :: rest))
  /-- An entity class in an attribute specification stands behind a colon. -/
  | entityClass {lists : Nat} {word : PlacedToken} {rest : List PlacedToken} :
      opens word.value = true → Nested lists false rest → Nested lists true (word :: rest)
  /-- A construct such as `if … end if`. -/
  | closed {listsInside lists : Nat} {colon : Bool} {close word : PlacedToken}
      {inner rest : List PlacedToken} :
      Nested listsInside colon inner → close.value = .keyword .end →
        closesInner (some word.value) = true → Nested lists false rest →
          Nested (listsInside + lists) colon (inner ++ close :: word :: rest)
  | declaration {lists : Nat} {word mark : PlacedToken} {header rest : List PlacedToken} :
      opens word.value = true → Header header → mark.value = .delimiter .semicolon →
        Nested lists false rest → Nested lists false (word :: (header ++ mark :: rest))
  | instantiation {lists : Nat} {word is new : PlacedToken} {header rest : List PlacedToken} :
      opens word.value = true → Header header → is.value = .keyword .is → new.value = .keyword .new →
        Nested lists false rest → Nested lists false (word :: (header ++ is :: new :: rest))
  | body {listsInside lists : Nat} {word is close mark : PlacedToken}
      {header inner ending rest : List PlacedToken} :
      opens word.value = true → Header header → is.value = .keyword .is →
        Nested listsInside false inner → inner.head?.map Located.value ≠ some (.keyword .new) →
          close.value = .keyword .end → (∀ token ∈ ending, inEnding token.value = true) →
            mark.value = .delimiter .semicolon → Nested lists false rest →
              Nested (((severalElements header).toNat + listsInside) + lists) false
                (word :: (header ++ is :: (inner ++ close :: (ending ++ mark :: rest))))

/-! ## One token -/

/-- Reading `tokens` takes one state of the nesting to another, whatever follows. -/
def Passes (nesting : Nesting) (tokens : List PlacedToken) (later : Nesting) : Prop :=
  ∀ rest, skipFrom none nesting (tokens ++ rest) = tokens.foldr Parser.cons (skipFrom none later rest)

/-- An `end` among `tokens` is taken for the end of the region, whatever follows. -/
def StopsIn (nesting : Nesting) (tokens : List PlacedToken) : Prop :=
  ∃ before close after, tokens = before ++ close :: after ∧
    ∀ rest, skipFrom none nesting (tokens ++ rest) = .ok (before, ()) (after ++ rest)

theorem foldr_cons_ok (tokens before rest : List PlacedToken) :
    tokens.foldr Parser.cons
        (.ok (before, ()) rest : EStateM.Result SyntaxFault (List PlacedToken) (List PlacedToken × Unit)) =
      .ok (tokens ++ before, ()) rest := by
  induction tokens with
  | nil => rfl
  | cons token tokens ih => rw [List.foldr_cons, ih]; rfl

variable {nesting middle later : Nesting} {first second tokens : List PlacedToken}
  {token word is close : PlacedToken} {bodies : Nat} {colon : Bool}

theorem Passes.nil : Passes nesting [] nesting := fun _ => rfl

theorem Passes.append (left : Passes nesting first middle) (right : Passes middle second later) :
    Passes nesting (first ++ second) later := by
  intro rest
  rw [List.append_assoc, left, right, List.foldr_append]

theorem Passes.stopsIn (left : Passes nesting first middle) (right : StopsIn middle second) :
    StopsIn nesting (first ++ second) := by
  obtain ⟨before, close, after, rfl, stops⟩ := right
  refine ⟨first ++ before, close, after, (List.append_assoc ..).symm, fun rest => ?_⟩
  rw [List.append_assoc, left, stops, foldr_cons_ok]

theorem StopsIn.append (left : StopsIn nesting first) (second : List PlacedToken) :
    StopsIn nesting (first ++ second) := by
  obtain ⟨before, close, after, rfl, stops⟩ := left
  refine ⟨before, close, after ++ second, by rw [List.append_assoc, List.cons_append], fun rest => ?_⟩
  rw [List.append_assoc, stops, List.append_assoc]

theorem Passes.single (noEnd : token.value ≠ .endOfFile ∧ token.value ≠ .keyword .end)
    (after : ∀ next, nesting.after token.value next = later) : Passes nesting [token] later := by
  intro rest
  rw [List.singleton_append, skipFrom]
  simp only [noEnd.1, noEnd.2, if_false, after]
  rfl

theorem after_of_not_isParen (nesting : Nesting) {token : Token} (notParen : isParen token = false)
    (noHeader : opens token = true → nesting.parens ≠ 0)
    (noIs : nesting.header = true → token ≠ .keyword .is) (next : Option Token) :
    nesting.after token next =
      { nesting with
        header := nesting.header && !token.isDelimiter .semicolon
        afterColon := token.isDelimiter .colon } := by
  unfold Nesting.after
  split
  · simp [noHeader rfl, Token.isDelimiter_eq_decide]
  · simp [noHeader rfl, Token.isDelimiter_eq_decide]
  · simp [noHeader rfl, Token.isDelimiter_eq_decide]
  · have noHeader : nesting.header = false := by
      cases header : nesting.header
      · rfl
      · exact absurd rfl (noIs header)
    simp [noHeader, Token.isDelimiter_eq_decide]
  · simp [Token.isDelimiter_eq_decide]
  · simp [isParen, Token.isDelimiter] at notParen
  · simp [isParen, Token.isDelimiter] at notParen
  · next noMark _ _ =>
    have noMark : token.isDelimiter .semicolon = false := by simpa [Token.isDelimiter] using noMark
    simp [noMark]

/-- Balanced tokens keep the nesting; a semicolon among them, also within parentheses, ends a header. -/
theorem Balanced.passes {outside : Token → Bool} (balanced : Balanced outside tokens) (parens : Nat)
    (header colon : Bool)
    (noEnd : ∀ token ∈ tokens, token.value ≠ .endOfFile ∧ token.value ≠ .keyword .end)
    (noHeader : ∀ token, outside token = true → opens token = true → parens ≠ 0)
    (noIs : header = true → ∀ token ∈ tokens, token.value ≠ .keyword .is) :
    ∃ after, ∀ bodies, Passes ⟨bodies, parens, header, colon⟩ tokens
      ⟨bodies, parens, header && !severalElements tokens, after⟩ := by
  induction balanced generalizing parens header colon with
  | nil => exact ⟨colon, fun bodies => by simpa [severalElements] using Passes.nil⟩
  | @token outside token rest notParen allowed _ ih =>
    obtain ⟨after, passes⟩ := ih parens (header && !token.value.isDelimiter .semicolon)
      (token.value.isDelimiter .colon) (fun other member => noEnd other (List.mem_cons_of_mem _ member))
      noHeader (fun isOpen other member => noIs (by simp_all) other (List.mem_cons_of_mem _ member))
    refine ⟨after, fun bodies => ?_⟩
    have step := Passes.single (noEnd token List.mem_cons_self) fun next =>
      after_of_not_isParen ⟨bodies, parens, header, colon⟩ notParen (noHeader _ allowed)
        (fun isOpen => noIs isOpen token List.mem_cons_self) next
    have both := step.append (passes bodies)
    simpa [severalElements, Bool.and_assoc] using both
  | @group outside opening closing inner rest opened _ closed _ ihInner ihRest =>
    have inInner {other : PlacedToken} (member : other ∈ inner) :
        other ∈ opening :: (inner ++ closing :: rest) := by simp [member]
    have inRest {other : PlacedToken} (member : other ∈ rest) :
        other ∈ opening :: (inner ++ closing :: rest) := by simp [member]
    obtain ⟨between, inside⟩ := ihInner (parens + 1) header false
      (fun other member => noEnd other (inInner member)) (fun _ _ _ => Nat.succ_ne_zero _)
      (fun isOpen other member => noIs isOpen other (inInner member))
    obtain ⟨after, behind⟩ := ihRest parens (header && !severalElements inner) false
      (fun other member => noEnd other (inRest member)) noHeader
      (fun isOpen other member => noIs (by simp_all) other (inRest member))
    refine ⟨after, fun bodies => ?_⟩
    have enter : Passes ⟨bodies, parens, header, colon⟩ [opening] ⟨bodies, parens + 1, header, false⟩ :=
      .single (by simp [opened]) fun next => by simp [Nesting.after, opened, Token.isDelimiter_eq_decide]
    have leave : Passes ⟨bodies, parens + 1, header && !severalElements inner, between⟩ [closing]
        ⟨bodies, parens, header && !severalElements inner, false⟩ :=
      .single (by simp [closed]) fun next => by simp [Nesting.after, closed, Token.isDelimiter_eq_decide]
    have noMark : opening.value.isDelimiter .semicolon = false ∧ closing.value.isDelimiter .semicolon = false := by
      rw [opened, closed]
      exact ⟨rfl, rfl⟩
    have all := (enter.append (inside bodies)).append (leave.append (behind bodies))
    simpa [severalElements, noMark, Bool.and_assoc] using all

/-! ## Constructs -/

/-- Outside headers and parentheses, reading `tokens` leaves `spent` bodies fewer open; where not so many
are open, the region ends in `tokens`. A colon stands before the tokens if `before` is set, and at their
end if `after` is. -/
def Spends (spent : Nat) (before : Bool) (tokens : List PlacedToken) (after : Bool) : Prop :=
  ∀ bodies,
    (spent ≤ bodies → Passes ⟨bodies, 0, false, before⟩ tokens ⟨bodies - spent, 0, false, after⟩) ∧
      (bodies < spent → StopsIn ⟨bodies, 0, false, before⟩ tokens)

variable {spent more : Nat} {before between after : Bool}

theorem Spends.of_passes
    (passes : ∀ bodies, Passes ⟨bodies, 0, false, before⟩ tokens ⟨bodies, 0, false, after⟩) :
    Spends 0 before tokens after :=
  fun bodies => ⟨fun _ => passes bodies, fun few => absurd few (Nat.not_lt_zero _)⟩

theorem Spends.append (left : Spends spent before first between) (right : Spends more between second after) :
    Spends (spent + more) before (first ++ second) after := by
  intro bodies
  constructor
  · intro enough
    have ahead := (left bodies).1 (by omega)
    have behind := (right (bodies - spent)).1 (by omega)
    rw [Nat.sub_sub] at behind
    exact ahead.append behind
  · intro few
    rcases Nat.lt_or_ge bodies spent with early | late
    · exact ((left bodies).2 early).append second
    · exact ((left bodies).1 late).stopsIn ((right (bodies - spent)).2 (by omega))

theorem Spends.after_passes
    (passes : ∀ bodies, Passes ⟨bodies, 0, false, before⟩ first ⟨bodies, 0, false, between⟩)
    (right : Spends spent between second after) : Spends spent before (first ++ second) after :=
  Nat.zero_add spent ▸ (Spends.of_passes passes).append right

/-- What follows the beginning of a body spends one body less. -/
theorem Spends.of_begun
    (begun : ∀ bodies rest,
      skipFrom none ⟨bodies, 0, false, before⟩ (first ++ (second ++ rest)) =
        first.foldr Parser.cons (skipFrom none ⟨bodies + 1, 0, false, between⟩ (second ++ rest)))
    (right : Spends (spent + 1) between second after) : Spends spent before (first ++ second) after := by
  intro bodies
  constructor
  · intro enough rest
    have behind := (right (bodies + 1)).1 (by omega) rest
    rw [Nat.add_sub_add_right] at behind
    rw [List.append_assoc, begun, behind, List.foldr_append]
  · intro few
    obtain ⟨ahead, close, rest, rfl, stops⟩ := (right (bodies + 1)).2 (by omega)
    refine ⟨first ++ ahead, close, rest, (List.append_assoc ..).symm, fun tail => ?_⟩
    rw [List.append_assoc, begun, stops, foldr_cons_ok]

theorem passes_ordinary (isOrdinary : ordinary token.value = true) (bodies : Nat) (colon : Bool) :
    Passes ⟨bodies, 0, false, colon⟩ [token] ⟨bodies, 0, false, token.value.isDelimiter .colon⟩ := by
  simp only [ordinary, Bool.not_eq_true', Bool.or_eq_false_iff] at isOrdinary
  obtain ⟨⟨⟨noFile, noEnd⟩, notOpen⟩, notParen⟩ := isOrdinary
  have after (next : Option Token) := after_of_not_isParen ⟨bodies, 0, false, colon⟩ notParen
    (by simp [notOpen]) (by simp) next
  simp only [Bool.false_and] at after
  exact .single ⟨by simpa using noFile, by simpa [Token.isKeyword] using noEnd⟩ after

/-- Tokens between parentheses leave the nesting as it is. -/
theorem passes_parens {opening closing : PlacedToken} (opened : opening.value = .delimiter .leftParen)
    (balanced : Balanced (fun _ => true) tokens)
    (noEnd : ∀ token ∈ tokens, token.value ≠ .endOfFile ∧ token.value ≠ .keyword .end)
    (closed : closing.value = .delimiter .rightParen) (bodies : Nat) (colon : Bool) :
    Passes ⟨bodies, 0, false, colon⟩ (opening :: (tokens ++ [closing])) ⟨bodies, 0, false, false⟩ := by
  obtain ⟨inside, passes⟩ := balanced.passes 1 false false noEnd (by simp) (by simp)
  have enter : Passes ⟨bodies, 0, false, colon⟩ [opening] ⟨bodies, 1, false, false⟩ :=
    .single (by simp [opened]) fun next => by simp [Nesting.after, opened, Token.isDelimiter_eq_decide]
  have leave : Passes ⟨bodies, 1, false, inside⟩ [closing] ⟨bodies, 0, false, false⟩ :=
    .single (by simp [closed]) fun next => by simp [Nesting.after, closed, Token.isDelimiter_eq_decide]
  exact enter.append ((passes bodies).append leave)

theorem passes_opening (isOpening : opens word.value = true) (bodies : Nat) (colon : Bool) :
    Passes ⟨bodies, 0, false, colon⟩ [word] ⟨bodies, 0, !colon, false⟩ := by
  have words : word.value = .keyword .function ∨ word.value = .keyword .procedure
      ∨ word.value = .keyword .package := by
    unfold opens at isOpening
    split at isOpening <;> simp_all
  apply Passes.single
  · rcases words with same | same | same <;> simp [same]
  · intro next
    rcases words with same | same | same <;> cases colon <;> simp [same, Nesting.after, Token.isDelimiter_eq_decide]

/-- A header is still open behind its tokens exactly if no interface list in it has a semicolon. -/
theorem Header.passes (header : Header tokens) (isOpening : opens word.value = true) :
    ∃ colon, ∀ bodies, Passes ⟨bodies, 0, false, false⟩ (word :: tokens)
      ⟨bodies, 0, !severalElements tokens, colon⟩ := by
  have noHeader (token : Token) (allowed : inHeader token = true) (isOpening : opens token = true) : False := by
    simp [inHeader, ordinary, isOpening] at allowed
  obtain ⟨colon, passes⟩ := header.balanced.passes 0 true false header.noEnd
    (fun token allowed isOpening => (noHeader token allowed isOpening).elim) fun _ => header.noIs
  exact ⟨colon, fun bodies => (passes_opening isOpening bodies false).append (passes bodies)⟩

/-- A semicolon ends a header. -/
theorem passes_semicolon {mark : PlacedToken} (isMark : mark.value = .delimiter .semicolon) (bodies : Nat)
    (header colon : Bool) : Passes ⟨bodies, 0, header, colon⟩ [mark] ⟨bodies, 0, false, false⟩ :=
  .single (by simp [isMark]) fun next => by simp [Nesting.after, isMark, Token.isDelimiter_eq_decide]

/-- The words `is new` end a header without a body. -/
theorem passes_isNew {new : PlacedToken} (isIs : is.value = .keyword .is) (isNew : new.value = .keyword .new)
    (bodies : Nat) (header colon : Bool) :
    Passes ⟨bodies, 0, header, colon⟩ [is, new] ⟨bodies, 0, false, false⟩ := by
  intro rest
  simp [skipFrom, isIs, isNew, Nesting.after, Token.isDelimiter_eq_decide]

/-- The word `is` behind an open header begins a body. -/
theorem skipFrom_is (isIs : is.value = .keyword .is) (bodies : Nat) (colon : Bool) (rest : List PlacedToken)
    (noNew : rest.head?.map Located.value ≠ some (.keyword .new)) :
    skipFrom none ⟨bodies, 0, true, colon⟩ (is :: rest) =
      Parser.cons is (skipFrom none ⟨bodies + 1, 0, false, false⟩ rest) := by
  simp [skipFrom, isIs, noNew, Nesting.after, Token.isDelimiter_eq_decide]

theorem skipFrom_end (isEnd : close.value = .keyword .end) (rest : List PlacedToken) :
    skipFrom none nesting (close :: rest) =
      if closesInner (rest.head?.map Located.value) then
        Parser.cons close (skipFrom none { nesting with afterColon := false } rest)
      else if nesting.bodies = 0 then .ok ([], ()) rest
      else
        Parser.cons close
          (skipFrom none { nesting with bodies := nesting.bodies - 1, afterColon := false } rest) := by
  simp [skipFrom, isEnd]

/-- The ending of a construct such as `end if` leaves the nesting as it is. -/
theorem passes_endOf (isEnd : close.value = .keyword .end) (closes : closesInner (some word.value) = true)
    (bodies : Nat) (colon : Bool) :
    Passes ⟨bodies, 0, false, colon⟩ [close, word] ⟨bodies, 0, false, false⟩ := by
  have isOrdinary : ordinary word.value = true ∧ word.value.isDelimiter .colon = false := by
    cases same : word.value with
    | keyword word =>
      rw [same] at closes
      cases word <;> simp_all [closesInner, Token.keyword?, Keyword.closesInnerConstruct] <;> decide
    | _ => simp [same, closesInner, Token.keyword?] at closes
  intro rest
  have behind := passes_ordinary isOrdinary.1 bodies false rest
  rw [isOrdinary.2, List.singleton_append] at behind
  rw [List.cons_append, skipFrom_end isEnd, List.singleton_append, behind]
  simp [closes]

theorem passes_ending (inEnding : ∀ token ∈ tokens, inEnding token.value = true) (bodies : Nat)
    (header : Bool) : ∃ header', Passes ⟨bodies, 0, header, false⟩ tokens ⟨bodies, 0, header', false⟩ := by
  induction tokens generalizing header with
  | nil => exact ⟨header, .nil⟩
  | cons token rest ih =>
    have allowed := inEnding token List.mem_cons_self
    have step : ∃ between, Passes ⟨bodies, 0, header, false⟩ [token] ⟨bodies, 0, between, false⟩ := by
      unfold Region.inEnding at allowed
      split at allowed
      case h_7 => cases allowed
      case h_1 same | h_2 same | h_3 same =>
        exact ⟨true, .single (by simp [same]) fun next => by
          simp [same, Nesting.after, Token.isDelimiter_eq_decide]⟩
      case h_4 same | h_5 same | h_6 same =>
        exact ⟨header, .single (by simp [same]) fun next => by
          simp [same, Nesting.after, Token.isDelimiter_eq_decide]⟩
    obtain ⟨between, step⟩ := step
    obtain ⟨later, steps⟩ := ih (fun other member => inEnding other (List.mem_cons_of_mem _ member)) between
    exact ⟨later, step.append steps⟩

theorem not_closesInner_of_inEnding {token : Token} (allowed : inEnding token = true) :
    closesInner (some token) = false := by
  unfold inEnding at allowed
  split at allowed
  case h_7 => cases allowed
  all_goals rfl

/-- The `end` of a body spends the body. -/
theorem spends_end {mark : PlacedToken} (isEnd : close.value = .keyword .end)
    (inEnding : ∀ token ∈ tokens, inEnding token.value = true) (isMark : mark.value = .delimiter .semicolon)
    (colon : Bool) : Spends 1 colon (close :: (tokens ++ [mark])) false := by
  have closesBody (rest : List PlacedToken) :
      closesInner (((tokens ++ [mark]) ++ rest).head?.map Located.value) = false := by
    cases tokens with
    | nil => simp [isMark, closesInner, Token.keyword?]
    | cons token rest => simpa using not_closesInner_of_inEnding (inEnding token List.mem_cons_self)
  intro bodies
  constructor
  · intro enough rest
    obtain ⟨header, passes⟩ := passes_ending inEnding (bodies - 1) false
    have behind := passes.append (passes_semicolon isMark (bodies - 1) header false) rest
    rw [List.cons_append, skipFrom_end isEnd, closesBody, behind]
    simp [show bodies ≠ 0 by omega]
  · intro few
    refine ⟨[], close, tokens ++ [mark], rfl, fun rest => ?_⟩
    rw [List.cons_append, skipFrom_end isEnd, closesBody]
    simp [show bodies = 0 by omega]

/-- A body spends what the region in it spends, and itself if its header has ended too early. -/
theorem spends_body {header inner ending : List PlacedToken} {mark : PlacedToken}
    (isOpening : opens word.value = true) (isHeader : Header header) (isIs : is.value = .keyword .is)
    (inside : Spends spent false inner between)
    (noNew : inner.head?.map Located.value ≠ some (.keyword .new)) (isEnd : close.value = .keyword .end)
    (isEnding : ∀ token ∈ ending, inEnding token.value = true) (isMark : mark.value = .delimiter .semicolon) :
    Spends ((severalElements header).toNat + spent) false
      ((word :: header) ++ ([is] ++ (inner ++ (close :: (ending ++ [mark]))))) false := by
  have body : Spends (spent + 1) false (inner ++ (close :: (ending ++ [mark]))) false :=
    inside.append (spends_end isEnd isEnding isMark between)
  obtain ⟨colon, passes⟩ := isHeader.passes isOpening
  cases several : severalElements header with
  | true =>
    rw [several] at passes
    have isOrdinary : ordinary is.value = true ∧ is.value.isDelimiter .colon = false := by
      rw [isIs]
      exact ⟨rfl, rfl⟩
    have isPasses := passes_ordinary isOrdinary.1
    rw [isOrdinary.2] at isPasses
    have all := Spends.after_passes passes (.after_passes (fun bodies => isPasses bodies colon) body)
    rw [Bool.toNat_true, Nat.add_comm]
    exact all
  | false =>
    rw [several] at passes
    have headNoNew (rest : List PlacedToken) :
        ((inner ++ (close :: (ending ++ [mark]))) ++ rest).head?.map Located.value ≠ some (.keyword .new) := by
      cases inner with
      | nil => simp [isEnd]
      | cons token inner => simpa using noNew
    rw [Bool.toNat_false, Nat.zero_add, ← List.append_assoc]
    apply Spends.of_begun _ body
    intro bodies rest
    rw [List.append_assoc, passes bodies, List.singleton_append, Bool.not_false,
      skipFrom_is isIs bodies colon _ (headNoNew rest), List.foldr_append]
    rfl

/-- A well-nested region spends as many bodies as have an interface list of several elements. -/
theorem Nested.spends {lists : Nat} (nested : Nested lists colon tokens) :
    ∃ after, Spends lists colon tokens after := by
  induction nested with
  | nil => exact ⟨_, .of_passes fun bodies => .nil⟩
  | @token _ colon _ _ isOrdinary _ ih =>
    obtain ⟨after, behind⟩ := ih
    exact ⟨after, .after_passes (fun bodies => passes_ordinary isOrdinary bodies colon) behind⟩
  | @parens _ colon _ _ _ _ opened balanced noEnd closed _ ih =>
    obtain ⟨after, behind⟩ := ih
    have all := Spends.after_passes
      (fun bodies => passes_parens opened balanced noEnd closed bodies colon) behind
    exact ⟨after, by simpa using all⟩
  | entityClass isOpening _ ih =>
    obtain ⟨after, behind⟩ := ih
    exact ⟨after, .after_passes (fun bodies => passes_opening isOpening bodies true) behind⟩
  | closed _ isEnd closes _ ihInner ihRest =>
    obtain ⟨between, inside⟩ := ihInner
    obtain ⟨after, behind⟩ := ihRest
    have ending := Spends.after_passes (fun bodies => passes_endOf isEnd closes bodies between) behind
    exact ⟨after, inside.append ending⟩
  | declaration isOpening isHeader isMark _ ih =>
    obtain ⟨after, behind⟩ := ih
    obtain ⟨colon, header⟩ := isHeader.passes isOpening
    have all := Spends.after_passes
      (fun bodies => (header bodies).append (passes_semicolon isMark bodies _ colon)) behind
    exact ⟨after, by simpa using all⟩
  | instantiation isOpening isHeader isIs isNew _ ih =>
    obtain ⟨after, behind⟩ := ih
    obtain ⟨colon, header⟩ := isHeader.passes isOpening
    have all := Spends.after_passes
      (fun bodies => (header bodies).append (passes_isNew isIs isNew bodies _ colon)) behind
    exact ⟨after, by simpa using all⟩
  | body isOpening isHeader isIs _ noNew isEnd isEnding isMark _ ihInner ihRest =>
    obtain ⟨between, inside⟩ := ihInner
    obtain ⟨after, behind⟩ := ihRest
    have all := (spends_body isOpening isHeader isIs inside noNew isEnd isEnding isMark).append behind
    exact ⟨after, by simpa using all⟩

/-- A well-nested region is skipped to its own `end` exactly if no body in it has an interface list of
several elements. -/
theorem skip_nested {lists : Nat} {region rest : List PlacedToken} (nested : Nested lists false region)
    (isEnd : close.value = .keyword .end)
    (closesRegion : closesInner (rest.head?.map Located.value) = false) :
    skip none (region ++ close :: rest) = .ok region rest ↔ lists = 0 := by
  obtain ⟨after, spends⟩ := nested.spends
  rw [skip_eq_ok_iff]
  constructor
  · intro skipped
    rcases Nat.eq_zero_or_pos lists with none | several
    · exact none
    · obtain ⟨before, other, behind, rfl, stops⟩ := (spends 0).2 several
      rw [Nesting.start, stops] at skipped
      have same : before = before ++ other :: behind := by simp_all
      simp at same
  · intro none
    subst none
    have passes := (spends 0).1 (Nat.le_refl 0) (close :: rest)
    rw [Nesting.start, passes, skipFrom_end isEnd, closesRegion, if_neg Bool.false_ne_true, if_pos rfl,
      foldr_cons_ok, List.append_nil]

namespace Sample

def placed (tokens : List Token) : List PlacedToken := tokens.map fun token => ⟨.start, token⟩

def name (text : String) : Token := .identifier (.basic text)

/-- The interface list `(a : t; b : t)` without its parentheses, or `(a : t)` if it has one element. -/
def elements (several : Bool) : List Token :=
  [name "a", .delimiter .colon, name "t"]
    ++ if several then [.delimiter .semicolon, name "b", .delimiter .colon, name "t"] else []

/-- The tokens behind the word `function` in `function f (a : t) return t`. -/
def header (several : Bool) : List PlacedToken :=
  placed ([name "f", .delimiter .leftParen] ++ elements several
    ++ [.delimiter .rightParen, .keyword .return, name "t"])

/-- The statements of the function, `begin return a;`. -/
def statements : List PlacedToken :=
  placed [.keyword .begin, .keyword .return, name "a", .delimiter .semicolon]

/-- A function with its body, and the word `begin` of the architecture. -/
def region (several : Bool) : List PlacedToken :=
  placed [.keyword .function] ++ header several ++ placed [.keyword .is] ++ statements
    ++ placed [.keyword .end, .keyword .function, .delimiter .semicolon, .keyword .begin]

/-- The rest of the architecture behind its `end`. -/
def rest : List PlacedToken := placed [.keyword .architecture, .delimiter .semicolon]

theorem balanced_placed {outside : Token → Bool} {tokens : List Token}
    (allowed : ∀ token ∈ tokens, isParen token = false ∧ outside token = true) :
    Balanced outside (placed tokens) := by
  induction tokens with
  | nil => exact .nil
  | cons token tokens ih =>
    have here := allowed token List.mem_cons_self
    exact .token here.1 here.2 (ih fun other member => allowed other (List.mem_cons_of_mem _ member))

theorem header_header (several : Bool) : Header (header several) where
  balanced := by
    have inner : Balanced (fun _ => true) (placed (elements several)) :=
      balanced_placed (by cases several <;> decide)
    have last : Balanced inHeader (placed [.keyword .return, name "t"]) := balanced_placed (by decide)
    have list : Balanced inHeader
        (⟨.start, .delimiter .leftParen⟩ :: (placed (elements several) ++
          ⟨.start, .delimiter .rightParen⟩ :: placed [.keyword .return, name "t"])) :=
      .group rfl inner rfl last
    have all : Balanced inHeader (⟨.start, name "f"⟩ :: _) := .token rfl rfl list
    simpa [header, placed] using all
  noEnd := by cases several <;> decide
  noIs := by cases several <;> decide

theorem nested_region (several : Bool) : Nested several.toNat false (region several) := by
  have inside : Nested 0 false statements := .token rfl (.token rfl (.token rfl (.token rfl .nil)))
  have behind : Nested 0 false (placed [.keyword .begin]) := .token rfl .nil
  have counted : (severalElements (header several)).toNat = several.toNat := by cases several <;> rfl
  have all : Nested _ false
      (⟨.start, .keyword .function⟩ :: (header several ++ ⟨.start, .keyword .is⟩ :: (statements ++
        ⟨.start, .keyword .end⟩ :: (placed [.keyword .function] ++ ⟨.start, .delimiter .semicolon⟩ ::
          placed [.keyword .begin])))) :=
    .body rfl (header_header several) rfl inside (by decide) rfl (by decide) rfl behind
  rw [counted] at all
  simpa [region, placed] using all

end Sample

/-- With one element in its interface list the function is skipped with the region, and with two it is not. -/
theorem skip_nested_function :
    skip none (Sample.region false ++ ⟨.start, .keyword .end⟩ :: Sample.rest) = .ok (Sample.region false) Sample.rest ∧
      skip none (Sample.region true ++ ⟨.start, .keyword .end⟩ :: Sample.rest) ≠ .ok (Sample.region true) Sample.rest := by
  have closes : closesInner (Sample.rest.head?.map Located.value) = false := rfl
  exact ⟨(skip_nested (Sample.nested_region false) rfl closes).mpr rfl,
    fun skipped => absurd ((skip_nested (Sample.nested_region true) rfl closes).mp skipped) Nat.one_ne_zero⟩

/-- Not every well-nested region is skipped to its own `end`: this one ends inside the function. -/
theorem exists_nested_not_skipped :
    ¬ ∀ (lists : Nat) (region rest : List PlacedToken) (close : PlacedToken),
      Nested lists false region → close.value = .keyword .end →
        closesInner (rest.head?.map Located.value) = false →
          skip none (region ++ close :: rest) = .ok region rest := by
  intro skips
  have early :
      skip none (Sample.region true ++ ⟨.start, .keyword .end⟩ :: Sample.rest) =
        .ok (Sample.placed [.keyword .function] ++ Sample.header true ++ Sample.placed [.keyword .is]
            ++ Sample.statements)
          (Sample.placed [.keyword .function, .delimiter .semicolon, .keyword .begin, .keyword .end]
            ++ Sample.rest) := rfl
  have late := skips 1 _ Sample.rest ⟨.start, .keyword .end⟩ (Sample.nested_region true) rfl rfl
  rw [early, EStateM.Result.ok.injEq] at late
  exact absurd (congrArg List.length late.1) (by decide)

end Region

end VhdlOrder
