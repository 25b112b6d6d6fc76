import Mathlib.Tactic.SplitIfs
import VhdlOrder.Proofs.Design.Reads

/-! # What parsers settle by the tokens that they take

The value that a parser answers depends on the tokens that it takes, and on no others: where other tokens stand behind
them, it answers the same value and leaves those. A parser that looks ahead, as for a word that may be missing, depends
on the next token as well; in front of a parser that takes that token, this makes no difference. `Parser.Settles` says
so, and that the rounds that are left for a repetition do not matter. It is kept by sequencing, and by `fix` if every
round takes a token before it goes on to further ones.
-/

namespace VhdlOrder.Parser

variable {ahead ahead' takes takes' : Bool} {n m : Nat} {α β : Type}

/-- What `other` answers where a parser has this result for `tokens`: the same value wherever it finds fewer than `n`
tokens that were taken, and the same fault for the same tokens if there are fewer than `n`. With `ahead` the next token
has to be the same too, and `takes` says that tokens were taken. -/
inductive Settled (ahead takes : Bool) (n : Nat) (tokens : List PlacedToken) (other : Parser α) :
    EStateM.Result SyntaxFault (List PlacedToken) α → Prop
  | value {value : α} {taken rest : List PlacedToken} (whole : tokens = taken ++ rest)
      (some : takes = true → taken ≠ [])
      (again : taken.length < n → ∀ more, (ahead = true → more.head? = rest.head?) →
        other (taken ++ more) = .ok value more) : Settled ahead takes n tokens other (.ok value rest)
  | fault {fault : SyntaxFault} {left : List PlacedToken}
      (again : tokens.length < n → other tokens = .error fault left) :
      Settled ahead takes n tokens other (.error fault left)

/-- Whatever `parser` answers is settled for `other` by the tokens taken. -/
def Settles (ahead takes : Bool) (n : Nat) (parser other : Parser α) : Prop :=
  ∀ tokens, Settled ahead takes n tokens other (parser tokens)

variable {parser other first first' : Parser α} {second second' : α → Parser β}

/-- Less may be said of a result: for fewer tokens, with a look ahead, without a word on whether tokens were taken. -/
theorem Settled.imp {tokens : List PlacedToken} {result : EStateM.Result SyntaxFault (List PlacedToken) α}
    (settled : Settled ahead takes n tokens other result) (looks : ahead = true → ahead' = true)
    (fewer : takes' = true → takes = true) (short : tokens.length < m → tokens.length < n)
    (shorter : ∀ taken : List PlacedToken, taken.length ≤ tokens.length → taken.length < m → taken.length < n) :
    Settled ahead' takes' m tokens other result := by
  cases settled with
  | @value _ taken _ whole some again =>
    have fits := congrArg List.length whole
    rw [List.length_append] at fits
    exact .value whole (some ∘ fewer) fun below more next =>
      again (shorter taken (by omega) below) more (next ∘ looks)
  | fault again => exact .fault (again ∘ short)

theorem Settles.mono (settles : Settles ahead takes n parser other) (le : m ≤ n) :
    Settles ahead takes m parser other := fun tokens =>
  (settles tokens).imp id id (fun short => by omega) fun taken _ short => by omega

/-- What takes tokens and does not look ahead settles in every sense. -/
theorem Settles.weaken (settles : Settles false true n parser other) : Settles ahead takes n parser other :=
  fun tokens => (settles tokens).imp (by simp) (fun _ => rfl) id fun _ _ => id

/-- Of no tokens nothing is said about the other parser. -/
theorem Settles.zero (settles : Settles ahead takes n parser other) : Settles ahead takes 0 parser first := by
  intro tokens
  have settled := settles tokens
  revert settled
  generalize parser tokens = result
  intro settled
  cases settled with
  | value whole some again => exact .value whole some fun short => absurd short (Nat.not_lt_zero _)
  | fault again => exact .fault fun short => absurd short (Nat.not_lt_zero _)

/-- For fewer than `n` tokens both parsers do the same. -/
theorem Settles.eq (settles : Settles ahead takes n parser other) {tokens : List PlacedToken}
    (short : tokens.length < n) : other tokens = parser tokens := by
  cases same : parser tokens with
  | ok value rest =>
    have settled := same ▸ settles tokens
    cases settled with
    | value whole some again =>
      have fewer := congrArg List.length whole
      rw [List.length_append] at fewer
      rw [whole]
      exact again (by omega) rest fun _ => rfl
  | error fault left =>
    have settled := same ▸ settles tokens
    cases settled with
    | fault again => exact again short

/-- The tokens that a value is settled by. -/
theorem Settles.exists_taken (settles : ∀ n, Settles false takes n parser parser) {tokens rest : List PlacedToken}
    {value : α} (answered : parser tokens = .ok value rest) :
    ∃ taken, tokens = taken ++ rest ∧ (takes = true → taken ≠ []) ∧
      ∀ more, parser (taken ++ more) = .ok value more := by
  have settled := answered ▸ settles (tokens.length + 1) tokens
  cases settled with
  | value whole some again =>
    have fewer := congrArg List.length whole
    rw [List.length_append] at fewer
    exact ⟨_, whole, some, fun more => again (by omega) more (by simp)⟩

/-! ## Sequences -/

theorem bind_of_ok {tokens rest : List PlacedToken} {value : α} (answered : first tokens = .ok value rest) :
    (first >>= second) tokens = second value rest := by
  change EStateM.bind first second tokens = _
  rw [EStateM.bind, answered]

theorem bind_of_error {tokens left : List PlacedToken} {fault : SyntaxFault}
    (answered : first tokens = .error fault left) : (first >>= second) tokens = .error fault left := by
  change EStateM.bind first second tokens = _
  rw [EStateM.bind, answered]

theorem map_of_ok {tokens rest : List PlacedToken} {value : α} (build : α → β)
    (answered : first tokens = .ok value rest) : (build <$> first) tokens = .ok (build value) rest := by
  change EStateM.map build first tokens = _
  rw [EStateM.map, answered]

theorem map_of_error {tokens left : List PlacedToken} {fault : SyntaxFault} (build : α → β)
    (answered : first tokens = .error fault left) : (build <$> first) tokens = .error fault left := by
  change EStateM.map build first tokens = _
  rw [EStateM.map, answered]

/-- Behind a parser that may look ahead, the next token is the same if the second one takes it. -/
theorem Settled.bind {tokens : List PlacedToken} {took took' : Bool}
    (left : Settled ahead' took n tokens first' (first tokens))
    (right : ∀ value rest, first tokens = .ok value rest →
      Settled ahead took' (n - took.toNat) rest (second' value) (second value rest))
    (fits : ahead' = true → ahead = true ∨ took' = true) (some : takes = true → took = true ∨ took' = true) :
    Settled ahead takes n tokens (first' >>= second') ((first >>= second) tokens) := by
  cases same : first tokens with
  | error fault rest =>
    rw [same] at left
    rw [bind_of_error same]
    cases left with
    | fault again => exact .fault fun short => bind_of_error (again short)
  | ok value rest =>
    rw [same] at left
    rw [bind_of_ok same]
    have behind := right value rest same
    cases left with
    | @value _ taken _ whole nonempty again =>
      have fewer {count : Nat} (short : taken.length + count < n) : count < n - took.toNat := by
        cases took with
        | false => rw [Bool.toNat_false]; omega
        | true =>
          have longer := List.length_pos_iff.mpr (nonempty rfl)
          rw [Bool.toNat_true]
          omega
      cases answer : second value rest with
      | error fault left =>
        rw [answer] at behind
        cases behind with
        | fault further =>
          refine .fault fun short => ?_
          rw [whole, List.length_append] at short
          rw [whole, bind_of_ok (again (by omega) rest fun _ => rfl)]
          exact further (fewer short)
      | ok result later =>
        rw [answer] at behind
        cases behind with
        | @value _ taken' _ whole' nonempty' further =>
          subst whole whole'
          refine .value (List.append_assoc ..).symm (fun isSome => ?_) fun short more next => ?_
          · obtain here | there := some isSome
            · simp [nonempty here]
            · simp [nonempty' there]
          rw [List.length_append] at short
          have nextSame : ahead' = true → (taken' ++ more).head? = (taken' ++ later).head? := by
            intro looks
            cases taken' with
            | cons token rest => rfl
            | nil => exact next ((fits looks).resolve_right fun isSome => nonempty' isSome rfl)
          rw [List.append_assoc, bind_of_ok (again (by omega) (taken' ++ more) nextSame)]
          exact further (fewer short) more next

theorem Settles.bind (left : Settles false takes n first first')
    (right : ∀ value, Settles ahead false n (second value) (second' value)) :
    Settles ahead takes n (first >>= second) (first' >>= second') := fun tokens =>
  (left tokens).bind (fun value rest _ => (right value).mono (Nat.sub_le ..) rest) (by simp) .inl

/-- In front of a parser that takes a token, looking ahead to that token makes no difference. -/
theorem Settles.bind_ahead (left : Settles true false n first first')
    (right : ∀ value, Settles ahead true n (second value) (second' value)) :
    Settles ahead takes n (first >>= second) (first' >>= second') := fun tokens =>
  (left tokens).bind (fun value rest _ => right value rest) (fun _ => .inr rfl) fun _ => .inr rfl

theorem Settles.bind_loose (left : Settles true takes n first first')
    (right : ∀ value, Settles true false n (second value) (second' value)) :
    Settles true takes n (first >>= second) (first' >>= second') := fun tokens =>
  (left tokens).bind (fun value rest _ => (right value).mono (Nat.sub_le ..) rest) (fun _ => .inl rfl) .inl

/-- Behind a parser that takes a token fewer tokens are left. -/
theorem Settles.bind_takes (left : Settles false true (n + 1) first first')
    (right : ∀ value, Settles ahead false n (second value) (second' value)) :
    Settles ahead takes (n + 1) (first >>= second) (first' >>= second') := fun tokens =>
  (left tokens).bind (fun value rest _ => right value rest) (by simp) fun _ => .inl rfl

theorem Settles.bind_takes_ahead (left : Settles true true (n + 1) first first')
    (right : ∀ value, Settles ahead true n (second value) (second' value)) :
    Settles ahead takes (n + 1) (first >>= second) (first' >>= second') := fun tokens =>
  (left tokens).bind (fun value rest _ => right value rest) (fun _ => .inr rfl) fun _ => .inl rfl

theorem Settles.pure (value : α) : Settles ahead false n (pure value) (pure value) :=
  fun _ => .value (List.nil_append _).symm (by simp) fun _ _ _ => rfl

theorem Settles.throw (fault : SyntaxFault) : Settles ahead takes n (throw fault : Parser α) (throw fault) :=
  fun _ => .fault fun _ => rfl

theorem Settles.ite {condition : Prop} [Decidable condition] {yes no yes' no' : Parser α}
    (left : Settles ahead takes n yes yes') (right : Settles ahead takes n no no') :
    Settles ahead takes n (if condition then yes else no) (if condition then yes' else no') := by
  split <;> assumption

/-- What follows a value that may be a fault. -/
theorem Settles.bind_ofExcept (answer : Except SyntaxFault α)
    (right : ∀ value, Settles ahead takes n (second value) (second' value)) :
    Settles ahead takes n (ofExcept answer >>= second) (ofExcept answer >>= second') := by
  cases answer with
  | ok value => exact right value
  | error fault => exact .throw fault

/-! ## Repetition -/

variable {round : Parser α → Parser α}

/-- Fewer than `n` tokens are within both bounds. -/
theorem settles_fixWithin (step : ∀ n further other, Settles ahead takes n further other →
      Settles ahead takes (n + 1) (round further) (round other))
    {bound bound' : List PlacedToken} (long : n ≤ bound.length + 1) (long' : n ≤ bound'.length + 1) :
    Settles ahead takes n (fixWithin round bound) (fixWithin round bound') := by
  have alone (bound : List PlacedToken) (other : Parser α) : Settles ahead takes 0 (fixWithin round bound) other := by
    induction bound generalizing other with
    | nil => exact (step 0 _ _ (.throw _)).zero
    | cons token bound ih => exact (step 0 _ (fixWithin round bound) (ih _)).zero
  induction n generalizing bound bound' with
  | zero => exact alone _ _
  | succ n ih =>
    cases bound with
    | nil =>
      obtain rfl : n = 0 := by simpa using long
      cases bound' with
      | nil => exact step 0 _ _ (.throw _)
      | cons token' bound' => exact step 0 _ _ (Settles.throw _ : Settles ahead takes 0 _ _).zero
    | cons token bound =>
      cases bound' with
      | nil =>
        obtain rfl : n = 0 := by simpa using long'
        exact step 0 _ _ (alone _ _)
      | cons token' bound' =>
        simp only [List.length_cons] at long long'
        exact step n _ _ (ih (by omega) (by omega))

/-- The rounds within a bound and all of them do the same with fewer than `n` tokens. -/
theorem settles_fixWithin_fix (step : ∀ n further other, Settles ahead takes n further other →
      Settles ahead takes (n + 1) (round further) (round other))
    {bound : List PlacedToken} (long : n ≤ bound.length + 1) :
    Settles ahead takes n (fixWithin round bound) (Parser.fix round) := by
  intro tokens
  have within (bound' : List PlacedToken) {n : Nat} (long : n ≤ bound.length + 1) (long' : n ≤ bound'.length + 1) :
      Settled ahead takes n tokens (fixWithin round bound') (fixWithin round bound tokens) :=
    settles_fixWithin step long long' tokens
  cases same : fixWithin round bound tokens with
  | error fault left =>
    refine .fault fun short => ?_
    cases same ▸ within tokens (n := tokens.length + 1) (by omega) (Nat.le_refl _) with
    | fault again => exact again (Nat.lt_succ_self _)
  | ok value rest =>
    cases same ▸ within [] (Nat.le_add_left 1 _) (Nat.le_refl 1) with
    | @value _ taken _ whole some _ =>
      refine .value whole some fun short more next => ?_
      cases same ▸ within (taken ++ more) (n := taken.length + 1) (by omega) (by simp) with
      | @value _ taken' _ whole' _ again =>
        obtain rfl : taken' = taken := List.append_cancel_right (whole'.symm.trans whole)
        exact again (Nat.lt_succ_self _) more next

/-- A round that takes a token before it goes on to further ones may be repeated. -/
theorem Settles.fix (step : ∀ n further other, Settles ahead takes n further other →
      Settles ahead takes (n + 1) (round further) (round other)) :
    Settles ahead takes n (Parser.fix round) (Parser.fix round) := fun tokens =>
  (settles_fixWithin_fix step (Nat.le_refl _) tokens).imp id id (fun _ => Nat.lt_succ_self _)
    fun _ le _ => Nat.lt_succ_of_le le

/-- A repetition is one round in front of itself. -/
theorem fix_eq (step : ∀ n further other, Settles ahead takes n further other →
      Settles ahead takes (n + 1) (round further) (round other)) : fix round = round (fix round) := by
  funext tokens
  cases tokens with
  | nil =>
    have further : Settles ahead takes 0 (throw (.unexpectedEnd .start (.keyword .end))) (fix round) :=
      (Settles.throw _ : Settles ahead takes 0 _ _).zero
    exact ((step 0 _ _ further).eq (Nat.lt_succ_self _)).symm
  | cons token tokens =>
    exact ((step _ _ _ (settles_fixWithin_fix step (Nat.le_refl _))).eq (Nat.lt_succ_self _)).symm

/-! ## Single tokens -/

theorem settles_next (wanted : Expectation) : Settles ahead takes n (next wanted) (next wanted) := by
  intro tokens
  cases tokens with
  | nil => exact .fault fun _ => rfl
  | cons token rest =>
    by_cases isEnd : token.value = .endOfFile
    · have fault (tokens : List PlacedToken) : next wanted (token :: tokens) = .error _ _ := if_pos isEnd
      rw [fault]
      exact .fault fun _ => fault rest
    · have taken (tokens : List PlacedToken) : next wanted (token :: tokens) = .ok token tokens := if_neg isEnd
      rw [taken]
      exact .value List.singleton_append.symm (by simp) fun _ more _ => taken more

theorem settles_unexpected (token : PlacedToken) (wanted : Expectation) :
    Settles ahead takes n (unexpected token wanted : Parser α) (unexpected token wanted) := .throw _

theorem settles_keyword (word : Keyword) : Settles ahead takes n (keyword word) (keyword word) :=
  (settles_next _).bind fun _ => .ite (.pure _) (settles_unexpected _ _)

theorem settles_delimiter (mark : Delimiter) : Settles ahead takes n (delimiter mark) (delimiter mark) :=
  (settles_next _).bind fun _ => .ite (.pure _) (settles_unexpected _ _)

theorem settles_identifier : Settles ahead takes n identifier identifier := by
  refine (settles_next _).bind fun token => ?_
  split
  · exact .pure _
  · exact settles_unexpected _ _

/-! ## Looking ahead -/

theorem settles_peek? : Settles true false n peek? peek? := by
  intro tokens
  refine .value (List.nil_append tokens).symm (by simp) fun _ more next => ?_
  rw [List.nil_append, peek?, next rfl]

/-- A token that may be missing is taken if it is there; if not, the parser has looked at the next token. -/
theorem settled_accept (token : Token) (tokens : List PlacedToken) :
    (Parser.accept token tokens = .ok true tokens.tail ∧
        Settled false true n tokens (Parser.accept token) (Parser.accept token tokens)) ∨
      (Parser.accept token tokens = .ok false tokens ∧
        Settled true false n tokens (Parser.accept token) (Parser.accept token tokens)) := by
  have missing {tokens : List PlacedToken} (other : tokens.head?.map Located.value ≠ some token) :
      Parser.accept token tokens = .ok false tokens := by
    cases tokens with
    | nil => rfl
    | cons first rest => exact if_neg (other ∘ congrArg some)
  by_cases found : tokens.head?.map Located.value = some token
  · cases tokens with
    | nil => cases found
    | cons first rest =>
      have taken (tokens : List PlacedToken) : Parser.accept token (first :: tokens) = .ok true tokens :=
        if_pos (Option.some.inj found)
      refine .inl ⟨taken rest, ?_⟩
      rw [taken]
      exact .value List.singleton_append.symm (by simp) fun _ more _ => taken more
  · refine .inr ⟨missing found, ?_⟩
    rw [missing found]
    refine .value (List.nil_append tokens).symm (by simp) fun _ more next => missing ?_
    rwa [List.nil_append, next rfl]

theorem settles_accept (token : Token) : Settles true false n (accept token) (accept token) := by
  intro tokens
  obtain ⟨-, settled⟩ | ⟨-, settled⟩ := settled_accept (n := n) token tokens
  · exact settled.imp (by simp) (by simp) id fun _ _ => id
  · exact settled

/-- Behind a token that may be missing. -/
theorem Settles.accept {token : Token} {second second' : Bool → Parser β}
    (yes : Settles ahead false (n - 1) (second true) (second' true))
    (no : Settles ahead takes n (second false) (second' false)) (fits : ahead = true ∨ takes = true) :
    Settles ahead takes n (accept token >>= second) (accept token >>= second') := by
  intro tokens
  obtain ⟨there, settled⟩ | ⟨missing, settled⟩ := settled_accept (n := n) token tokens
  · have behind (value : Bool) (rest : List PlacedToken) (answered : Parser.accept token tokens = .ok value rest) :
        Settled ahead false (n - 1) rest (second' value) (second value rest) := by
      cases there.symm.trans answered
      exact yes _
    exact settled.bind behind (by simp) fun _ => .inl rfl
  · refine settled.bind (fun value rest answered => ?_) (fun _ => fits) .inr
    cases missing.symm.trans answered
    exact no _

/-! ## Lists of tokens -/

/-- A parser that takes its first token and then does what `read` does with the others. With `ahead` it may look at the
token behind the first one too. -/
theorem Settled.behind {token : PlacedToken} {tokens : List PlacedToken} {read : Parser α} {whole : Parser β}
    (settled : Settled ahead takes n tokens read (read tokens)) (build : α → β)
    (step : ∀ more, (ahead = true → more.head? = tokens.head?) → whole (token :: more) = (build <$> read) more) :
    Settled ahead takes' n (token :: tokens) whole (whole (token :: tokens)) := by
  rw [step tokens fun _ => rfl]
  cases answered : read tokens with
  | error fault left =>
    rw [map_of_error build answered]
    exact .fault fun _ => (step tokens fun _ => rfl).trans (map_of_error build answered)
  | ok value rest =>
    rw [map_of_ok build answered]
    cases answered ▸ settled with
    | @value _ taken _ standing some again =>
      have front : token :: tokens = (token :: taken) ++ rest := congrArg (token :: ·) standing
      refine .value front (by simp) fun short more next => ?_
      have head : ahead = true → (taken ++ more).head? = tokens.head? := by
        intro looks
        cases taken with
        | nil => exact (next looks).trans (congrArg List.head? standing).symm
        | cons first others => exact (congrArg List.head? standing).symm
      exact (step (taken ++ more) head).trans (map_of_ok build (again (Nat.lt_of_succ_lt short) more next))

/-- The tokens that are taken with a token in front. -/
theorem cons_eq_map (token : PlacedToken) (read : Parser (List PlacedToken × β)) (tokens : List PlacedToken) :
    cons token (read tokens) = ((fun found => (token :: found.1, found.2)) <$> read) tokens := by
  change _ = EStateM.map _ read tokens
  rw [EStateM.map]
  cases read tokens <;> rfl

theorem settles_takeUntil (stops : Token → Bool) :
    Settles ahead takes n (takeUntil stops) (takeUntil stops) := by
  have within (depth : Nat) : Settles ahead takes n (untilWithin stops depth) (untilWithin stops depth) := by
    intro tokens
    induction tokens generalizing depth with
    | nil => exact .fault fun _ => rfl
    | cons token rest ih =>
      have step (more : List PlacedToken) := untilWithin.eq_2 stops depth token more
      split_ifs at step with isEnd stop
      · exact step rest ▸ .fault fun _ => step rest
      · exact step rest ▸ .value List.singleton_append.symm (by simp) fun _ more _ => step more
      · exact (ih (parensAfter depth token.value)).behind _ fun more _ => (step more).trans (cons_eq_map ..)
  exact within 0

theorem settles_statement : Settles ahead takes n statement statement :=
  (settles_takeUntil _).bind fun _ => .pure _

/-! ## Names and endings -/

theorem settles_suffixes : Settles true false n suffixes suffixes := by
  refine .fix fun n further other settles => .accept ?_ (.pure _) (.inl rfl)
  refine .accept (.pure _) ?_ (.inl rfl)
  exact settles_identifier.bind fun _ => settles.bind_loose fun _ => .pure _

theorem settles_selectedName : Settles true takes n selectedName selectedName :=
  settles_identifier.bind fun _ => (settles_suffixes.bind_loose fun _ => .pure _).bind_loose fun _ => .pure _

/-- A list of items ends with its semicolon, and each item takes a token. -/
theorem settles_commaList {item : Parser α} (items : ∀ n, Settles true true n item item) :
    Settles ahead takes n (commaList item) (commaList item) := by
  refine .weaken (.fix fun n further other settles => ?_)
  refine (items _).bind_takes_ahead fun _ => .accept ?_ ?_ (.inr rfl)
  · exact (settles.mono (Nat.sub_le n 1)).weaken.bind fun _ => .pure _
  · exact (settles_delimiter _).bind fun _ => .pure _

theorem settles_acceptKeywords (words : List Keyword) :
    Settles true false n (acceptKeywords words) (acceptKeywords words) := by
  induction words generalizing n with
  | nil => exact .pure _
  | cons word words ih => exact .accept ih (.pure _) (.inl rfl)

theorem settles_ending (words : List Keyword) (name : Identifier) :
    Settles ahead takes n (ending words name) (ending words name) := by
  refine (settles_acceptKeywords words).bind_ahead fun _ => settles_peek?.bind_ahead fun _ => ?_
  refine .ite ?_ (settles_delimiter _)
  exact settles_identifier.bind fun _ => .ite (settles_delimiter _) (.throw _)

end VhdlOrder.Parser
