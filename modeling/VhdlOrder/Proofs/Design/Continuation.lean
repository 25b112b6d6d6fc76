import VhdlOrder.Design.Region

/-! # Parsers where the file is cut off

What a parser does with tokens behind which the file ends, compared with what it does where other tokens
stand there instead of the end. Either the result is the same, with as many tokens taken, or the parser has
met the end of the file: it then reports the end or, if it is loose, answers a value because something that
may be missing is not there. `Parser.Continues` says so of a parser at the cut and another one without it;
it is kept by sequencing, and by `fix` because every round takes a token.
-/

namespace VhdlOrder

/-- The end of a file, where no token is left or the end-of-file marker is next, and the tokens that stand
there instead. -/
structure Cut where
  ending : List PlacedToken
  more : List PlacedToken
  atEnd : ∀ token, ending.head? = some token → token.value = .endOfFile

namespace Cut

/-- Where a token is reported to be missing. -/
def place (cut : Cut) : Position := (cut.ending.head?.map Located.position).getD .start

/-- At a cut there is no token, or the next one is the end-of-file marker. -/
theorem ending_cases (cut : Cut) :
    cut.ending = [] ∧ cut.place = .start ∨
      ∃ token rest, cut.ending = token :: rest ∧ token.value = .endOfFile ∧ cut.place = token.position := by
  unfold place
  cases same : cut.ending with
  | nil => exact .inl ⟨rfl, rfl⟩
  | cons token rest => exact .inr ⟨token, rest, rfl, cut.atEnd token (by rw [same]; rfl), rfl⟩

/-- No token of a file is next. -/
theorem head?_ending (cut : Cut) {token : Token} (ordinary : token ≠ .endOfFile) :
    cut.ending.head?.map Located.value ≠ some token := by
  obtain ⟨same, -⟩ | ⟨marker, rest, same, isEnd, -⟩ := cut.ending_cases
  · simp [same]
  · rw [same]
    rintro ⟨⟩
    exact ordinary isEnd

/-- No reserved word is next either. -/
theorem keyword?_ending (cut : Cut) : (cut.ending.head?.map Located.value).bind Token.keyword? = none := by
  obtain ⟨same, -⟩ | ⟨marker, rest, same, isEnd, -⟩ := cut.ending_cases
  · rw [same]
    rfl
  · simp [same, isEnd, Token.keyword?]

end Cut

namespace Parser

variable {cut : Cut} {loose free : Bool} {n : Nat} {α β : Type}

/-- A result at the end of the file: the end is reported, or nothing is taken for what is optional. -/
inductive Ended (cut : Cut) (loose : Bool) : EStateM.Result SyntaxFault (List PlacedToken) α → Prop
  | fault (wanted : Expectation) (left : List PlacedToken) :
      Ended cut loose (.error (.unexpectedEnd cut.place wanted) left)
  | value (value : α) (allowed : loose = true) : Ended cut loose (.ok value cut.ending)

/-- The result for `tokens` at the end of the file, and the one for `tokens` where the file goes on. -/
inductive Outcome (cut : Cut) (loose : Bool) (tokens : List PlacedToken) :
    EStateM.Result SyntaxFault (List PlacedToken) α → EStateM.Result SyntaxFault (List PlacedToken) α → Prop
  | value {value : α} {rest : List PlacedToken} (suffix : rest <:+ tokens) :
      Outcome cut loose tokens (.ok value (rest ++ cut.ending)) (.ok value (rest ++ cut.more))
  | fault {fault : SyntaxFault} {left other : List PlacedToken} :
      Outcome cut loose tokens (.error fault left) (.error fault other)
  | ended {result other : EStateM.Result SyntaxFault (List PlacedToken) α} (ended : Ended cut loose result) :
      Outcome cut loose tokens result other

/-- `parser` does with fewer than `n` tokens at the end of the file what `other` does where the file goes
on, unless it meets the end. -/
def Continues (cut : Cut) (loose : Bool) (n : Nat) (parser other : Parser α) : Prop :=
  ∀ tokens : List PlacedToken, tokens.length < n → (∀ token ∈ tokens, token.value ≠ .endOfFile) →
    Outcome cut loose tokens (parser (tokens ++ cut.ending)) (other (tokens ++ cut.more))

/-- What `parser` does where the file has ended before its first token. -/
def EndsAt (cut : Cut) (loose : Bool) (parser : Parser α) : Prop := Ended cut loose (parser cut.ending)

/-! ## Sequences -/

theorem Ended.loosen {result : EStateM.Result SyntaxFault (List PlacedToken) α}
    (ended : Ended cut false result) : Ended cut loose result := by
  cases ended with
  | fault wanted left => exact .fault wanted left
  | value value allowed => cases allowed

theorem Outcome.loosen {tokens : List PlacedToken}
    {result other : EStateM.Result SyntaxFault (List PlacedToken) α}
    (outcome : Outcome cut false tokens result other) : Outcome cut loose tokens result other := by
  cases outcome with
  | value suffix => exact .value suffix
  | fault => exact .fault
  | ended ended => exact .ended ended.loosen

theorem Outcome.of_suffix {rest tokens : List PlacedToken}
    {result other : EStateM.Result SyntaxFault (List PlacedToken) α} (suffix : rest <:+ tokens)
    (outcome : Outcome cut loose rest result other) : Outcome cut loose tokens result other := by
  cases outcome with
  | value inner => exact .value (inner.trans suffix)
  | fault => exact .fault
  | ended ended => exact .ended ended

theorem Outcome.ite {condition : Prop} [Decidable condition] {tokens : List PlacedToken}
    {yes no yes' no' : EStateM.Result SyntaxFault (List PlacedToken) α} (left : Outcome cut loose tokens yes yes')
    (right : Outcome cut loose tokens no no') :
    Outcome cut loose tokens (if condition then yes else no) (if condition then yes' else no') := by
  split <;> assumption

/-- A value that is not one for want of tokens is the same where the file goes on. -/
theorem Outcome.of_ok {tokens left : List PlacedToken} {value : α}
    {other : EStateM.Result SyntaxFault (List PlacedToken) α}
    (outcome : Outcome cut false tokens (.ok value left) other) :
    ∃ rest, rest <:+ tokens ∧ left = rest ++ cut.ending ∧ other = .ok value (rest ++ cut.more) := by
  cases outcome with
  | value suffix => exact ⟨_, suffix, rfl, rfl⟩
  | ended ended =>
    cases ended with
    | value _ allowed => cases allowed

variable {parser other first first' : Parser α} {second second' : α → Parser β}

theorem Continues.loosen (continues : Continues cut false n parser other) :
    Continues cut loose n parser other :=
  fun tokens short plain => (continues tokens short plain).loosen

theorem Continues.mono {m : Nat} (le : m ≤ n) (continues : Continues cut loose n parser other) :
    Continues cut loose m parser other :=
  fun tokens short plain => continues tokens (Nat.lt_of_lt_of_le short le) plain

/-- Every value that a parser answers leaves fewer tokens than there were. -/
def Takes (parser : Parser α) : Prop :=
  ∀ tokens value rest, parser tokens = .ok value rest → rest.length < tokens.length

/-- A sequence has met the end of the file if its first part has. -/
theorem Ended.bind {stream : List PlacedToken} (left : Ended cut free (first stream))
    (right : free = true → ∀ value, EndsAt cut loose (second value)) :
    Ended cut loose ((first >>= second) stream) := by
  change Ended cut loose (EStateM.bind first second stream)
  unfold EStateM.bind
  revert left
  generalize first stream = result
  intro left
  cases left with
  | fault wanted left => exact .fault wanted left
  | value value allowed => exact right allowed value

/-- The result of a sequence follows from the result of its first part. -/
theorem Outcome.bind {tokens stream stream' : List PlacedToken}
    (left : Outcome cut free tokens (first stream) (first' stream'))
    (right : ∀ value rest, rest <:+ tokens → first stream = .ok value (rest ++ cut.ending) →
      Outcome cut loose rest (second value (rest ++ cut.ending)) (second' value (rest ++ cut.more)))
    (ends : free = true → ∀ value, EndsAt cut loose (second value)) :
    Outcome cut loose tokens ((first >>= second) stream) ((first' >>= second') stream') := by
  generalize answer : first stream = result at left
  generalize answer' : first' stream' = result' at left
  cases left with
  | @value value rest suffix =>
    have behind := (right value rest suffix answer).of_suffix suffix
    change Outcome cut loose tokens (EStateM.bind first second stream) (EStateM.bind first' second' stream')
    rw [EStateM.bind, EStateM.bind, answer, answer']
    exact behind
  | fault =>
    change Outcome cut loose tokens (EStateM.bind first second stream) (EStateM.bind first' second' stream')
    rw [EStateM.bind, EStateM.bind, answer, answer']
    exact .fault
  | ended ended => exact .ended (Ended.bind (answer ▸ ended) ends)

theorem plain_of_suffix {rest tokens : List PlacedToken} (suffix : rest <:+ tokens)
    (plain : ∀ token ∈ tokens, token.value ≠ .endOfFile) : ∀ token ∈ rest, token.value ≠ .endOfFile :=
  fun token member => plain token (suffix.mem member)

theorem Continues.bind_loose (left : Continues cut free n first first')
    (right : ∀ value, Continues cut loose n (second value) (second' value))
    (ends : free = true → ∀ value, EndsAt cut loose (second value)) :
    Continues cut loose n (first >>= second) (first' >>= second') :=
  fun tokens short plain => (left tokens short plain).bind
    (fun value rest suffix _ =>
      right value rest (Nat.lt_of_le_of_lt suffix.length_le short) (plain_of_suffix suffix plain)) ends

theorem Continues.bind (left : Continues cut false n first first')
    (right : ∀ value, Continues cut loose n (second value) (second' value)) :
    Continues cut loose n (first >>= second) (first' >>= second') :=
  left.bind_loose right (fun never => by cases never)

/-- Behind a parser that takes a token fewer tokens are left. -/
theorem Continues.bind_takes (left : Continues cut false (n + 1) first first') (takes : Takes first)
    (right : ∀ value, Continues cut loose n (second value) (second' value)) :
    Continues cut loose (n + 1) (first >>= second) (first' >>= second') := by
  intro tokens short plain
  refine (left tokens short plain).bind (fun value rest suffix answered => ?_) (fun never => by cases never)
  have taken := takes _ _ _ answered
  simp only [List.length_append] at taken
  exact right value rest (by omega) (plain_of_suffix suffix plain)

theorem EndsAt.bind (left : EndsAt cut false first) : EndsAt cut loose (first >>= second) :=
  Ended.bind left fun never => by cases never

theorem EndsAt.bind_loose (left : EndsAt cut true first) (right : ∀ value, EndsAt cut loose (second value)) :
    EndsAt cut loose (first >>= second) :=
  Ended.bind left fun _ => right

theorem Continues.pure (value : α) : Continues cut loose n (pure value) (pure value) :=
  fun tokens _ _ => .value (List.suffix_refl tokens)

theorem EndsAt.pure (value : α) : EndsAt cut true (pure value : Parser α) := .value value rfl

theorem Continues.throw (fault : SyntaxFault) :
    Continues cut loose n (throw fault : Parser α) (throw fault) :=
  fun _ _ _ => .fault

theorem Continues.ite {condition : Prop} [Decidable condition] {yes no yes' no' : Parser α}
    (left : Continues cut loose n yes yes') (right : Continues cut loose n no no') :
    Continues cut loose n (if condition then yes else no) (if condition then yes' else no') := by
  split <;> assumption

theorem EndsAt.ite {condition : Prop} [Decidable condition] {yes no : Parser α}
    (left : EndsAt cut loose yes) (right : EndsAt cut loose no) :
    EndsAt cut loose (if condition then yes else no) := by
  split <;> assumption

/-! ## Repetition -/

theorem exists_fixWithin (round : Parser α → Parser α) (bound : List PlacedToken) :
    ∃ further, fixWithin round bound = round further := by
  cases bound <;> exact ⟨_, rfl⟩

/-- Fewer than `n` tokens are within both bounds. What holds of every round holds of the further rounds in it
too; where no round is left, no token is. -/
theorem continues_fixWithin {round : Parser α → Parser α} (holds : Parser α → Prop)
    (base : cut.ending = [] → holds (throw (.unexpectedEnd .start (.keyword .end))))
    (rounds : ∀ further, holds (round further))
    (step : ∀ n further other, holds further → Continues cut loose n further other →
      Continues cut loose (n + 1) (round further) (round other))
    {bound bound' : List PlacedToken} (long : n + cut.ending.length ≤ bound.length + 1)
    (long' : n + cut.more.length ≤ bound'.length + 1) :
    Continues cut loose n (fixWithin round bound) (fixWithin round bound') := by
  have nothing (further other : Parser α) : Continues cut loose 0 further other :=
    fun tokens short => absurd short (Nat.not_lt_zero _)
  have held (bound : List PlacedToken) : holds (fixWithin round bound) := by
    obtain ⟨further, same⟩ := exists_fixWithin round bound
    exact same ▸ rounds further
  induction n generalizing bound bound' with
  | zero => exact nothing _ _
  | succ n ih =>
    cases bound with
    | nil =>
      simp only [List.length_nil] at long
      obtain ⟨other, same'⟩ := exists_fixWithin round bound'
      obtain rfl : n = 0 := by omega
      rw [same']
      exact step 0 _ _ (base (List.eq_nil_of_length_eq_zero (by omega))) (nothing _ _)
    | cons token bound =>
      simp only [List.length_cons] at long
      cases bound' with
      | nil =>
        simp only [List.length_nil] at long'
        obtain rfl : n = 0 := by omega
        exact step 0 _ _ (held bound) (nothing _ _)
      | cons token' bound' =>
        simp only [List.length_cons] at long'
        exact step n _ _ (held bound) (ih (by omega) (by omega))

/-- Repetition of a round, with a condition on the further rounds in it. -/
theorem Continues.fix_of {round : Parser α → Parser α} (holds : Parser α → Prop)
    (base : cut.ending = [] → holds (MonadExcept.throw (.unexpectedEnd .start (.keyword .end))))
    (rounds : ∀ further, holds (round further))
    (step : ∀ n further other, holds further → Continues cut loose n further other →
      Continues cut loose (n + 1) (round further) (round other)) :
    Continues cut loose n (fix round) (fix round) := by
  intro tokens _ plain
  have within : Continues cut loose (tokens.length + 1) (fixWithin round (tokens ++ cut.ending))
      (fixWithin round (tokens ++ cut.more)) :=
    continues_fixWithin holds base rounds step (by rw [List.length_append]; omega)
      (by rw [List.length_append]; omega)
  exact within tokens (Nat.lt_succ_self _) plain

/-- A round that takes a token before it goes on to further ones may be repeated: the further rounds have
fewer tokens, and there is a bound for each of them. -/
theorem Continues.fix {round : Parser α → Parser α}
    (step : ∀ n further other, Continues cut loose n further other →
      Continues cut loose (n + 1) (round further) (round other)) :
    Continues cut loose n (fix round) (fix round) :=
  .fix_of (fun _ => True) (fun _ => trivial) (fun _ => trivial) fun n further other _ => step n further other

/-- The same, where each round must take a token. -/
theorem Continues.fix_ends {round : Parser α → Parser α} (ends : ∀ further, EndsAt cut false (round further))
    (step : ∀ n further other, EndsAt cut false further → Continues cut loose n further other →
      Continues cut loose (n + 1) (round further) (round other)) :
    Continues cut loose n (Parser.fix round) (Parser.fix round) := by
  refine .fix_of (EndsAt cut false) (fun nothing => ?_) ends step
  have start : cut.place = .start := by rw [Cut.place, nothing]; rfl
  have missing : EndsAt cut false (MonadExcept.throw (.unexpectedEnd cut.place (.keyword .end)) : Parser α) :=
    .fault _ _
  exact start ▸ missing

theorem EndsAt.fix {round : Parser α → Parser α} (ends : ∀ further, EndsAt cut loose (round further)) :
    EndsAt cut loose (fix round) := by
  obtain ⟨further, same⟩ := exists_fixWithin round cut.ending
  change Ended cut loose (fixWithin round cut.ending cut.ending)
  rw [same]
  exact ends further

/-! ## Single tokens -/

/-- What reports the end both where no token is left and before the marker reports it at the cut. -/
theorem error_ending {parser : Parser α} {wanted : Expectation}
    (empty : parser [] = .error (.unexpectedEnd .start wanted) [])
    (marker : ∀ token rest, token.value = .endOfFile →
      parser (token :: rest) = .error (.unexpectedEnd token.position wanted) (token :: rest)) :
    parser cut.ending = .error (.unexpectedEnd cut.place wanted) cut.ending := by
  obtain ⟨same, place⟩ | ⟨token, rest, same, isEnd, place⟩ := cut.ending_cases
  · rw [same, place]
    exact empty
  · rw [same, place]
    exact marker token rest isEnd

theorem next_ending (wanted : Expectation) :
    next wanted cut.ending = .error (.unexpectedEnd cut.place wanted) cut.ending :=
  error_ending rfl fun _ _ isEnd => if_pos isEnd

theorem endsAt_next (wanted : Expectation) : EndsAt cut loose (next wanted) := by
  rw [EndsAt, next_ending]
  exact .fault wanted _

theorem next_ordinary (wanted : Expectation) {token : PlacedToken} (ordinary : token.value ≠ .endOfFile)
    (rest : List PlacedToken) : next wanted (token :: rest) = .ok token rest := if_neg ordinary

theorem continues_next (wanted : Expectation) : Continues cut loose n (next wanted) (next wanted) := by
  intro tokens _ plain
  cases tokens with
  | nil => exact .ended (endsAt_next wanted)
  | cons token rest =>
    have ordinary : token.value ≠ .endOfFile := plain token (by simp)
    rw [List.cons_append, List.cons_append, next_ordinary wanted ordinary, next_ordinary wanted ordinary]
    exact .value (List.suffix_cons token rest)

theorem takes_next (wanted : Expectation) : Takes (next wanted) := by
  intro tokens value rest answered
  cases tokens with
  | nil => cases answered
  | cons token tokens =>
    by_cases isEnd : token.value = .endOfFile
    · rw [next, if_pos isEnd] at answered
      cases answered
    · rw [next_ordinary wanted isEnd] at answered
      cases answered
      exact Nat.lt_succ_self _

theorem continues_unexpected (token : PlacedToken) (wanted : Expectation) :
    Continues cut loose n (unexpected token wanted : Parser α) (unexpected token wanted) := .throw _

theorem continues_ofExcept (answer : Except SyntaxFault α) :
    Continues cut loose n (ofExcept answer) (ofExcept answer) := by
  cases answer with
  | ok value => exact .pure value
  | error fault => exact .throw fault

theorem continues_keyword (word : Keyword) : Continues cut loose n (keyword word) (keyword word) :=
  (continues_next _).bind fun _ => .ite (.pure _) (continues_unexpected _ _)

theorem endsAt_keyword (word : Keyword) : EndsAt cut loose (keyword word) := (endsAt_next _).bind

theorem continues_delimiter (mark : Delimiter) : Continues cut loose n (delimiter mark) (delimiter mark) :=
  (continues_next _).bind fun _ => .ite (.pure _) (continues_unexpected _ _)

theorem endsAt_delimiter (mark : Delimiter) : EndsAt cut loose (delimiter mark) := (endsAt_next _).bind

theorem continues_identifier : Continues cut loose n identifier identifier := by
  refine (continues_next _).bind fun token => ?_
  split
  · exact .pure _
  · exact continues_unexpected _ _

theorem endsAt_identifier : EndsAt cut loose identifier := (endsAt_next _).bind

theorem Takes.bind_left (takes : Takes first) (keeps : ∀ value tokens answer rest,
    second value tokens = .ok answer rest → rest = tokens) : Takes (first >>= second) := by
  intro tokens value rest answered
  change EStateM.bind first second tokens = _ at answered
  unfold EStateM.bind at answered
  split at answered
  next found middle same =>
    have kept := keeps _ _ _ _ answered
    exact kept ▸ takes _ _ _ same
  next => cases answered

theorem takes_identifier : Takes identifier := by
  refine (takes_next _).bind_left fun token tokens answer rest answered => ?_
  cases found : token.value <;> rw [found] at answered <;> cases answered
  rfl

/-! ## Looking ahead -/

theorem continues_peek? : Continues cut true n peek? peek? := by
  intro tokens _ _
  cases tokens with
  | nil => exact .ended (.value _ rfl)
  | cons token rest => exact .value (List.suffix_refl _)

theorem endsAt_peek? : EndsAt cut true peek? := .value _ rfl

theorem accept_ending {token : Token} (ordinary : token ≠ .endOfFile) :
    accept token cut.ending = .ok false cut.ending := by
  have missing := cut.head?_ending ordinary
  unfold accept
  cases same : cut.ending with
  | nil => rfl
  | cons first rest =>
    rw [same] at missing
    exact if_neg fun found => missing (congrArg some found)

/-- In front of a token, what is behind an optional token is read with or without it. -/
theorem accept_bind_cons (token : Token) (second : Bool → Parser β) (first : PlacedToken) (rest : List PlacedToken) :
    (accept token >>= second) (first :: rest) =
      if first.value = token then second true rest else second false (first :: rest) := by
  change EStateM.bind (accept token) second _ = _
  unfold EStateM.bind accept
  by_cases same : first.value = token <;> simp only [same, if_true, if_false]

/-- Where the file ends, what is optional is not there. -/
theorem EndsAt.accept {token : Token} (ordinary : token ≠ .endOfFile) {second : Bool → Parser β}
    (no : EndsAt cut loose (second false)) : EndsAt cut loose (accept token >>= second) := by
  change Ended cut loose (EStateM.bind (Parser.accept token) second cut.ending)
  unfold EStateM.bind
  rw [accept_ending ordinary]
  exact no

/-- Behind a token that is optional: if it is there, fewer tokens are left. -/
theorem Continues.accept {token : Token} (ordinary : token ≠ .endOfFile) {second second' : Bool → Parser β}
    (yes : Continues cut loose (n - 1) (second true) (second' true))
    (no : Continues cut loose n (second false) (second' false)) (ends : EndsAt cut loose (second false)) :
    Continues cut loose n (accept token >>= second) (accept token >>= second') := by
  intro tokens short plain
  cases tokens with
  | nil => exact .ended (EndsAt.accept ordinary ends)
  | cons first rest =>
    have suffix : rest <:+ first :: rest := List.suffix_cons first rest
    simp only [List.cons_append, accept_bind_cons]
    split
    · exact (yes rest (Nat.lt_sub_of_add_lt short) (plain_of_suffix suffix plain)).of_suffix suffix
    · exact no (first :: rest) short plain

/-! ## Lists of tokens -/

theorem Outcome.cons {token : PlacedToken} {tokens : List PlacedToken}
    {result other : EStateM.Result SyntaxFault (List PlacedToken) (List PlacedToken × β)}
    (outcome : Outcome cut loose tokens result other) :
    Outcome cut loose (token :: tokens) (Parser.cons token result) (Parser.cons token other) := by
  cases outcome with
  | value suffix => exact .value (suffix.trans (List.suffix_cons token tokens))
  | fault => exact .fault
  | ended ended =>
    cases ended with
    | fault wanted left => exact .ended (.fault wanted left)
    | value value allowed => exact .ended (.value _ allowed)

theorem untilWithin_ending (stops : Token → Bool) (depth : Nat) :
    untilWithin stops depth cut.ending =
      .error (.unexpectedEnd cut.place (.delimiter .semicolon)) cut.ending :=
  error_ending rfl fun _ _ isEnd => by rw [untilWithin, if_pos isEnd]

theorem endsAt_takeUntil (stops : Token → Bool) : EndsAt cut loose (takeUntil stops) := by
  rw [EndsAt, takeUntil, untilWithin_ending]
  exact .fault _ _

theorem continues_takeUntil (stops : Token → Bool) :
    Continues cut loose n (takeUntil stops) (takeUntil stops) := by
  have within (depth : Nat) (tokens : List PlacedToken)
      (plain : ∀ token ∈ tokens, token.value ≠ .endOfFile) :
      Outcome cut loose tokens (untilWithin stops depth (tokens ++ cut.ending))
        (untilWithin stops depth (tokens ++ cut.more)) := by
    induction tokens generalizing depth with
    | nil =>
      rw [List.nil_append, untilWithin_ending]
      exact .ended (.fault _ _)
    | cons token rest ih =>
      obtain ⟨ordinary, others⟩ := List.forall_mem_cons.mp plain
      simp only [List.cons_append, untilWithin, if_neg ordinary]
      split
      · exact .value (List.suffix_cons token rest)
      · exact (ih _ others).cons
  exact fun tokens _ plain => within 0 tokens plain

theorem takes_takeUntil (stops : Token → Bool) : Takes (takeUntil stops) := by
  have within (depth : Nat) (tokens rest : List PlacedToken) (value : List PlacedToken × PlacedToken)
      (answered : untilWithin stops depth tokens = .ok value rest) : rest.length < tokens.length := by
    induction tokens generalizing depth value with
    | nil => cases answered
    | cons token tokens ih =>
      rw [untilWithin] at answered
      split at answered
      · cases answered
      split at answered
      · cases answered
        exact Nat.lt_succ_self _
      · cases inner : untilWithin stops (parensAfter depth token.value) tokens with
        | ok found left =>
          rw [inner] at answered
          cases answered
          exact Nat.lt_succ_of_lt (ih _ _ inner)
        | error fault left =>
          rw [inner] at answered
          cases answered
  exact fun tokens value rest answered => within 0 tokens rest value answered

theorem continues_statement : Continues cut loose n statement statement :=
  (continues_takeUntil _).bind fun _ => .pure _

theorem endsAt_statement : EndsAt cut loose statement := (endsAt_takeUntil _).bind

theorem takes_statement : Takes statement :=
  (takes_takeUntil _).bind_left fun _ _ _ _ answered => by
    cases answered
    rfl

/-! ## Names -/

theorem continues_suffixes : Continues cut true n suffixes suffixes := by
  refine .fix fun n further other continues => ?_
  refine .accept (by decide) ?_ (.pure _) (.pure _)
  refine .accept (by decide) (.pure _) ?_ (endsAt_identifier.bind)
  exact continues_identifier.bind fun name => continues.bind_loose (fun _ => .pure _) fun _ _ => .pure _

theorem endsAt_suffixes : EndsAt cut true suffixes := .fix fun _ => .accept (by decide) (.pure _)

theorem continues_selectedNameAfter (first : Identifier) :
    Continues cut true n (selectedNameAfter first) (selectedNameAfter first) :=
  continues_suffixes.bind_loose (fun _ => .pure _) fun _ _ => .pure _

theorem endsAt_selectedNameAfter (first : Identifier) : EndsAt cut true (selectedNameAfter first) :=
  endsAt_suffixes.bind_loose fun _ => .pure _

theorem continues_selectedName : Continues cut true n selectedName selectedName :=
  continues_identifier.bind fun _ => (continues_selectedNameAfter _).bind_loose (fun _ => .pure _) fun _ _ => .pure _

/-- A list of items that are not missing ends with its semicolon. -/
theorem continues_commaList {item : Parser α} (items : ∀ n, Continues cut true n item item) :
    Continues cut loose n (commaList item) (commaList item) := by
  refine .loosen (.fix fun n further other continues => ?_)
  refine (items _).bind_loose (fun _ => ?_) fun _ _ => .accept (by decide) (endsAt_delimiter _).bind
  refine .accept (by decide) (continues.bind fun _ => .pure _) ?_ (endsAt_delimiter _).bind
  exact (continues_delimiter _).bind fun _ => .pure _

/-! ## Endings -/

theorem continues_acceptKeywords (words : List Keyword) :
    Continues cut true n (acceptKeywords words) (acceptKeywords words) := by
  induction words generalizing n with
  | nil => exact .pure _
  | cons word words ih => exact .accept (by simp) ih (.pure _) (.pure _)

theorem endsAt_acceptKeywords (words : List Keyword) : EndsAt cut true (acceptKeywords words) := by
  cases words with
  | nil => exact .pure _
  | cons word words => exact .accept (by simp) (.pure _)

theorem continues_ending (words : List Keyword) (name : Identifier) :
    Continues cut loose n (ending words name) (ending words name) := by
  refine (continues_acceptKeywords words).bind_loose (fun _ => ?_) fun _ _ => ?_
  · refine continues_peek?.bind_loose (fun _ => .ite ?_ (continues_delimiter _)) fun _ _ => ?_
    · exact continues_identifier.bind fun _ => .ite (continues_delimiter _) (.throw _)
    · exact .ite endsAt_identifier.bind (endsAt_delimiter _)
  · exact endsAt_peek?.bind_loose fun _ => .ite endsAt_identifier.bind (endsAt_delimiter _)

theorem endsAt_ending (words : List Keyword) (name : Identifier) : EndsAt cut loose (ending words name) :=
  (endsAt_acceptKeywords words).bind_loose fun _ =>
    endsAt_peek?.bind_loose fun _ => .ite endsAt_identifier.bind (endsAt_delimiter _)

end Parser

end VhdlOrder
