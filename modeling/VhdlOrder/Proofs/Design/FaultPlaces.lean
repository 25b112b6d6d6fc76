import VhdlOrder.Proofs.Design.Declarations
import VhdlOrder.Proofs.Design.Yields

/-! # Where faults are reported

A fault of the grammar stands at a token of the file; only that the file ends too early is reported at its end.
A parser looks at the end of the file but never takes it, so that the next one still finds it there:
`Parser.Reports` says both of a parser, and is kept by sequencing, and by `fix` because every round takes a
token. No parser therefore runs out of tokens or rounds, where it could not tell a place.
-/

namespace VhdlOrder

/-- The fault is that the file ends, at `place`, or another one at a token of the source. -/
inductive SyntaxFault.Placed (place : Position) (source : List PlacedToken) : SyntaxFault → Prop
  | atEnd (wanted : Expectation) : Placed place source (.unexpectedEnd place wanted)
  | atToken {token : PlacedToken} {fault : SyntaxFault} (member : token ∈ source)
      (same : token.position = fault.position) (other : fault.isUnexpectedEnd = false) : Placed place source fault

namespace Parser

variable {cut : Cut} {source : List PlacedToken} {n : Nat} {α β : Type}

/-- A result for `tokens` in front of the end of the file: a value, with the end of the file not taken, or a fault
at its place. -/
inductive Reported (cut : Cut) (source tokens : List PlacedToken) :
    EStateM.Result SyntaxFault (List PlacedToken) α → Prop
  | value {value : α} {rest : List PlacedToken} (suffix : rest <:+ tokens) :
      Reported cut source tokens (.ok value (rest ++ cut.ending))
  | fault {fault : SyntaxFault} {left : List PlacedToken} (placed : fault.Placed cut.place source) :
      Reported cut source tokens (.error fault left)

/-- From fewer than `n` tokens of the source in front of the end of the file the parser reports faults at their
places, and does not take the end. -/
def Reports (cut : Cut) (source : List PlacedToken) (n : Nat) (parser : Parser α) : Prop :=
  ∀ tokens : List PlacedToken, tokens.length < n → (∀ token ∈ tokens, token.value ≠ .endOfFile) →
    tokens ++ cut.ending ⊆ source → Reported cut source tokens (parser (tokens ++ cut.ending))

variable {first : Parser α} {second : α → Parser β}

/-! ## Sequences -/

theorem Reported.of_suffix {rest tokens : List PlacedToken} {result : EStateM.Result SyntaxFault (List PlacedToken) α}
    (suffix : rest <:+ tokens) (reported : Reported cut source rest result) : Reported cut source tokens result := by
  cases reported with
  | value inner => exact .value (inner.trans suffix)
  | fault placed => exact .fault placed

theorem Reported.ite {condition : Prop} [Decidable condition] {tokens : List PlacedToken}
    {yes no : EStateM.Result SyntaxFault (List PlacedToken) α} (left : Reported cut source tokens yes)
    (right : Reported cut source tokens no) : Reported cut source tokens (if condition then yes else no) := by
  split <;> assumption

theorem Reported.bind {tokens stream : List PlacedToken} (left : Reported cut source tokens (first stream))
    (right : ∀ value rest, rest <:+ tokens → first stream = .ok value (rest ++ cut.ending) →
      Reported cut source rest (second value (rest ++ cut.ending))) :
    Reported cut source tokens ((first >>= second) stream) := by
  change Reported cut source tokens (EStateM.bind first second stream)
  unfold EStateM.bind
  generalize answer : first stream = result at left
  cases left with
  | @value value rest suffix => exact (right value rest suffix answer).of_suffix suffix
  | fault placed => exact .fault placed

/-- A sequence, where the second part has fewer than `m` tokens. -/
theorem Reports.bind_of {m : Nat} (left : Reports cut source n first)
    (right : ∀ tokens value rest, tokens.length < n → tokens ++ cut.ending ⊆ source → rest <:+ tokens →
      first (tokens ++ cut.ending) = .ok value (rest ++ cut.ending) →
        rest.length < m ∧ Reports cut source m (second value)) :
    Reports cut source n (first >>= second) := by
  refine fun tokens short plain part => (left tokens short plain part).bind fun value rest suffix answered => ?_
  obtain ⟨fewer, reports⟩ := right tokens value rest short part suffix answered
  obtain ⟨inside, atEnd⟩ := List.append_subset.mp part
  exact reports rest fewer (plain_of_suffix suffix plain)
    (List.append_subset.mpr ⟨List.Subset.trans suffix.subset inside, atEnd⟩)

/-- What follows may rely on what the first part yields. -/
theorem Reports.bind_yields {good : α → Prop} (left : Reports cut source n first) (yields : Yields source first good)
    (right : ∀ value, good value → Reports cut source n (second value)) :
    Reports cut source n (first >>= second) :=
  left.bind_of fun _ value _ short part suffix answered =>
    ⟨Nat.lt_of_le_of_lt suffix.length_le short, right value (yields _ _ _ part answered).1⟩

theorem Reports.bind (left : Reports cut source n first) (right : ∀ value, Reports cut source n (second value)) :
    Reports cut source n (first >>= second) :=
  left.bind_of fun _ value _ short _ suffix _ => ⟨Nat.lt_of_le_of_lt suffix.length_le short, right value⟩

/-- Behind a parser that takes a token fewer tokens are left. -/
theorem Reports.bind_takes (left : Reports cut source (n + 1) first) (takes : Takes first)
    (right : ∀ value, Reports cut source n (second value)) : Reports cut source (n + 1) (first >>= second) :=
  left.bind_of fun _ value _ short _ _ answered => by
    have taken := takes _ _ _ answered
    simp only [List.length_append] at taken
    exact ⟨by omega, right value⟩

theorem Reports.mono {m : Nat} (le : m ≤ n) (reports : Reports cut source n first) : Reports cut source m first :=
  fun tokens short => reports tokens (Nat.lt_of_lt_of_le short le)

theorem Reports.pure (value : α) : Reports cut source n (pure value) :=
  fun tokens _ _ _ => .value (List.suffix_refl tokens)

theorem Reports.throw {fault : SyntaxFault} (placed : fault.Placed cut.place source) :
    Reports cut source n (throw fault : Parser α) := fun _ _ _ _ => .fault placed

theorem Reports.ite {condition : Prop} [Decidable condition] {yes no : Parser α} (left : Reports cut source n yes)
    (right : Reports cut source n no) : Reports cut source n (if condition then yes else no) := by
  split <;> assumption

/-- A round that takes a token before it goes on to further ones may be repeated: it does not run out of rounds. -/
theorem Reports.fix {round : Parser α → Parser α}
    (step : ∀ n further, Reports cut source n further → Reports cut source (n + 1) (round further)) :
    Reports cut source n (fix round) := by
  have nothing (further : Parser α) : Reports cut source 0 further := fun _ short => absurd short (Nat.not_lt_zero _)
  have within (n : Nat) (bound : List PlacedToken) (long : n ≤ bound.length + 1) :
      Reports cut source n (fixWithin round bound) := by
    induction bound generalizing n with
    | nil =>
      cases n with
      | zero => exact nothing _
      | succ n =>
        obtain rfl : n = 0 := Nat.le_zero.mp (Nat.le_of_succ_le_succ long)
        exact step 0 _ (nothing _)
    | cons _ bound ih =>
      cases n with
      | zero => exact nothing _
      | succ n => exact step n _ (ih n (Nat.le_of_succ_le_succ long))
  intro tokens _ plain part
  exact within (tokens.length + 1) _ (by simp) tokens (Nat.lt_succ_self _) plain part

/-! ## Single tokens -/

theorem reports_next (wanted : Expectation) : Reports cut source n (next wanted) := by
  intro tokens _ plain _
  cases tokens with
  | nil =>
    rw [List.nil_append, next_ending]
    exact .fault (.atEnd wanted)
  | cons token rest =>
    rw [List.cons_append, next_ordinary wanted (plain token List.mem_cons_self)]
    exact .value (List.suffix_cons token rest)

/-- Behind a token that must be there. -/
theorem Reports.next {wanted : Expectation} {second : PlacedToken → Parser β}
    (right : ∀ token ∈ source, Reports cut source (n - 1) (second token)) :
    Reports cut source n (next wanted >>= second) :=
  (reports_next wanted).bind_of fun _ token _ short part _ answered => by
    have taken := takes_next _ _ _ _ answered
    simp only [List.length_append] at taken
    exact ⟨by omega, right token (yields_next wanted _ _ _ part answered).1⟩

theorem reports_unexpected {token : PlacedToken} (member : token ∈ source) (wanted : Expectation) :
    Reports cut source n (unexpected token wanted : Parser α) := .throw (.atToken member rfl rfl)

theorem reports_ofExcept {answer : Except SyntaxFault α}
    (placed : ∀ fault, answer = .error fault → fault.Placed cut.place source) :
    Reports cut source n (ofExcept answer) := by
  cases answer with
  | ok value => exact .pure value
  | error fault => exact .throw (placed fault rfl)

theorem reports_keyword (word : Keyword) : Reports cut source n (keyword word) :=
  .next fun _ member => .ite (.pure _) (reports_unexpected member _)

theorem reports_delimiter (mark : Delimiter) : Reports cut source n (delimiter mark) :=
  .next fun _ member => .ite (.pure _) (reports_unexpected member _)

theorem reports_identifier : Reports cut source n identifier := by
  refine .next fun token member => ?_
  split
  · exact .pure _
  · exact reports_unexpected member _

theorem reports_peek? : Reports cut source n peek? := fun tokens _ _ _ => .value (List.suffix_refl tokens)

/-- Behind a token that is optional: if it is there, fewer tokens are left. -/
theorem Reports.accept {token : Token} (ordinary : token ≠ .endOfFile) {second : Bool → Parser β}
    (yes : Reports cut source (n - 1) (second true)) (no : Reports cut source n (second false)) :
    Reports cut source n (accept token >>= second) := by
  intro tokens short plain part
  cases tokens with
  | nil =>
    change Reported cut source [] (EStateM.bind (Parser.accept token) second cut.ending)
    unfold EStateM.bind
    rw [accept_ending ordinary]
    exact no [] short plain part
  | cons first rest =>
    have suffix : rest <:+ first :: rest := List.suffix_cons first rest
    rw [List.cons_append, accept_bind_cons]
    split
    · exact (yes rest (Nat.lt_sub_of_add_lt short) (plain_of_suffix suffix plain)
        (List.cons_subset.mp part).2).of_suffix suffix
    · exact no (first :: rest) short plain part

/-! ## Lists of tokens -/

theorem Reported.cons {token : PlacedToken} {tokens : List PlacedToken}
    {result : EStateM.Result SyntaxFault (List PlacedToken) (List PlacedToken × β)}
    (reported : Reported cut source tokens result) :
    Reported cut source (token :: tokens) (Parser.cons token result) := by
  cases reported with
  | value suffix => exact .value (suffix.trans (List.suffix_cons token tokens))
  | fault placed => exact .fault placed

theorem reports_takeUntil (stops : Token → Bool) : Reports cut source n (takeUntil stops) := by
  have within (depth : Nat) (tokens : List PlacedToken) (plain : ∀ token ∈ tokens, token.value ≠ .endOfFile) :
      Reported cut source tokens (untilWithin stops depth (tokens ++ cut.ending)) := by
    induction tokens generalizing depth with
    | nil =>
      rw [List.nil_append, untilWithin_ending]
      exact .fault (.atEnd _)
    | cons token rest ih =>
      obtain ⟨ordinary, others⟩ := List.forall_mem_cons.mp plain
      simp only [List.cons_append, untilWithin, if_neg ordinary]
      split
      · exact .value (List.suffix_cons token rest)
      · exact (ih _ others).cons
  exact fun tokens _ plain _ => within 0 tokens plain

theorem reports_statement : Reports cut source n statement := (reports_takeUntil _).bind fun _ => .pure _

/-! ## Names -/

theorem reports_selectedNameAfter (first : Identifier) : Reports cut source n (selectedNameAfter first) := by
  have suffixes : Reports cut source n suffixes := by
    refine .fix fun n further reports => .accept (by decide) (.accept (by decide) (.pure _) ?_) (.pure _)
    exact reports_identifier.bind fun _ => reports.bind fun _ => .pure _
  exact suffixes.bind fun _ => .pure _

theorem reports_selectedName : Reports cut source n selectedName :=
  reports_identifier.bind fun _ => (reports_selectedNameAfter _).bind fun _ => .pure _

theorem reports_commaList {item : Parser α} (items : ∀ n, Reports cut source n item) :
    Reports cut source n (commaList item) := by
  refine .fix fun n further reports => (items _).bind fun _ => .accept (by decide) ?_ ?_
  · exact reports.bind fun _ => .pure _
  · exact (reports_delimiter _).bind fun _ => .pure _

/-! ## Endings -/

theorem reports_acceptKeywords (words : List Keyword) : Reports cut source n (acceptKeywords words) := by
  induction words generalizing n with
  | nil => exact .pure _
  | cons word words ih => exact .accept (by simp) ih (.pure _)

/-- A name that is repeated at the end is a token of the source. -/
theorem placed_endingMismatch {last : Located Identifier} (written : Written source last) (name : Identifier)
    (place : Position) : (SyntaxFault.endingMismatch last.position name last.value).Placed place source := by
  obtain ⟨token, member, same⟩ := written.exists_position
  exact .atToken member same rfl

theorem reports_ending (words : List Keyword) (name : Identifier) : Reports cut source n (ending words name) := by
  refine (reports_acceptKeywords words).bind fun _ => reports_peek?.bind fun _ => .ite ?_ (reports_delimiter _)
  exact reports_identifier.bind_yields yields_identifier fun last written =>
    .ite (reports_delimiter _) (.throw (placed_endingMismatch written name _))

end Parser

open VhdlOrder.Parser

variable {cut : Cut} {source : List PlacedToken} {n : Nat}

/-! ## Interface lists -/

namespace Interface

variable {place : Position} {tokens : List PlacedToken} {fault : SyntaxFault}

theorem placed_designator {token : PlacedToken} (member : token ∈ source)
    (failed : designator token = .error fault) : fault.Placed place source := by
  unfold designator at failed
  split at failed <;> cases failed
  exact .atToken member rfl rfl

theorem placed_named {first : PlacedToken} {token : Option PlacedToken} {references : List Reference}
    (member : first ∈ source) (inside : ∀ other, token = some other → other ∈ source)
    (failed : named first token references = .error fault) : fault.Placed place source := by
  unfold named at failed
  split at failed
  · cases failed
    exact .atToken member rfl rfl
  · split at failed
    · cases failed
    · cases failed
      exact placed_designator (inside _ rfl) ‹_›

theorem placed_element (part : tokens ⊆ source) (failed : element tokens = .error fault) :
    fault.Placed place source := by
  unfold element at failed
  split at failed
  · cases failed
  · rename_i first rest
    obtain ⟨here, behind⟩ := List.cons_subset.mp part
    have inside (index : Nat) (other : PlacedToken) (same : rest[index]? = some other) : other ∈ source :=
      behind (List.mem_of_getElem? same)
    dsimp only at failed
    split at failed
    iterate 3 exact placed_named here (inside 0) failed
    iterate 2 exact placed_named here (inside 1) failed
    · exact placed_named here (inside 0) failed
    · split at failed
      · cases failed
        exact .atToken here rfl rfl
      · cases failed

theorem placed_elements {groups : List (List PlacedToken)} (parts : ∀ group ∈ groups, group ⊆ source)
    (failed : elements groups = .error fault) : fault.Placed place source := by
  induction groups with
  | nil => cases failed
  | cons group rest ih =>
    obtain ⟨here, behind⟩ := List.forall_mem_cons.mp parts
    unfold elements at failed
    split at failed
    · cases failed
      exact placed_element here ‹_›
    · split at failed
      · cases failed
        exact ih behind ‹_›
      · cases failed

theorem placed_header (part : tokens ⊆ source) (failed : header tokens = .error fault) :
    fault.Placed place source := by
  unfold header at failed
  dsimp only at failed
  split at failed
  · cases failed
    exact placed_elements (headerParts_subset part).1 ‹_›
  · cases failed

theorem reports_parse : Reports cut source n parse := by
  have within (depth : Nat) (current tokens : List PlacedToken) (held : current ⊆ source)
      (plain : ∀ token ∈ tokens, token.value ≠ .endOfFile) (part : tokens ++ cut.ending ⊆ source) :
      Reported cut source tokens (parseFrom depth current (tokens ++ cut.ending)) := by
    induction tokens generalizing depth current with
    | nil =>
      rw [List.nil_append, parseFrom_ending]
      exact .fault (.atEnd _)
    | cons token rest ih =>
      obtain ⟨ordinary, others⟩ := List.forall_mem_cons.mp plain
      obtain ⟨here, behind⟩ := List.cons_subset.mp part
      have suffix : rest <:+ token :: rest := List.suffix_cons token rest
      have misplaced {fault : SyntaxFault} (failed : element current.reverse = .error fault) :
          fault.Placed cut.place source := placed_element (List.reverse_subset.mpr held) failed
      simp only [List.cons_append, parseFrom, if_neg ordinary]
      split
      · cases answer : element current.reverse with
        | ok declarations => exact .value suffix
        | error fault => exact .fault (misplaced answer)
      split
      · cases answer : element current.reverse with
        | error fault => exact .fault (misplaced answer)
        | ok declarations =>
          have further := ih 0 [] (List.nil_subset _) others behind
          generalize parseFrom 0 [] (rest ++ cut.ending) = result at further
          cases further with
          | value inner => exact .value (inner.trans suffix)
          | fault placed => exact .fault placed
      · exact (ih _ _ (List.cons_subset.mpr ⟨here, held⟩) others behind).of_suffix suffix
  exact (reports_delimiter _).bind fun _ tokens _ plain part => within 0 [] tokens (List.nil_subset _) plain part

end Interface

/-! ## Regions -/

theorem Region.reports_skip (closing : Option Keyword) : Reports cut source n (skip closing) := by
  have within (nesting : Nesting) (tokens : List PlacedToken) (plain : ∀ token ∈ tokens, token.value ≠ .endOfFile) :
      Reported cut source tokens (skipFrom closing nesting (tokens ++ cut.ending)) := by
    induction tokens generalizing nesting with
    | nil =>
      rw [List.nil_append, skipFrom_ending]
      exact .fault (.atEnd _)
    | cons token rest ih =>
      obtain ⟨ordinary, others⟩ := List.forall_mem_cons.mp plain
      have suffix : rest <:+ token :: rest := List.suffix_cons token rest
      cases rest with
      | nil =>
        -- the end of the file is no word behind an `end`
        have ended : Ended cut true _ := ended_skipFrom closing nesting ordinary
        change Reported cut source [token] (skipFrom closing nesting (token :: cut.ending))
        generalize skipFrom closing nesting (token :: cut.ending) = result at ended
        cases ended with
        | fault wanted left => exact .fault (.atEnd wanted)
        | value value allowed =>
          have nothing : ([] : List PlacedToken) <:+ [token] := List.nil_suffix
          exact .value nothing
      | cons second rest =>
        have recurse (nesting : Nesting) :
            Reported cut source (token :: second :: rest)
              (Parser.cons token (skipFrom closing nesting (second :: rest ++ cut.ending))) := (ih nesting others).cons
        simp only [List.cons_append] at recurse ⊢
        rw [skipFrom.eq_2 closing nesting token, if_neg ordinary]
        simp only [List.head?_cons, List.tail_cons]
        exact .ite (.ite (.value ((List.suffix_cons second rest).trans suffix))
          (.ite (recurse _) (.ite (.value suffix) (recurse _)))) (recurse _)
  have whole : Reports cut source n (skipFrom closing .start : Parser (List PlacedToken × Unit)) :=
    fun tokens _ plain _ => within .start tokens plain
  exact whole.bind fun _ => .pure _

end VhdlOrder
