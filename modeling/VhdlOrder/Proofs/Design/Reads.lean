import VhdlOrder.Design.Interface
import VhdlOrder.Design.Region

/-! # What parsers read

Parsers take tokens from the front, so a property of token lists that stays when tokens are taken from the front, such
as being the end of a source, holds of all tokens that a parser meets. What holds of every value that a parser can
answer from tokens with such a property is stated by `Parser.Reads`, which is kept by sequencing and by repetition.
-/

namespace VhdlOrder

/-- A property of token lists that stays when tokens are taken from the front. -/
structure Remainder where
  holds : List PlacedToken → Prop
  tail : ∀ {token rest}, holds (token :: rest) → holds rest

namespace Remainder

/-- All tokens are tokens of the source. -/
def within (source : List PlacedToken) : Remainder := ⟨(· ⊆ source), fun part => (List.cons_subset.mp part).2⟩

/-- The tokens are the end of the source. -/
def endOf (source : List PlacedToken) : Remainder := ⟨(· <:+ source), (List.suffix_cons _ _).trans⟩

theorem of_append {front : Remainder} {first second : List PlacedToken} (whole : front.holds (first ++ second)) :
    front.holds second := by
  induction first with
  | nil => exact whole
  | cons _ _ ih => exact ih (front.tail whole)

/-- Tokens that stand together in the source. -/
theorem sublist_of_endOf {source taken rest : List PlacedToken} (isEnd : (endOf source).holds (taken ++ rest)) :
    taken.Sublist source :=
  (List.sublist_append_left _ _).trans isEnd.sublist

end Remainder

namespace Parser

/-- Whatever the parser answers from tokens with the property satisfies `good`, and the tokens that are left have the
property again. -/
def Reads {α : Type} (front : Remainder) (parser : Parser α) (good : α → Prop) : Prop :=
  ∀ tokens value rest, front.holds tokens → parser tokens = .ok value rest → good value ∧ front.holds rest

variable {α β : Type} {front : Remainder} {parser : Parser α} {good : α → Prop}

/-! ## Sequences -/

theorem bind_eq_ok_iff {first : Parser α} {second : α → Parser β} {tokens rest : List PlacedToken} {value : β} :
    (first >>= second) tokens = .ok value rest ↔
      ∃ middle left, first tokens = .ok middle left ∧ second middle left = .ok value rest := by
  change EStateM.bind first second tokens = _ ↔ _
  unfold EStateM.bind
  cases first tokens with
  | ok middle left =>
    refine ⟨fun answered => ⟨middle, left, rfl, answered⟩, ?_⟩
    rintro ⟨_, _, same, answered⟩
    cases same
    exact answered
  | error fault left => simp

theorem Reads.imp {weaker : α → Prop} (reads : Reads front parser good) (implies : ∀ value, good value → weaker value) :
    Reads front parser weaker := by
  intro tokens value rest part answered
  obtain ⟨holds, left⟩ := reads tokens value rest part answered
  exact ⟨implies value holds, left⟩

theorem Reads.bind {second : α → Parser β} {better : β → Prop} (first : Reads front parser good)
    (behind : ∀ value, good value → Reads front (second value) better) : Reads front (parser >>= second) better := by
  intro tokens value rest part answered
  obtain ⟨middle, left, answer, answered⟩ := bind_eq_ok_iff.mp answered
  obtain ⟨holds, partLeft⟩ := first tokens middle left part answer
  exact behind middle holds left value rest partLeft answered

theorem Reads.pure {value : α} (holds : good value) : Reads front (pure value) good := by
  intro tokens other rest part answered
  cases answered
  exact ⟨holds, part⟩

theorem Reads.throw (fault : SyntaxFault) : Reads front (throw fault : Parser α) good := by
  intro tokens value rest part answered
  cases answered

theorem Reads.ite {condition : Prop} [Decidable condition] {yes no : Parser α} (left : Reads front yes good)
    (right : Reads front no good) : Reads front (if condition then yes else no) good := by
  split <;> assumption

/-- What every round reads if the further rounds in it do, the repetition reads. -/
theorem Reads.fix {round : Parser α → Parser α}
    (step : ∀ further, Reads front further good → Reads front (round further) good) : Reads front (fix round) good := by
  have within (bound : List PlacedToken) : Reads front (fixWithin round bound) good := by
    induction bound with
    | nil => exact step _ (.throw _)
    | cons _ bound ih => exact step _ ih
  exact fun tokens => within tokens tokens

/-! ## Single tokens -/

theorem reads_next (wanted : Expectation) :
    Reads front (next wanted) fun token => ∃ rest, front.holds (token :: rest) := by
  intro tokens value rest part answered
  cases tokens with
  | nil => cases answered
  | cons token others =>
    unfold next at answered
    dsimp only at answered
    split at answered
    · cases answered
    · cases answered
      exact ⟨⟨_, part⟩, front.tail part⟩

theorem reads_peek? : Reads front peek? fun _ => True := by
  intro tokens value rest part answered
  cases answered
  exact ⟨trivial, part⟩

theorem reads_accept (token : Token) : Reads front (accept token) fun _ => True := by
  intro tokens value rest part answered
  cases tokens with
  | nil =>
    cases answered
    exact ⟨trivial, part⟩
  | cons first others =>
    unfold accept at answered
    dsimp only at answered
    split at answered
    · cases answered
      exact ⟨trivial, front.tail part⟩
    · cases answered
      exact ⟨trivial, part⟩

theorem rest_of_accept_false {token : Token} {tokens rest : List PlacedToken}
    (answered : accept token tokens = .ok false rest) : rest = tokens := by
  unfold accept at answered
  split at answered
  · cases answered
    rfl
  · split at answered
    · cases answered
    · cases answered
      rfl

theorem eq_cons_of_next {wanted : Expectation} {tokens rest : List PlacedToken} {token : PlacedToken}
    (answered : next wanted tokens = .ok token rest) : tokens = token :: rest := by
  unfold next at answered
  split at answered
  · cases answered
  · split at answered
    · cases answered
    · cases answered
      rfl

/-- Either the token is there and the parser goes on behind it, or it goes on from the same tokens. -/
theorem cases_of_accept_bind {token : Token} {second : Bool → Parser β} {tokens rest : List PlacedToken} {value : β}
    (answered : (accept token >>= second) tokens = .ok value rest) :
    (∃ first left, tokens = first :: left ∧ first.value = token ∧ second true left = .ok value rest) ∨
      second false tokens = .ok value rest := by
  obtain ⟨accepted, left, isAccept, behind⟩ := bind_eq_ok_iff.mp answered
  cases accepted with
  | false => exact .inr (rest_of_accept_false isAccept ▸ behind)
  | true =>
    unfold accept at isAccept
    split at isAccept
    · cases isAccept
    · split at isAccept
      · rename_i same
        cases isAccept
        exact .inl ⟨_, _, rfl, same, behind⟩
      · cases isAccept

theorem exists_of_keyword_bind {word : Keyword} {second : Unit → Parser β} {tokens rest : List PlacedToken} {value : β}
    (answered : (keyword word >>= second) tokens = .ok value rest) :
    ∃ first left, tokens = first :: left ∧ first.value = .keyword word ∧ second () left = .ok value rest := by
  obtain ⟨⟨⟩, left, isKeyword, behind⟩ := bind_eq_ok_iff.mp answered
  obtain ⟨token, others, isNext, fits⟩ := bind_eq_ok_iff.mp isKeyword
  rw [eq_cons_of_next isNext]
  split at fits
  · rename_i same
    cases fits
    exact ⟨token, left, rfl, same, behind⟩
  · cases fits

theorem exists_of_identifier_bind {second : Located Identifier → Parser β} {tokens rest : List PlacedToken} {value : β}
    (answered : (identifier >>= second) tokens = .ok value rest) :
    ∃ name left, tokens = ⟨name.position, .identifier name.value⟩ :: left ∧ second name left = .ok value rest := by
  obtain ⟨name, left, isIdentifier, behind⟩ := bind_eq_ok_iff.mp answered
  obtain ⟨⟨position, token⟩, others, isNext, fits⟩ := bind_eq_ok_iff.mp isIdentifier
  rw [eq_cons_of_next isNext]
  cases token <;> cases fits
  exact ⟨_, _, rfl, behind⟩

theorem reads_unexpected (token : PlacedToken) (wanted : Expectation) :
    Reads front (unexpected token wanted : Parser α) good := .throw _

theorem reads_keyword (word : Keyword) : Reads front (keyword word) fun _ => True :=
  (reads_next _).bind fun _ _ => .ite (.pure trivial) (reads_unexpected _ _)

theorem reads_delimiter (mark : Delimiter) : Reads front (delimiter mark) fun _ => True :=
  (reads_next _).bind fun _ _ => .ite (.pure trivial) (reads_unexpected _ _)

theorem reads_identifier : Reads front identifier fun name =>
    ∃ token rest, front.holds (token :: rest) ∧ token.value = .identifier name.value ∧
      token.position = name.position := by
  refine (reads_next _).bind fun token ⟨rest, part⟩ => ?_
  split
  · rename_i name same
    exact .pure ⟨token, rest, part, same, rfl⟩
  · exact reads_unexpected _ _

theorem reads_ofExcept (result : Except SyntaxFault α) : Reads front (ofExcept result) (result = .ok ·) := by
  cases result with
  | ok value => exact .pure rfl
  | error fault => exact .throw fault

/-- What follows depends on whether a token is there. -/
theorem Reads.accept {token : Token} {second : Bool → Parser α} (yes : Reads front (second true) good)
    (no : Reads front (second false) good) : Reads front (Parser.accept token >>= second) good :=
  (reads_accept token).bind fun accepted _ => by cases accepted <;> assumption

/-! ## Several tokens -/

/-- A token in front of tokens that are taken. -/
theorem taken_cons {token : PlacedToken} {result : EStateM.Result SyntaxFault (List PlacedToken) (List PlacedToken × β)}
    {taken rest : List PlacedToken} {value : β} (answered : cons token result = .ok (taken, value) rest) :
    ∃ others, taken = token :: others ∧ result = .ok (others, value) rest := by
  cases result with
  | error fault left => cases answered
  | ok pair left =>
    cases answered
    exact ⟨_, rfl, rfl⟩

/-- The tokens in front of the one that stops, that one, and those behind it are all tokens there were. -/
theorem eq_append_of_untilWithin {stops : Token → Bool} {depth : Nat} {tokens rest taken : List PlacedToken}
    {stop : PlacedToken} (answered : untilWithin stops depth tokens = .ok (taken, stop) rest) :
    tokens = taken ++ stop :: rest := by
  induction tokens generalizing depth taken with
  | nil => cases answered
  | cons token others ih =>
    unfold untilWithin at answered
    split at answered
    · cases answered
    · split at answered
      · cases answered
        rfl
      · obtain ⟨more, rfl, further⟩ := taken_cons answered
        rw [ih further, List.cons_append]

theorem reads_takeUntil (stops : Token → Bool) :
    Reads front (takeUntil stops) fun found => ∃ rest, front.holds (found.1 ++ found.2 :: rest) := by
  rintro tokens ⟨taken, stop⟩ rest part answered
  obtain rfl := eq_append_of_untilWithin answered
  exact ⟨⟨rest, part⟩, front.tail (Remainder.of_append part)⟩

theorem reads_statement : Reads front statement fun taken => ∃ rest, front.holds (taken ++ rest) :=
  (reads_takeUntil _).bind fun _ ⟨_, part⟩ => .pure ⟨_, part⟩

theorem reads_selectedNameAfter (first : Identifier) :
    Reads front (selectedNameAfter first) fun found => found.1.first = first := by
  have suffixes : Reads front suffixes fun _ => True := by
    refine .fix fun further reads => .accept (.accept (.pure trivial) ?_) (.pure trivial)
    exact reads_identifier.bind fun _ _ => reads.bind fun _ _ => .pure trivial
  exact suffixes.bind fun _ _ => .pure rfl

theorem reads_selectedName : Reads front selectedName fun _ => True :=
  reads_identifier.bind fun _ _ => (reads_selectedNameAfter _).bind fun _ _ => .pure trivial

theorem reads_commaList (item : Reads front parser good) :
    Reads front (commaList parser) fun values => ∀ value ∈ values, good value := by
  refine .fix fun further reads => item.bind fun first holds => .accept ?_ ?_
  · exact reads.bind fun _ others => .pure (List.forall_mem_cons.mpr ⟨holds, others⟩)
  · exact (reads_delimiter _).bind fun _ _ => .pure (List.forall_mem_singleton.mpr holds)

theorem reads_acceptKeywords (words : List Keyword) : Reads front (acceptKeywords words) fun _ => True := by
  induction words with
  | nil => exact .pure trivial
  | cons word words ih => exact .accept ih (.pure trivial)

theorem reads_ending (words : List Keyword) (name : Identifier) : Reads front (ending words name) fun _ => True := by
  refine (reads_acceptKeywords words).bind fun _ _ => reads_peek?.bind fun _ _ => .ite ?_ (reads_delimiter _)
  exact reads_identifier.bind fun _ _ => .ite (reads_delimiter _) (.throw _)

end Parser

open VhdlOrder.Parser

variable {front : Remainder}

/-! ## Regions -/

namespace Region

theorem eq_keyword_of_keyword? {token : Token} {word : Keyword} (found : token.keyword? = some word) :
    token = .keyword word := by
  unfold Token.keyword? at found
  split at found
  · cases found
    rfl
  · cases found

/-- A region is taken through its `end`, and through the word behind it if that word closes the region. -/
theorem exists_closing_of_skipFrom {closing : Option Keyword} {nesting : Nesting}
    {tokens inside rest : List PlacedToken} (answered : skipFrom closing nesting tokens = .ok (inside, ()) rest) :
    ∃ last, tokens = inside ++ last ++ rest ∧
      last.map Located.value = .keyword .end :: (closing.map Token.keyword).toList := by
  induction tokens generalizing nesting inside with
  | nil => cases answered
  | cons token others ih =>
    have further {nesting : Nesting}
        (answered : Parser.cons token (skipFrom closing nesting others) = .ok (inside, ()) rest) :
        ∃ last, token :: others = inside ++ last ++ rest ∧
          last.map Located.value = .keyword .end :: (closing.map Token.keyword).toList := by
      obtain ⟨more, rfl, answer⟩ := taken_cons answered
      obtain ⟨last, rfl, words⟩ := ih answer
      exact ⟨last, rfl, words⟩
    unfold skipFrom at answered
    dsimp only at answered
    split at answered
    · cases answered
    split at answered
    · rename_i isEnd
      split at answered
      · rename_i closes
        rw [Bool.and_eq_true, Bool.and_eq_true, beq_iff_eq] at closes
        obtain ⟨⟨-, isSome⟩, same⟩ := closes
        obtain ⟨word, rfl⟩ := Option.isSome_iff_exists.mp isSome
        obtain ⟨value, isNext, isWord⟩ := Option.bind_eq_some_iff.mp same
        obtain ⟨next, others, rfl, rfl⟩ : ∃ next behind, others = next :: behind ∧ next.value = value := by
          cases others with
          | nil => cases isNext
          | cons next behind => exact ⟨next, behind, rfl, Option.some.inj isNext⟩
        cases answered
        exact ⟨[token, next], rfl, by simp [isEnd, eq_keyword_of_keyword? isWord]⟩
      split at answered
      · exact further answered
      split at answered
      · rename_i closes
        rw [Bool.and_eq_true, Option.isNone_iff_eq_none] at closes
        obtain ⟨-, rfl⟩ := closes
        cases answered
        exact ⟨[token], rfl, by simp [isEnd]⟩
      · exact further answered
    · exact further answered

theorem skip_eq_ok_iff {closing : Option Keyword} {tokens inside rest : List PlacedToken} :
    skip closing tokens = .ok inside rest ↔ skipFrom closing .start tokens = .ok (inside, ()) rest := by
  change EStateM.bind _ _ tokens = _ ↔ _
  unfold EStateM.bind
  cases skipFrom closing .start tokens with
  | error fault left => simp
  | ok found left => simp [pure, EStateM.pure, Prod.ext_iff]

theorem reads_skip (closing : Option Keyword) :
    Reads front (skip closing) fun inside => ∃ rest, front.holds (inside ++ rest) := by
  intro tokens inside rest part answered
  obtain ⟨last, rfl, -⟩ := exists_closing_of_skipFrom (skip_eq_ok_iff.mp answered)
  rw [List.append_assoc] at part
  exact ⟨⟨last ++ rest, part⟩, Remainder.of_append (Remainder.of_append part)⟩

end Region

/-! ## Interface lists -/

namespace Interface

variable {tokens : List PlacedToken} {items : List Declaration} {references : List Reference}

theorem named_eq_ok_iff {first : PlacedToken} {token : Option PlacedToken} :
    named first token references = .ok items ↔
      ∃ other name, token = some other ∧ designator other = .ok name ∧
        items = [.withReferences name .interface references] := by
  cases token with
  | none => simp [named]
  | some other => cases found : designator other <;> simp [named, found, eq_comm]

/-- An element declares names with references. -/
theorem exists_withReferences_of_element (answered : element tokens = .ok items) :
    ∀ item ∈ items, ∃ name references, item = .withReferences name .interface references := by
  have of_named {first : PlacedToken} {token : Option PlacedToken} {references : List Reference}
      (answered : named first token references = .ok items) :
      ∀ item ∈ items, ∃ name references, item = .withReferences name .interface references := by
    obtain ⟨_, name, -, -, rfl⟩ := named_eq_ok_iff.mp answered
    exact List.forall_mem_singleton.mpr ⟨name, references, rfl⟩
  unfold element at answered
  split at answered
  · cases answered
    exact List.forall_mem_nil _
  dsimp only at answered
  split at answered
  iterate 6 exact of_named answered
  split at answered
  · cases answered
  · cases answered
    exact List.forall_mem_map.mpr fun name _ => ⟨name, _, rfl⟩

/-- What holds of all that each of several elements declares. -/
theorem forall_of_elements {good : Declaration → Prop} {groups : List (List PlacedToken)}
    (each : ∀ group ∈ groups, ∀ items, element group = .ok items → ∀ item ∈ items, good item)
    (answered : elements groups = .ok items) : ∀ item ∈ items, good item := by
  induction groups generalizing items with
  | nil =>
    cases answered
    exact List.forall_mem_nil _
  | cons group rest ih =>
    obtain ⟨here, behind⟩ := List.forall_mem_cons.mp each
    unfold elements at answered
    split at answered
    · cases answered
    · rename_i first isFirst
      split at answered
      · cases answered
      · rename_i more isMore
        cases answered
        exact List.forall_mem_append.mpr ⟨here first isFirst, ih behind isMore⟩

theorem header_eq_ok_iff :
    header tokens = .ok (items, references) ↔
      elements (headerParts tokens).1 = .ok items ∧
        references = References.collect (headerParts tokens).2 ++ Declaration.allReferences items := by
  cases found : elements (headerParts tokens).1 with
  | error fault => simp [header, found]
  | ok parameters =>
    simp only [header, found, Except.ok.injEq, Prod.mk.injEq]
    constructor
    · rintro ⟨rfl, rfl⟩
      exact ⟨rfl, rfl⟩
    · rintro ⟨rfl, rfl⟩
      exact ⟨rfl, rfl⟩

/-- Whatever is declared by an element that stands in the tokens satisfies `good`. -/
def EachElement (front : Remainder) (good : Declaration → Prop) : Prop :=
  ∀ tokens rest items, front.holds (tokens ++ rest) → element tokens = .ok items → ∀ item ∈ items, good item

theorem reads_parse {good : Declaration → Prop} (each : EachElement front good) :
    Reads front parse fun items => ∀ item ∈ items, good item := by
  -- the tokens of the element at hand are turned round
  have within (depth : Nat) (current tokens : List PlacedToken) (items : List Declaration) (rest : List PlacedToken)
      (part : front.holds (current.reverse ++ tokens)) (answered : parseFrom depth current tokens = .ok items rest) :
      (∀ item ∈ items, good item) ∧ front.holds rest := by
    induction tokens generalizing depth current items rest with
    | nil => cases answered
    | cons token others ih =>
      have behind : front.holds others := front.tail (Remainder.of_append part)
      unfold parseFrom at answered
      split at answered
      · cases answered
      split at answered
      · split at answered
        · rename_i isElement
          cases answered
          exact ⟨each _ _ _ part isElement, behind⟩
        · cases answered
      split at answered
      · split at answered
        · cases answered
        · rename_i isElement
          split at answered
          · rename_i more left further
            cases answered
            obtain ⟨others, partLeft⟩ := ih 0 [] more rest behind further
            exact ⟨List.forall_mem_append.mpr ⟨each _ _ _ part isElement, others⟩, partLeft⟩
          · cases answered
      · exact ih _ _ items rest (by simpa using part) answered
  have whole : Reads front (parseFrom 0 [] : Parser (List Declaration)) fun items => ∀ item ∈ items, good item :=
    fun tokens items rest => within 0 [] tokens items rest
  exact (reads_delimiter _).bind fun _ _ => whole

end Interface

end VhdlOrder
