import VhdlOrder.Proofs.Lexical.Placement

/-! # Tokens stand one behind the other

Each token of a text stands further on than the one before, whether the text has a fault or not. Only the
end-of-file marker, which stands at the fault where a fault ends the tokens, may be out of line.
-/

namespace VhdlOrder

/-- `second` stands further on than `first`, or it is the end-of-file marker. -/
def PlacedToken.Before (first second : PlacedToken) : Prop :=
  second.value = .endOfFile ∨ first.position.compare second.position = .lt

namespace Lexer

/-- A token that follows the characters `before`, with others between them perhaps. -/
def Behind (before : List Char) (token : PlacedToken) : Prop :=
  token.value = .endOfFile ∨ ∃ passed, token.position = .behind (before ++ passed)

theorem Behind.of_append {before passed : List Char} {token : PlacedToken} (behind : Behind (before ++ passed) token) :
    Behind before token := by
  obtain isEnd | ⟨more, place⟩ := behind
  · exact .inl isEnd
  · exact .inr ⟨passed ++ more, by rw [place, List.append_assoc]⟩

/-- A token in front of characters that another one is behind stands before it. -/
theorem Behind.before {before text : List Char} {token : PlacedToken} (behind : Behind (before ++ text) token)
    (nonempty : text ≠ []) {value : Token} : PlacedToken.Before ⟨.behind before, value⟩ token := by
  obtain isEnd | ⟨passed, place⟩ := behind
  · exact .inl isEnd
  · rw [List.append_assoc] at place
    exact .inr (place ▸ Position.compare_behind_append before (by simp [nonempty]))

/-- The tokens follow the characters `before` and stand one behind the other. -/
structure Ascends (before : List Char) (tokens : List PlacedToken) : Prop where
  behind : ∀ token ∈ tokens, Behind before token
  pairwise : tokens.Pairwise PlacedToken.Before

theorem ascends_endOfFile (before : List Char) (place : Position) : Ascends before [⟨place, .endOfFile⟩] :=
  ⟨List.forall_mem_singleton.mpr (.inl rfl), List.pairwise_singleton _ _⟩

theorem Ascends.of_append {before passed : List Char} {tokens : List PlacedToken}
    (ascends : Ascends (before ++ passed) tokens) : Ascends before tokens :=
  ⟨fun token member => (ascends.behind token member).of_append, ascends.pairwise⟩

/-- A token in front of tokens that follow its characters. -/
theorem Ascends.cons {before text : List Char} {tokens : List PlacedToken} (ascends : Ascends (before ++ text) tokens)
    (nonempty : text ≠ []) (value : Token) : Ascends before (⟨.behind before, value⟩ :: tokens) where
  behind := List.forall_mem_cons.mpr ⟨.inr ⟨[], by rw [List.append_nil]⟩, ascends.of_append.behind⟩
  pairwise := List.pairwise_cons.mpr ⟨fun token member => (ascends.behind token member).before nonempty,
    ascends.pairwise⟩

theorem ascends_untilFault {ticks : Bool} {cursor : Cursor} (before : List Char)
    (reached : cursor.position = Position.start.advance before) :
    Ascends before (untilFault (itemsFrom ticks cursor)).1 := by
  fun_induction itemsFrom ticks cursor generalizing before with
  | case1 => exact ascends_endOfFile before _
  | case2 ticks cursor c rest opened longer inside separator =>
    rename_i ih
    have stepped : inside.position = Position.start.advance (before ++ [c]) := by
      rw [Position.advance_append, ← reached]
      rfl
    exact (ih _ stepped).of_append
  | case3 ticks cursor c rest opened longer inside begins value later scanned bound =>
    rename_i ih
    obtain ⟨text, reach⟩ := Scanner.forward_token ticks c inside
    rw [scanned] at reach
    have stepped : later.position = Position.start.advance (before ++ c :: text) := by
      rw [Position.advance_append, ← reached]
      exact reach.2
    have place : inside.position = .behind before := by
      have noFeed : c ≠ '\n' := by
        rintro rfl
        exact begins (by decide)
      rw [← Position.nextColumn_advance_start, ← reached]
      exact Position.step_of_ne _ noFeed
    have ascends := (ih _ stepped).cons (List.cons_ne_nil c text) value
    rw [← place] at ascends
    exact ascends
  | case4 => exact ascends_endOfFile before _

/-- The tokens of a text up to its first fault stand one behind the other. -/
theorem ascending_readUntilFault (text : String) : (readUntilFault text).1.Pairwise PlacedToken.Before :=
  (ascends_untilFault [] rfl).pairwise

/-! ## The end-of-file marker -/

/-- No token that is read from a text is the end-of-file marker. -/
theorem ne_endOfFile_of_token {ticks : Bool} {first : Char} {cursor later : Cursor} {value : Token}
    (scanned : Scanner.token ticks first cursor = .ok value later) : value ≠ .endOfFile := by
  have online : ∃ middle, Scanner.tokenOnLine ticks first cursor = .ok value middle := by
    obtain same | ⟨_, middle, _, online, whole, -⟩ := token_or_tokenOnLine ticks first cursor
    · exact ⟨later, same.symm.trans scanned⟩
    · cases whole.symm.trans scanned
      exact ⟨middle, online⟩
  obtain ⟨middle, online⟩ := online
  obtain ⟨text, spelled, -, -⟩ := Scanner.reads_tokenOnLine ticks first _ _ _ online
  rintro rfl
  exact not_spelled_endOfFile _ _ spelled

theorem exists_marker_untilFault (ticks : Bool) (cursor : Cursor) :
    ∃ front marker, (untilFault (itemsFrom ticks cursor)).1 = front ++ [marker] ∧ marker.value = .endOfFile ∧
      ∀ token ∈ front, token.value ≠ .endOfFile := by
  fun_induction itemsFrom ticks cursor with
  | case1 => exact ⟨[], _, rfl, rfl, List.forall_mem_nil _⟩
  | case2 =>
    rename_i ih
    exact ih
  | case3 ticks cursor c rest opened longer inside begins value later scanned bound =>
    rename_i ih
    obtain ⟨front, marker, same, isEnd, plain⟩ := ih
    refine ⟨⟨inside.position, value⟩ :: front, marker, ?_, isEnd,
      List.forall_mem_cons.mpr ⟨ne_endOfFile_of_token scanned, plain⟩⟩
    simp only [untilFault, same, List.cons_append]
  | case4 => exact ⟨[], _, rfl, rfl, List.forall_mem_nil _⟩

/-- The tokens of a text up to its first fault end with the end-of-file marker, which stands nowhere else. -/
theorem exists_marker_readUntilFault (text : String) :
    ∃ front marker, (readUntilFault text).1 = front ++ [marker] ∧ marker.value = .endOfFile ∧
      ∀ token ∈ front, token.value ≠ .endOfFile :=
  exists_marker_untilFault false (.ofText text)

end Lexer

end VhdlOrder
