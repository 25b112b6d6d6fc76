import Mathlib.Data.List.Induction
import VhdlOrder.Proofs.Lexical.Lexing

/-! # Where tokens stand

A text that is read without a fault is made of separators and of the spellings of its tokens, in this
order, and nothing else (`Lexer.Placed`). The position of a token is the line and the column of its first
character, both counted from one; so positions increase strictly, and the end-of-file marker, which has no
characters, stands at the end only.
-/

namespace VhdlOrder

/-- The line and the column, both counted from one, of the character that follows `before`. -/
def Position.behind (before : List Char) : Position :=
  ⟨1 + before.count '\n', 1 + (before.reverse.takeWhile (· != '\n')).length⟩

namespace Position

theorem step_of_ne (position : Position) {c : Char} (noFeed : c ≠ '\n') :
    position.step c = position.nextColumn := if_neg noFeed

/-- A position counts what was read: the line feeds, and the characters after the last one. -/
theorem nextColumn_advance_start (before : List Char) :
    (start.advance before).nextColumn = behind before := by
  have counted : start.advance before =
      ⟨1 + before.count '\n', (before.reverse.takeWhile (· != '\n')).length⟩ := by
    induction before using List.reverseRecOn with
    | nil => rfl
    | append_singleton before c ih =>
      rw [advance_append, ih, advance_cons, advance_nil]
      by_cases feed : c = '\n'
      · simp [step, nextColumn, nextLine, feed, Nat.add_assoc]
      · simp [step, nextColumn, feed, List.count_append]
  rw [counted]
  simp [behind, nextColumn, Nat.add_comm]

theorem compare_eq_lt_iff {a b : Position} :
    a.compare b = .lt ↔ a.line < b.line ∨ a.line = b.line ∧ a.column < b.column := by
  simp [compare, Ordering.then_eq_lt, Nat.compare_eq_lt]

/-- A later character stands further on. -/
theorem compare_behind_append (before : List Char) {text : List Char} (nonempty : text ≠ []) :
    (behind before).compare (behind (before ++ text)) = .lt := by
  rw [compare_eq_lt_iff]
  simp only [behind, List.count_append, List.reverse_append]
  by_cases feed : '\n' ∈ text
  · have := List.count_pos_iff.mpr feed
    omega
  · have inside (c : Char) (member : c ∈ text.reverse) : (c != '\n') = true := by
      rw [bne_iff_ne]
      rintro rfl
      exact feed (List.mem_reverse.mp member)
    have longer := List.length_pos_iff.mpr nonempty
    rw [List.takeWhile_append_of_pos inside, List.length_append, List.length_reverse,
      List.count_eq_zero_of_not_mem feed]
    omega

end Position

namespace Lexer

/-- `text`, which follows `before`, is made of separators and the spellings of `tokens`, each of which
is placed at its first character. -/
inductive Placed : List Char → List Char → List PlacedToken → Prop
  | ends {before gap : List Char} (separators : ∀ c ∈ gap, Latin.isSeparator c = true) :
      Placed before gap [⟨.behind (before ++ gap), .endOfFile⟩]
  | token {before gap spelling rest : List Char} {first : Char} {value : Token} {tokens : List PlacedToken}
      (separators : ∀ c ∈ gap, Latin.isSeparator c = true) (begins : Latin.isSeparator first = false)
      (spelled : value.Spelled (first :: spelling))
      (placed : Placed (before ++ gap ++ first :: spelling) rest tokens) :
      Placed before (gap ++ first :: spelling ++ rest) (⟨.behind (before ++ gap), value⟩ :: tokens)

theorem Placed.cons {before text : List Char} {c : Char} {tokens : List PlacedToken}
    (separator : Latin.isSeparator c = true) (placed : Placed (before ++ [c]) text tokens) :
    Placed before (c :: text) tokens := by
  cases placed with
  | @ends _ gap separators =>
    have all : ∀ d ∈ c :: text, Latin.isSeparator d = true := List.forall_mem_cons.mpr ⟨separator, separators⟩
    simpa using @Placed.ends before _ all
  | @token _ gap spelling rest first value tokens separators begins spelled placed =>
    have all : ∀ d ∈ c :: gap, Latin.isSeparator d = true := List.forall_mem_cons.mpr ⟨separator, separators⟩
    have shifted : Placed (before ++ c :: gap ++ first :: spelling) rest tokens := by simpa using placed
    simpa using Placed.token all begins spelled shifted

theorem placed_of_lexes {ticks : Bool} {cursor : Cursor} {tokens : List PlacedToken}
    (lexes : Lexes ticks cursor tokens) {before : List Char}
    (reached : cursor.position = Position.start.advance before) : Placed before cursor.rest tokens := by
  induction lexes generalizing before with
  | ends ticks position =>
    have place : position.nextColumn = .behind (before ++ []) := by
      rw [List.append_nil, ← Position.nextColumn_advance_start, ← reached]
    rw [place]
    exact .ends (by simp)
  | @gap ticks position c rest tokens separator lexes ih =>
    refine Placed.cons separator (ih ?_)
    rw [Position.advance_append, ← reached]
    rfl
  | @token ticks position c rest value later tokens begins scanned lexes ih =>
    obtain ⟨text, spelled, ⟨left, there⟩, -⟩ := Scanner.reads_tokenOnLine ticks c _ _ _ scanned
    obtain rfl : rest = text ++ later.rest := left
    have place : position.step c = .behind (before ++ []) := by
      have noFeed : c ≠ '\n' := by
        rintro rfl
        cases begins
      rw [Position.step_of_ne _ noFeed, List.append_nil, ← Position.nextColumn_advance_start, ← reached]
    have placed : Placed (before ++ [] ++ c :: text) later.rest tokens := by
      refine ih ?_
      rw [there, List.append_nil, Position.advance_append, ← reached]
      rfl
    rw [place]
    exact @Placed.token before [] text later.rest c value tokens (by simp) begins spelled placed

/-! ## Positions -/

theorem Placed.exists_behind {before text : List Char} {tokens : List PlacedToken}
    (placed : Placed before text tokens) {token : PlacedToken} (member : token ∈ tokens) :
    ∃ passed, token.position = .behind (before ++ passed) := by
  induction placed with
  | @ends before gap separators =>
    cases List.mem_singleton.mp member
    exact ⟨gap, rfl⟩
  | @token before gap spelling rest first value tokens separators begins spelled placed ih =>
    rcases List.mem_cons.mp member with rfl | later
    · exact ⟨gap, rfl⟩
    · obtain ⟨passed, place⟩ := ih later
      exact ⟨gap ++ first :: spelling ++ passed, by simpa using place⟩

/-- Each token stands further on than the one before. -/
theorem Placed.pairwise {before text : List Char} {tokens : List PlacedToken}
    (placed : Placed before text tokens) :
    tokens.Pairwise fun a b => a.position.compare b.position = .lt := by
  induction placed with
  | ends separators => exact List.pairwise_singleton _ _
  | @token before gap spelling rest first value tokens separators begins spelled placed ih =>
    refine List.pairwise_cons.mpr ⟨fun token member => ?_, ih⟩
    obtain ⟨passed, place⟩ := placed.exists_behind member
    have further : (first :: spelling) ++ passed ≠ [] := by simp
    rw [place, List.append_assoc]
    exact Position.compare_behind_append (before ++ gap) further

theorem not_spelled_endOfFile (c : Char) (text : List Char) : ¬ Token.endOfFile.Spelled (c :: text) := by
  simp [Token.Spelled, Token.render]

/-- The end-of-file marker is the last token and no other. -/
theorem Placed.exists_endOfFile {before text : List Char} {tokens : List PlacedToken}
    (placed : Placed before text tokens) :
    ∃ front place, tokens = front ++ [⟨place, .endOfFile⟩] ∧ ∀ token ∈ front, token.value ≠ .endOfFile := by
  induction placed with
  | ends separators => exact ⟨[], _, rfl, by simp⟩
  | @token before gap spelling rest first value tokens separators begins spelled placed ih =>
    obtain ⟨front, place, rfl, others⟩ := ih
    refine ⟨⟨.behind (before ++ gap), value⟩ :: front, place, rfl, List.forall_mem_cons.mpr ⟨?_, others⟩⟩
    rintro rfl
    exact not_spelled_endOfFile _ _ spelled

/-- A text that is read is made of its tokens and separators, every token is placed at its first
character, and the end-of-file marker closes the list. -/
theorem read_placed {text : String} {tokens : List PlacedToken} (read : read text = .ok tokens) :
    Placed [] text.toList tokens ∧ (tokens.Pairwise fun a b => a.position.compare b.position = .lt) ∧
      ∃ front place, tokens = front ++ [⟨place, .endOfFile⟩] ∧
        ∀ token ∈ front, token.value ≠ .endOfFile := by
  have placed : Placed [] text.toList tokens := placed_of_lexes (read_eq_ok_iff.mp read) rfl
  exact ⟨placed, placed.pairwise, placed.exists_endOfFile⟩

/-- The tokens of a text with a reserved word in capitals, a bar written as an exclamation mark and a
comment that ends with its line. -/
theorem read_placed_lines :
    ∃ tokens, read "End !--c\n'B'" = .ok tokens ∧ Placed [] "End !--c\n'B'".toList tokens ∧
      tokens = [⟨⟨1, 1⟩, .keyword .end⟩, ⟨⟨1, 5⟩, .delimiter .bar⟩, ⟨⟨1, 6⟩, .comment (.line "c")⟩,
        ⟨⟨2, 1⟩, .character 'B'⟩, ⟨⟨2, 4⟩, .endOfFile⟩] := by
  have scanned : read "End !--c\n'B'" = .ok
      [⟨⟨1, 1⟩, .keyword .end⟩, ⟨⟨1, 5⟩, .delimiter .bar⟩, ⟨⟨1, 6⟩, .comment (.line "c")⟩,
        ⟨⟨2, 1⟩, .character 'B'⟩, ⟨⟨2, 4⟩, .endOfFile⟩] := by decide +kernel
  exact ⟨_, scanned, (read_placed scanned).1, rfl⟩

end Lexer

end VhdlOrder
