import Mathlib
import VhdlOrder.Proofs.Lexical.Lexing
import VhdlOrder.Proofs.Lexical.Patterns

/-! # Reading what was written

Tokens that were read are read again when they are written one to a line. A token is read from its written
form wherever a line feed follows, after the same tokens as before, and comments do not count for what a
single quote is; so the comments may also be left out.
-/

namespace VhdlOrder

/-- The tokens as they are written, each on a line of its own. -/
def written (tokens : List PlacedToken) : String :=
  String.join (tokens.map fun token => token.value.render ++ "\n")

theorem toList_written_cons (token : PlacedToken) (tokens : List PlacedToken) :
    (written (token :: tokens)).toList = token.value.render.toList ++ '\n' :: (written tokens).toList := by
  simp [written]

/-! ## Reserved words -/

theorem isLetter_spelling (word : Keyword) : ∀ c ∈ word.spelling.toList, Latin.isLetter c = true := by
  have letters : word.spelling.toList.all Latin.isLetter = true := by cases word <;> decide
  exact List.all_eq_true.mp letters

theorem isLetter_of_toLower {c : Char} (letter : Latin.isLetter c.toLower = true) : Latin.isLetter c = true := by
  by_cases capital : c.val ≥ 'A'.val ∧ c.val ≤ 'Z'.val
  · have upper : Latin.isUpper c = true := by
      simp only [Latin.isUpper, Bool.or_eq_true, Bool.and_eq_true, decide_eq_true_eq]
      exact .inl capital
    simp [Latin.isLetter, upper]
  · have same : c.toLower = c := dif_neg capital
    exact same ▸ letter

/-- Which reserved word a text is does not depend on the case of its letters. -/
theorem ofText?_map_toLower (text : String) : Keyword.ofText? (text.map Char.toLower) = Keyword.ofText? text := by
  have same : (text.map Char.toLower).map Char.toLower = text.map Char.toLower := by
    simp [← String.toList_inj, Char.toLower_toLower_eq_toLower]
  unfold Keyword.ofText?
  rw [same]

namespace Scanner

/-- Letters on a line are a reserved word or an identifier. -/
theorem tokenOnLine_letters {first : Char} {text : List Char}
    (letters : ∀ c ∈ first :: text, Latin.isLetter c = true) (ticks : Bool) (position : Position)
    (tail : List Char) :
    tokenOnLine ticks first ⟨position, text ++ '\n' :: tail⟩ =
      .ok ((Keyword.ofText? (String.ofList (first :: text))).elim
        (.identifier (.basic (String.ofList (first :: text)))) .keyword)
        ⟨position.advance text, '\n' :: tail⟩ := by
  have first_letter := letters first (by simp)
  have noDash : first ≠ '-' := by
    rintro rfl
    cases first_letter
  have accepted (c : Char) (member : c ∈ text) : Latin.isLetterOrDigit c = true := by
    simp [Latin.isLetterOrDigit, letters c (by simp [member])]
  have head (c : Char) (feed : ('\n' :: tail).head? = some c) :
      Latin.isLetterOrDigit c = false ∧ c ≠ '_' := by
    cases feed
    decide
  have read : pattern Latin.isLetterOrDigit true ⟨position, text ++ '\n' :: tail⟩ =
      .ok text ⟨position.advance text, '\n' :: tail⟩ := separated_append accepted head true position
  have whole : tokenOnLine ticks first = word first := by
    rw [tokenOnLine_of_ne noDash, token]
    simp [first_letter]
  rw [whole]
  simp only [word, bind, EStateM.bind, read]
  unfold wordOf
  cases Keyword.ofText? (String.ofList (first :: text)) <;> rfl

/-- The written form of a token is read to this token at every place where a line feed follows. -/
def Rereads (ticks : Bool) (value : Token) : Prop :=
  ∃ first text, value.render.toList = first :: text ∧ Latin.isSeparator first = false ∧
    ∀ position tail, tokenOnLine ticks first ⟨position, text ++ '\n' :: tail⟩ =
      .ok value ⟨position.advance text, '\n' :: tail⟩

theorem rereads_bar (ticks : Bool) : Rereads ticks (.delimiter .bar) :=
  ⟨'|', [], rfl, by decide, fun position tail => rfl⟩

theorem not_isSeparator_of_isLetter {c : Char} (letter : Latin.isLetter c = true) :
    Latin.isSeparator c = false :=
  Lexer.not_isSeparator_of rfl letter

/-- A reserved word that was read from letters of any case is read from small letters. -/
theorem rereads_keyword {ticks : Bool} {first : Char} {text : List Char} {word : Keyword}
    (spelled : (Token.keyword word).Spelled (first :: text)) {position : Position} {tail : List Char}
    {later : Cursor}
    (read : tokenOnLine ticks first ⟨position, text ++ '\n' :: tail⟩ = .ok (.keyword word) later) :
    Rereads ticks (.keyword word) := by
  have small : (first :: text).map Char.toLower = word.spelling.toList := spelled
  have letters : ∀ c ∈ first :: text, Latin.isLetter c = true := fun c member =>
    isLetter_of_toLower (isLetter_spelling word _ (small ▸ List.mem_map_of_mem member))
  have found : Keyword.ofText? (String.ofList (first :: text)) = some word := by
    rw [tokenOnLine_letters letters] at read
    cases answer : Keyword.ofText? (String.ofList (first :: text)) with
    | none =>
      rw [answer] at read
      cases read
    | some other =>
      rw [answer] at read
      cases read
      rfl
  have foundSmall : Keyword.ofText? word.spelling = some word := by
    rw [← found, ← ofText?_map_toLower (String.ofList (first :: text))]
    congr 1
    rw [← String.toList_inj, ← small, String.toList_map, String.toList_ofList]
  obtain ⟨head, rest, shape⟩ := List.exists_cons_of_ne_nil (l := word.spelling.toList) (by simp [← small])
  have smallLetters : ∀ c ∈ head :: rest, Latin.isLetter c = true := shape ▸ isLetter_spelling word
  refine ⟨head, rest, shape, not_isSeparator_of_isLetter (smallLetters head (by simp)), fun position tail => ?_⟩
  rw [tokenOnLine_letters smallLetters, ← shape, String.ofList_toList, foundSmall]
  rfl

theorem rereads_of_token {ticks : Bool} {first : Char} {cursor later : Cursor} {value : Token}
    (begins : Latin.isSeparator first = false) (scanned : tokenOnLine ticks first cursor = .ok value later) :
    Rereads ticks value := by
  obtain ⟨text, spelled, reach, again⟩ := reads_tokenOnLine ticks first _ _ _ scanned
  have behind (position : Position) (tail : List Char) :
      tokenOnLine ticks first ⟨position, text ++ '\n' :: tail⟩ =
        .ok value ⟨position.advance text, '\n' :: tail⟩ := again position _ (.inr rfl)
  have same (written : first :: text = value.render.toList) : Rereads ticks value :=
    ⟨first, text, written.symm, begins, behind⟩
  cases value with
  | keyword word => exact rereads_keyword spelled (behind .start [])
  | delimiter mark =>
    by_cases bar : mark = .bar
    · subst bar
      exact rereads_bar ticks
    · exact same (by cases mark <;> first | exact spelled | exact absurd rfl bar)
  | _ => exact same spelled

end Scanner

namespace Lexer

/-- What is written of a list of tokens is read to the same tokens, whichever comments are left out. -/
theorem lexes_written {ticks : Bool} {cursor : Cursor} {tokens : List PlacedToken}
    (lexes : Lexes ticks cursor tokens) (keep : PlacedToken → Bool)
    (comments : ∀ token, keep token = false → token.value.isComment = true) (position : Position) :
    ∃ again, Lexes ticks ⟨position, (written (tokens.filter keep)).toList⟩ again ∧
      again.map (·.value) = (tokens.filter keep).map (·.value) := by
  induction lexes generalizing position with
  | ends ticks place =>
    have kept : keep ⟨place.nextColumn, .endOfFile⟩ = true := by
      rw [← Bool.not_eq_false]
      intro dropped
      cases comments _ dropped
    have feed : (written [⟨place.nextColumn, .endOfFile⟩]).toList = ['\n'] := by
      rw [toList_written_cons]
      rfl
    rw [List.filter_cons_of_pos kept, List.filter_nil, feed]
    exact ⟨_, .gap rfl (.ends ticks _), rfl⟩
  | gap separator lexes ih => exact ih position
  | @token ticks place c rest value later tokens begins scanned lexes ih =>
    cases kept : keep ⟨place.step c, value⟩ with
    | false =>
      have same : ticksAfter ticks value = ticks := by
        cases value <;> first | rfl | cases comments _ kept
      rw [List.filter_cons_of_neg (by simp [kept]), ← same]
      exact ih position
    | true =>
      obtain ⟨first, text, shape, begins, reread⟩ := Scanner.rereads_of_token begins scanned
      obtain ⟨again, lexesAgain, values⟩ := ih (((position.step first).advance text).step '\n')
      rw [List.filter_cons_of_pos kept, toList_written_cons, shape]
      refine ⟨_ :: again, .token begins (reread _ _) (.gap rfl lexesAgain), ?_⟩
      rw [List.map_cons, List.map_cons, values]

/-- The tokens of a text, written one to a line with or without the comments, are read again. -/
theorem read_written {text : String} {tokens : List PlacedToken} (read : read text = .ok tokens) :
    (∃ again, Lexer.read (written tokens) = .ok again ∧ again.map (·.value) = tokens.map (·.value)) ∧
      ∃ again, Lexer.read (written (withoutComments tokens)) = .ok again ∧
        again.map (·.value) = (withoutComments tokens).map (·.value) := by
  have lexes := read_eq_ok_iff.mp read
  constructor
  · obtain ⟨again, lexesAgain, values⟩ := lexes_written lexes (fun _ => true) (by simp) .start
    rw [List.filter_eq_self.mpr fun _ _ => rfl] at lexesAgain values
    exact ⟨again, read_eq_ok_iff.mpr lexesAgain, values⟩
  · obtain ⟨again, lexesAgain, values⟩ :=
      lexes_written lexes (fun token => !token.value.isComment) (by simp) .start
    exact ⟨again, read_eq_ok_iff.mpr lexesAgain, values⟩

/-- An attribute tick behind a comment stays one when the comment is left out. -/
theorem read_written_tick :
    ∃ tokens, read "A/*x*/'B'" = .ok tokens ∧
      tokens.map (·.value) = [.identifier (.basic "A"), .comment (.delimited "x"), .delimiter .tick,
        .identifier (.basic "B"), .delimiter .tick, .endOfFile] ∧
      (∃ again, Lexer.read (written tokens) = .ok again ∧ again.map (·.value) = tokens.map (·.value)) ∧
      ∃ again, Lexer.read (written (withoutComments tokens)) = .ok again ∧
        again.map (·.value) = (withoutComments tokens).map (·.value) := by
  have scanned : read "A/*x*/'B'" = .ok
      [⟨⟨1, 1⟩, .identifier (.basic "A")⟩, ⟨⟨1, 2⟩, .comment (.delimited "x")⟩, ⟨⟨1, 7⟩, .delimiter .tick⟩,
        ⟨⟨1, 8⟩, .identifier (.basic "B")⟩, ⟨⟨1, 9⟩, .delimiter .tick⟩, ⟨⟨1, 10⟩, .endOfFile⟩] := by
    decide +kernel
  exact ⟨_, scanned, rfl, read_written scanned⟩

end Lexer

end VhdlOrder
