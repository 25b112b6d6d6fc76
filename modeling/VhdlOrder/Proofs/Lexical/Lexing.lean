import VhdlOrder.Lexical.Lexer
import VhdlOrder.Proofs.Lexical.Spelling

/-! # Texts without a lexical fault

The tokens of a text without a fault as a relation: separators are passed over, and between them stand
tokens, each read from its first character on. A comment up to the end of its line is read here without
that end, which is passed over as a separator. `read_eq_ok_iff` says that the relation is what reading a
text computes.
-/

namespace VhdlOrder.Lexer

/-- What is left to read from `cursor` on is made of these tokens. -/
inductive Lexes : Bool → Cursor → List PlacedToken → Prop
  | ends (ticks : Bool) (position : Position) :
      Lexes ticks ⟨position, []⟩ [⟨position.nextColumn, .endOfFile⟩]
  | gap {ticks : Bool} {position : Position} {c : Char} {rest : List Char} {tokens : List PlacedToken}
      (separator : Latin.isSeparator c = true) (lexes : Lexes ticks ⟨position.step c, rest⟩ tokens) :
      Lexes ticks ⟨position, c :: rest⟩ tokens
  | token {ticks : Bool} {position : Position} {c : Char} {rest : List Char} {value : Token}
      {later : Cursor} {tokens : List PlacedToken} (begins : Latin.isSeparator c = false)
      (scanned : Scanner.tokenOnLine ticks c ⟨position.step c, rest⟩ = .ok value later)
      (lexes : Lexes (ticksAfter ticks value) later tokens) :
      Lexes ticks ⟨position, c :: rest⟩ (⟨position.step c, value⟩ :: tokens)

/-- `later` is `cursor` itself or stands behind one separator more. -/
def AfterGap (cursor later : Cursor) : Prop :=
  later = cursor ∨ ∃ position c rest, Latin.isSeparator c = true ∧ cursor = ⟨position, c :: rest⟩ ∧
    later = ⟨position.step c, rest⟩

theorem Lexes.of_afterGap {ticks : Bool} {cursor later : Cursor} {tokens : List PlacedToken}
    (after : AfterGap cursor later) (lexes : Lexes ticks later tokens) : Lexes ticks cursor tokens := by
  obtain rfl | ⟨position, c, rest, separator, rfl, rfl⟩ := after
  · exact lexes
  · exact .gap separator lexes

/-! ## Items -/

variable {ticks : Bool} {position : Position} {c : Char} {rest : List Char}

theorem itemsFrom_nil : itemsFrom ticks ⟨position, []⟩ = [⟨position.nextColumn, .ok .endOfFile⟩] := by
  rw [itemsFrom]

theorem itemsFrom_gap (separator : Latin.isSeparator c = true) :
    itemsFrom ticks ⟨position, c :: rest⟩ = itemsFrom ticks ⟨position.step c, rest⟩ := by
  rw [itemsFrom]
  simp [separator]

theorem itemsFrom_of_afterGap {cursor later : Cursor} (after : AfterGap cursor later) :
    itemsFrom ticks cursor = itemsFrom ticks later := by
  obtain rfl | ⟨position, c, rest, separator, rfl, rfl⟩ := after
  · rfl
  · exact itemsFrom_gap separator

theorem itemsFrom_token (begins : Latin.isSeparator c = false) {value : Token} {later : Cursor}
    (scanned : Scanner.token ticks c ⟨position.step c, rest⟩ = .ok value later) :
    itemsFrom ticks ⟨position, c :: rest⟩ =
      ⟨position.step c, .ok value⟩ :: itemsFrom (ticksAfter ticks value) later := by
  rw [itemsFrom]
  simp only [begins, Bool.false_eq_true, if_false]
  split
  next value' later' scanned' =>
    cases scanned.symm.trans scanned'
    rfl
  next fault later' scanned' => cases scanned.symm.trans scanned'

theorem itemsFrom_fault (begins : Latin.isSeparator c = false) {fault : LexicalFault} {later : Cursor}
    (scanned : Scanner.token ticks c ⟨position.step c, rest⟩ = .error fault later) :
    itemsFrom ticks ⟨position, c :: rest⟩ =
      ⟨later.position, .error fault⟩ :: itemsFrom false (later.skipUntil resumesAt) := by
  rw [itemsFrom]
  simp only [begins, Bool.false_eq_true, if_false]
  split
  next value later' scanned' => cases scanned.symm.trans scanned'
  next fault' later' scanned' =>
    cases scanned.symm.trans scanned'
    rfl

/-- A kind of characters that no separator is of. -/
theorem not_isSeparator_of {accepts : Char → Bool}
    (none : [' ', '\u00a0', '\t', '\x0b', '\r', '\n'].any accepts = false) {c : Char} (accepted : accepts c = true) :
    Latin.isSeparator c = false := by
  rw [Bool.eq_false_iff]
  intro separator
  have listed : c ∈ [' ', '\u00a0', '\t', '\x0b', '\r', '\n'] := by
    simpa [Latin.isSeparator, Latin.isSpace, or_assoc] using separator
  exact List.any_eq_false.mp none c listed accepted

/-- The end of a line that a comment is read with is a separator. -/
theorem isSeparator_of_endsLine (ends : Scanner.endsLine c = true) : Latin.isSeparator c = true := by
  simp only [Scanner.endsLine, Bool.or_eq_true, beq_iff_eq] at ends
  obtain (rfl | rfl) | rfl := ends <;> decide

/-- Reading a token with or without the end of its line differs by a separator. -/
theorem token_or_tokenOnLine (ticks : Bool) (first : Char) (cursor : Cursor) :
    Scanner.token ticks first cursor = Scanner.tokenOnLine ticks first cursor ∨
      ∃ value middle later, Scanner.tokenOnLine ticks first cursor = .ok value middle ∧
        Scanner.token ticks first cursor = .ok value later ∧ AfterGap middle later := by
  by_cases dashes : (first == '-' && cursor.peekIs (· == '-')) = true
  · obtain ⟨rfl, second⟩ : first = '-' ∧ cursor.peekIs (· == '-') = true := by simpa using dashes
    obtain ⟨position, _ | ⟨d, rest⟩⟩ := cursor
    · cases second
    obtain rfl : d = '-' := by simpa [Cursor.peekIs, Cursor.peek?] using second
    let value : Token := .comment (.line (String.ofList (rest.takeWhile fun c => !Scanner.endsLine c)))
    let middle := Cursor.skipUntil ⟨position.step '-', rest⟩ Scanner.endsLine
    have online : Scanner.tokenOnLine ticks '-' ⟨position, '-' :: rest⟩ = .ok value middle := rfl
    have whole : Scanner.token ticks '-' ⟨position, '-' :: rest⟩ =
      (Scanner.next? >>= fun _ => pure value : Scanner Token) middle := rfl
    obtain ⟨there, left, found⟩ : ∃ there left, middle = ⟨there, left⟩ := ⟨_, _, rfl⟩
    cases left with
    | nil => exact .inr ⟨value, middle, middle, online, by rw [whole, found]; rfl, .inl rfl⟩
    | cons e left =>
      have ends : Scanner.endsLine e = true := by
        have first := List.head?_dropWhile_not (fun c => !Scanner.endsLine c) rest
        rw [show (rest.dropWhile _) = e :: left from congrArg Cursor.rest found] at first
        simpa using first
      exact .inr ⟨value, middle, ⟨there.step e, left⟩, online, by rw [whole, found]; rfl,
        .inr ⟨there, e, left, isSeparator_of_endsLine ends, found, rfl⟩⟩
  · exact .inl (if_neg dashes).symm

theorem untilFault_cons_eq_iff {value : Token} {items : List Item} {tokens : List PlacedToken} :
    untilFault (⟨position, .ok value⟩ :: items) = (tokens, none) ↔
      ∃ others, tokens = ⟨position, value⟩ :: others ∧ untilFault items = (others, none) := by
  cases found : untilFault items with
  | mk others fault =>
    simp only [untilFault, found, Prod.mk.injEq]
    constructor
    · rintro ⟨rfl, rfl⟩
      exact ⟨others, rfl, rfl, rfl⟩
    · rintro ⟨_, rfl, rfl, rfl⟩
      exact ⟨rfl, rfl⟩

theorem lexes_of_untilFault {ticks : Bool} {cursor : Cursor} {tokens : List PlacedToken}
    (read : untilFault (itemsFrom ticks cursor) = (tokens, none)) : Lexes ticks cursor tokens := by
  fun_induction itemsFrom ticks cursor generalizing tokens with
  | case1 ticks cursor nothing =>
    cases read
    obtain ⟨position, rest⟩ := cursor
    cases nothing
    exact .ends ticks position
  | case2 ticks cursor c rest opened longer inside separator =>
    rename_i ih
    obtain ⟨position, all⟩ := cursor
    cases opened
    exact .gap separator (ih read)
  | case3 ticks cursor c rest opened longer inside begins value later scanned bound =>
    rename_i ih
    obtain ⟨position, all⟩ := cursor
    cases opened
    obtain ⟨others, rfl, left⟩ := untilFault_cons_eq_iff.mp read
    obtain same | ⟨_, middle, after, online, whole, gap⟩ := token_or_tokenOnLine ticks c inside
    · exact .token (by simpa using begins) (same.symm.trans scanned) (ih left)
    · cases whole.symm.trans scanned
      exact .token (by simpa using begins) online (.of_afterGap gap (ih left))
  | case4 => cases read

theorem untilFault_of_lexes {ticks : Bool} {cursor : Cursor} {tokens : List PlacedToken}
    (lexes : Lexes ticks cursor tokens) : untilFault (itemsFrom ticks cursor) = (tokens, none) := by
  induction lexes with
  | ends ticks position =>
    rw [itemsFrom_nil]
    rfl
  | gap separator lexes ih =>
    rw [itemsFrom_gap separator]
    exact ih
  | @token ticks position c rest value later tokens begins scanned lexes ih =>
    obtain same | ⟨_, middle, after, online, whole, gap⟩ := token_or_tokenOnLine ticks c ⟨position.step c, rest⟩
    · rw [itemsFrom_token begins (same.trans scanned)]
      exact untilFault_cons_eq_iff.mpr ⟨tokens, rfl, ih⟩
    · cases online.symm.trans scanned
      rw [itemsFrom_token begins whole]
      exact untilFault_cons_eq_iff.mpr ⟨tokens, rfl, itemsFrom_of_afterGap gap ▸ ih⟩

/-- Reading a text succeeds exactly with the tokens that it is made of. -/
theorem read_eq_ok_iff {text : String} {tokens : List PlacedToken} :
    read text = .ok tokens ↔ Lexes false (.ofText text) tokens := by
  have untilFault : read text = .ok tokens ↔ untilFault (itemsFrom false (.ofText text)) = (tokens, none) := by
    unfold read readUntilFault items
    split <;> simp_all
  exact untilFault.trans ⟨lexes_of_untilFault, untilFault_of_lexes⟩

end VhdlOrder.Lexer
