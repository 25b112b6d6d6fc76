import VhdlOrder.Lexical.Lexer
import VhdlOrder.Name.IdentifierText
import VhdlOrder.Proofs.Lexical.Patterns

/-! # Identifiers as sources write them

A basic identifier of a source is a letter followed by letters and digits with single underlines between them, and is
no reserved word; an extended one holds one graphic character at least. `Identifier.IsName` says so, and every
identifier that a scanner answers is one. The written form of a name is an identifier on its own, and is read as the
name that it is written for.
-/

namespace VhdlOrder

/-- Whatever the run answers satisfies `good`, from whichever state it starts. -/
def Answers {ε σ α : Type} (run : EStateM ε σ α) (good : α → Prop) : Prop :=
  ∀ state value later, run state = .ok value later → good value

namespace Answers

variable {ε σ α β : Type} {run : EStateM ε σ α} {second : α → EStateM ε σ β} {good : α → Prop} {better : β → Prop}

theorem bind (first : Answers run good) (behind : ∀ value, good value → Answers (second value) better) :
    Answers (run >>= second) better := by
  intro state value later answered
  change EStateM.bind run second state = _ at answered
  unfold EStateM.bind at answered
  split at answered
  · rename_i found middle answer
    exact behind found (first state found middle answer) middle value later answered
  · contradiction

/-- What a sequence answers is what its last part answers. -/
theorem behind (each : ∀ value, Answers (second value) better) : Answers (run >>= second) better := by
  have anything : Answers run fun _ => True := fun _ _ _ _ => trivial
  exact anything.bind fun value _ => each value

theorem pure {value : α} (holds : good value) : Answers (pure value : EStateM ε σ α) good := by
  rintro state _ _ ⟨⟩
  exact holds

theorem throw (fault : ε) : Answers (throw fault : EStateM ε σ α) good := by
  rintro state _ _ ⟨⟩

theorem ite {condition : Prop} [Decidable condition] {yes no : EStateM ε σ α} (left : Answers yes good)
    (right : Answers no good) : Answers (if condition then yes else no) good := by
  split <;> assumption

end Answers

namespace Identifier

/-- Letters and digits with single underlines between them, behind a letter or digit. -/
inductive Word : List Char → Prop
  | nil : Word []
  | plain {c : Char} {rest : List Char} (accepted : Latin.isLetterOrDigit c = true) (word : Word rest) :
      Word (c :: rest)
  | underline {c : Char} {rest : List Char} (accepted : Latin.isLetterOrDigit c = true) (word : Word rest) :
      Word ('_' :: c :: rest)

/-- The identifiers that a source can write. -/
inductive IsName : Identifier → Prop
  | basic {first : Char} {text : List Char} (letter : Latin.isLetter first = true) (word : Word text)
      (free : Keyword.ofText? (String.ofList (first :: text)) = none) :
      IsName (.basic (String.ofList (first :: text)))
  | extended {text : List Char} (nonempty : text ≠ []) (graphic : ∀ c ∈ text, Latin.isGraphic c = true) :
      IsName (.extended (String.ofList text))

/-- The identifiers that a text can be, reserved words among them. -/
inductive IsText : Identifier → Prop
  | basic {first : Char} {text : List Char} (letter : Latin.isLetter first = true) (word : Word text) :
      IsText (.basic (String.ofList (first :: text)))
  | extended {text : List Char} (nonempty : text ≠ []) (graphic : ∀ c ∈ text, Latin.isGraphic c = true) :
      IsText (.extended (String.ofList text))

theorem IsName.isText {name : Identifier} (isName : name.IsName) : name.IsText := by
  cases isName with
  | basic letter word free => exact .basic letter word
  | extended nonempty graphic => exact .extended nonempty graphic

theorem IsText.isName {name : Identifier} (isText : name.IsText) (free : Keyword.ofText? name.render = none) :
    name.IsName := by
  cases isText with
  | basic letter word => exact .basic letter word free
  | extended nonempty graphic => exact .extended nonempty graphic

theorem word_iff_tail {text : List Char} : Word text ↔ Scanner.Tail Latin.isLetterOrDigit text := by
  constructor <;> intro shape <;> induction shape with
  | nil => exact .nil
  | plain accepted _ ih => exact .plain accepted ih
  | underline accepted _ ih => exact .underline accepted ih

theorem Word.character {text : List Char} (word : Word text) :
    ∀ c ∈ text, Latin.isLetterOrDigit c = true ∨ c = '_' :=
  (word_iff_tail.mp word).character

/-- A basic identifier is such a word itself. -/
theorem Word.of_letter {first : Char} {text : List Char} (word : Word text) (letter : Latin.isLetter first = true) :
    Word (first :: text) :=
  .plain (by simp [Latin.isLetterOrDigit, letter]) word

end Identifier

/-! ## Names that are scanned -/

namespace Scanner

open Identifier (Word IsName)

theorem word_of_separated {started : Bool} {position : Position} {text value : List Char} {later : Cursor}
    (scanned : separated Latin.isLetterOrDigit started position text = .ok value later) : Word value :=
  Identifier.word_iff_tail.mpr (tail_of_separated scanned)

theorem isGraphic_of_enclosed {close : Char} {position : Position} {text value : List Char} {later : Cursor}
    (scanned : enclosed close position text = .ok value later) : ∀ c ∈ value, Latin.isGraphic c = true := by
  fun_induction enclosed close position text generalizing value with
  | case1 => cases scanned
  | case2 => cases scanned
  | case3 position c rest graphic other ih =>
    obtain ⟨more, rfl, inner⟩ := cons_eq_ok_iff.mp scanned
    exact List.forall_mem_cons.mpr ⟨by simpa using graphic, ih inner⟩
  | case4 =>
    cases scanned
    exact List.forall_mem_nil _
  | case5 position c graphic isClose d tail twice ih =>
    obtain ⟨more, rfl, inner⟩ := cons_eq_ok_iff.mp scanned
    exact List.forall_mem_cons.mpr ⟨by simpa using graphic, ih inner⟩
  | case6 =>
    cases scanned
    exact List.forall_mem_nil _

/-- What can be scanned: an identifier is a name, and a literal holds graphic characters. -/
def IsScanned : Token → Prop
  | .identifier name => name.IsName
  | .character c => Latin.isGraphic c = true
  | .string text => ∀ c ∈ text.toList, Latin.isGraphic c = true
  | _ => True

theorem answers_bitString (lead : List Char) : Answers (bitString lead) IsScanned :=
  .behind fun _ => .behind fun _ => .ite (.pure trivial) (.throw _)

theorem answers_word {first : Char} (letter : Latin.isLetter first = true) : Answers (word first) IsScanned := by
  have scanned : Answers (pattern Latin.isLetterOrDigit true) Word := fun _ _ _ => word_of_separated
  refine scanned.bind fun text isWord => ?_
  unfold wordOf
  split
  · exact .pure trivial
  · rename_i free
    refine .behind fun quote => .ite ?_ (.pure ?_)
    · exact .behind fun _ => .behind fun _ => answers_bitString _
    · exact .basic letter isWord free

theorem answers_nonempty (text : List Char) (fault : LexicalFault) :
    Answers (nonempty text fault) fun value => value = text ∧ text ≠ [] := by
  unfold nonempty
  split
  · exact .throw _
  · exact .pure ⟨rfl, by simp_all⟩

theorem answers_literal (close : Char) : Answers (literal close) fun text => ∀ c ∈ text, Latin.isGraphic c = true :=
  fun _ _ _ => isGraphic_of_enclosed

theorem answers_extendedIdentifier : Answers extendedIdentifier IsScanned := by
  refine (answers_literal _).bind fun text graphic => (answers_nonempty text _).bind fun value same => .pure ?_
  obtain ⟨rfl, some⟩ := same
  exact .extended some graphic

theorem answers_string : Answers string IsScanned := by
  refine (answers_literal _).bind fun text graphic => .pure ?_
  simpa [IsScanned] using graphic

theorem answers_numeric (first : Char) : Answers (numeric first) IsScanned := by
  refine .behind fun number => .behind fun next => ?_
  cases next with
  | none => exact .pure trivial
  | some c =>
    refine .ite ?_ (.ite ?_ (.ite ?_ ?_))
    · exact .behind fun _ => .behind fun _ => .pure trivial
    · exact .behind fun _ => .ite (.throw _) (.behind fun _ => .behind fun _ => .behind fun _ => .pure trivial)
    · exact .behind fun _ => .behind fun _ => .behind fun _ => .ite (answers_bitString _) (.throw _)
    · exact .behind fun _ => .pure trivial

theorem answers_character : Answers character IsScanned := by
  refine .behind fun read => ?_
  cases read with
  | none => exact .throw _
  | some c =>
    by_cases graphic : Latin.isGraphic c = true
    · simp only [graphic]
      refine .behind fun closing => ?_
      cases closing with
      | none => exact .throw _
      | some quote => exact .ite (.pure graphic) (.throw _)
    · simp only [graphic]
      exact .throw _

theorem answers_delimiter (first : Char) : Answers (delimiter first) IsScanned := by
  have spelled (text : List Char) : Answers (delimiterOf text) IsScanned :=
    .behind fun _ => .pure trivial
  refine .behind fun second => ?_
  cases second with
  | none => exact spelled _
  | some second =>
    refine .behind fun third => ?_
    cases third with
    | none => exact spelled _
    | some third => exact spelled _

theorem answers_token (ticks : Bool) (first : Char) : Answers (token ticks first) IsScanned := by
  unfold token
  split
  · rename_i letter
    exact answers_word letter
  refine .ite answers_extendedIdentifier (.ite answers_string
    (.ite answers_character (.ite (answers_numeric first) (.behind fun _ =>
      .ite ?_ (.ite ?_ (answers_delimiter first))))))
  · exact .behind fun _ => .behind fun _ => .behind fun _ => .pure trivial
  · exact .behind fun _ => .behind fun _ => .pure trivial

end Scanner

namespace Lexer

/-- What a text holds is scanned, also behind its faults. -/
theorem isScanned_of_mem_itemsFrom (ticks : Bool) (cursor : Cursor) :
    ∀ item ∈ itemsFrom ticks cursor, ∀ token, item.value = .ok token → Scanner.IsScanned token := by
  fun_induction itemsFrom ticks cursor with
  | case1 =>
    refine List.forall_mem_singleton.mpr ?_
    rintro token ⟨⟩
    exact trivial
  | case2 =>
    rename_i ih
    exact ih
  | case3 ticks cursor c rest opened longer inside begins value later scanned bound =>
    rename_i ih
    refine List.forall_mem_cons.mpr ⟨?_, ih⟩
    rintro token ⟨⟩
    exact Scanner.answers_token ticks c inside value later scanned
  | case4 =>
    rename_i ih
    refine List.forall_mem_cons.mpr ⟨?_, ih⟩
    rintro token ⟨⟩

/-- The identifiers of a text are names, those behind its faults among them. -/
theorem namesOnly_of_mem_itemsFrom (ticks : Bool) (cursor : Cursor) : ∀ item ∈ itemsFrom ticks cursor,
    ∀ token, item.value = .ok token → ∀ name, token.identifier? = some name → name.IsName := by
  intro item member token value name isName
  have scanned := isScanned_of_mem_itemsFrom ticks cursor item member token value
  cases token with
  | identifier =>
    cases isName
    exact scanned
  | _ => cases isName

/-- The tokens up to the first fault are items, but for the end-of-file marker. -/
theorem mem_of_mem_untilFault {items : List Item} {token : PlacedToken} (member : token ∈ (untilFault items).1) :
    token.value = .endOfFile ∨ ⟨token.position, .ok token.value⟩ ∈ items := by
  induction items with
  | nil => cases member
  | cons item items ih =>
    obtain ⟨position, _ | value⟩ := item
    · obtain rfl := List.mem_singleton.mp member
      exact .inl rfl
    · obtain rfl | behind := List.mem_cons.mp member
      · exact .inr List.mem_cons_self
      · exact (ih behind).imp_right (List.mem_cons_of_mem _)

/-- The tokens of a text up to its first fault are scanned. -/
theorem isScanned_of_mem_untilFault (ticks : Bool) (cursor : Cursor) :
    ∀ token ∈ (untilFault (itemsFrom ticks cursor)).1, Scanner.IsScanned token.value := by
  intro token member
  obtain marker | here := mem_of_mem_untilFault member
  · rw [marker]
    exact trivial
  · exact isScanned_of_mem_itemsFrom ticks cursor _ here token.value rfl

end Lexer

namespace Identifier

/-- The identifier is a token of some text. -/
def IsLexed (name : Identifier) : Prop :=
  ∃ text, ∃ token ∈ (Lexer.readUntilFault text).1, token.value = .identifier name

theorem IsLexed.isName {name : Identifier} (isLexed : name.IsLexed) : name.IsName := by
  obtain ⟨text, token, member, same⟩ := isLexed
  have scanned := Lexer.isScanned_of_mem_untilFault false (.ofText text) token member
  rwa [same] at scanned

end Identifier

/-! ## Names that are read on their own -/

namespace Scanner

open Identifier (Word)

/-- A word is scanned to its end. -/
theorem separated_of_word {text : List Char} (word : Word text) (position : Position) :
    separated Latin.isLetterOrDigit true position text = .ok text ⟨position.advance text, []⟩ := by
  have bounds : Bounds Latin.isLetterOrDigit [] := by rintro c ⟨⟩
  have scanned := separated_of_tail (Identifier.word_iff_tail.mp word) bounds position
  rwa [List.append_nil] at scanned

/-- The characters of a literal in which those that close it are written twice, without the one that closes it. -/
def doubled (close : Char) (text : List Char) : List Char :=
  text.flatMap fun c => if c = close then [close, close] else [c]

@[simp] theorem mem_doubled {close c : Char} {text : List Char} : c ∈ doubled close text ↔ c ∈ text := by
  have one (d : Char) : c ∈ (if d = close then [close, close] else [d]) ↔ c = d := by
    split <;> simp_all
  simp [doubled, List.mem_flatMap, one]

/-- Literals are scanned up to the character that is not written twice. -/
theorem enclosed_doubled {close : Char} (closes : Latin.isGraphic close = true) {text : List Char}
    (graphic : ∀ c ∈ text, Latin.isGraphic c = true) (position : Position) (rest : List Char) :
    ∃ later, enclosed close position (doubled close text ++ rest) =
      text.foldr cons (enclosed close later rest) := by
  induction text generalizing position with
  | nil => exact ⟨position, rfl⟩
  | cons c text ih =>
    obtain ⟨here, others⟩ := List.forall_mem_cons.mp graphic
    by_cases same : c = close
    · subst same
      obtain ⟨later, scanned⟩ := ih others ((position.step c).step c)
      refine ⟨later, ?_⟩
      have shape : doubled c (c :: text) ++ rest = c :: c :: (doubled c text ++ rest) := by simp [doubled]
      rw [shape, enclosed.eq_def]
      simp [closes, scanned]
    · obtain ⟨later, scanned⟩ := ih others (position.step c)
      refine ⟨later, ?_⟩
      have shape : doubled close (c :: text) ++ rest = c :: (doubled close text ++ rest) := by simp [doubled, same]
      rw [shape, enclosed.eq_def]
      simp [here, same, scanned]

theorem foldr_cons_ok (text : List Char) (later : Cursor) :
    text.foldr cons (.ok [] later) = .ok text later := by
  induction text with
  | nil => rfl
  | cons c text ih => rw [List.foldr_cons, ih, cons]

theorem foldr_cons_error (text : List Char) (fault : LexicalFault) (later : Cursor) :
    text.foldr cons (.error fault later) = .error fault later := by
  induction text with
  | nil => rfl
  | cons c text ih => rw [List.foldr_cons, ih, cons]

/-- A literal is read to the end of the text. -/
theorem literal_doubled {close : Char} (closes : Latin.isGraphic close = true) {text : List Char}
    (graphic : ∀ c ∈ text, Latin.isGraphic c = true) (position : Position) :
    ∃ place, literal close ⟨position, doubled close text ++ [close]⟩ = .ok text ⟨place, []⟩ := by
  obtain ⟨later, scanned⟩ := enclosed_doubled closes graphic position [close]
  rw [enclosed_close closes (by simp), foldr_cons_ok] at scanned
  exact ⟨later.step close, scanned⟩

end Scanner

namespace Identifier

variable {name : Identifier}

/-- The characters of an identifier as it is written. -/
theorem toList_render_extended (text : List Char) :
    (extended (String.ofList text)).render.toList = '\\' :: (Scanner.doubled '\\' text ++ ['\\']) := by
  simp [render, Scanner.doubled]

/-- The written form of an identifier is read as the identifier. -/
theorem IsText.readList_render (isText : name.IsText) : readList name.render.toList = .ok name := by
  cases isText with
  | @basic first text letter word =>
    have noBackslash : first ≠ '\\' := by
      rintro rfl
      exact absurd letter (by decide)
    have scanned : Scanner.pattern Latin.isLetterOrDigit true ⟨.start, text⟩ =
        .ok text ⟨Position.start.advance text, []⟩ :=
      Scanner.separated_of_word word .start
    simp [render, readList, readBasic, noBackslash, letter, scanned]
  | @extended text nonempty graphic =>
    obtain ⟨place, whole⟩ := Scanner.literal_doubled (by decide : Latin.isGraphic '\\' = true) graphic .start
    rw [toList_render_extended]
    simp [readList, readExtended, whole, nonempty]

theorem IsName.readList_render (isName : name.IsName) : readList name.render.toList = .ok name :=
  isName.isText.readList_render

/-- The beginning of an extended identifier is none. -/
theorem readList_of_not_closed {text : List Char} (graphic : ∀ c ∈ text, Latin.isGraphic c = true) :
    readList ('\\' :: Scanner.doubled '\\' text) = .error .unclosed := by
  have closes : Latin.isGraphic '\\' = true := by decide
  obtain ⟨later, scanned⟩ := Scanner.enclosed_doubled closes graphic .start []
  rw [List.append_nil, Scanner.enclosed, Scanner.foldr_cons_error] at scanned
  have whole : Scanner.literal '\\' ⟨.start, Scanner.doubled '\\' text⟩ = .error .literalUnclosed ⟨later, []⟩ := scanned
  simp [readList, readExtended, whole]

theorem word_of_readBasic {first : Char} {text : List Char} (read : readBasic first text = .ok name) :
    Word text ∧ name = .basic (String.ofList (first :: text)) := by
  unfold readBasic at read
  split at read
  · cases read
  rename_i more later scanned
  split at read
  · rename_i nothing
    cases read
    obtain ⟨_, rfl, reach, -⟩ := Scanner.reads_pattern (by decide) true _ _ _ scanned
    have whole : text = more ++ later.rest := reach.1
    rw [nothing, List.append_nil] at whole
    subst whole
    exact ⟨Scanner.word_of_separated scanned, rfl⟩
  · cases read

theorem closed_of_readExtended {text : List Char} (read : readExtended text = .ok name) :
    ∃ inner, inner ≠ [] ∧ (∀ c ∈ inner, Latin.isGraphic c = true) ∧ name = .extended (String.ofList inner) ∧
      text = Scanner.doubled '\\' inner ++ ['\\'] := by
  unfold readExtended at read
  split at read
  · cases read
  rename_i inner later scanned
  split at read
  · cases read
  rename_i nonempty
  split at read
  · rename_i nothing
    cases read
    obtain ⟨_, rfl, reach, -⟩ := Scanner.reads_literal (by decide) _ _ _ scanned
    have whole : text = Scanner.doubled '\\' inner ++ ['\\'] ++ later.rest := reach.1
    rw [List.isEmpty_iff.mp nothing, List.append_nil] at whole
    exact ⟨inner, by simpa using nonempty, Scanner.isGraphic_of_enclosed scanned, rfl, whole⟩
  · cases read

/-- A text is read as the identifier that it is the written form of. -/
theorem readList_eq_ok_iff {text : List Char} : readList text = .ok name ↔ name.IsText ∧ name.render.toList = text := by
  constructor
  · intro read
    cases text with
    | nil => cases read
    | cons first rest =>
      rw [readList] at read
      split at read
      · rename_i backslash
        obtain ⟨inner, nonempty, graphic, rfl, rfl⟩ := closed_of_readExtended read
        exact ⟨.extended nonempty graphic, backslash ▸ toList_render_extended inner⟩
      · split at read
        · rename_i letter
          obtain ⟨word, rfl⟩ := word_of_readBasic read
          exact ⟨.basic letter word, String.toList_ofList⟩
        · cases read
  · rintro ⟨isText, rfl⟩
    exact isText.readList_render

end Identifier

/-! ## Names that are no reserved words -/

namespace Latin

/-- Letters and digits are characters of Latin-1. -/
theorem toNat_lt_of_isLetterOrDigit {c : Char} (accepted : isLetterOrDigit c = true) : c.toNat < 256 := by
  have below (last : Char) (small : last.toNat < 256) (le : c ≤ last) : c.toNat < 256 :=
    Nat.lt_of_le_of_lt le small
  simp only [isLetterOrDigit, isLetter, isLower, isUpper, isDigit, Bool.or_eq_true, Bool.and_eq_true,
    decide_eq_true_eq] at accepted
  obtain ⟨-, le⟩ | (⟨-, le⟩ | ⟨⟨-, le⟩, -⟩) | ⟨-, le⟩ | ⟨⟨-, le⟩, -⟩ := accepted
  all_goals exact below _ (by decide) le

end Latin

namespace Text

theorem toNat_ofNat {n : Nat} (valid : n.isValidChar) : (Char.ofNat n).toNat = n := by
  rw [Char.ofNat, dif_pos valid]
  rfl

/-- The small forms of characters of Latin-1 that are beyond ASCII are beyond ASCII. -/
theorem le_of_mem_lowerChar {c d : Char} (latin : c.toNat < 256) (beyond : 128 ≤ c.toNat) (member : d ∈ lowerChar c) :
    128 ≤ d.toNat := by
  have ranges : ∀ range ∈ capitalRanges, 256 ≤ range.1 ∨ range.2.2.2 = 32 := by
    have table : (capitalRanges.all fun range => 256 ≤ range.1 || range.2.2.2 == 32) = true := by decide +kernel
    simpa using table
  have plain : c ≠ '\u0130' := by
    rintro rfl
    exact absurd latin (by decide)
  simp only [lowerChar, if_neg (Nat.not_lt_of_le beyond), if_neg plain] at member
  split at member
  · rename_i first last step offset found
    have covers := List.find?_some found
    obtain beyondLatin | rfl := ranges _ (List.mem_of_find?_eq_some found)
    · simp only [Bool.and_eq_true, decide_eq_true_eq] at covers
      omega
    · obtain rfl := List.mem_singleton.mp member
      have shifted : ((c.toNat : Int) + 32).toNat = c.toNat + 32 := by omega
      rw [shifted, toNat_ofNat (.inl (by omega))]
      omega
  · obtain rfl := List.mem_singleton.mp member
    exact beyond

theorem exists_mem_lowerChar (c : Char) : ∃ d, d ∈ lowerChar c := by
  unfold lowerChar
  split
  · exact ⟨_, List.mem_cons_self⟩
  · split
    · exact ⟨_, List.mem_cons_self⟩
    · split <;> exact ⟨_, List.mem_cons_self⟩

/-- A text of Latin-1 whose small form is in ASCII is in ASCII itself. -/
theorem lower_eq_map_toLower {text : List Char} (latin : ∀ c ∈ text, c.toNat < 256)
    (ascii : ∀ c ∈ lower text, c.toNat < 128) : lower text = text.map Char.toLower := by
  induction text with
  | nil => rfl
  | cons c text ih =>
    obtain ⟨here, others⟩ := List.forall_mem_cons.mp latin
    have split : lower (c :: text) = lowerChar c ++ lower text := List.flatMap_cons
    rw [split] at ascii ⊢
    obtain ⟨first, rest⟩ := List.forall_mem_append.mp ascii
    have small : c.toNat < 128 := by
      apply Nat.lt_of_not_le
      intro beyond
      obtain ⟨d, member⟩ := exists_mem_lowerChar c
      exact Nat.not_le_of_lt (first d member) (le_of_mem_lowerChar here beyond member)
    have letter : lowerChar c = [c.toLower] := if_pos small
    rw [letter, ih others rest]
    rfl

end Text

/-- Reserved words are written in letters of ASCII, which are small. -/
theorem Keyword.small_spelling (word : Keyword) : ∀ c ∈ word.spelling.toList, c.toNat < 128 ∧ c.toLower = c := by
  have letters : (word.spelling.toList.all fun c => 'a' ≤ c && c ≤ 'z') = true := by cases word <;> decide
  intro c member
  obtain ⟨first, last⟩ : 'a' ≤ c ∧ c ≤ 'z' := by simpa using List.all_eq_true.mp letters c member
  refine ⟨Nat.lt_of_le_of_lt last (by decide), dif_neg fun capital => ?_⟩
  exact absurd (Nat.le_trans first capital.2) (by decide)

theorem Keyword.lower_spelling (word : Keyword) : Text.lower word.spelling.toList = word.spelling.toList := by
  have letter (c : Char) (member : c ∈ word.spelling.toList) : Text.lowerChar c = [c] := by
    obtain ⟨ascii, small⟩ := word.small_spelling c member
    rw [Text.lowerChar, if_pos ascii, small]
  rw [Text.lower, List.flatMap_def, List.map_congr_left letter, ← List.flatMap_def, List.flatMap_singleton']

namespace Identifier

/-- No name is a reserved word, whatever the case of its letters. -/
theorem IsName.not_same_reserved {name : Identifier} (isName : name.IsName) (word : Keyword) :
    name.same (.basic word.spelling) = false := by
  rw [Bool.eq_false_iff]
  intro same
  have keys := same_iff.mp same
  cases isName with
  | extended => cases congrArg Prod.fst keys
  | @basic first text letter isWord free =>
    have texts : Text.lower (first :: text) = word.spelling.toList := by
      have second := congrArg Prod.snd keys
      simp only [key, keyText, String.toList_ofList] at second
      rw [second, word.lower_spelling]
    have latin (c : Char) (member : c ∈ first :: text) : c.toNat < 256 := by
      obtain accepted | rfl := (isWord.of_letter letter).character c member
      · exact Latin.toNat_lt_of_isLetterOrDigit accepted
      · decide
    have ascii (c : Char) (member : c ∈ word.spelling.toList) : c.toNat < 128 := (word.small_spelling c member).1
    have spelled : (String.ofList (first :: text)).map Char.toLower = word.spelling := by
      rw [← String.toList_inj, String.toList_map, String.toList_ofList, ← texts]
      exact (Text.lower_eq_map_toLower latin (texts ▸ ascii)).symm
    have reserved : word ∈ Keyword.reserved := by cases word <;> decide
    have missed := List.find?_eq_none.mp free word reserved
    exact missed (beq_iff_eq.mpr spelled.symm)

end Identifier

end VhdlOrder
