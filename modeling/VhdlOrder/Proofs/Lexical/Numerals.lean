import Mathlib.Data.List.Induction
import Mathlib.Data.Nat.Digits.Defs
import VhdlOrder.Proofs.Lexical.Names
import VhdlOrder.Proofs.Lexical.Patterns
import VhdlOrder.Proofs.Lexical.Spelling

/-! # The grammar of numeric literals

A numeric literal is decimal, based or a bit string with its width in front; `Numeral.Spells` is the grammar of the
three. Scanning behind a digit answers a literal of the grammar and has read just this literal, and every literal of
the grammar is scanned to its end where a separator or one of the delimiters that may follow comes next. The base of a
based literal may be written with any number of digits, so its value is that of the numeral and not of a machine word.
-/

namespace VhdlOrder

open Latin (isDigit isBaseDigit)
open Scanner (Run Tail Bounds)

namespace Numeral

/-- The value of an integer in decimal notation; underlines do not count. -/
def value (text : List Char) : Nat :=
  Nat.ofDigits 10 ((text.filter (· != '_')).reverse.map fun c => c.toNat - '0'.toNat)

/-- A point and digits behind it, or nothing. -/
inductive Fraction (accepts : Char → Bool) : List Char → Prop
  | absent : Fraction accepts []
  | present {digits : List Char} (run : Run accepts digits) : Fraction accepts ('.' :: digits)

/-- The letter of an exponent, a sign perhaps and an integer, or nothing. -/
inductive Exponent : List Char → Prop
  | absent : Exponent []
  | unsigned {letter : Char} {digits : List Char} (marks : letter = 'e' ∨ letter = 'E') (run : Run isDigit digits) :
      Exponent (letter :: digits)
  | signed {letter sign : Char} {digits : List Char} (marks : letter = 'e' ∨ letter = 'E')
      (signs : sign = '+' ∨ sign = '-') (run : Run isDigit digits) : Exponent (letter :: sign :: digits)

/-- A decimal literal. -/
inductive Decimal : List Char → Prop
  | mk {number part power : List Char} (whole : Run isDigit number) (fraction : Fraction isDigit part)
      (exponent : Exponent power) : Decimal (number ++ part ++ power)

/-- A based literal, between two of the same delimiter the digits that its base has. -/
inductive Based : List Char → Prop
  | mk {number digits part power : List Char} {delimiter : Char} (base : Run isDigit number)
      (least : 2 ≤ value number) (greatest : value number ≤ 16) (delimits : delimiter = '#' ∨ delimiter = ':')
      (whole : Run (isBaseDigit (value number)) digits) (fraction : Fraction (isBaseDigit (value number)) part)
      (exponent : Exponent power) : Based (number ++ delimiter :: digits ++ part ++ delimiter :: power)

/-- A bit string literal with its width in front: a base specifier in letters of any case, and between double quotes
graphic characters that are no double quotes. -/
inductive BitString : List Char → Prop
  | mk {number letters bits : List Char} (specifier : BaseSpecifier) (width : Run isDigit number)
      (spelled : letters.map Char.toUpper = specifier.spelling.toList)
      (graphic : ∀ c ∈ bits, Latin.isGraphicNotQuote c = true) :
      BitString (number ++ letters ++ '\x22' :: bits ++ ['\x22'])

/-- `text` is a numeric literal, and the token is of its kind and keeps its text. -/
def Spells (text : List Char) : Token → Prop
  | .decimal written => written.toList = text ∧ Decimal text
  | .based written => written.toList = text ∧ Based text
  | .bitString written => written.toList = text ∧ BitString text
  | _ => False

/-- The text ends here, or a separator, a semicolon, a comma or a closing parenthesis follows. -/
def Ends (rest : List Char) : Prop :=
  ∀ c, rest.head? = some c → Latin.isSeparator c = true ∨ c = ';' ∨ c = ',' ∨ c = ')'

/-! ## Values -/

theorem value_eq_foldl (text : List Char) :
    value text = (text.filter (· != '_')).foldl (fun value c => 10 * value + (c.toNat - '0'.toNat)) 0 := by
  unfold value
  induction text.filter (· != '_') using List.reverseRecOn with
  | nil => rfl
  | append_singleton digits c ih =>
    rw [List.reverse_append, List.reverse_singleton, List.singleton_append, List.map_cons, Nat.ofDigits_cons, ih,
      List.foldl_append, List.foldl_cons, List.foldl_nil]
    simp [Nat.add_comm]

/-- An integer is read to its value if a machine word can hold it. -/
theorem integerValue?_of_run {text : List Char} (run : Run isDigit text) :
    integerValue? text = if value text < UInt64.size then some (value text) else none := by
  have digits : ∀ c ∈ text.filter (· != '_'), isDigit c = true := by
    intro c member
    obtain ⟨present, other⟩ := List.mem_filter.mp member
    exact (run.tail.character c present).resolve_right (by simpa using other)
  have unsigned : (text.filter (· != '_')).head? ≠ some '+' := by
    intro sign
    exact absurd (digits '+' (List.mem_of_head? sign)) (by decide)
  have nonempty : (text.filter (· != '_')).isEmpty = false := by
    obtain ⟨accepted, -⟩ := run
    rename_i c rest
    have plain : (c != '_') = true := by
      rw [bne_iff_ne]
      rintro rfl
      exact absurd accepted (by decide)
    simp only [List.filter_cons, plain, if_true, List.isEmpty_cons]
  unfold integerValue?
  simp only [if_neg unsigned, nonempty, List.all_eq_true.mpr digits, ← value_eq_foldl, Bool.not_false, Bool.true_and,
    decide_eq_true_eq]

end Numeral

namespace BaseSpecifier

/-- Letters of any case spell a base specifier. -/
theorem ofText?_eq_some_iff {letters : List Char} {specifier : BaseSpecifier} :
    ofText? (String.ofList letters) = some specifier ↔ letters.map Char.toUpper = specifier.spelling.toList := by
  have capital : (String.ofList letters).map Char.toUpper = specifier.spelling ↔
      letters.map Char.toUpper = specifier.spelling.toList := by
    rw [← String.toList_inj, String.toList_map, String.toList_ofList]
  rw [← capital]
  constructor
  · intro found
    have same := List.find?_some found
    exact (eq_of_beq same).symm
  · intro spelled
    unfold ofText?
    rw [spelled]
    cases specifier <;> rfl

/-- A base specifier is written in letters, and does not begin like an exponent. -/
theorem spelling_letters (specifier : BaseSpecifier) :
    (∀ c ∈ specifier.spelling.toList, Latin.isLetter c = true) ∧ specifier.spelling.toList.head? ≠ some 'E' ∧
      specifier.spelling.toList ≠ [] := by
  have letters : specifier.spelling.toList.all Latin.isLetter = true := by cases specifier <;> rfl
  exact ⟨List.all_eq_true.mp letters, by cases specifier <;> decide, by cases specifier <;> decide⟩

end BaseSpecifier

/-! ## Literals that are scanned -/

namespace Scanner

open Numeral (value Fraction Exponent Decimal Based BitString Spells Ends)

theorem answers_pattern (accepts : Char → Bool) : Answers (pattern accepts true) (Tail accepts) :=
  fun _ _ _ => tail_of_separated

theorem answers_accept? (accepts : Char → Bool) :
    Answers (accept? accepts) fun found => ∀ c, found = some c → accepts c = true := by
  rintro ⟨position, _ | ⟨c, rest⟩⟩ found later scanned
  · cases scanned
    rintro c ⟨⟩
  · simp only [accept?] at scanned
    split at scanned
    · cases scanned
      rintro d ⟨⟩
      assumption
    · cases scanned
      rintro d ⟨⟩

/-- Digits that must be there are a run. -/
theorem answers_run {α : Type} {accepts : Char → Bool} {fault : LexicalFault} {second : List Char → Scanner α}
    {good : α → Prop} (behind : ∀ text, Run accepts text → Answers (second text) good) :
    Answers (pattern accepts false >>= fun text => nonempty text fault >>= second) good := by
  have scanned : Answers (pattern accepts false) fun text => text ≠ [] → Run accepts text :=
    fun _ _ _ => run_of_separated
  refine scanned.bind fun text run => (answers_nonempty text fault).bind fun kept same => ?_
  obtain ⟨rfl, present⟩ := same
  exact behind kept (run present)

theorem answers_fraction (accepts : Char → Bool) (fault : LexicalFault) :
    Answers (fraction accepts fault) (Fraction accepts) := by
  refine .behind fun point => .ite ?_ (.pure .absent)
  exact answers_run fun digits run => .pure (.present run)

/-- What follows the letter of an exponent is a sign perhaps and an integer. -/
theorem answers_exponentDigits {letter : Char} (marks : letter = 'e' ∨ letter = 'E') :
    Answers exponentDigits fun text => Exponent (letter :: text) := by
  refine .behind fun read => ?_
  cases read with
  | none => exact .throw _
  | some c =>
    dsimp only
    split
    · rename_i digit
      exact (answers_pattern isDigit).bind fun digits tail => .pure (.unsigned marks (.first digit tail))
    · split
      · rename_i sign
        have signs : c = '+' ∨ c = '-' := by simpa using sign
        exact answers_run fun digits run => .pure (.signed marks signs run)
      · exact .throw _

theorem answers_exponent : Answers exponent Exponent := by
  refine (answers_accept? _).bind fun found marks => ?_
  cases found with
  | none => exact .pure .absent
  | some letter =>
    have isLetter : letter = 'e' ∨ letter = 'E' := by simpa using marks letter rfl
    exact (answers_exponentDigits isLetter).bind fun text exponent => .pure exponent

theorem answers_decimalFraction {number : List Char} (whole : Run isDigit number) :
    Answers (decimalFraction number) fun token => ∃ text, Spells text token := by
  refine (answers_fraction _ _).bind fun part fraction => answers_exponent.bind fun power exponent => .pure ?_
  exact ⟨_, String.toList_ofList, .mk whole fraction exponent⟩

/-- The digits between the delimiters of a based literal. -/
theorem answers_basedDigits (base : Nat) (delimiter : Char) :
    Answers (basedDigits base delimiter) fun text => ∃ digits part, text = digits ++ part ++ [delimiter] ∧
      Run (isBaseDigit base) digits ∧ Fraction (isBaseDigit base) part := by
  refine answers_run fun digits run => (answers_fraction _ _).bind fun part fraction => .behind fun read => ?_
  cases read with
  | none => exact .throw _
  | some c =>
    dsimp only
    split
    · rename_i closes
      obtain rfl : c = delimiter := eq_of_beq closes
      exact .pure ⟨digits, part, rfl, run, fraction⟩
    · exact .throw _

theorem answers_demand {α : Type} (found : Option α) (fault : LexicalFault) :
    Answers (demand found fault) fun value => found = some value := by
  cases found with
  | none => exact .throw fault
  | some value => exact .pure rfl

theorem answers_basedLiteral {number : List Char} {delimiter : Char} (whole : Run isDigit number)
    (delimits : delimiter = '#' ∨ delimiter = ':') :
    Answers (basedLiteral number delimiter) fun token => ∃ text, Spells text token := by
  refine (answers_demand _ _).bind fun base found => ?_
  obtain rfl : value number = base := by
    rw [Numeral.integerValue?_of_run whole] at found
    split at found
    · exact Option.some.inj found
    · cases found
  split
  · exact .throw _
  · rename_i inRange
    have range : 2 ≤ value number ∧ value number ≤ 16 := by
      simp only [Bool.or_eq_true, decide_eq_true_eq] at inRange
      omega
    refine .behind fun _ => (answers_basedDigits _ _).bind fun text shape => answers_exponent.bind fun power exponent =>
      .pure ?_
    obtain ⟨digits, part, rfl, run, fraction⟩ := shape
    refine ⟨_, String.toList_ofList, ?_⟩
    have based := Based.mk whole range.1 range.2 delimits run fraction exponent
    simpa using based

/-- What follows the double quote that opens a bit string are graphic characters and the one that closes it. -/
theorem answers_bits (lead : List Char) :
    Answers (bitString lead) fun token => ∃ bits, token = .bitString (String.ofList (lead ++ bits ++ ['\x22'])) ∧
      ∀ c ∈ bits, Latin.isGraphicNotQuote c = true := by
  have scanned : Answers (pattern Latin.isGraphicNotQuote false) (Tail Latin.isGraphicNotQuote) :=
    fun _ _ _ => tail_of_separated
  refine scanned.bind fun bits tail => .behind fun closes => .ite (.pure ⟨bits, rfl, ?_⟩) (.throw _)
  intro c member
  -- an underline is a graphic character itself
  obtain graphic | rfl := tail.character c member
  · exact graphic
  · decide

theorem answers_sizedBitString {number : List Char} (width : Run isDigit number) :
    Answers (sizedBitString number) fun token => ∃ text, Spells text token := by
  refine .behind fun letters => (answers_demand _ _).bind fun specifier found => .behind fun opens => .ite ?_ (.throw _)
  have spelled := BaseSpecifier.ofText?_eq_some_iff.mp found
  rintro state _ later answered
  obtain ⟨bits, rfl, graphic⟩ := answers_bits _ state _ later answered
  refine ⟨_, String.toList_ofList, ?_⟩
  have written := BitString.mk specifier width spelled graphic
  simpa using written

/-- A scan behind a digit answers a literal of the grammar. -/
theorem answers_numeral {first : Char} (digit : isDigit first = true) :
    Answers (numeric first) fun token => ∃ text, Spells text token := by
  refine (answers_pattern isDigit).bind fun digits tail => .behind fun next => ?_
  have whole : Run isDigit (first :: digits) := .first digit tail
  have decimal (power : List Char) (exponent : Exponent power) :
      ∃ text, Spells text (.decimal (String.ofList (first :: digits ++ power))) := by
    refine ⟨_, String.toList_ofList, ?_⟩
    have written := Decimal.mk whole .absent exponent
    simpa using written
  cases next with
  | none =>
    have written := decimal [] .absent
    rw [List.append_nil] at written
    exact .pure written
  | some c =>
    refine .ite (answers_decimalFraction whole) ?_
    split
    · rename_i delimiter
      exact answers_basedLiteral whole (by simpa using delimiter)
    · exact .ite (answers_sizedBitString whole)
        (answers_exponent.bind fun power exponent => .pure (decimal power exponent))

/-! ## Literals that are scanned to their end -/

/-- In front of `rest` the scan reads exactly `text`, to `value`. -/
def Takes {α : Type} (scan : Scanner α) (text : List Char) (value : α) (rest : List Char) : Prop :=
  ∀ position, scan ⟨position, text ++ rest⟩ = .ok value ⟨position.advance text, rest⟩

section

variable {α β : Type} {text one two rest : List Char}

theorem Takes.pure (value : α) (rest : List Char) : Takes (pure value : Scanner α) [] value rest := fun _ => rfl

theorem Takes.bind {first : Scanner α} {second : α → Scanner β} {found : α} {value : β}
    (left : Takes first one found (two ++ rest)) (right : Takes (second found) two value rest) :
    Takes (first >>= second) (one ++ two) value rest := by
  intro position
  rw [List.append_assoc, Position.advance_append]
  exact bind_eq_ok_iff.mpr ⟨found, _, left position, right _⟩

/-- A step that reads one character. -/
theorem Takes.cons {first : Scanner α} {second : α → Scanner β} {found : α} {value : β} {c : Char}
    (left : Takes first [c] found (two ++ rest)) (right : Takes (second found) two value rest) :
    Takes (first >>= second) (c :: two) value rest := .bind left right

/-- A step that reads nothing. -/
theorem Takes.peek {first : Scanner α} {second : α → Scanner β} {found : α} {value : β}
    (left : Takes first [] found (text ++ rest)) (right : Takes (second found) text value rest) :
    Takes (first >>= second) text value rest := .bind left right

/-- A last step that reads nothing. -/
theorem Takes.answer {first : Scanner α} {second : α → Scanner β} {found : α} {value : β}
    (left : Takes first text found rest) (right : Takes (second found) [] value rest) :
    Takes (first >>= second) text value rest := by
  have both : Takes (first >>= second) (text ++ []) value rest := .bind left right
  rwa [List.append_nil] at both

theorem takes_next (c : Char) (rest : List Char) : Takes next? [c] (some c) rest := fun _ => rfl

theorem takes_accept? {accepts : Char → Bool} {c : Char} (accepted : accepts c = true) (rest : List Char) :
    Takes (accept? accepts) [c] (some c) rest := by
  intro position
  simp [accept?, accepted]

theorem takes_refused {accepts : Char → Bool} (refused : ∀ c, rest.head? = some c → accepts c = false) :
    Takes (accept? accepts) [] none rest := by
  intro position
  cases rest with
  | nil => rfl
  | cons c rest => simp [accept?, refused c rfl]

theorem takes_accept (c : Char) (rest : List Char) : Takes (accept c) [c] true rest :=
  .answer (takes_accept? (beq_self_eq_true c) rest) (.pure true rest)

theorem takes_run {accepts : Char → Bool} (run : Run accepts text) (bounds : Bounds accepts rest) (started : Bool) :
    Takes (pattern accepts started) text text rest := separated_of_run run bounds started

theorem takes_tail {accepts : Char → Bool} (tail : Tail accepts text) (bounds : Bounds accepts rest) :
    Takes (pattern accepts true) text text rest := separated_of_tail tail bounds

theorem takes_nonempty {fault : LexicalFault} (nonempty : text ≠ []) (rest : List Char) :
    Takes (Scanner.nonempty text fault) [] text rest := by
  intro position
  simp only [Scanner.nonempty, List.isEmpty_eq_false_iff.mpr nonempty, Bool.false_eq_true, if_false]
  rfl

theorem takes_demand {found : Option α} {value : α} (same : found = some value) (fault : LexicalFault)
    (rest : List Char) : Takes (demand found fault) [] value rest := by
  subst same
  exact .pure value rest

end

/-! ### What follows digits -/

/-- The characters that may follow a literal. -/
def enders : List Char := [' ', '\u00a0', '\t', '\x0b', '\r', '\n', ';', ',', ')']

variable {rest : List Char}

theorem mem_enders (ends : Ends rest) : ∀ c, rest.head? = some c → c ∈ enders := by
  intro c head
  have isEnder := ends c head
  simp only [Latin.isSeparator, Latin.isSpace, Bool.or_eq_true, beq_iff_eq] at isEnder
  obtain (((((rfl | rfl) | rfl) | rfl) | rfl) | rfl) | rfl | rfl | rfl := isEnder <;> decide

theorem mem_followers_of_exponent {power : List Char} (shape : Exponent power) (ends : Ends rest) :
    ∀ c, (power ++ rest).head? = some c → c ∈ 'e' :: 'E' :: enders := by
  intro c head
  cases shape with
  | absent => exact List.mem_cons_of_mem _ (List.mem_cons_of_mem _ (mem_enders ends c head))
  | unsigned marks run =>
    cases head
    rcases marks with rfl | rfl <;> decide
  | signed marks signs run =>
    cases head
    rcases marks with rfl | rfl <;> decide

theorem mem_followers_of_fraction {accepts : Char → Bool} {part followed : List Char} {followers : List Char}
    (shape : Fraction accepts part) (follows : ∀ c, followed.head? = some c → c ∈ followers) :
    ∀ c, (part ++ followed).head? = some c → c ∈ '.' :: followers := by
  intro c head
  cases shape with
  | absent => exact List.mem_cons_of_mem _ (follows c head)
  | present run =>
    cases head
    exact List.mem_cons_self

theorem not_accepted {accepts : Char → Bool} {listed : List Char} (none : listed.any accepts = false) {c : Char}
    (member : c ∈ listed) : accepts c = false := by
  simpa using List.any_eq_false.mp none c member

/-- A pattern ends where what follows begins with a listed character. -/
theorem bounds_of_listed {accepts : Char → Bool} {listed followed : List Char}
    (none : listed.any (fun c => accepts c || c == '_') = false) (follows : ∀ c, followed.head? = some c → c ∈ listed) :
    Bounds accepts followed := fun c head => by
  simpa using not_accepted none (follows c head)

/-! ### Scanners -/

/-- Digits that must be there are taken. -/
theorem Takes.run {α : Type} {accepts : Char → Bool} {fault : LexicalFault} {second : List Char → Scanner α}
    {digits text whole : List Char} {value : α} (run : Run accepts digits) (bounds : Bounds accepts (text ++ rest))
    (behind : Takes (second digits) text value rest) (shape : digits ++ text = whole) :
    Takes (pattern accepts false >>= fun text => nonempty text fault >>= second) whole value rest := by
  have nonempty : digits ≠ [] := by
    obtain ⟨accepted, tail⟩ := run
    exact List.cons_ne_nil _ _
  rw [← shape]
  exact (takes_run run bounds false).bind (.peek (takes_nonempty nonempty _) behind)

theorem takes_exponent {power : List Char} (shape : Exponent power) (ends : Ends rest) :
    Takes exponent power power rest := by
  have bounds : Bounds isDigit rest := bounds_of_listed rfl (mem_enders ends)
  have marked {letter : Char} (marks : letter = 'e' ∨ letter = 'E') : (letter == 'e' || letter == 'E') = true := by
    simpa using marks
  cases shape with
  | absent =>
    have none : enders.any (fun c => c == 'e' || c == 'E') = false := rfl
    exact .peek (takes_refused fun c head => not_accepted none (mem_enders ends c head)) (.pure [] rest)
  | @unsigned letter digits marks run =>
    refine .cons (takes_accept? (marked marks) _) (.answer ?_ (.pure _ rest))
    obtain ⟨digit, tail⟩ := run
    refine .cons (takes_next _ _) ?_
    dsimp only
    rw [if_pos digit]
    exact (takes_tail tail bounds).answer (.pure _ rest)
  | @signed letter sign digits marks signs run =>
    refine .cons (takes_accept? (marked marks) _) (.answer ?_ (.pure _ rest))
    refine .cons (takes_next _ _) ?_
    have noDigit : isDigit sign = false := by rcases signs with rfl | rfl <;> decide
    have signed : (sign == '+' || sign == '-') = true := by simpa using signs
    dsimp only
    rw [noDigit, if_neg Bool.false_ne_true, if_pos signed]
    refine .run run ?_ (.pure _ rest) (List.append_nil digits)
    exact bounds

theorem takes_fraction {accepts : Char → Bool} {part : List Char} (shape : Fraction accepts part)
    (bounds : Bounds accepts rest) (noPoint : rest.head? ≠ some '.') (fault : LexicalFault) :
    Takes (fraction accepts fault) part part rest := by
  cases shape with
  | absent =>
    have refused : ∀ c, rest.head? = some c → (c == '.') = false := by
      intro c head
      rw [beq_eq_false_iff_ne]
      rintro rfl
      exact noPoint head
    exact .peek (.peek (takes_refused refused) (.pure false rest)) (.pure [] rest)
  | @present digits run =>
    refine .cons (takes_accept '.' _) ?_
    refine .run run ?_ (.pure _ rest) (List.append_nil digits)
    exact bounds

theorem takes_decimalFraction (number : List Char) {part power : List Char} (fraction : Fraction isDigit part)
    (exponent : Exponent power) (ends : Ends rest) :
    Takes (decimalFraction number) (part ++ power) (.decimal (String.ofList (number ++ part ++ power))) rest := by
  have bounds : Bounds isDigit (power ++ rest) := bounds_of_listed rfl (mem_followers_of_exponent exponent ends)
  have noPoint : (power ++ rest).head? ≠ some '.' := fun head =>
    absurd (mem_followers_of_exponent exponent ends '.' head) (by decide)
  refine .bind (takes_fraction fraction bounds noPoint _) ?_
  exact .answer (takes_exponent exponent ends) (.pure _ rest)

theorem takes_basedDigits {base : Nat} {delimiter : Char} {digits part : List Char}
    (delimits : delimiter = '#' ∨ delimiter = ':') (run : Run (isBaseDigit base) digits)
    (fraction : Fraction (isBaseDigit base) part) (rest : List Char) :
    Takes (basedDigits base delimiter) (digits ++ part ++ [delimiter]) (digits ++ part ++ [delimiter]) rest := by
  have refused : isBaseDigit base delimiter = false ∧ delimiter ≠ '_' := by
    rcases delimits with rfl | rfl
    · exact ⟨rfl, by decide⟩
    · exact ⟨rfl, by decide⟩
  have closing : Bounds (isBaseDigit base) (delimiter :: rest) := by
    rintro c ⟨⟩
    exact refused
  have noPoint : (delimiter :: rest).head? ≠ some '.' := by
    rintro ⟨⟩
    rcases delimits with same | same <;> cases same
  have bounds : Bounds (isBaseDigit base) (part ++ delimiter :: rest) := by
    cases fraction with
    | absent => exact closing
    | present =>
      rintro c ⟨⟩
      exact ⟨rfl, by decide⟩
  have shape : digits ++ (part ++ [delimiter]) = digits ++ part ++ [delimiter] := by rw [List.append_assoc]
  refine .run run ?_ (.bind (takes_fraction fraction closing noPoint _) (.answer (takes_next delimiter rest) ?_)) shape
  · rwa [List.append_assoc]
  · dsimp only
    rw [if_pos (beq_self_eq_true delimiter)]
    exact .pure _ rest

theorem takes_basedLiteral {number digits part power : List Char} {delimiter : Char} (base : Run isDigit number)
    (least : 2 ≤ value number) (greatest : value number ≤ 16) (delimits : delimiter = '#' ∨ delimiter = ':')
    (run : Run (isBaseDigit (value number)) digits) (fraction : Fraction (isBaseDigit (value number)) part)
    (exponent : Exponent power) (ends : Ends rest) :
    Takes (basedLiteral number delimiter) (delimiter :: digits ++ part ++ delimiter :: power)
      (.based (String.ofList (number ++ delimiter :: digits ++ part ++ delimiter :: power))) rest := by
  have held : integerValue? number = some (value number) := by
    rw [Numeral.integerValue?_of_run base, if_pos (Nat.lt_of_le_of_lt greatest (by decide))]
  have inRange : (value number < 2 || 16 < value number) = false := by
    simpa using ⟨least, greatest⟩
  refine .peek (takes_demand held _ _) ?_
  rw [inRange, if_neg Bool.false_ne_true]
  have shape : delimiter :: digits ++ part ++ delimiter :: power =
      [delimiter] ++ ((digits ++ part ++ [delimiter]) ++ power) := by simp
  rw [shape]
  refine .bind (takes_next _ _) (.bind (takes_basedDigits delimits run fraction _) ?_)
  have same : number ++ delimiter :: (digits ++ part ++ [delimiter]) ++ power =
      number ++ delimiter :: digits ++ part ++ delimiter :: power := by simp
  rw [← same]
  exact .answer (takes_exponent exponent ends) (.pure _ rest)

theorem isLetter_of_toUpper {c : Char} (letter : Latin.isLetter c.toUpper = true) : Latin.isLetter c = true := by
  by_cases small : 'a'.val ≤ c.val ∧ c.val ≤ 'z'.val
  · have lower : Latin.isLower c = true := by
      simp only [Latin.isLower, Bool.or_eq_true, Bool.and_eq_true, decide_eq_true_eq]
      exact .inl small
    simp [Latin.isLetter, lower]
  · have same : c.toUpper = c := dif_neg small
    exact same ▸ letter

theorem isDigit_of_isLetter {c : Char} (letter : Latin.isLetter c = true) : isDigit c = false := by
  rw [Bool.eq_false_iff]
  intro digit
  have last : c ≤ '9' := by
    simp only [isDigit, Bool.and_eq_true, decide_eq_true_eq] at digit
    exact digit.2
  have beyond (first : Char) (behind : '9' < first) (le : first ≤ c) : False :=
    absurd (Nat.le_trans le last) (Nat.not_le_of_lt behind)
  simp only [Latin.isLetter, Latin.isLower, Latin.isUpper, Bool.or_eq_true, Bool.and_eq_true,
    decide_eq_true_eq] at letter
  obtain (⟨le, -⟩ | ⟨⟨le, -⟩, -⟩) | ⟨le, -⟩ | ⟨⟨le, -⟩, -⟩ := letter
  all_goals exact beyond _ (by decide) le

theorem takes_accepted {accepts : Char → Bool} {text : List Char} (accepted : ∀ c ∈ text, accepts c = true)
    (bounds : Bounds accepts rest) (started : Bool) : Takes (pattern accepts started) text text rest :=
  separated_append accepted bounds started

theorem takes_bitString (lead : List Char) {bits : List Char}
    (graphic : ∀ c ∈ bits, Latin.isGraphicNotQuote c = true) (rest : List Char) :
    Takes (bitString lead) (bits ++ ['\x22']) (.bitString (String.ofList (lead ++ bits ++ ['\x22']))) rest := by
  have closing : Bounds Latin.isGraphicNotQuote ('\x22' :: rest) := by
    rintro c ⟨⟩
    decide
  exact .bind (takes_accepted graphic closing false) ((takes_accept _ rest).answer (.pure _ rest))

theorem takes_sizedBitString (number : List Char) {letters bits : List Char} {specifier : BaseSpecifier}
    (spelled : letters.map Char.toUpper = specifier.spelling.toList)
    (graphic : ∀ c ∈ bits, Latin.isGraphicNotQuote c = true) (rest : List Char) :
    Takes (sizedBitString number) (letters ++ '\x22' :: bits ++ ['\x22'])
      (.bitString (String.ofList (number ++ letters ++ '\x22' :: bits ++ ['\x22']))) rest := by
  have opening : Bounds Latin.isLetter ('\x22' :: (bits ++ ['\x22'] ++ rest)) := by
    rintro c ⟨⟩
    decide
  have isLetter : ∀ c ∈ letters, Latin.isLetter c = true := fun c member =>
    isLetter_of_toUpper (specifier.spelling_letters.1 _ (spelled ▸ List.mem_map_of_mem member))
  have found := BaseSpecifier.ofText?_eq_some_iff.mpr spelled
  have shape : letters ++ '\x22' :: bits ++ ['\x22'] = letters ++ (['\x22'] ++ (bits ++ ['\x22'])) := by simp
  have same : number ++ letters ++ ['\x22'] ++ bits ++ ['\x22'] = number ++ letters ++ '\x22' :: bits ++ ['\x22'] := by
    simp
  rw [shape, ← same]
  refine .bind (takes_accepted isLetter opening false) (.peek (takes_demand found _ _) ?_)
  exact .bind (takes_accept _ _) (takes_bitString _ graphic rest)

/-! ### Literals -/

/-- What follows the digits that a literal begins with decides which literal it is. -/
theorem takes_numeric {first : Char} {digits text : List Char} {scan : Scanner Token} {token : Token}
    (tail : Tail isDigit digits) (bounds : Bounds isDigit (text ++ rest)) (taken : Takes scan text token rest)
    (same : ∀ position, afterNumber (first :: digits) (Cursor.peek? ⟨position, text ++ rest⟩)
      ⟨position, text ++ rest⟩ = scan ⟨position, text ++ rest⟩) :
    Takes (numeric first) (digits ++ text) token rest := by
  change Takes (pattern isDigit true >>= fun digits => peek? >>= afterNumber (first :: digits)) _ token rest
  exact .bind (takes_tail tail bounds) fun position => (same position).trans (taken position)

theorem takes_decimal {first : Char} {digits part power : List Char} (tail : Tail isDigit digits)
    (fraction : Fraction isDigit part) (exponent : Exponent power) (ends : Ends rest) :
    Takes (numeric first) (digits ++ (part ++ power))
      (.decimal (String.ofList (first :: digits ++ part ++ power))) rest := by
  have follows (c : Char) (head : (part ++ power ++ rest).head? = some c) : c ∈ '.' :: 'e' :: 'E' :: enders := by
    rw [List.append_assoc] at head
    exact mem_followers_of_fraction fraction (mem_followers_of_exponent exponent ends) c head
  have bounds : Bounds isDigit (part ++ power ++ rest) := bounds_of_listed rfl follows
  refine takes_numeric tail bounds (takes_decimalFraction _ fraction exponent ends) fun position => ?_
  apply afterNumber_eq_decimalFraction
  unfold Cursor.peekIs Cursor.peek?
  cases head : (part ++ power ++ rest).head? with
  | none => rfl
  | some c =>
    have none : ('.' :: 'e' :: 'E' :: enders).any endsDecimal = false := rfl
    exact not_accepted none (follows c head)

theorem takes_based {first : Char} {digits whole part power : List Char} {delimiter : Char}
    (base : Run isDigit (first :: digits)) (tail : Tail isDigit digits) (least : 2 ≤ value (first :: digits))
    (greatest : value (first :: digits) ≤ 16) (delimits : delimiter = '#' ∨ delimiter = ':')
    (run : Run (isBaseDigit (value (first :: digits))) whole)
    (fraction : Fraction (isBaseDigit (value (first :: digits))) part) (exponent : Exponent power) (ends : Ends rest) :
    Takes (numeric first) (digits ++ (delimiter :: whole ++ part ++ delimiter :: power))
      (.based (String.ofList (first :: digits ++ delimiter :: whole ++ part ++ delimiter :: power))) rest := by
  have bounds : Bounds isDigit (delimiter :: whole ++ part ++ delimiter :: power ++ rest) := by
    rintro c ⟨⟩
    rcases delimits with rfl | rfl <;> decide
  refine takes_numeric tail bounds (takes_basedLiteral base least greatest delimits run fraction exponent ends)
    fun position => ?_
  rcases delimits with rfl | rfl <;> rfl

theorem takes_bits {first : Char} {digits letters bits : List Char} {specifier : BaseSpecifier}
    (tail : Tail isDigit digits) (spelled : letters.map Char.toUpper = specifier.spelling.toList)
    (graphic : ∀ c ∈ bits, Latin.isGraphicNotQuote c = true) (rest : List Char) :
    Takes (numeric first) (digits ++ (letters ++ '\x22' :: bits ++ ['\x22']))
      (.bitString (String.ofList (first :: digits ++ letters ++ '\x22' :: bits ++ ['\x22']))) rest := by
  obtain ⟨isLetters, noExponent, nonempty⟩ := specifier.spelling_letters
  rw [← spelled] at isLetters noExponent nonempty
  cases letters with
  | nil => exact absurd rfl nonempty
  | cons c more =>
    have letter : Latin.isLetter c = true := isLetter_of_toUpper (isLetters _ List.mem_cons_self)
    have other (d : Char) (refused : Latin.isLetter d = false) : (c == d) = false := by
      rw [beq_eq_false_iff_ne]
      rintro rfl
      cases letter.symm.trans refused
    have small : (c != 'e') = true := by
      rw [bne_iff_ne]
      rintro rfl
      exact noExponent rfl
    have capital : (c != 'E') = true := by
      rw [bne_iff_ne]
      rintro rfl
      exact noExponent rfl
    have bounds : Bounds isDigit (c :: more ++ '\x22' :: bits ++ ['\x22'] ++ rest) := by
      rintro d ⟨⟩
      exact ⟨isDigit_of_isLetter letter, ne_of_beq_false (other '_' rfl)⟩
    refine takes_numeric tail bounds (takes_sizedBitString _ spelled graphic rest) fun position => ?_
    change (if (c == '.') = true then _ else if (c == '#' || c == ':') = true then _ else
      if (c != 'e' && c != 'E' && Latin.isLetter c) = true then sizedBitString _ else _) _ = _
    rw [other '.' rfl, other '#' rfl, other ':' rfl, small, capital, letter]
    rfl

/-- A literal of the grammar is scanned to its end. -/
theorem takes_numeral {first : Char} {word : List Char} {token : Token} (spells : Spells (first :: word) token)
    (ends : Ends rest) : Takes (numeric first) word token rest := by
  generalize shape : first :: word = text at spells
  have kept {written : String} (same : written.toList = text) : written = String.ofList text := by
    rw [← same, String.ofList_toList]
  cases token with
  | decimal written =>
    obtain ⟨same, literal⟩ := spells
    obtain rfl := kept same
    obtain @⟨_, part, power, whole, fraction, exponent⟩ := literal
    obtain @⟨c, digits, digit, tail⟩ := whole
    obtain ⟨rfl, rfl⟩ : first = c ∧ word = digits ++ (part ++ power) := by simpa using shape
    exact takes_decimal tail fraction exponent ends
  | based written =>
    obtain ⟨same, literal⟩ := spells
    obtain rfl := kept same
    obtain @⟨_, whole, part, power, delimiter, base, least, greatest, delimits, run, fraction, exponent⟩ := literal
    have number := base
    obtain @⟨c, digits, digit, tail⟩ := number
    obtain ⟨rfl, rfl⟩ : first = c ∧ word = digits ++ (delimiter :: whole ++ part ++ delimiter :: power) := by
      simpa using shape
    exact takes_based base tail least greatest delimits run fraction exponent ends
  | bitString written =>
    obtain ⟨same, literal⟩ := spells
    obtain rfl := kept same
    obtain @⟨_, letters, bits, specifier, width, spelled, graphic⟩ := literal
    obtain @⟨c, digits, digit, tail⟩ := width
    obtain ⟨rfl, rfl⟩ : first = c ∧ word = digits ++ (letters ++ '\x22' :: bits ++ ['\x22']) := by simpa using shape
    exact takes_bits tail spelled graphic rest
  | _ => exact spells.elim

/-- Scanning behind a digit answers a numeric literal of the grammar and has read this literal and nothing else; and a
literal of the grammar is scanned whole where the text ends behind it or a separator, a semicolon, a comma or a
closing parenthesis follows. -/
theorem numeric_reads_literals {first : Char} (digit : isDigit first = true) (position : Position) (text : List Char) :
    (∀ token later, numeric first ⟨position, text⟩ = .ok token later →
      ∃ word, Cursor.Reaches ⟨position, text⟩ word later ∧ Spells (first :: word) token) ∧
    ∀ token word rest, Spells (first :: word) token → Ends rest → text = word ++ rest →
      numeric first ⟨position, text⟩ = .ok token ⟨position.advance word, rest⟩ := by
  constructor
  · intro token later scanned
    obtain ⟨literal, spells⟩ := answers_numeral digit _ token later scanned
    obtain ⟨word, spelled, reach, -⟩ := reads_numeric first _ token later scanned
    refine ⟨word, reach, ?_⟩
    -- the text of the token is what was read, and it is the literal
    cases token with
    | decimal written | based written | bitString written =>
      obtain ⟨rfl, grammar⟩ := spells
      have same : first :: word = written.toList := spelled
      exact ⟨same.symm, same ▸ grammar⟩
    | _ => exact spells.elim
  · rintro token word rest spells ends rfl
    exact takes_numeral spells ends position

/-- A based literal with a leading zero in its base, digits of both cases, an underline and an exponent. -/
def Sample.based : List Char := ['0', '1', '6', ':', 'F', '_', 'f', '.', '0', 'e', ':', 'E', '-', '1']

theorem Sample.spells_based : Spells Sample.based (.based "016:F_f.0e:E-1") := by
  refine ⟨by decide, ?_⟩
  have base : Run isDigit ['0', '1', '6'] := .first (by decide) (.plain (by decide) (.plain (by decide) .nil))
  have whole : Run (isBaseDigit 16) ['F', '_', 'f'] := .first (by decide) (.underline (by decide) .nil)
  have part : Fraction (isBaseDigit 16) ['.', '0', 'e'] := .present (.first (by decide) (.plain (by decide) .nil))
  have power : Exponent ['E', '-', '1'] := .signed (.inr rfl) (.inr rfl) (.first (by decide) .nil)
  have least : 2 ≤ value ['0', '1', '6'] := by decide
  have greatest : value ['0', '1', '6'] ≤ 16 := by decide
  exact Based.mk base least greatest (.inr rfl) whole part power

/-- The literal is scanned in front of a closing parenthesis, and what is scanned is the literal. -/
theorem numeric_reads_literals_based :
    isDigit '0' = true ∧ Spells Sample.based (.based "016:F_f.0e:E-1") ∧
      numeric '0' ⟨⟨1, 1⟩, Sample.based.tail ++ [')', ';']⟩ = .ok (.based "016:F_f.0e:E-1") ⟨⟨1, 14⟩, [')', ';']⟩ ∧
      ∃ word, Cursor.Reaches ⟨⟨1, 1⟩, Sample.based.tail ++ [')', ';']⟩ word ⟨⟨1, 14⟩, [')', ';']⟩ ∧
        Spells ('0' :: word) (.based "016:F_f.0e:E-1") := by
  have ends : Ends [')', ';'] := by
    rintro c ⟨⟩
    exact .inr (.inr (.inr rfl))
  obtain ⟨sound, complete⟩ := numeric_reads_literals (show isDigit '0' = true by decide) ⟨1, 1⟩
    (Sample.based.tail ++ [')', ';'])
  have scanned := complete _ Sample.based.tail [')', ';'] Sample.spells_based ends rfl
  exact ⟨by decide, Sample.spells_based, scanned, sound _ _ scanned⟩

end Scanner
end VhdlOrder
