import VhdlOrder.Lexical.Lexeme
import VhdlOrder.Proofs.Lexical.Reading

/-! # How tokens are spelled

A token is read from its written form, except that the letters of a reserved word may be of either case
and the bar may also be an exclamation mark. A comment up to the end of its line is no scan of its own
length, because the end of the line is read too; what it is spelled with is the part before.
-/

namespace VhdlOrder

/-- The ways in which a source writes a token. -/
def Token.Spelled : Token → List Char → Prop
  | .keyword word, text => text.map Char.toLower = word.spelling.toList
  | .delimiter .bar, text => text = ['|'] ∨ text = ['!']
  | token, text => text = token.render.toList

namespace Scanner

variable {c : Char}

/-! ## Literals -/

theorem reads_exponentDigits : Reads (fun value text => value = text) exponentDigits := by
  refine .next (fun c => ?_) (by rintro cursor value later ⟨⟩)
  refine .ite (fun _ => ?_) fun _ => .ite (fun _ => ?_) fun _ => .throw _
  · refine (reads_pattern (by decide) true).bind fun value text same => .pure ?_
    rw [same, List.append_nil]
  · refine (reads_pattern (by decide) false).bind fun value text same => ?_
    refine (reads_nonempty value _).bind fun kept more same' => .pure ?_
    obtain ⟨rfl, rfl⟩ := same'
    rw [same, List.append_nil, List.append_nil]

theorem reads_exponent : Reads (fun value text => value = text) exponent := by
  refine (reads_accept? (by decide)).bind fun found text read => ?_
  obtain ⟨rfl, -⟩ := read
  cases found with
  | none => exact .pure rfl
  | some c =>
    refine reads_exponentDigits.bind fun value text same => .pure ?_
    rw [same, List.append_nil]
    rfl

theorem reads_fraction {accepts : Char → Bool} (stops : accepts '\n' = false) (fault : LexicalFault) :
    Reads (fun value text => value = text) (fraction accepts fault) := by
  refine (reads_accept (by decide)).bind fun found text read => ?_
  subst read
  cases found with
  | false => exact .pure rfl
  | true =>
    refine (reads_pattern stops false).bind fun value text same => ?_
    refine (reads_nonempty value _).bind fun kept more same' => .pure ?_
    obtain ⟨rfl, rfl⟩ := same'
    rw [same, List.append_nil, List.append_nil]
    rfl

theorem reads_basedDigits (base : Nat) (delimiter : Char) :
    Reads (fun value text => value = text) (basedDigits base delimiter) := by
  have stops : Latin.isBaseDigit base '\n' = false := rfl
  refine (reads_pattern stops false).bind fun value text same => ?_
  refine (reads_nonempty value _).bind fun kept more same' => ?_
  obtain ⟨rfl, rfl⟩ := same'
  refine (reads_fraction stops _).bind fun part text' same' => ?_
  refine .next (fun c => .ite (fun closes => .pure ?_) fun _ => .throw _) (by rintro cursor value later ⟨⟩)
  rw [same, same', List.nil_append, List.append_assoc]

theorem reads_bitString (lead : List Char) :
    Reads (fun value text => text ≠ [] ∧ value = .bitString (String.ofList (lead ++ text)))
      (bitString lead) := by
  refine (reads_pattern (by decide) false).bind fun value text same => ?_
  refine (reads_accept (by decide)).bind fun found more read => ?_
  subst read same
  cases found with
  | false => exact .throw _
  | true => exact .pure ⟨by simp, by simp⟩

theorem reads_decimalFraction (number : List Char) :
    Reads (fun value text => value = .decimal (String.ofList (number ++ text))) (decimalFraction number) := by
  refine (reads_fraction (by decide) _).bind fun part text same => ?_
  refine reads_exponent.bind fun value more same' => .pure ?_
  rw [same, same', List.append_nil, List.append_assoc]

theorem readsAt_basedLiteral (number : List Char) :
    ReadsAt c (fun value text => value = .based (String.ofList (number ++ text))) (basedLiteral number c) := by
  refine .demand fun base _ => .ite_throw (.next ?_)
  refine (reads_basedDigits base c).bind fun digits text same => ?_
  refine reads_exponent.bind fun value more same' => .pure ?_
  rw [same, same', List.append_nil, List.append_assoc]
  rfl

theorem reads_sizedBitString (number : List Char) :
    Reads (fun value text => text ≠ [] ∧ value = .bitString (String.ofList (number ++ text)))
      (sizedBitString number) := by
  refine (reads_pattern (by decide) false).bind fun specifier text same => ?_
  refine (reads_demand _ _).bind fun _ more read => ?_
  obtain ⟨-, rfl⟩ := read
  refine (reads_accept (by decide)).bind fun found more read => ?_
  subst read same
  cases found with
  | false => exact .throw _
  | true =>
    refine (reads_bitString _).mono fun value text spelled => ⟨by simp, ?_⟩
    simpa using spelled.2

/-- The characters behind a number that make it something else than a decimal literal: those that open
the digits of a based literal, and letters other than the one of an exponent. -/
def endsDecimal (c : Char) : Bool := c == '#' || c == ':' || (c != 'e' && c != 'E' && Latin.isLetter c)

/-- What follows the integer that a literal begins with. -/
def afterNumber (number : List Char) : Option Char → Scanner Token
  | none => return .decimal (String.ofList number)
  | some c =>
      if c == '.' then decimalFraction number
      else if c == '#' || c == ':' then basedLiteral number c
      else if c != 'e' && c != 'E' && Latin.isLetter c then sizedBitString number
      else return .decimal (String.ofList (number ++ (← exponent)))

theorem decimalFraction_of_no_point (number : List Char) {cursor : Cursor}
    (noPoint : cursor.peek? ≠ some '.') :
    decimalFraction number cursor =
      (do return .decimal (String.ofList (number ++ (← exponent))) : Scanner Token) cursor := by
  have noFraction : fraction Latin.isDigit .trailingPoint cursor = .ok [] cursor := by
    obtain ⟨position, _ | ⟨c, rest⟩⟩ := cursor
    · rfl
    · have different : c ≠ '.' := fun same => noPoint (congrArg some same)
      simp [fraction, accept, accept?, different, bind, EStateM.bind, pure, EStateM.pure]
  simp only [decimalFraction, bind, EStateM.bind, noFraction, List.append_nil]

/-- Where no such character follows, a literal is decimal, with or without a fraction. -/
theorem afterNumber_eq_decimalFraction (number : List Char) {cursor : Cursor}
    (ahead : cursor.peekIs endsDecimal = false) :
    afterNumber number cursor.peek? cursor = decimalFraction number cursor := by
  obtain ⟨position, _ | ⟨c, rest⟩⟩ := cursor
  · rw [decimalFraction_of_no_point number (by simp [Cursor.peek?])]
    simp [afterNumber, Cursor.peek?, exponent, accept?, bind, EStateM.bind, pure, EStateM.pure]
  · by_cases point : c = '.'
    · simp [afterNumber, Cursor.peek?, point]
    · rw [decimalFraction_of_no_point number (by simpa [Cursor.peek?] using point)]
      have others : (c == '#' || c == ':') = false ∧ (c != 'e' && c != 'E' && Latin.isLetter c) = false := by
        simpa [Cursor.peekIs, Cursor.peek?, endsDecimal] using ahead
      simp [afterNumber, Cursor.peek?, point, others]

theorem spelled_decimal (first : Char) (text : List Char) :
    (Token.decimal (String.ofList (first :: text))).Spelled (first :: text) :=
  String.toList_ofList.symm

theorem spelled_based (first : Char) (text : List Char) :
    (Token.based (String.ofList (first :: text))).Spelled (first :: text) :=
  String.toList_ofList.symm

theorem spelled_bitString (first : Char) (text : List Char) :
    (Token.bitString (String.ofList (first :: text))).Spelled (first :: text) :=
  String.toList_ofList.symm

theorem reads_numeric (first : Char) :
    Reads (fun value text => value.Spelled (first :: text)) (numeric first) := by
  refine (reads_pattern (by decide) true).bind fun number text same => ?_
  subst same
  change Reads _ (peek? >>= afterNumber (first :: number))
  refine Reads.branch (decimalFraction (first :: number)) endsDecimal (by decide) (fun c special => ?_)
    ((reads_decimalFraction _).mono fun value text spelled => spelled ▸ spelled_decimal first _)
    fun cursor ahead => afterNumber_eq_decimalFraction _ ahead
  have noPoint : (c == '.') = false := by
    rw [beq_eq_false_iff_ne]
    rintro rfl
    exact absurd special (by decide)
  by_cases based : (c == '#' || c == ':') = true
  · refine ReadsAt.congr ((readsAt_basedLiteral (first :: number)).mono fun value text spelled =>
      spelled ▸ spelled_based first _) fun position rest => ?_
    change afterNumber (first :: number) (some c) _ = _
    simp only [afterNumber, noPoint, based, if_true, Bool.false_eq_true, if_false]
  · have sized : (c != 'e' && c != 'E' && Latin.isLetter c) = true := by
      simpa [endsDecimal, based] using special
    refine ReadsAt.congr (.of_reads ((reads_sizedBitString (first :: number)).mono fun value text spelled =>
      ⟨spelled.1, spelled.2 ▸ spelled_bitString first _⟩)) fun position rest => ?_
    change afterNumber (first :: number) (some c) _ = _
    simp only [afterNumber, noPoint, based, sized, if_true, Bool.false_eq_true, if_false]

/-! ## Words and quoted tokens -/

theorem spelled_keyword {text : List Char} {word : Keyword}
    (read : Keyword.ofText? (String.ofList text) = some word) : (Token.keyword word).Spelled text := by
  have same := List.find?_some read
  rw [beq_iff_eq] at same
  change text.map Char.toLower = word.spelling.toList
  rw [same, String.toList_map, String.toList_ofList]

theorem reads_wordOf (first : Char) (text : List Char) :
    Reads (fun value more => value.Spelled (first :: text ++ more)) (wordOf (first :: text)) := by
  unfold wordOf
  split
  next word read => exact .pure (by rw [List.append_nil]; exact spelled_keyword read)
  next noWord =>
    refine Reads.branch (pure (.identifier (.basic (String.ofList (first :: text))))) (· == '\x22') (by decide)
      (fun c quote => ?_) (.pure ?_) fun cursor ahead => ?_
    · have opened : c = '\x22' := by simpa using quote
      subst opened
      have reads (fault : LexicalFault) : ReadsAt '\x22' (fun value more => value.Spelled (first :: text ++ more))
          (demand (BaseSpecifier.ofText? (String.ofList (first :: text))) fault >>= fun _ =>
            next? >>= fun _ => bitString (first :: text ++ ['\x22'])) :=
        .demand fun _ _ => .next ((reads_bitString _).mono fun value more spelled => by
          rw [spelled.2]
          simpa using spelled_bitString first (text ++ '\x22' :: more))
      exact (reads _).congr fun position rest => rfl
    · rw [List.append_nil]
      exact String.toList_ofList.symm
    · simp [bind, EStateM.bind, peekIs, ahead]

theorem reads_word (first : Char) :
    Reads (fun value text => value.Spelled (first :: text)) (word first) := by
  refine (reads_pattern (by decide) true).bind fun text read same => ?_
  subst same
  exact reads_wordOf first text

/-- An extended identifier, from behind the backslash that opens it. -/
theorem reads_extendedIdentifier :
    Reads (fun value text => value.Spelled ('\\' :: text)) extendedIdentifier := by
  refine (reads_literal (by decide)).bind fun value text same => ?_
  refine (reads_nonempty value _).bind fun kept more same' => .pure ?_
  obtain ⟨rfl, rfl⟩ := same'
  subst same
  simp [Token.Spelled, Token.render, Identifier.render, closed]

theorem reads_string : Reads (fun value text => value.Spelled ('\x22' :: text)) string := by
  refine (reads_literal (by decide)).bind fun value text same => .pure ?_
  subst same
  simp [Token.Spelled, Token.render, closed]

theorem reads_character : Reads (fun value text => value.Spelled ('\x27' :: text)) character := by
  refine .next (fun c => .ite (fun _ => .throw _) fun _ => .next (fun quote => ?_) ?_) ?_
  · refine .ite (fun closes => .pure ?_) fun _ => .throw _
    have closed : quote = '\x27' := by simpa using closes
    simp [Token.Spelled, Token.render, closed]
  · rintro cursor value later ⟨⟩
  · rintro cursor value later ⟨⟩

/-! ## Comments -/

/-- What follows the star that opens a delimited comment: its text and the two characters that close it. -/
theorem reads_delimitedText {position : Position} {text value : List Char} {later : Cursor}
    (scanned : delimitedText position text = .ok value later) :
    Cursor.Reaches ⟨position, text⟩ (value ++ ['*', '/']) later ∧
      ∀ position rest, delimitedText position (value ++ ['*', '/'] ++ rest) =
        .ok value ⟨position.advance (value ++ ['*', '/']), rest⟩ := by
  fun_induction delimitedText position text generalizing value with
  | case1 => cases scanned
  | case2 position c rest closes =>
    cases scanned
    obtain ⟨rfl, head⟩ : c = '*' ∧ rest.head? = some '/' := by simpa using closes
    obtain ⟨tail, rfl⟩ := List.head?_eq_some_iff.mp head
    exact ⟨⟨rfl, rfl⟩, fun position rest => rfl⟩
  | case3 position c rest inside ih =>
    obtain ⟨more, rfl, inner⟩ := cons_eq_ok_iff.mp scanned
    obtain ⟨reach, again⟩ := ih inner
    refine ⟨(Cursor.reaches_cons position c rest).trans reach, fun position other => ?_⟩
    -- what follows `c` begins with the same character as before
    have head : (more ++ ['*', '/'] ++ other).head? = rest.head? := by
      rw [show rest = _ from reach.1]
      cases more <;> rfl
    rw [List.cons_append, List.cons_append, delimitedText.eq_def]
    simp only [head, inside, again]
    rfl

theorem readsAt_delimitedComment :
    ReadsAt '*' (fun value text => value.Spelled ('/' :: text)) delimitedComment := by
  have reads : Reads (fun value text => text = value ++ ['*', '/'])
      (fun cursor => delimitedText cursor.position cursor.rest) := by
    intro cursor value later scanned
    obtain ⟨reach, again⟩ := reads_delimitedText scanned
    exact ⟨_, rfl, reach, fun position rest _ => again position rest⟩
  refine .next (reads.bind fun value text same => .pure ?_)
  subst same
  simp [Token.Spelled, Token.render, Comment.render]

/-! ## Delimiters -/

theorem spelling_of_ofText? {text : List Char} {mark : Delimiter}
    (read : Delimiter.ofText? (String.ofList text) = some mark) :
    text = mark.spelling.toList ∨ mark = .bar ∧ text = ['!'] := by
  unfold Delimiter.ofText? at read
  split at read
  next exclamation =>
    rw [beq_iff_eq] at exclamation
    cases read
    exact .inr ⟨rfl, by rw [← String.toList_ofList (l := text), exclamation]; rfl⟩
  next =>
    have same := List.find?_some read
    rw [beq_iff_eq] at same
    exact .inl (by rw [same, String.toList_ofList])

theorem spelled_delimiter {text : List Char} {mark : Delimiter}
    (read : Delimiter.ofText? (String.ofList text) = some mark) : (Token.delimiter mark).Spelled text := by
  obtain rfl | ⟨rfl, rfl⟩ := spelling_of_ofText? read
  · cases mark <;> first | rfl | exact .inl rfl
  · exact .inr rfl

/-- No delimiter is written with a line feed. -/
theorem ofText?_of_feed {text : List Char} (feed : '\n' ∈ text) :
    Delimiter.ofText? (String.ofList text) = none := by
  cases read : Delimiter.ofText? (String.ofList text) with
  | none => rfl
  | some mark =>
    obtain rfl | ⟨rfl, rfl⟩ := spelling_of_ofText? read
    · cases mark <;> exact absurd feed (by decide)
    · exact absurd feed (by decide)

theorem reads_delimiterOf (first : Char) (text : List Char) :
    Reads (fun value more => value.Spelled (first :: text ++ more)) (delimiterOf (first :: text)) := by
  refine (reads_demand _ _).bind fun mark more found => .pure ?_
  obtain ⟨read, rfl⟩ := found
  simpa using spelled_delimiter read

theorem reads_delimiter (first : Char) :
    Reads (fun value text => value.Spelled (first :: text)) (delimiter first) := by
  have noFeed (text : List Char) (feed : '\n' ∈ text) :
      (Delimiter.ofText? (String.ofList text)).isSome = false := by rw [ofText?_of_feed feed]; rfl
  have noSecond : extendsDelimiter [first, '\n'] = false := by
    simp only [extendsDelimiter, noFeed [first, '\n'] (by simp)]
    simp
  refine (reads_accept? noSecond).bind fun second text read => ?_
  obtain ⟨rfl, -⟩ := read
  cases second with
  | none => exact reads_delimiterOf first []
  | some second =>
    refine (reads_accept? (noFeed _ (by simp))).bind fun third text read => ?_
    obtain ⟨rfl, -⟩ := read
    cases third with
    | none => exact reads_delimiterOf first [second]
    | some third => exact reads_delimiterOf first [second, third]

/-! ## Tokens -/

/-- A comment up to the end of its line, which stays unread, after its first dash; the second one follows. -/
def lineText : Scanner Token := do
  let _ ← next?
  let text ← (fun cursor =>
    .ok (cursor.rest.takeWhile fun c => !endsLine c) (cursor.skipUntil endsLine) : Scanner (List Char))
  return .comment (.line (String.ofList text))

theorem readsAt_lineText : ReadsAt '-' (fun value text => value.Spelled ('-' :: text)) lineText := by
  have reads : Reads (fun value text => text = value) (fun cursor =>
      .ok (cursor.rest.takeWhile fun c => !endsLine c) (cursor.skipUntil endsLine)) := by
    rintro cursor value later ⟨⟩
    refine ⟨_, rfl, Cursor.reaches_skipUntil cursor endsLine, fun position rest alike => ?_⟩
    have stops : rest.takeWhile (fun c => !endsLine c) = [] ∧ rest.dropWhile (fun c => !endsLine c) = rest := by
      cases rest with
      | nil => exact ⟨rfl, rfl⟩
      | cons c rest =>
        have ends : endsLine c = true := by
          rcases alike with same | feed
          · have first := List.head?_dropWhile_not (fun c => !endsLine c) cursor.rest
            rw [show (cursor.rest.dropWhile _).head? = some c from same.symm] at first
            simpa using first
          · cases feed
            rfl
        simp [ends]
    have inside (c : Char) (member : c ∈ cursor.rest.takeWhile fun c => !endsLine c) :
        (!endsLine c) = true := List.all_eq_true.mp List.all_takeWhile c member
    simp only [Cursor.skipUntil, List.takeWhile_append_of_pos inside, List.dropWhile_append_of_pos inside, stops,
      List.append_nil]
  refine .next (reads.bind fun value text same => .pure ?_)
  subst same
  simp [Token.Spelled, Token.render, Comment.render]

/-- The token that begins with `first`, where the end of the line behind a comment stays unread. -/
def tokenOnLine (ticks : Bool) (first : Char) : Scanner Token := fun cursor =>
  if first == '-' && cursor.peekIs (· == '-') then lineText cursor else token ticks first cursor

theorem tokenOnLine_of_ne {ticks : Bool} {first : Char} (noDash : first ≠ '-') :
    tokenOnLine ticks first = token ticks first := by
  funext cursor
  simp [tokenOnLine, noDash]

theorem beq_peek?_of_peekIs {cursor : Cursor} (single : cursor.peekIs (· == c) = false) :
    (cursor.peek? == some c) = false := by
  obtain ⟨position, _ | ⟨d, rest⟩⟩ := cursor
  · rfl
  · exact single

/-- A dash is a delimiter unless another one follows. -/
theorem reads_dash (ticks : Bool) :
    Reads (fun value text => value.Spelled ('-' :: text)) (tokenOnLine ticks '-') := by
  refine Reads.branch (delimiter '-') (· == '-') (by decide) (fun c dash => ?_) (reads_delimiter '-')
    fun cursor single => ?_
  · have second : c = '-' := by simpa using dash
    subst second
    exact ReadsAt.congr readsAt_lineText fun position rest => rfl
  · simp only [tokenOnLine, single]
    change (if (cursor.peek? == some '-') = true then lineComment else delimiter '-') cursor = _
    rw [beq_peek?_of_peekIs single]
    rfl

/-- A slash is a delimiter unless a star follows. -/
theorem reads_slash (ticks : Bool) :
    Reads (fun value text => value.Spelled ('/' :: text)) (token ticks '/') := by
  refine Reads.branch (delimiter '/') (· == '*') (by decide) (fun c star => ?_) (reads_delimiter '/')
    fun cursor single => ?_
  · have second : c = '*' := by simpa using star
    subst second
    exact ReadsAt.congr readsAt_delimitedComment fun position rest => rfl
  · change (if (cursor.peek? == some '*') = true then delimitedComment else delimiter '/') cursor = _
    rw [beq_peek?_of_peekIs single]
    rfl

theorem reads_tokenOnLine (ticks : Bool) (first : Char) :
    Reads (fun value text => value.Spelled (first :: text)) (tokenOnLine ticks first) := by
  by_cases dash : first = '-'
  · subst dash
    exact reads_dash ticks
  rw [tokenOnLine_of_ne dash]
  by_cases slash : first = '/'
  · subst slash
    exact reads_slash ticks
  refine .ite (fun _ => reads_word first) fun _ => .ite (fun backslash => ?_) fun _ =>
    .ite (fun quote => ?_) fun _ => .ite (fun tick => ?_) fun _ => .ite (fun _ => reads_numeric first) fun _ => ?_
  · rw [beq_iff_eq] at backslash
    exact backslash ▸ reads_extendedIdentifier
  · rw [beq_iff_eq] at quote
    exact quote ▸ reads_string
  · have opened : first = '\x27' := (by simpa using tick : first = '\x27' ∧ _).1
    exact opened ▸ reads_character
  · have plain : (peek? >>= fun next =>
        if first == '-' && next == some '-' then lineComment
        else if first == '/' && next == some '*' then delimitedComment
        else delimiter first) = delimiter first := by
      funext cursor
      simp [bind, EStateM.bind, peek?, dash, slash]
    rw [plain]
    exact reads_delimiter first

end Scanner

end VhdlOrder
