import VhdlOrder.Lexical.Literal

/-! # The tokens by their first character

What a token is follows from its first character, the one after it and, for a single quote, the token
before. `Scanner.token` reads the whole token after its first character. Delimiters are as long as
possible; the three characters `?/=` form one although `?/` is none.
-/

namespace VhdlOrder.Scanner

/-- What the letters and digits `text` are: a reserved word, the base specifier of a bit string literal
that follows, or a basic identifier. -/
def wordOf (text : List Char) : Scanner Token :=
  match Keyword.ofText? (String.ofList text) with
  | some keyword => return .keyword keyword
  | none => do
      if ← peekIs (· == '\x22') then
        let _ ← demand (BaseSpecifier.ofText? (String.ofList text)) (.baseSpecifier (String.ofList text))
        let _ ← next?
        bitString (text ++ ['\x22'])
      else return .identifier (.basic (String.ofList text))

theorem forward_wordOf (text : List Char) : Forward (wordOf text) := by
  unfold wordOf
  split
  · exact .pure _
  · exact (forward_peekIs _).bind fun _ => .ite
      ((Forward.demand _ _).bind fun _ => forward_next?.bind fun _ => forward_bitString _) (.pure _)

/-- The word that begins with `first`. -/
def word (first : Char) : Scanner Token := do wordOf (first :: (← pattern Latin.isLetterOrDigit true))

theorem forward_word (first : Char) : Forward (word first) :=
  (forward_pattern _ _).bind fun _ => forward_wordOf _

/-- An extended identifier after its opening backslash. -/
def extendedIdentifier : Scanner Token := do
  let text ← nonempty (← literal '\\') .emptyExtended
  return .identifier (.extended (String.ofList text))

theorem forward_extendedIdentifier : Forward extendedIdentifier :=
  (forward_literal _).bind fun _ => (Forward.nonempty _ _).bind fun _ => .pure _

/-- A character literal after its opening quote. -/
def character : Scanner Token := do
  match ← next? with
  | none => throw (.closingMissing '\x27')
  | some c =>
      if !Latin.isGraphic c then throw .characterNotGraphic
      else
        match ← next? with
        | none => throw (.closingMissing '\x27')
        | some quote =>
            if quote == '\x27' then return .character c else throw (.closingMismatch '\x27' quote)

theorem forward_character : Forward character := by
  refine forward_next?.bind fun read => ?_
  cases read with
  | none => exact .throw _
  | some c =>
    refine .ite (.throw _) (forward_next?.bind fun read => ?_)
    cases read with
    | none => exact .throw _
    | some quote => exact .ite (.pure _) (.throw _)

/-- A string literal after its opening quote. -/
def string : Scanner Token := do
  return .string (String.ofList (← literal '\x22'))

theorem forward_string : Forward string := (forward_literal _).bind fun _ => .pure _

/-- The text of a delimited comment up to its closing `*/`, which is read too. -/
def delimitedText (position : Position) : List Char → EStateM.Result LexicalFault Cursor (List Char)
  | [] => .error .commentUnclosed ⟨position, []⟩
  | c :: rest =>
      if c == '*' && rest.head? == some '/' then
        .ok [] ⟨(position.step c).advance (rest.take 1), rest.drop 1⟩
      else cons c (delimitedText (position.step c) rest)

theorem reaches_delimitedText (position : Position) (text : List Char) :
    ∃ read, Cursor.Reaches ⟨position, text⟩ read (stop (delimitedText position text)) := by
  fun_induction delimitedText position text with
  | case1 => exact ⟨[], .refl _⟩
  | case2 position c rest =>
    refine ⟨c :: rest.take 1, ?_, rfl⟩
    simp only [stop, List.cons_append, List.take_append_drop]
  | case3 position c rest _ ih =>
    obtain ⟨read, reach⟩ := ih
    exact ⟨c :: read, by rw [stop_cons]; exact (Cursor.reaches_cons position c rest).trans reach⟩

/-- A delimited comment after its opening slash; the star follows. -/
def delimitedComment : Scanner Token := do
  let _ ← next?
  let text ← (fun cursor => delimitedText cursor.position cursor.rest : Scanner (List Char))
  return .comment (.delimited (String.ofList text))

theorem forward_delimitedComment : Forward delimitedComment := by
  refine forward_next?.bind fun _ => Forward.bind ?_ fun _ => .pure _
  exact fun cursor => reaches_delimitedText cursor.position cursor.rest

/-- Whether `c` ends a line: a line feed, a carriage return or a vertical tab. -/
def endsLine (c : Char) : Bool := c == '\x0b' || c == '\r' || c == '\n'

/-- A comment up to the end of its line after the first dash; the second dash follows. The character
that ends the line is read too. -/
def lineComment : Scanner Token := do
  let _ ← next?
  let text ← (fun cursor =>
    .ok (cursor.rest.takeWhile fun c => !endsLine c) (cursor.skipUntil endsLine) : Scanner (List Char))
  let _ ← next?
  return .comment (.line (String.ofList text))

theorem forward_lineComment : Forward lineComment := by
  refine forward_next?.bind fun _ => Forward.bind ?_ fun _ => forward_next?.bind fun _ => .pure _
  exact fun cursor => ⟨_, Cursor.reaches_skipUntil cursor endsLine⟩

/-- The delimiter that `text` spells, which must be one. -/
def delimiterOf (text : List Char) : Scanner Token := do
  return .delimiter (← demand (Delimiter.ofText? (String.ofList text)) (.delimiterText (String.ofList text)))

theorem forward_delimiterOf (text : List Char) : Forward (delimiterOf text) :=
  (Forward.demand _ _).bind fun _ => .pure _

/-- Whether `text` is a delimiter or the beginning of one that has no shorter form. -/
def extendsDelimiter (text : List Char) : Bool :=
  (Delimiter.ofText? (String.ofList text)).isSome || text == ['?', '/']

/-- The longest delimiter that begins with `first`. -/
def delimiter (first : Char) : Scanner Token := do
  match ← accept? (fun second => extendsDelimiter [first, second]) with
  | none => delimiterOf [first]
  | some second =>
      let complete := fun third => (Delimiter.ofText? (String.ofList [first, second, third])).isSome
      match ← accept? complete with
      | none => delimiterOf [first, second]
      | some third => delimiterOf [first, second, third]

theorem forward_delimiter (first : Char) : Forward (delimiter first) := by
  refine (forward_accept? _).bind fun read => ?_
  cases read with
  | none => exact forward_delimiterOf _
  | some second =>
    refine (forward_accept? _).bind fun read => ?_
    cases read with
    | none => exact forward_delimiterOf _
    | some third => exact forward_delimiterOf _

/-- The token that begins with `first`. After a name or a closing parenthesis `ticks` is set, and a
single quote is then an attribute tick and no character literal. -/
def token (ticks : Bool) (first : Char) : Scanner Token := do
  if Latin.isLetter first then word first
  else if first == '\\' then extendedIdentifier
  else if first == '\x22' then string
  else if first == '\x27' && !ticks then character
  else if Latin.isDigit first then numeric first
  else
    let next ← peek?
    if first == '-' && next == some '-' then lineComment
    else if first == '/' && next == some '*' then delimitedComment
    else delimiter first

theorem forward_token (ticks : Bool) (first : Char) : Forward (token ticks first) :=
  .ite (forward_word _) (.ite forward_extendedIdentifier (.ite forward_string
    (.ite forward_character (.ite (forward_numeric _) (forward_peek?.bind fun _ =>
      .ite forward_lineComment (.ite forward_delimitedComment (forward_delimiter _)))))))

end VhdlOrder.Scanner
