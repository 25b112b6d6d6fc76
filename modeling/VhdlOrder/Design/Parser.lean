import VhdlOrder.Design.Fault
import VhdlOrder.Name.SelectedName

/-! # Parsers

A parser takes tokens from the front of a list and answers a value or a fault; in both cases the
tokens that were not taken are left. Parsers look at most one token ahead. A construct that repeats or
contains itself is the fixed point of one round, `Parser.fix`, in which every further round takes at
least one token, so that the tokens themselves bound the number of rounds.
-/

namespace VhdlOrder

/-- Takes tokens from the front of a list and answers a value or a fault. -/
abbrev Parser := EStateM SyntaxFault (List PlacedToken)

namespace Parser

variable {α : Type}

/-- Takes the next token, which must not be the end of the file. -/
def next (wanted : Expectation) : Parser PlacedToken := fun tokens =>
  match tokens with
  | [] => .error (.unexpectedEnd .start wanted) []
  | token :: rest =>
      if token.value = .endOfFile then .error (.unexpectedEnd token.position wanted) tokens
      else .ok token rest

/-- The next token, which is not taken. -/
def peek? : Parser (Option Token) := fun tokens => .ok (tokens.head?.map Located.value) tokens

/-- Takes the next token if it is `token`; answers whether it is. -/
def accept (token : Token) : Parser Bool := fun tokens =>
  match tokens with
  | [] => .ok false []
  | first :: rest => if first.value = token then .ok true rest else .ok false tokens

/-- Takes the next token if it is the reserved word; answers whether it is. -/
def acceptKeyword (word : Keyword) : Parser Bool := accept (.keyword word)

/-- Takes the next token if it is the delimiter; answers whether it is. -/
def acceptDelimiter (mark : Delimiter) : Parser Bool := accept (.delimiter mark)

/-- The fault of finding `token` where something else was wanted. -/
def unexpected (token : PlacedToken) (wanted : Expectation) : Parser α :=
  throw (.expecting token.position wanted (some token.value))

/-- Takes the next token, which must be the reserved word. -/
def keyword (word : Keyword) : Parser Unit := do
  let token ← next (.keyword word)
  if token.value = .keyword word then pure () else unexpected token (.keyword word)

/-- Takes the next token, which must be the delimiter. -/
def delimiter (mark : Delimiter) : Parser Unit := do
  let token ← next (.delimiter mark)
  if token.value = .delimiter mark then pure () else unexpected token (.delimiter mark)

/-- Takes the next token, which must be an identifier. -/
def identifier : Parser (Located Identifier) := do
  let token ← next .identifier
  match token.value with
  | .identifier name => return ⟨token.position, name⟩
  | _ => unexpected token .identifier

/-- Answers the value or reports the fault; no token is taken. -/
def ofExcept : Except SyntaxFault α → Parser α
  | .ok value => pure value
  | .error fault => throw fault

/-- Runs `round`, whose argument stands for all further rounds, at most once for each token of `bound`
and once more. -/
def fixWithin (round : Parser α → Parser α) : List PlacedToken → Parser α
  | [] => round (throw (.unexpectedEnd .start (.keyword .end)))
  | _ :: bound => round (fixWithin round bound)

/-- Runs `round`, whose argument stands for all further rounds; a round takes at least one token before
it goes on to further ones. -/
def fix (round : Parser α → Parser α) : Parser α := fun tokens => fixWithin round tokens tokens

/-- Puts a token in front of the tokens that a parser answers. -/
def cons {β : Type} (token : PlacedToken) :
    EStateM.Result SyntaxFault (List PlacedToken) (List PlacedToken × β) →
      EStateM.Result SyntaxFault (List PlacedToken) (List PlacedToken × β)
  | .ok (taken, value) rest => .ok (token :: taken, value) rest
  | .error fault rest => .error fault rest

/-- How many parentheses are open after `token`; a closing one without an opening one does not count. -/
def parensAfter (depth : Nat) : Token → Nat
  | .delimiter .leftParen => depth + 1
  | .delimiter .rightParen => depth - 1
  | _ => depth

/-- Takes tokens up to the first one outside parentheses that satisfies `stops`, with `depth`
parentheses open at the beginning; answers the tokens before it and that token. -/
def untilWithin (stops : Token → Bool) (depth : Nat) :
    List PlacedToken →
      EStateM.Result SyntaxFault (List PlacedToken) (List PlacedToken × PlacedToken)
  | [] => .error (.unexpectedEnd .start (.delimiter .semicolon)) []
  | token :: rest =>
      if token.value = .endOfFile then
        .error (.unexpectedEnd token.position (.delimiter .semicolon)) (token :: rest)
      else if depth = 0 && stops token.value then .ok ([], token) rest
      else cons token (untilWithin stops (parensAfter depth token.value) rest)

/-- Takes tokens up to the first one outside parentheses that satisfies `stops`; answers the tokens
before it and that token. -/
def takeUntil (stops : Token → Bool) : Parser (List PlacedToken × PlacedToken) := untilWithin stops 0

/-- Takes the tokens of a statement and the semicolon that ends it; answers those before the
semicolon. -/
def statement : Parser (List PlacedToken) :=
  return (← takeUntil fun token => token.isDelimiter .semicolon).1

/-- The suffixes of a selected name, each after its point, and whether `.all` closes it. -/
def suffixes : Parser (List Identifier × Bool) := fix fun further => do
  if ← acceptDelimiter .dot then
    if ← acceptKeyword .all then return ([], true)
    else
      let name ← identifier
      let (names, closed) ← further
      return (name.value :: names, closed)
  else return ([], false)

/-- The selected name that begins with `first`, and whether `.all` closes it. -/
def selectedNameAfter (first : Identifier) : Parser (SelectedName × Bool) := do
  let (suffix, closed) ← suffixes
  return (⟨first, suffix⟩, closed)

/-- A selected name with its place, and whether `.all` closes it. -/
def selectedName : Parser (Reference × Bool) := do
  let first ← identifier
  let (name, closed) ← selectedNameAfter first.value
  return (⟨name, first.position⟩, closed)

/-- One or more constructs with commas between them, and a semicolon at the end. -/
def commaList (item : Parser α) : Parser (List α) := fix fun further => do
  let first ← item
  if ← acceptDelimiter .comma then return first :: (← further)
  else
    delimiter .semicolon
    return [first]

/-- Takes reserved words as long as they come in the order of `words`. -/
def acceptKeywords : List Keyword → Parser Unit
  | [] => pure ()
  | word :: words => do
      if ← acceptKeyword word then acceptKeywords words else pure ()

/-- The rest of an ending after the word `end`: the reserved words in order as far as they are there,
the name if it is repeated, and the semicolon. -/
def ending (words : List Keyword) (name : Identifier) : Parser Unit := do
  acceptKeywords words
  if (← peek?).any Token.isIdentifier then
    let last ← identifier
    if last.value.same name then delimiter .semicolon
    else throw (.endingMismatch last.position name last.value)
  else delimiter .semicolon

end Parser

end VhdlOrder
