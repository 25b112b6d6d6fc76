import VhdlOrder.Design.SimpleDeclaration
import VhdlOrder.Name.Pragma
import VhdlOrder.Stepwise.Bounds

/-! # Reading tokens place by place

A statement, the header of a subprogram and the element of an interface list are at hand as lists of tokens. Here
they are read by the places in them: a loop goes from place to place, looks at the neighbours of a token, and cuts
pieces out of the list. The parentheses that are open are counted up and down. The text of a pragma is cut into
pieces in the same way.
-/

namespace VhdlOrder.Stepwise

/-- What stands before the first token that is `token`, and what stands behind it; nothing if there is no such
token. -/
def cut? (token : Token) (tokens : List PlacedToken) : Option (Option (List PlacedToken × List PlacedToken)) :=
  match tokens.findIdx? fun other => other.value == token with
  | none => some none
  | some place => do
      let before ← slice? tokens 0 place
      let behind ← slice? tokens (place + 1) tokens.length
      return some (before, behind)

/-! ## References -/

/-- Takes the identifier behind the point that stands at a place. -/
def chainRound (tokens : List PlacedToken) :
    Nat × List Identifier → Option (Round (Nat × List Identifier) (Nat × List Identifier))
  | (place, parts) =>
      if place + 1 < tokens.length then do
        let dot ← tokens[place]?
        if dot.value.isDelimiter .dot then
          let next ← tokens[place + 1]?
          match next.value with
          | .identifier name => return .again (place + 2, parts ++ [name])
          | _ => return .done (place, parts)
        else return .done (place, parts)
      else return .done (place, parts)

/-- Whether a point or a tick stands before a place. -/
def isSelected? (tokens : List PlacedToken) (place : Nat) : Option Bool :=
  if 0 < place then do
    let before ← tokens[← subtract? place 1]?
    return References.selects before.value
  else return false

/-- Goes on behind the token at a place, or behind the reference that begins there. -/
def collectRound (tokens : List PlacedToken) :
    Nat × List Reference → Option (Round (Nat × List Reference) (List Reference))
  | (place, found) =>
      if place < tokens.length then do
        let token ← tokens[place]?
        match token.value with
        | .identifier name =>
            let selected ← isSelected? tokens place
            let (behind, parts) ← loop (chainRound tokens) (tokens.length + 1) (place + 1, [])
            let formal := tokens[behind]?.any fun next => next.value.isDelimiter .arrow
            if selected || formal then return .again (behind, found)
            else return .again (behind, found ++ [⟨⟨name, parts⟩, token.position⟩])
        | _ => return .again (place + 1, found)
      else return .done found

/-- The references in `tokens`, in order. -/
def collect? (tokens : List PlacedToken) : Option (List Reference) :=
  loop (collectRound tokens) (tokens.length + 1) (0, [])

/-- The leading identifiers of the references in `tokens`, each of them once. -/
def mentions? (tokens : List PlacedToken) : Option (List Identifier) := do
  let references ← collect? tokens
  let leading ← references.mapM fun reference => reference.name.parts[0]?
  return References.distinct leading

/-! ## Statements -/

/-- The declarations of an object statement that begins at `position` with the word `word`. -/
def objects? (position : Position) (word : Keyword) (tokens : List PlacedToken) :
    Option (Except SyntaxFault (List Declaration)) := do
  match ← cut? (.delimiter .colon) tokens with
  | none => return .error (.expecting position .objectColon (some (.delimiter .semicolon)))
  | some (before, behind) =>
      let kind := SimpleDeclaration.objectKind word
        (behind.any fun token => token.value.isDelimiter .variableAssign)
      let references ← collect? behind
      match Interface.identifiers before with
      | [] => return .error (.expecting position .identifier (some (.delimiter .colon)))
      | names => return .ok (names.map fun name => .withReferences name kind references)

/-- The references in the value of an attribute specification. -/
def attributeValue? (specification : List PlacedToken) : Option (List Reference) := do
  match ← cut? (.keyword .is) specification with
  | none => return []
  | some (_, behind) => collect? behind

/-- The references in an element of a record, which begin at its colon. -/
def recordElement? (tokens : List PlacedToken) : Option (List Reference) := do
  let colon := (tokens.findIdx? fun token => token.value.isDelimiter .colon).getD tokens.length
  collect? (← slice? tokens colon tokens.length)

/-! ## Interface lists -/

/-- The declarations of an element that begins with `first` and declares objects, which stand before its colon. -/
def objectElement? (first : PlacedToken) (tokens : List PlacedToken) :
    Option (Except SyntaxFault (List Declaration)) := do
  match ← cut? (.delimiter .colon) tokens with
  | none => return .error (.expecting first.position .interfaceColon (some first.value))
  | some (before, behind) =>
      let references ← collect? behind
      return .ok ((Interface.identifiers before).map fun name => .withReferences name .interface references)

/-- The declarations of one element of an interface list. -/
def element? (tokens : List PlacedToken) : Option (Except SyntaxFault (List Declaration)) :=
  match tokens with
  | [] => some (.ok [])
  | first :: _ =>
      match first.value with
      | .keyword .type | .keyword .function | .keyword .procedure => some (Interface.named first tokens[1]? [])
      | .keyword .pure | .keyword .impure => some (Interface.named first tokens[2]? [])
      | .keyword .package => do
          let target ← match ← cut? (.keyword .new) tokens with
            | none => some []
            | some (_, behind) => collect? behind
          return Interface.named first tokens[1]? (target.take 1)
      | _ => objectElement? first tokens

/-- Takes the elements of an interface list through its closing parenthesis; `depth` inner parentheses are open,
and `current` holds the tokens of the element at hand, the last one first. -/
def listFrom? (depth : Nat) (current : List PlacedToken) :
    List PlacedToken → Option (EStateM.Result SyntaxFault (List PlacedToken) (List Declaration))
  | [] => some (.error (.unexpectedEnd .start (.delimiter .rightParen)) [])
  | token :: rest =>
      if token.value = .endOfFile then
        some (.error (.unexpectedEnd token.position (.delimiter .rightParen)) (token :: rest))
      else if depth = 0 && token.value = .delimiter .rightParen then do
        match ← element? current.reverse with
        | .ok declarations => return .ok declarations rest
        | .error fault => return .error fault rest
      else if depth = 0 && token.value = .delimiter .semicolon then do
        match ← element? current.reverse with
        | .error fault => return .error fault rest
        | .ok declarations =>
            match ← listFrom? 0 [] rest with
            | .ok more rest => return .ok (declarations ++ more) rest
            | .error fault rest => return .error fault rest
      else if token.value = .delimiter .leftParen then listFrom? (depth + 1) (token :: current) rest
      else if token.value = .delimiter .rightParen then do
        let depth ← subtract? depth 1
        listFrom? depth (token :: current) rest
      else listFrom? depth (token :: current) rest

/-- A place between the parentheses of a subprogram header: how many inner ones are open there, where the element
at hand begins, and what the elements before it declare. -/
structure ParameterPlace where
  place : Nat
  depth : Nat
  first : Nat
  found : List Declaration

/-- Goes on behind the token at a place between the parentheses of a subprogram header. -/
def parameterRound (header : List PlacedToken) (state : ParameterPlace) :
    Option (Round ParameterPlace (Except SyntaxFault ParameterPlace)) :=
  let ⟨place, depth, first, found⟩ := state
  if place < header.length then do
    let token ← header[place]?
    if token.value = .delimiter .leftParen then return .again ⟨place + 1, depth + 1, first, found⟩
    else if token.value = .delimiter .rightParen then
      if depth = 0 then return .done (.ok state)
      else return .again ⟨place + 1, ← subtract? depth 1, first, found⟩
    else if depth = 0 && token.value = .delimiter .semicolon then
      match ← element? (← slice? header first place) with
      | .error fault => return .done (.error fault)
      | .ok more => return .again ⟨place + 1, depth, place + 1, found ++ more⟩
    else return .again ⟨place + 1, depth, first, found⟩
  else return .done (.ok state)

/-- The parameters between the parenthesis that opens before the place `first` and the one that closes it, and the
place behind that one. -/
def parameters? (header : List PlacedToken) (first : Nat) :
    Option (Except SyntaxFault (List Declaration × Nat)) := do
  match ← loop (parameterRound header) (header.length + 1) ⟨first, 0, first, []⟩ with
  | .error fault => return .error fault
  | .ok ⟨place, _, first, found⟩ =>
      match ← element? (← slice? header first (min place header.length)) with
      | .error fault => return .error fault
      | .ok more => return .ok (found ++ more, place + 1)

/-- Goes on behind the token at a place of a subprogram header, or behind the parameters that begin there. -/
def headerRound (header : List PlacedToken) : Nat × List Declaration →
    Option (Round (Nat × List Declaration) (Except SyntaxFault (List Declaration × List Reference)))
  | (place, parameters) =>
      if place < header.length then do
        let token ← header[place]?
        if token.value = .delimiter .leftParen then
          match ← parameters? header (place + 1) with
          | .error fault => return .done (.error fault)
          | .ok (more, behind) => return .again (behind, parameters ++ more)
        else if token.value = .keyword .return then
          let result ← collect? (← slice? header (place + 1) header.length)
          return .done (.ok (parameters, result))
        else return .again (place + 1, parameters)
      else return .done (.ok (parameters, []))

/-- The parameters and the references of a subprogram header. -/
def header? (header : List PlacedToken) : Option (Except SyntaxFault (List Declaration × List Reference)) := do
  match ← loop (headerRound header) (header.length + 1) (0, []) with
  | .error fault => return .error fault
  | .ok (parameters, result) => return .ok (parameters, result ++ Declaration.allReferences parameters)

/-! ## Pragmas -/

/-- Splits a text before its first character that satisfies `stops`. -/
def splitBefore? (stops : Char → Bool) (text : List Char) : Option (List Char × List Char) := do
  let place := (text.findIdx? stops).getD text.length
  return (← slice? text 0 place, ← slice? text place text.length)

/-- The design unit named by the text after the directive word `word`. -/
def target? (word : String) (text : List Char) : Option (Except PragmaFault SelectedName) :=
  if text.head?.any fun c => !Latin.isSeparator c then some (.error (.blankMissing word (String.ofList text)))
  else
    let name := Text.strip Latin.isSeparator text
    if name.isEmpty then some (.error (.nameMissing word))
    else
      match name.findIdx? Latin.isSeparator with
      | some place => do
          let extra ← slice? name place name.length
          return .error (.textAfterName (String.ofList (Text.trim extra)))
      | none =>
          match SelectedName.readList name with
          | .ok target => some (.ok target)
          | .error fault => some (.error (.nameMalformed (String.ofList name) fault))

/-- Reads the text of a comment placed at `position`. -/
def pragma? (text : String) (position : Position) (directive : String) :
    Option (Except PragmaFault (Option Pragma)) :=
  match text.toList.dropWhile Latin.isSeparator with
  | [] => some (.ok none)
  | mark :: rest =>
      if mark = '@' then do
        let (letters, rest) ←
          splitBefore? (fun c => !Pragma.isDirectiveCharacter c) (rest.dropWhile Latin.isSeparator)
        let word := String.ofList letters
        if word.isEmpty then return .error (.directiveMissing (String.ofList (Text.trim rest)))
        else if Text.equalIgnoringAsciiCase word directive then
          match ← target? word rest with
          | .ok target => return .ok (some ⟨word, some target, position⟩)
          | .error fault => return .error fault
        else return .ok (some ⟨word, none, position⟩)
      else some (.ok none)

/-- The pragmas in the comments of one line among `tokens`, in order, each with its place. -/
def pragmas? (tokens : List PlacedToken) (directive : String) :
    Option (List (Located (Except PragmaFault Pragma))) :=
  filterMap? (fun token =>
    match token.value with
    | .comment (.line text) => do
        match ← pragma? text token.position directive with
        | .ok (some pragma) => return some ⟨token.position, .ok pragma⟩
        | .ok none => return none
        | .error fault => return some ⟨token.position, .error fault⟩
    | _ => some none) tokens

end VhdlOrder.Stepwise
