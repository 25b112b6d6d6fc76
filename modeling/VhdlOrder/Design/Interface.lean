import VhdlOrder.Design.Declaration
import VhdlOrder.Design.Parser
import VhdlOrder.Design.References

/-! # Interface lists

The generics, ports and parameters between parentheses. Their elements are separated by semicolons
outside inner parentheses, and each element declares one name or several with a common type. An
interface list is read from a token stream by `Interface.parse` and from the header of a subprogram,
which is at hand as a whole, by `Interface.header`.
-/

namespace VhdlOrder.Interface

/-- The name that a designator is: an identifier, or an operator symbol or character literal with its
quotes. -/
def designator (token : PlacedToken) : Except SyntaxFault (Located Identifier) :=
  match token.value with
  | .identifier name => .ok ⟨token.position, name⟩
  | .string _ | .character _ => .ok ⟨token.position, .basic token.value.render⟩
  | _ => .error (.expecting token.position .designator (some token.value))

/-- The declaration of an element that declares the one name `token`; `first` is the first token of
the element. -/
def named (first : PlacedToken) (token : Option PlacedToken) (references : List Reference) :
    Except SyntaxFault (List Declaration) :=
  match token with
  | none => .error (.expecting first.position .interfaceName none)
  | some token =>
      match designator token with
      | .ok name => .ok [.withReferences name .interface references]
      | .error fault => .error fault

/-- The tokens behind the first one that is `token`; `none` if there is no such token. -/
def behind? (token : Token) (tokens : List PlacedToken) : Option (List PlacedToken) :=
  match tokens.dropWhile fun other => other.value != token with
  | [] => none
  | _ :: rest => some rest

/-- The tokens before the first one that is `token`. -/
def before (token : Token) (tokens : List PlacedToken) : List PlacedToken :=
  tokens.takeWhile fun other => other.value != token

/-- The identifiers among `tokens` with their places. -/
def identifiers (tokens : List PlacedToken) : List (Located Identifier) :=
  tokens.filterMap fun token => token.value.identifier?.map fun name => ⟨token.position, name⟩

/-- The declarations of one element. -/
def element (tokens : List PlacedToken) : Except SyntaxFault (List Declaration) :=
  match tokens with
  | [] => .ok []
  | first :: rest =>
      match first.value with
      | .keyword .type | .keyword .function | .keyword .procedure => named first rest[0]? []
      | .keyword .pure | .keyword .impure => named first rest[1]? []
      | .keyword .package =>
          let target := ((behind? (.keyword .new) rest).map References.collect).getD []
          named first rest[0]? (target.take 1)
      | _ =>
          match behind? (.delimiter .colon) tokens with
          | none => .error (.expecting first.position .interfaceColon (some first.value))
          | some subtypeIndication =>
              let references := References.collect subtypeIndication
              .ok ((identifiers (before (.delimiter .colon) tokens)).map fun name =>
                .withReferences name .interface references)

/-- The declarations of several elements; the first fault is reported. -/
def elements : List (List PlacedToken) → Except SyntaxFault (List Declaration)
  | [] => .ok []
  | tokens :: rest =>
      match element tokens with
      | .error fault => .error fault
      | .ok declarations =>
          match elements rest with
          | .error fault => .error fault
          | .ok more => .ok (declarations ++ more)

/-- Takes the elements of a list through its closing parenthesis; `depth` inner parentheses are open,
and `current` holds the tokens of the element at hand, the last one first. -/
def parseFrom (depth : Nat) (current : List PlacedToken) :
    List PlacedToken → EStateM.Result SyntaxFault (List PlacedToken) (List Declaration)
  | [] => .error (.unexpectedEnd .start (.delimiter .rightParen)) []
  | token :: rest =>
      if token.value = .endOfFile then
        .error (.unexpectedEnd token.position (.delimiter .rightParen)) (token :: rest)
      else if depth = 0 && token.value = .delimiter .rightParen then
        match element current.reverse with
        | .ok declarations => .ok declarations rest
        | .error fault => .error fault rest
      else if depth = 0 && token.value = .delimiter .semicolon then
        match element current.reverse with
        | .error fault => .error fault rest
        | .ok declarations =>
            match parseFrom 0 [] rest with
            | .ok more rest => .ok (declarations ++ more) rest
            | .error fault rest => .error fault rest
      else parseFrom (Parser.parensAfter depth token.value) (token :: current) rest

/-- An interface list with its parentheses. -/
def parse : Parser (List Declaration) := do
  Parser.delimiter .leftParen
  (parseFrom 0 [] : Parser (List Declaration))

/-- The elements up to the parenthesis that closes the list, or up to the end of the tokens, and the
tokens behind it; `depth` and `current` are as in `parseFrom`. -/
def split (depth : Nat) (current : List PlacedToken) :
    List PlacedToken → List (List PlacedToken) × List PlacedToken
  | [] => ([current.reverse], [])
  | token :: rest =>
      if depth = 0 && token.value = .delimiter .rightParen then ([current.reverse], rest)
      else if depth = 0 && token.value = .delimiter .semicolon then
        let (more, tail) := split 0 [] rest
        (current.reverse :: more, tail)
      else split (Parser.parensAfter depth token.value) (token :: current) rest

theorem length_split_le (depth : Nat) (current tokens : List PlacedToken) :
    (split depth current tokens).2.length ≤ tokens.length := by
  fun_induction split depth current tokens with
  | case1 => exact Nat.le_refl _
  | case2 => simp
  | case3 _ _ token rest _ _ more tail equation ih =>
    simp only [equation] at ih
    simp only [List.length_cons]
    omega
  | case4 _ _ token rest _ _ ih =>
    simp only [List.length_cons]
    omega

/-- The parameter elements in a subprogram header, and the tokens of its return type. -/
def headerParts : List PlacedToken → List (List PlacedToken) × List PlacedToken
  | [] => ([], [])
  | token :: rest =>
      if token.value = .delimiter .leftParen then
        let (more, result) := headerParts (split 0 [] rest).2
        ((split 0 [] rest).1 ++ more, result)
      else if token.value = .keyword .return then ([], rest)
      else headerParts rest
termination_by tokens => tokens.length
decreasing_by
  · have bound := length_split_le 0 [] rest
    simp only [List.length_cons]
    omega
  · simp

/-- The parameters and the references of a subprogram header, that is the tokens behind the
designator. The references of the return type come first. -/
def header (tokens : List PlacedToken) : Except SyntaxFault (List Declaration × List Reference) :=
  let (groups, result) := headerParts tokens
  match elements groups with
  | .error fault => .error fault
  | .ok parameters =>
      .ok (parameters, References.collect result ++ Declaration.allReferences parameters)

end VhdlOrder.Interface
