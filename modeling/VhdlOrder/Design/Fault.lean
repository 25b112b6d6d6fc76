import VhdlOrder.Lexical.Token

/-! # Faults of the grammar

Where the tokens of a source do not follow the grammar, the fault names the place, what was wanted
there and the token that was found. The end of the file is a fault of its own, and so is an ending
that repeats another name than the one at the beginning.
-/

namespace VhdlOrder

/-- What the grammar wants at a place. -/
inductive Expectation where
  | keyword (word : Keyword)
  | delimiter (mark : Delimiter)
  | identifier
  | designUnit
  | contextItem
  | enumerationLiteral
  | objectColon
  | interfaceColon
  | interfaceName
  | designator
  | aliasDesignator
  | subprogramKind
  | subprogramDesignator
  | componentItem
  | componentEnd
deriving DecidableEq

/-- A token between quotes, as messages show it. -/
def Token.quoted (token : Token) : String :=
  if token = .endOfFile then "end of file" else "'" ++ token.render ++ "'"

/-- The wording of what is wanted. -/
def Expectation.render : Expectation → String
  | .keyword word => "'" ++ word.spelling ++ "'"
  | .delimiter mark => "'" ++ mark.spelling ++ "'"
  | .identifier => "an identifier"
  | .designUnit => "a design unit"
  | .contextItem => "'library', 'use', 'context' or 'end'"
  | .enumerationLiteral => "an enumeration literal"
  | .objectColon => "':' in object declaration"
  | .interfaceColon => "':' in interface element"
  | .interfaceName => "an interface name"
  | .designator => "a designator"
  | .aliasDesignator => "an alias designator"
  | .subprogramKind => "'function' or 'procedure'"
  | .subprogramDesignator => "a subprogram designator"
  | .componentItem => "'generic', 'port' or 'end'"
  | .componentEnd => "'end component'"

/-- A place where the tokens do not follow the grammar; `found` is `none` where nothing is left of the
construct. -/
inductive SyntaxFault where
  | expecting (position : Position) (wanted : Expectation) (found : Option Token)
  | unexpectedEnd (position : Position) (wanted : Expectation)
  | endingMismatch (position : Position) (name ending : Identifier)
deriving DecidableEq

namespace SyntaxFault

/-- Where the fault is. -/
def position : SyntaxFault → Position
  | .expecting position _ _ => position
  | .unexpectedEnd position _ => position
  | .endingMismatch position _ _ => position

/-- Whether the file ends too early. -/
def isUnexpectedEnd : SyntaxFault → Bool
  | .unexpectedEnd _ _ => true
  | _ => false

/-- The wording of the fault, without its place. -/
def render : SyntaxFault → String
  | .expecting _ wanted found =>
      "expecting " ++ wanted.render ++ " but found " ++ (found.map Token.quoted).getD "nothing"
  | .unexpectedEnd _ wanted => "unexpected end of file while expecting " ++ wanted.render
  | .endingMismatch _ name ending =>
      "ending name '" ++ ending.render ++ "' does not match '" ++ name.render ++ "'"

end SyntaxFault

end VhdlOrder
