/-! # Delimiters

The delimiters of the language, of one, two or three characters each.
-/

namespace VhdlOrder

/-- A delimiter. -/
inductive Delimiter where
  | ampersand | tick | leftParen | rightParen | star | plus | comma | dash | dot | slash | colon
  | semicolon | less | equal | greater | graveAccent | bar | leftBracket | rightBracket
  | question | atSign | arrow | doubleStar | variableAssign | notEqual | greaterEqual
  | signalAssign | box | signalAssociate | condition | matchEqual | matchNotEqual | matchLess
  | matchLessEqual | matchGreater | matchGreaterEqual | doubleLess | doubleGreater
deriving DecidableEq, Inhabited

namespace Delimiter

/-- Every delimiter, the short ones first. -/
def all : List Delimiter :=
  [.ampersand, .tick, .leftParen, .rightParen, .star, .plus, .comma, .dash, .dot, .slash, .colon,
   .semicolon, .less, .equal, .greater, .graveAccent, .bar, .leftBracket, .rightBracket,
   .question, .atSign, .arrow, .doubleStar, .variableAssign, .notEqual, .greaterEqual,
   .signalAssign, .box, .signalAssociate, .condition, .matchEqual, .matchNotEqual, .matchLess,
   .matchLessEqual, .matchGreater, .matchGreaterEqual, .doubleLess, .doubleGreater]

/-- The characters that the delimiter is written with. -/
def spelling : Delimiter → String
  | .ampersand => "&"
  | .tick => "'"
  | .leftParen => "("
  | .rightParen => ")"
  | .star => "*"
  | .plus => "+"
  | .comma => ","
  | .dash => "-"
  | .dot => "."
  | .slash => "/"
  | .colon => ":"
  | .semicolon => ";"
  | .less => "<"
  | .equal => "="
  | .greater => ">"
  | .graveAccent => "`"
  | .bar => "|"
  | .leftBracket => "["
  | .rightBracket => "]"
  | .question => "?"
  | .atSign => "@"
  | .arrow => "=>"
  | .doubleStar => "**"
  | .variableAssign => ":="
  | .notEqual => "/="
  | .greaterEqual => ">="
  | .signalAssign => "<="
  | .box => "<>"
  | .signalAssociate => "<=>"
  | .condition => "??"
  | .matchEqual => "?="
  | .matchNotEqual => "?/="
  | .matchLess => "?<"
  | .matchLessEqual => "?<="
  | .matchGreater => "?>"
  | .matchGreaterEqual => "?>="
  | .doubleLess => "<<"
  | .doubleGreater => ">>"

/-- The delimiter that `text` spells; the exclamation mark is another spelling of the bar. -/
def ofText? (text : String) : Option Delimiter :=
  if text == "!" then some .bar else all.find? fun delimiter => delimiter.spelling == text

end Delimiter

end VhdlOrder
