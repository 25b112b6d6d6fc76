/-! # Lexical faults

What can be wrong with the characters of a token, and how each fault is worded. A number literal is
read by its own rules, so most faults are about digits.
-/

namespace VhdlOrder

/-- A reason why characters do not form a token. -/
inductive LexicalFault where
  | trailingPoint
  | baseOutOfRange
  | basedDigitMissing (base : Nat) (delimiter : Char)
  | basedFractionMissing
  | digitBeforeUnderline
  | digitAfterUnderline
  | digitAtEnd
  | exponentStart
  | exponentMissing
  | exponentDigits
  | integerText (text : String)
  | baseSpecifier (text : String)
  | bitStringOpening
  | bitStringClosing
  | characterNotGraphic
  | emptyExtended
  | literalNotGraphic
  | literalUnclosed
  | commentUnclosed
  | delimiterText (text : String)
  | closingMissing (wanted : Char)
  | closingMismatch (wanted found : Char)
deriving DecidableEq

/-- The wording of the fault. -/
def LexicalFault.render : LexicalFault → String
  | .trailingPoint => "cannot have trailing decimal point"
  | .baseOutOfRange => "based literal must have base of at least 2 and at most 16"
  | .basedDigitMissing base delimiter =>
      "expecting a base " ++ toString base ++ " digit after '" ++ toString delimiter ++ "'"
  | .basedFractionMissing => "expecting an integer after the dot"
  | .digitBeforeUnderline => "expecting a digit before underline"
  | .digitAfterUnderline => "expecting a digit to follow underline"
  | .digitAtEnd => "expecting a digit"
  | .exponentStart => "expecting +, -, or a digit"
  | .exponentMissing => "expecting +, -, or digit but got nothing"
  | .exponentDigits => "expecting an integer exponent value but got nothing"
  | .integerText text => "invalid integer '" ++ text ++ "'"
  | .baseSpecifier text => "invalid base specifier '" ++ text ++ "'"
  | .bitStringOpening => "expecting opening quote character for bit string literal"
  | .bitStringClosing => "expecting closing double quote for bit string literal"
  | .characterNotGraphic => "char not graphic"
  | .emptyExtended => "extended identifier cannot be empty"
  | .literalNotGraphic => "invalid character in literal"
  | .literalUnclosed => "expecting closing delimiter"
  | .commentUnclosed => "missing closing delimiter */"
  | .delimiterText text => "invalid character " ++ text
  | .closingMissing wanted => "missing and empty " ++ toString wanted
  | .closingMismatch wanted found =>
      "expecting closing " ++ toString wanted ++ " but got " ++ toString found

end VhdlOrder
