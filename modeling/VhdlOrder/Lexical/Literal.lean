import VhdlOrder.Lexical.Scanner
import VhdlOrder.Lexical.Token

/-! # Numeric and bit string literals

A literal that begins with a digit is a decimal literal `12.5E3`, a based literal `16#F.F#E2` or a bit
string literal with its width in front, `8X"FF"`. The text of a literal is kept as it is written.
-/

namespace VhdlOrder

/-- What a bit string literal is written in: the base and how it is extended to its width. -/
inductive BaseSpecifier where
  | b | o | x | ub | uo | ux | sb | so | sx | d
deriving DecidableEq

namespace BaseSpecifier

/-- Every base specifier. -/
def all : List BaseSpecifier := [.b, .o, .x, .ub, .uo, .ux, .sb, .so, .sx, .d]

/-- The specifier in capital letters. -/
def spelling : BaseSpecifier → String
  | .b => "B"
  | .o => "O"
  | .x => "X"
  | .ub => "UB"
  | .uo => "UO"
  | .ux => "UX"
  | .sb => "SB"
  | .so => "SO"
  | .sx => "SX"
  | .d => "D"

/-- The specifier that `text` spells, whatever the case of its letters. -/
def ofText? (text : String) : Option BaseSpecifier :=
  let capital := text.map Char.toUpper
  all.find? fun specifier => specifier.spelling == capital

end BaseSpecifier

/-- The value of a decimal numeral, whose underlines do not count; it must be below 2^64. A plus sign
may stand in front. -/
def integerValue? (text : List Char) : Option Nat :=
  let written := text.filter (· != '_')
  let digits := if written.head? = some '+' then written.tail else written
  let value := digits.foldl (fun value c => 10 * value + (c.toNat - '0'.toNat)) 0
  if !digits.isEmpty && digits.all Latin.isDigit && value < UInt64.size then some value else none

namespace Scanner

variable {α : Type}

/-- Answers the value if there is one and reports `fault` if not. -/
def demand (value : Option α) (fault : LexicalFault) : Scanner α :=
  match value with
  | some value => pure value
  | none => throw fault

theorem Forward.demand (value : Option α) (fault : LexicalFault) : Forward (demand value fault) := by
  cases value with
  | none => exact .throw fault
  | some value => exact .pure value

/-- Reports `fault` if `text` is empty and answers it otherwise. -/
def nonempty (text : List Char) (fault : LexicalFault) : Scanner (List Char) :=
  if text.isEmpty then throw fault else pure text

theorem Forward.nonempty (text : List Char) (fault : LexicalFault) :
    Forward (nonempty text fault) :=
  .ite (.throw fault) (.pure text)

/-- The rest of an exponent after its letter: an optional sign and an integer. -/
def exponentDigits : Scanner (List Char) := do
  match ← next? with
  | none => throw .exponentMissing
  | some c =>
      if Latin.isDigit c then return c :: (← pattern Latin.isDigit true)
      else if c == '+' || c == '-' then
        return c :: (← nonempty (← pattern Latin.isDigit false) .exponentDigits)
      else throw .exponentStart

theorem forward_exponentDigits : Forward exponentDigits := by
  refine forward_next?.bind fun read => ?_
  cases read with
  | none => exact .throw _
  | some c =>
    exact .ite ((forward_pattern _ _).bind fun _ => .pure _)
      (.ite ((forward_pattern _ _).bind fun _ => (Forward.nonempty _ _).bind fun _ => .pure _)
        (.throw _))

/-- An exponent, if one follows. -/
def exponent : Scanner (List Char) := do
  match ← accept? (fun c => c == 'e' || c == 'E') with
  | none => return []
  | some c => return c :: (← exponentDigits)

theorem forward_exponent : Forward exponent := by
  refine (forward_accept? _).bind fun read => ?_
  cases read with
  | none => exact .pure _
  | some c => exact forward_exponentDigits.bind fun _ => .pure _

/-- A point and the digits after it, which must be there, if a point follows. -/
def fraction (accepts : Char → Bool) (fault : LexicalFault) : Scanner (List Char) := do
  if ← accept '.' then return '.' :: (← nonempty (← pattern accepts false) fault)
  else return []

theorem forward_fraction (accepts : Char → Bool) (fault : LexicalFault) :
    Forward (fraction accepts fault) :=
  (forward_accept _).bind fun _ =>
    .ite ((forward_pattern _ _).bind fun _ => (Forward.nonempty _ _).bind fun _ => .pure _) (.pure _)

/-- The digits of a based literal and its closing character, after the opening one. -/
def basedDigits (base : Nat) (delimiter : Char) : Scanner (List Char) := do
  let whole ← nonempty (← pattern (Latin.isBaseDigit base) false) (.basedDigitMissing base delimiter)
  let part ← fraction (Latin.isBaseDigit base) .basedFractionMissing
  match ← next? with
  | none => throw (.closingMissing delimiter)
  | some c =>
      if c == delimiter then return whole ++ part ++ [c]
      else throw (.closingMismatch delimiter c)

theorem forward_basedDigits (base : Nat) (delimiter : Char) : Forward (basedDigits base delimiter) := by
  refine (forward_pattern _ _).bind fun _ => (Forward.nonempty _ _).bind fun _ =>
    (forward_fraction _ _).bind fun _ => forward_next?.bind fun read => ?_
  cases read with
  | none => exact .throw _
  | some c => exact .ite (.pure _) (.throw _)

/-- The rest of a bit string literal after its opening quote; `lead` is what comes before. -/
def bitString (lead : List Char) : Scanner Token := do
  let value ← pattern Latin.isGraphicNotQuote false
  if ← accept '\x22' then return .bitString (String.ofList (lead ++ value ++ ['\x22']))
  else throw .bitStringClosing

theorem forward_bitString (lead : List Char) : Forward (bitString lead) :=
  (forward_pattern _ _).bind fun _ => (forward_accept _).bind fun _ => .ite (.pure _) (.throw _)

/-- A decimal literal whose integer part is `number`; a point follows. -/
def decimalFraction (number : List Char) : Scanner Token := do
  let part ← fraction Latin.isDigit .trailingPoint
  return .decimal (String.ofList (number ++ part ++ (← exponent)))

/-- A based literal with the base written as `number`; the character `delimiter` follows. -/
def basedLiteral (number : List Char) (delimiter : Char) : Scanner Token := do
  let base ← demand (integerValue? number) (.integerText (String.ofList number))
  if base < 2 || 16 < base then throw .baseOutOfRange
  else
    let _ ← next?
    let digits ← basedDigits base delimiter
    return .based (String.ofList (number ++ delimiter :: digits ++ (← exponent)))

/-- A bit string literal whose width is `number`; the base specifier follows. -/
def sizedBitString (number : List Char) : Scanner Token := do
  let specifier ← pattern Latin.isLetter false
  let _ ← demand (BaseSpecifier.ofText? (String.ofList specifier))
    (.baseSpecifier (String.ofList specifier))
  if ← accept '\x22' then bitString (number ++ specifier ++ ['\x22'])
  else throw .bitStringOpening

/-- A literal whose first character `first` has been read. -/
def numeric (first : Char) : Scanner Token := do
  let number := first :: (← pattern Latin.isDigit true)
  match ← peek? with
  | none => return .decimal (String.ofList number)
  | some c =>
      if c == '.' then decimalFraction number
      else if c == '#' || c == ':' then basedLiteral number c
      else if c != 'e' && c != 'E' && Latin.isLetter c then sizedBitString number
      else return .decimal (String.ofList (number ++ (← exponent)))

theorem forward_decimalFraction (number : List Char) : Forward (decimalFraction number) :=
  (forward_fraction _ _).bind fun _ => forward_exponent.bind fun _ => .pure _

theorem forward_basedLiteral (number : List Char) (delimiter : Char) :
    Forward (basedLiteral number delimiter) :=
  (Forward.demand _ _).bind fun _ => .ite (.throw _)
    (forward_next?.bind fun _ => (forward_basedDigits _ _).bind fun _ =>
      forward_exponent.bind fun _ => .pure _)

theorem forward_sizedBitString (number : List Char) : Forward (sizedBitString number) :=
  (forward_pattern _ _).bind fun _ => (Forward.demand _ _).bind fun _ =>
    (forward_accept _).bind fun _ => .ite (forward_bitString _) (.throw _)

theorem forward_numeric (first : Char) : Forward (numeric first) := by
  refine (forward_pattern _ _).bind fun _ => forward_peek?.bind fun read => ?_
  cases read with
  | none => exact .pure _
  | some c =>
    exact .ite (forward_decimalFraction _) (.ite (forward_basedLiteral _ _)
      (.ite (forward_sizedBitString _) (forward_exponent.bind fun _ => .pure _)))

end Scanner

end VhdlOrder
