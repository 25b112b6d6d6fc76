import VhdlOrder.Lexical.Identifier
import VhdlOrder.Lexical.Scanner

/-! # Reading an identifier

A text is an identifier if it is written as one in a source: a letter followed by letters and digits
with single underlines between them, or graphic characters between backslashes. Reserved words are
not told apart here.
-/

namespace VhdlOrder

/-- A reason why a text is no identifier. -/
inductive NameFault where
  | empty
  | invalidFirst (c : Char)
  | invalid (c : Char)
  | afterClosing (text : String)
  | unclosed
deriving DecidableEq

/-- The wording of the fault. -/
def NameFault.render : NameFault → String
  | .empty => "empty identifier"
  | .invalidFirst c => "first character must be letter but found '" ++ toString c ++ "'"
  | .invalid c => "invalid character '" ++ toString c ++ "' in identifier"
  | .afterClosing text =>
      "characters '" ++ text ++ "' found following closing extended backslash"
  | .unclosed => "extended identifier is missing closing backslash"

namespace Identifier

/-- The extended identifier whose opening backslash is followed by `text`. -/
def readExtended (text : List Char) : Except NameFault Identifier :=
  match Scanner.literal '\\' ⟨.start, text⟩ with
  | .error _ _ => .error .unclosed
  | .ok inner later =>
      if inner.isEmpty then .error .empty
      else if later.rest.isEmpty then .ok (.extended (String.ofList inner))
      else .error (.afterClosing (String.ofList later.rest))

/-- The basic identifier that begins with the letter `first` and goes on with `text`. -/
def readBasic (first : Char) (text : List Char) : Except NameFault Identifier :=
  match Scanner.pattern Latin.isLetterOrDigit true ⟨.start, text⟩ with
  | .error _ _ => .error (.invalid '_')
  | .ok more later =>
      match later.rest with
      | [] => .ok (.basic (String.ofList (first :: more)))
      | c :: _ => .error (.invalid c)

/-- The identifier that `text` is. -/
def readList : List Char → Except NameFault Identifier
  | [] => .error .empty
  | c :: rest =>
      if c = '\\' then readExtended rest
      else if Latin.isLetter c then readBasic c rest
      else .error (.invalidFirst c)

/-- The identifier that `text` is. -/
def read (text : String) : Except NameFault Identifier := readList text.toList

end Identifier

end VhdlOrder
