/-! # Blanks and lines

The white space of Unicode, and texts without the white space around them; and the lines at the beginning
of some bytes, as far as they are text. A line ends with a line feed, and a carriage return in front of it
belongs to the end.
-/

namespace VhdlOrder.Text

/-! ## Blanks -/

/-- White space: blanks, tabs, ends of lines and the typographic spaces. -/
def isBlank (c : Char) : Bool :=
  ('\t' ≤ c && c ≤ '\r')
    || ('\u2000' ≤ c && c ≤ '\u200a')
    || [' ', '\u0085', '\u00a0', '\u1680', '\u2028', '\u2029', '\u202f', '\u205f', '\u3000'].contains c

/-- A text without the characters at its two ends that satisfy `drops`. -/
def strip (drops : Char → Bool) (text : List Char) : List Char :=
  ((text.dropWhile drops).reverse.dropWhile drops).reverse

/-- A text without the white space at its two ends. -/
def trim (text : List Char) : List Char := strip isBlank text

/-! ## Lines -/

/-- The bytes of each line without its end; behind the last line feed there is a line only if there are
bytes. -/
def byteLines : List (List UInt8) → List (List UInt8)
  | [] => []
  | [last] => if last.isEmpty then [] else [last]
  | line :: rest =>
      (if line.getLast? == some 13 then line.dropLast else line) :: byteLines rest

/-- The texts of some bytes each, up to the first ones that are no text. -/
def textsOf : List (List UInt8) → List String
  | [] => []
  | bytes :: rest =>
      match String.fromUTF8? ⟨bytes.toArray⟩ with
      | some text => text :: textsOf rest
      | none => []

/-- The lines of a file up to the first one that is no text. -/
def lines (bytes : ByteArray) : List String := textsOf (byteLines (bytes.toList.splitOn 10))

end VhdlOrder.Text
